import RenetCross.L1Encoding.Base64
import RenetCross.L3Protocol.BootstrapCalls

/-!
# Secure sessions, from the issuer to the client

`src/session_security.rs`: the secure policy issues connect tokens, and the client
checks a response before it connects (`authentication`). Issuer and client state
their limits separately, and they differ in one place: the issuer bounds the
configured base URL, the client bounds the offer URL built from it.

The connect tokens of renetcode and the base64 engine are the parameter
`TokenLib`, with the documented behaviour the code relies on in
`TokenLib.Lawful`.
-/
namespace RenetCross.L3

/-- The fields of a renetcode connect token that are read here; `sealed` is the
rest (version, nonce, keys and private data). -/
structure ConnectToken where
  clientId : ClientId
  protocolId : UInt64
  createTimestamp : Nat
  expireTimestamp : Nat
  serverAddresses : List (Option SocketAddr)
  timeoutSeconds : Int
  sealed : Bytes
  deriving DecidableEq

/-- renetcode's connect tokens and the standard base64 engine. `generate` takes
the time, protocol id, lifetime in seconds, client id, timeout, addresses, user
data and private key; `read` also returns the reader's final position;
`decodeSlice` decodes into a buffer of the given size. -/
structure TokenLib where
  generate : Nat → UInt64 → Nat → ClientId → Int → List SocketAddr → Bytes → Bytes →
    Option ConnectToken
  write : ConnectToken → Option Bytes
  read : Bytes → Option (ConnectToken × Nat)
  encode : Bytes → Bytes
  decodeSlice : Bytes → Nat → Option Bytes

structure TokenLib.Lawful (lib : TokenLib) : Prop where
  /-- `generate` stores what it is given, and 31 free address slots -/
  generate : ∀ {now protocol lifetime client timeout addr data key token},
    lib.generate now protocol lifetime client timeout [addr] data key = some token →
      token.clientId = client ∧ token.protocolId = protocol ∧
      token.createTimestamp = Duration.asSecs now ∧
      token.expireTimestamp = Duration.asSecs now + lifetime ∧
      token.serverAddresses = some addr :: List.replicate 31 none ∧ token.timeoutSeconds = timeout
  read_write : ∀ {token bytes}, lib.write token = some bytes → lib.read bytes = some (token, bytes.length)
  decode_encode : ∀ {bytes size}, bytes.length ≤ size →
    lib.decodeSlice (lib.encode bytes) size = some bytes

/-- mirrors src/session_security.rs:260-269 -/
def encodeConnectToken (lib : TokenLib) (token : ConnectToken) : Except BootstrapAuthError Bytes :=
  match lib.write token with
  | none => .error .tokenGeneration
  | some bytes =>
    if bytes.length > MAX_CONNECT_TOKEN_BYTES then .error .tokenGeneration
    else .ok (lib.encode bytes)

/-- The host's verifier and the private key.
mirrors src/session_security.rs:176-180 -/
structure SecureSessionAuthPolicy where
  admitRequest : SessionCreateRequest → Nat → Except BootstrapAuthError SessionGrant
  privateKey : Bytes

namespace SecureSessionAuthPolicy

/-- The timeout `new` sets; nothing changes it.
mirrors src/session_security.rs:186 -/
def timeoutSeconds : Int := 15

/-- One connect token, for the address of one transport.
mirrors src/session_security.rs:215-228 -/
def token (lib : TokenLib) (s : SecureSessionAuthPolicy) (clientId : ClientId) (grant : SessionGrant)
    (userData : Bytes) (now : Nat) (addr : SocketAddr) : Except BootstrapAuthError Bytes :=
  match lib.generate now grant.protocolId (grant.expiresAt.toNat - Duration.asSecs now) clientId
      timeoutSeconds [addr] userData s.privateKey with
  | none => .error .tokenGeneration
  | some token => encodeConnectToken lib token

/-- `random` is the outcome of `generate_random_bytes::<32>`.
mirrors src/session_security.rs:197-243 -/
def issueSession (lib : TokenLib) (s : SecureSessionAuthPolicy) (random : Bytes) (clientId : ClientId)
    (request : SessionCreateRequest) (now : Nat) (config : BootstrapConfig) :
    Except BootstrapAuthError SessionIssuance := do
  request.validate
  let grant ← s.admitRequest request now
  grant.validate now
  if request.protocolId ≠ some grant.protocolId ∨ request.service ≠ grant.service ∨
      request.matchId ≠ grant.matchId ∨
      grant.expiresAt.toNat - Duration.asSecs now > Duration.asSecs config.sessionTtl then
    .error .invalidGrant
  else
    let userData ← grant.userData
    let udp ← s.token lib clientId grant userData now config.publicUdpAddr
    let webrtc ← s.token lib clientId grant userData now config.publicWebrtcAddr
    .ok
      { sessionToken := some (lib.encode random)
        security := some
          { protocolId := grant.protocolId
            service := grant.service
            matchId := grant.matchId
            expiresAt := grant.expiresAt
            udpConnectToken := udp
            webrtcConnectToken := webrtc }
        grant := some grant }

/-- mirrors src/session_security.rs:244-258 -/
def verifyIssuedOffer (clientId : ClientId) (token issued : Option Bytes) :
    Except BootstrapAuthError Unit :=
  match token, issued with
  | none, _ => .error (.missingToken clientId)
  | some _, none => .error (.invalidToken clientId)
  | some provided, some expected =>
    if provided = expected then .ok () else .error (.invalidToken clientId)

def toPolicy (lib : TokenLib) (s : SecureSessionAuthPolicy) (random : Bytes) : SessionAuthPolicy where
  issueSession := s.issueSession lib random
  verifyIssuedOffer clientId token issued _ := verifyIssuedOffer clientId token issued

end SecureSessionAuthPolicy

/-- mirrors src/session_security.rs:271-283 -/
inductive SessionSecurityError where
  | secureRequired
  | invalidResponse
  | invalidToken
  | bindingMismatch
  | expired
  deriving DecidableEq, Repr

inductive SessionTransport where
  | udp
  | webRtc
  deriving DecidableEq, Repr

inductive ClientAuthentication where
  | unsecure (protocolId : UInt64) (clientId : ClientId) (serverAddr : SocketAddr)
  | secure (connectToken : ConnectToken)

def SessionSecurity.connectToken (s : SessionSecurity) : SessionTransport → Bytes
  | .udp => s.udpConnectToken
  | .webRtc => s.webrtcConnectToken

def BootstrapConfig.publicAddr (c : BootstrapConfig) : SessionTransport → SocketAddr
  | .udp => c.publicUdpAddr
  | .webRtc => c.publicWebrtcAddr

namespace SessionCreateResponse

/-- The size limits of the client.
mirrors src/session_security.rs:305-311 -/
def tooLong (r : SessionCreateResponse) : Bool :=
  decide (r.udpAddr.length > 128) || decide (r.webrtcAddr.length > 128) ||
    decide (r.webrtcOfferUrl.length > 2048) ||
    r.sessionToken.any fun t => decide (t.length > MAX_SESSION_TOKEN_BYTES)

/-- The binding of a decoded token to the session.
mirrors src/session_security.rs:354-360 -/
def bound (r : SessionCreateResponse) (security : SessionSecurity) (protocolId : UInt64)
    (serverAddr : SocketAddr) (token : ConnectToken) : Prop :=
  token.clientId = r.clientId ∧ token.protocolId = protocolId ∧
    token.serverAddresses.head? = some (some serverAddr) ∧
    (token.serverAddresses.drop 1).any Option.isSome = false ∧
    token.expireTimestamp = security.expiresAt.toNat ∧ token.timeoutSeconds > 0

instance (r : SessionCreateResponse) (security : SessionSecurity) (protocolId : UInt64)
    (serverAddr : SocketAddr) (token : ConnectToken) :
    Decidable (r.bound security protocolId serverAddr token) :=
  inferInstanceAs (Decidable (_ ∧ _ ∧ _ ∧ _ ∧ _ ∧ _))

/-- The checks on a secure envelope.
mirrors src/session_security.rs:333-372 -/
def checkToken (lib : TokenLib) (r : SessionCreateResponse) (security : SessionSecurity)
    (protocolId : UInt64) (serverAddr : SocketAddr) (transport : SessionTransport) (now : Nat) :
    Except SessionSecurityError ClientAuthentication :=
  if security.service.isEmpty ∨ security.service.length > MAX_SERVICE_BYTES ∨
      security.matchId.isEmpty ∨ security.matchId.length > MAX_MATCH_BYTES then
    .error .invalidResponse
  else if (security.connectToken transport).length > MAX_ENCODED_CONNECT_TOKEN_BYTES then
    .error .invalidToken
  else
    match lib.decodeSlice (security.connectToken transport) MAX_CONNECT_TOKEN_BYTES with
    | none => .error .invalidToken
    | some bytes =>
      match lib.read bytes with
      | none => .error .invalidToken
      | some (token, position) =>
        if position ≠ bytes.length ∨ ¬ r.bound security protocolId serverAddr token then
          .error .bindingMismatch
        else if token.createTimestamp > Duration.asSecs now ∨
            token.expireTimestamp ≤ Duration.asSecs now ∨
            token.expireTimestamp ≤ token.createTimestamp then
          .error .expired
        else .ok (.secure token)

/-- mirrors src/session_security.rs:293-373 -/
def authentication (lib : TokenLib) (r : SessionCreateResponse) (protocolId : UInt64)
    (serverAddr : SocketAddr) (transport : SessionTransport) (now : Nat) (requireSecure : Bool)
    (request : SessionCreateRequest) : Except SessionSecurityError ClientAuthentication :=
  if request.validate ≠ .ok () then .error .invalidResponse
  else if r.tooLong then .error .invalidResponse
  else
    match r.security with
    | none =>
      if requireSecure || request.requestsAuthentication then .error .secureRequired
      else .ok (.unsecure protocolId r.clientId serverAddr)
    | some security =>
      if security.protocolId ≠ protocolId ∨ request.protocolId.any (fun p => p != protocolId) ∨
          (request.service ≠ [] ∧ request.service ≠ security.service) ∨
          (request.matchId ≠ [] ∧ request.matchId ≠ security.matchId) then
        .error .bindingMismatch
      else r.checkToken lib security protocolId serverAddr transport now

end SessionCreateResponse

/-! ## What the issuer hands out -/

/-- An encoded token as the issuer makes it: it decodes to a token with these
fields. -/
structure IssuedToken (lib : TokenLib) (encoded : Bytes) (clientId : ClientId) (grant : SessionGrant)
    (issuedAt : Nat) (addr : SocketAddr) (token : ConnectToken) (bytes : Bytes) : Prop where
  decode : lib.decodeSlice encoded MAX_CONNECT_TOKEN_BYTES = some bytes
  read : lib.read bytes = some (token, bytes.length)
  client : token.clientId = clientId
  protocol : token.protocolId = grant.protocolId
  created : token.createTimestamp = Duration.asSecs issuedAt
  expires : token.expireTimestamp = grant.expiresAt.toNat
  addresses : token.serverAddresses = some addr :: List.replicate 31 none
  timeout : token.timeoutSeconds = 15

theorem token_ok {lib : TokenLib} (hl : lib.Lawful) {s : SecureSessionAuthPolicy} {c : ClientId}
    {g : SessionGrant} {data : Bytes} {now : Nat} {addr : SocketAddr} {encoded : Bytes}
    (hlt : Duration.asSecs now < g.expiresAt.toNat)
    (h : s.token lib c g data now addr = .ok encoded) :
    ∃ token bytes, IssuedToken lib encoded c g now addr token bytes := by
  unfold SecureSessionAuthPolicy.token at h
  split at h
  · cases h
  · rename_i token hgen
    unfold encodeConnectToken at h
    split at h
    · cases h
    · rename_i bytes hw
      split at h
      · cases h
      · rename_i hlen
        cases h
        obtain ⟨h1, h2, h3, h4, h5, h6⟩ := hl.generate hgen
        exact ⟨token, bytes, hl.decode_encode (by omega), hl.read_write hw, h1, h2, h3,
          by rw [h4]; omega, h5, h6⟩

/-- What an issuance of the secure policy contains. -/
structure SecureIssuance (lib : TokenLib) (request : SessionCreateRequest) (config : BootstrapConfig)
    (c : ClientId) (now : Nat) (g : SessionGrant) (issued : SessionIssuance) (sec : SessionSecurity) :
    Prop where
  security : issued.security = some sec
  grant : issued.grant = some g
  protocol : sec.protocolId = g.protocolId
  service : sec.service = g.service
  matchId : sec.matchId = g.matchId
  expires : sec.expiresAt = g.expiresAt
  asked : request.protocolId = some g.protocolId
  askedService : request.service = g.service
  askedMatch : request.matchId = g.matchId
  valid : g.validate now = .ok ()
  tokens : ∀ transport, ∃ token bytes,
    IssuedToken lib (sec.connectToken transport) c g now (config.publicAddr transport) token bytes

theorem issueSession_ok {lib : TokenLib} (hl : lib.Lawful) {s : SecureSessionAuthPolicy}
    {random : Bytes} {c : ClientId} {request : SessionCreateRequest} {now : Nat}
    {config : BootstrapConfig} {issued : SessionIssuance} {g : SessionGrant}
    (hadm : s.admitRequest request now = .ok g)
    (h : s.issueSession lib random c request now config = .ok issued) :
    ∃ sec, SecureIssuance lib request config c now g issued sec := by
  unfold SecureSessionAuthPolicy.issueSession at h
  simp only [hadm, bind, Except.bind] at h
  split at h
  · cases h
  · cases hv : g.validate now with
    | error e => rw [hv] at h; cases h
    | ok _ =>
      rw [hv] at h
      simp only at h
      split at h
      · cases h
      · rename_i hb
        simp only [ne_eq, not_or, not_not] at hb
        cases hu : g.userData with
        | error e => rw [hu] at h; cases h
        | ok data =>
          rw [hu] at h
          simp only at h
          cases h1 : s.token lib c g data now config.publicUdpAddr with
          | error e => rw [h1] at h; cases h
          | ok udp =>
            rw [h1] at h
            simp only at h
            cases h2 : s.token lib c g data now config.publicWebrtcAddr with
            | error e => rw [h2] at h; cases h
            | ok webrtc =>
              rw [h2] at h
              cases h
              have hlt := g.validate_lt hv
              refine ⟨_, rfl, rfl, rfl, rfl, rfl, rfl, hb.1, hb.2.1, hb.2.2.1, hv, fun tr => ?_⟩
              cases tr with
              | udp => exact token_ok hl hlt h1
              | webRtc => exact token_ok hl hlt h2

/-! ## What the client makes of it -/

/-- The client's checks on an envelope whose token decodes: the binding, then the
validity period. -/
theorem checkToken_of_issued {lib : TokenLib} {r : SessionCreateResponse} {sec : SessionSecurity}
    {c : ClientId} {g : SessionGrant} {issuedAt : Nat} {configured : SocketAddr} {token : ConnectToken}
    {bytes : Bytes} {transport : SessionTransport}
    (ht : IssuedToken lib (sec.connectToken transport) c g issuedAt configured token bytes)
    (hsize : ¬ (sec.service.isEmpty ∨ sec.service.length > MAX_SERVICE_BYTES ∨
      sec.matchId.isEmpty ∨ sec.matchId.length > MAX_MATCH_BYTES))
    (hlen : ¬ (sec.connectToken transport).length > MAX_ENCODED_CONNECT_TOKEN_BYTES)
    (protocolId : UInt64) (serverAddr : SocketAddr) (now : Nat) :
    r.checkToken lib sec protocolId serverAddr transport now =
      if ¬ (c = r.clientId ∧ g.protocolId = protocolId ∧ configured = serverAddr ∧
          g.expiresAt = sec.expiresAt) then .error .bindingMismatch
      else if Duration.asSecs issuedAt > Duration.asSecs now ∨
          g.expiresAt.toNat ≤ Duration.asSecs now ∨ g.expiresAt.toNat ≤ Duration.asSecs issuedAt then
        .error .expired
      else .ok (.secure token) := by
  have hbound : r.bound sec protocolId serverAddr token ↔
      (c = r.clientId ∧ g.protocolId = protocolId ∧ configured = serverAddr ∧
        g.expiresAt = sec.expiresAt) := by
    simp [SessionCreateResponse.bound, ht.client, ht.protocol, ht.addresses, ht.expires, ht.timeout,
      UInt64.toNat_inj]
  unfold SessionCreateResponse.checkToken
  rw [if_neg hsize, if_neg hlen, ht.decode]
  simp only [ht.read, ne_eq, not_true_eq_false, false_or, hbound, ht.created, ht.expires]

/-- An accepted secure envelope decoded to a token bound to it. -/
theorem checkToken_ok {lib : TokenLib} {r : SessionCreateResponse} {sec : SessionSecurity}
    {protocolId : UInt64} {serverAddr : SocketAddr} {transport : SessionTransport} {now : Nat}
    {auth : ClientAuthentication}
    (h : r.checkToken lib sec protocolId serverAddr transport now = .ok auth) :
    ∃ bytes token position, lib.decodeSlice (sec.connectToken transport) MAX_CONNECT_TOKEN_BYTES =
        some bytes ∧ lib.read bytes = some (token, position) ∧
      r.bound sec protocolId serverAddr token := by
  unfold SessionCreateResponse.checkToken at h
  split at h
  · cases h
  · split at h
    · cases h
    · split at h
      · cases h
      · rename_i bytes hd
        split at h
        · cases h
        · rename_i token position hr
          split at h
          · cases h
          · rename_i hb
            simp only [not_or, not_not] at hb
            exact ⟨bytes, token, position, hd, hr, hb.2⟩

/-- With a secure envelope present, acceptance means the envelope's own checks
passed: there is no fallback. -/
theorem authentication_ok {lib : TokenLib} {r : SessionCreateResponse} {sec : SessionSecurity}
    (hsec : r.security = some sec) {protocolId : UInt64} {serverAddr : SocketAddr}
    {transport : SessionTransport} {now : Nat} {requireSecure : Bool} {request : SessionCreateRequest}
    {auth : ClientAuthentication}
    (h : r.authentication lib protocolId serverAddr transport now requireSecure request = .ok auth) :
    sec.protocolId = protocolId ∧
      r.checkToken lib sec protocolId serverAddr transport now = .ok auth := by
  unfold SessionCreateResponse.authentication at h
  simp only [hsec] at h
  split at h
  · cases h
  · split at h
    · cases h
    · split at h
      · cases h
      · rename_i hb
        simp only [ne_eq, not_or, not_not] at hb
        exact ⟨hb.1, h⟩

/-- The session can be used exactly as issued: for its protocol, at the public
address of the transport, from the second of issue until the grant expires. -/
def UsableAsIssued (lib : TokenLib) (config : BootstrapConfig) (request : SessionCreateRequest)
    (g : SessionGrant) (issuedAt : Nat) (r : SessionCreateResponse) : Prop :=
  ∀ protocolId serverAddr transport now requireSecure,
    (∃ token, r.authentication lib protocolId serverAddr transport now requireSecure request =
        .ok (.secure token)) ↔
      protocolId = g.protocolId ∧ serverAddr = config.publicAddr transport ∧
        Duration.asSecs issuedAt ≤ Duration.asSecs now ∧ Duration.asSecs now < g.expiresAt.toNat

/-- Any other client id, protocol id or expiry makes every check fail. -/
def Tamperproof (lib : TokenLib) (r : SessionCreateResponse) : Prop :=
  ∃ sec, r.security = some sec ∧
    ∀ protocolId serverAddr transport now requireSecure request,
      (∀ c, c ≠ r.clientId →
        ∃ e, ({ r with clientId := c } : SessionCreateResponse).authentication lib
          protocolId serverAddr transport now requireSecure request = .error e) ∧
      (∀ p, p ≠ sec.protocolId → ∃ e,
        ({ r with security := some { sec with protocolId := p } } : SessionCreateResponse).authentication
          lib protocolId serverAddr transport now requireSecure request = .error e) ∧
      (∀ t, t ≠ sec.expiresAt → ∃ e,
        ({ r with security := some { sec with expiresAt := t } } : SessionCreateResponse).authentication
          lib protocolId serverAddr transport now requireSecure request = .error e)

/-- A response whose envelope decodes to an issued token, while its own id,
protocol or expiry differ from the token's, is refused. -/
theorem refused {lib : TokenLib} {r : SessionCreateResponse} (sec : SessionSecurity)
    (hsec : r.security = some sec) {c : ClientId} {g : SessionGrant} {issuedAt : Nat}
    {configured : SocketAddr} {token : ConnectToken} {bytes : Bytes} {transport : SessionTransport}
    (ht : IssuedToken lib (sec.connectToken transport) c g issuedAt configured token bytes)
    (hne : c ≠ r.clientId ∨ g.protocolId ≠ sec.protocolId ∨ g.expiresAt ≠ sec.expiresAt)
    (protocolId : UInt64) (serverAddr : SocketAddr) (now : Nat) (requireSecure : Bool)
    (request : SessionCreateRequest) :
    ∃ e, r.authentication lib protocolId serverAddr transport now requireSecure request = .error e := by
  cases h : r.authentication lib protocolId serverAddr transport now requireSecure request with
  | error e => exact ⟨e, rfl⟩
  | ok auth =>
    obtain ⟨hp, hchk⟩ := authentication_ok hsec h
    obtain ⟨bytes', token', position, hd, hr, hb⟩ := checkToken_ok hchk
    rw [ht.decode] at hd; cases hd
    rw [ht.read] at hr; cases hr
    obtain ⟨b1, b2, -, -, b5, -⟩ := hb
    rcases hne with hne | hne | hne
    · exact absurd (ht.client.symm.trans b1) hne
    · exact absurd (ht.protocol.symm.trans (b2.trans hp.symm)) hne
    · exact absurd (UInt64.toNat_inj.1 (ht.expires.symm.trans b5)) hne

section Issued

variable {A : Type} [SessionIdAllocator A] {lib : TokenLib} {host : Host}
  {policy : SecureSessionAuthPolicy} {request : SessionCreateRequest} {issuedAt monotonic : Nat}
  {random : Bytes} {s s' : BootstrapService A} {r : SessionCreateResponse} {c : ClientId}
  {g : SessionGrant}

/-- What a successful create call under the secure policy returns. -/
structure IssuedResponse (lib : TokenLib) (request : SessionCreateRequest) (config : BootstrapConfig)
    (c : ClientId) (issuedAt : Nat) (g : SessionGrant) (issued : SessionIssuance)
    (sec : SessionSecurity) (r : SessionCreateResponse) : Prop where
  response : r = responseOf config c issued
  secure : SecureIssuance lib request config c issuedAt g issued sec
  valid : request.validate = .ok ()
  size : oversized issued config = false
  token : ∀ token, issued.sessionToken = some token → token.length ≤ MAX_SESSION_TOKEN_BYTES

theorem create_secure_ok (hl : lib.Lawful)
    (hnext : (SessionIdAllocator.tryNextClientId s.allocator).2 = some c)
    (hadm : policy.admitRequest request issuedAt = .ok g)
    (h : s.createSessionWithRequest host (policy.toPolicy lib random) request (some issuedAt)
      monotonic = (s', .ok r)) :
    ∃ issued sec, IssuedResponse lib request s.config c issuedAt g issued sec r := by
  rcases BootstrapService.create_cases s host (policy.toPolicy lib random) request (some issuedAt)
    monotonic with ⟨e, hres, -⟩ | ⟨n, c', p, hval, hn, hc, hprep, -, hout⟩
  · rw [h] at hres; cases hres
  · cases hn
    rw [hnext] at hc; cases hc
    rw [h] at hout; cases hout
    obtain ⟨issued, userData, replay, hissue, hsize, htok, -, -, rfl⟩ := prepare_ok hprep
    obtain ⟨sec, hsec⟩ := issueSession_ok hl hadm hissue
    exact ⟨issued, sec, rfl, hsec, hval, hsize, htok⟩

variable {config : BootstrapConfig} {issued : SessionIssuance} {sec : SessionSecurity}

/-- The envelope keeps within the client's limits. -/
theorem IssuedResponse.envelope (h : IssuedResponse lib request config c issuedAt g issued sec r) :
    ¬ (sec.service.isEmpty ∨ sec.service.length > MAX_SERVICE_BYTES ∨
      sec.matchId.isEmpty ∨ sec.matchId.length > MAX_MATCH_BYTES) ∧
      ∀ transport, ¬ (sec.connectToken transport).length > MAX_ENCODED_CONNECT_TOKEN_BYTES := by
  have hv := h.secure.valid
  have hsize := h.size
  constructor
  · unfold SessionGrant.validate at hv
    split at hv
    · cases hv
    · rename_i hn
      rw [h.secure.service, h.secure.matchId]
      rintro (h1 | h1 | h1 | h1) <;> exact hn (by simp [h1])
  · simp only [oversized, h.secure.security, Option.any_some, Bool.or_eq_false_iff,
      decide_eq_false_iff_not] at hsize
    intro transport
    cases transport with
    | udp => exact hsize.1.1.2
    | webRtc => exact hsize.1.2

/-- With a short enough offer URL the client's answer is that of the token. -/
theorem IssuedResponse.authentication (h : IssuedResponse lib request config c issuedAt g issued sec r)
    (hurl : (config.offerUrl c).length ≤ 2048) (protocolId : UInt64) (serverAddr : SocketAddr)
    (transport : SessionTransport) (now : Nat) (requireSecure : Bool) :
    ∃ token, r.authentication lib protocolId serverAddr transport now requireSecure request =
      if g.protocolId ≠ protocolId ∨ config.publicAddr transport ≠ serverAddr then
        .error .bindingMismatch
      else if Duration.asSecs issuedAt > Duration.asSecs now ∨
          g.expiresAt.toNat ≤ Duration.asSecs now then .error .expired
      else .ok (.secure token) := by
  obtain ⟨hbody, htokens⟩ := h.envelope
  obtain ⟨token, bytes, ht⟩ := h.secure.tokens transport
  have hlong : r.tooLong = false := by
    have h1 := length_display config.publicUdpAddr
    have h2 := length_display config.publicWebrtcAddr
    rw [h.response]
    simp only [SessionCreateResponse.tooLong, Bool.or_eq_false_iff, decide_eq_false_iff_not]
    simp only [responseOf]
    refine ⟨⟨⟨by omega, by omega⟩, by omega⟩, ?_⟩
    cases hst : issued.sessionToken with
    | none => rfl
    | some t => have := h.token t hst; simp; omega
  have hclient : r.clientId = c := by rw [h.response]; rfl
  have hrsec : r.security = some sec := by rw [h.response]; exact h.secure.security
  have hlt := g.validate_lt h.secure.valid
  have hchk := checkToken_of_issued (r := r) ht hbody (htokens transport) protocolId serverAddr now
  refine ⟨token, ?_⟩
  unfold SessionCreateResponse.authentication
  simp only [h.valid, ne_eq, not_true_eq_false, if_false, hlong, Bool.false_eq_true, hrsec,
    h.secure.protocol, h.secure.asked, h.secure.askedService, h.secure.askedMatch, h.secure.service,
    h.secure.matchId, Option.any_some, and_false, or_false, bne_iff_ne, or_self]
  rw [hchk, hclient]
  by_cases hp : g.protocolId = protocolId
  · by_cases ha : config.publicAddr transport = serverAddr
    · have hexp : ¬ g.expiresAt.toNat ≤ Duration.asSecs issuedAt := by omega
      simp only [hp, not_true_eq_false, if_false, ha, h.secure.expires, and_self, or_self, hexp,
        or_false]
    · simp [hp, ha]
  · simp [hp]

theorem IssuedResponse.tamperproof (h : IssuedResponse lib request config c issuedAt g issued sec r) :
    Tamperproof lib r := by
  have hclient : r.clientId = c := by rw [h.response]; rfl
  have hrsec : r.security = some sec := by rw [h.response]; exact h.secure.security
  refine ⟨sec, hrsec, fun protocolId serverAddr transport now requireSecure request' => ?_⟩
  obtain ⟨token, bytes, ht⟩ := h.secure.tokens transport
  have htok : ∀ sec' : SessionSecurity, sec'.udpConnectToken = sec.udpConnectToken →
      sec'.webrtcConnectToken = sec.webrtcConnectToken →
      sec'.connectToken transport = sec.connectToken transport := by
    intro sec' h1 h2; cases transport; exacts [h1, h2]
  refine ⟨fun c' hc => ?_, fun p hp => ?_, fun t hx => ?_⟩
  · exact refused (r := { r with clientId := c' }) sec hrsec ht
      (.inl fun he => hc (he.symm.trans hclient.symm)) _ _ _ _ _
  · refine refused (r := { r with security := some { sec with protocolId := p } })
      { sec with protocolId := p } rfl (htok _ rfl rfl ▸ ht) (.inr (.inl fun he => ?_)) _ _ _ _ _
    exact hp (he.symm.trans h.secure.protocol.symm)
  · refine refused (r := { r with security := some { sec with expiresAt := t } })
      { sec with expiresAt := t } rfl (htok _ rfl rfl ▸ ht) (.inr (.inr fun he => ?_)) _ _ _ _ _
    exact hx (he.symm.trans h.secure.expires.symm)

/-- A client that may use the session at once accepted its offer URL. -/
theorem IssuedResponse.url_le (h : IssuedResponse lib request config c issuedAt g issued sec r)
    (husable : UsableAsIssued lib config request g issuedAt r) :
    (config.offerUrl c).length ≤ 2048 := by
  obtain ⟨token, hok⟩ := (husable g.protocolId (config.publicAddr .udp) .udp issuedAt false).2
    ⟨rfl, rfl, Nat.le_refl _, g.validate_lt h.secure.valid⟩
  by_contra hlong
  have htoo : r.tooLong = true := by
    rw [h.response]
    simp only [SessionCreateResponse.tooLong, Bool.or_eq_true, decide_eq_true_eq]
    simp only [responseOf]
    exact .inl (.inr (by omega))
  unfold SessionCreateResponse.authentication at hok
  simp only [h.valid, ne_eq, not_true_eq_false, if_false, htoo, if_true] at hok
  cases hok

/-- **An issued secure session is usable, and only as issued, exactly when the
client accepts its offer URL.** The issuer bounds the configured base by 2048
bytes, the client bounds the whole URL, which is 18 bytes and the decimal client
id longer. -/
theorem secure_session_usable_iff (hl : lib.Lawful)
    (hnext : (SessionIdAllocator.tryNextClientId s.allocator).2 = some c)
    (hadm : policy.admitRequest request issuedAt = .ok g)
    (h : s.createSessionWithRequest host (policy.toPolicy lib random) request (some issuedAt)
      monotonic = (s', .ok r)) :
    (UsableAsIssued lib s.config request g issuedAt r ∧ Tamperproof lib r) ↔
      (s.config.offerUrl c).length ≤ 2048 := by
  obtain ⟨issued, sec, hr⟩ := create_secure_ok hl hnext hadm h
  refine ⟨fun husable => hr.url_le husable.1, fun hurl => ?_⟩
  refine ⟨fun protocolId serverAddr transport now requireSecure => ?_, hr.tamperproof⟩
  obtain ⟨token, hauth⟩ := hr.authentication hurl protocolId serverAddr transport now requireSecure
  rw [hauth]
  constructor
  · rintro ⟨token', ht⟩
    split at ht
    · cases ht
    · rename_i hb
      split at ht
      · cases ht
      · rename_i hexp
        simp only [ne_eq, not_or, not_not] at hb
        exact ⟨hb.1.symm, hb.2.symm, by omega, by omega⟩
  · rintro ⟨rfl, rfl, hle, hlt⟩
    refine ⟨token, ?_⟩
    rw [if_neg (by simp), if_neg (by omega)]

end Issued

/-! ## Two configurations -/

def arenaUdp : SocketAddr := .v4 ⟨127, 0, 0, 1⟩ 5000
def arenaWebrtc : SocketAddr := .v4 ⟨127, 0, 0, 1⟩ 5001

/-- The grant of the example host: protocol 7, valid until second 100. -/
def arenaGrant : SessionGrant where
  protocolId := 7
  service := ascii ['a', 'r', 'e', 'n', 'a']
  matchId := ascii ['m', '1']
  expiresAt := 100
  replayKey := Vector.replicate 32 9
  application := []

def arenaRequest : SessionCreateRequest :=
  { protocolId := some 7, service := arenaGrant.service, matchId := arenaGrant.matchId }

def arenaPolicy : SecureSessionAuthPolicy := ⟨fun _ _ => .ok arenaGrant, List.replicate 32 0⟩

/-- The token for one address, issued to client 1 in second 40. -/
def arenaToken (addr : SocketAddr) : ConnectToken :=
  ⟨1, 7, 40, 100, some addr :: List.replicate 31 none, 15, List.replicate 1112 0⟩

def tokenBytes (token : ConnectToken) : Bytes :=
  SessionGrant.toLeBytes64 token.clientId ++ SessionGrant.toLeBytes64 token.protocolId ++ token.sealed ++
    token.serverAddresses.flatMap fun a => a.elim [] SocketAddr.display

/-- A token library that knows the two tokens of the example. -/
def arenaLib : TokenLib where
  generate now protocol lifetime client timeout addrs _ _ :=
    match addrs with
    | [addr] => some ⟨client, protocol, Duration.asSecs now, Duration.asSecs now + lifetime,
        some addr :: List.replicate 31 none, timeout, List.replicate 1112 0⟩
    | _ => none
  write token :=
    if token = arenaToken arenaUdp ∨ token = arenaToken arenaWebrtc then some (tokenBytes token) else none
  read bytes :=
    if bytes = tokenBytes (arenaToken arenaUdp) then some (arenaToken arenaUdp, bytes.length)
    else if bytes = tokenBytes (arenaToken arenaWebrtc) then some (arenaToken arenaWebrtc, bytes.length)
    else none
  encode := Base64.encode
  decodeSlice := Base64.decodeSlice

theorem arenaLib_lawful : arenaLib.Lawful where
  generate h := by cases h; exact ⟨rfl, rfl, rfl, rfl, rfl, rfl⟩
  read_write {token bytes} h := by
    have hne : tokenBytes (arenaToken arenaWebrtc) ≠ tokenBytes (arenaToken arenaUdp) := by
      decide +kernel
    simp only [arenaLib] at h ⊢
    split at h
    · rename_i ht
      cases h
      rcases ht with rfl | rfl
      · rw [if_pos rfl]
      · rw [if_neg hne, if_pos rfl]
    · cases h
  decode_encode h := Base64.decodeSlice_encode h

def arenaHost : Host := ⟨fun _ => some 8192, U64_MAX⟩

/-- The example service under a base URL. -/
def arenaService (publicHttpBase : Bytes) : BootstrapService MonotonicClientIdAllocator :=
  .new ⟨Duration.fromSecs 120, arenaUdp, arenaWebrtc, publicHttpBase⟩ ⟨1⟩

def arenaCreate (publicHttpBase : Bytes) :
    BootstrapService MonotonicClientIdAllocator × Except BootstrapError SessionCreateResponse :=
  (arenaService publicHttpBase).createSessionWithRequest arenaHost
    (arenaPolicy.toPolicy arenaLib (List.replicate 32 1)) arenaRequest (some (Duration.fromSecs 40))
    (Duration.fromSecs 3)

/-- `http://a` -/
def shortBase : Bytes := ascii ['h', 't', 't', 'p', ':', '/', '/', 'a']

/-- A base of the 2048 bytes the issuer allows. -/
def longBase : Bytes := shortBase ++ List.replicate 2040 0x61

theorem secure_session_usable_iff_arena :
    ∃ r, (arenaCreate shortBase).2 = .ok r ∧
      UsableAsIssued arenaLib (arenaService shortBase).config arenaRequest arenaGrant
        (Duration.fromSecs 40) r ∧ Tamperproof arenaLib r := by
  have hok : (arenaCreate shortBase).2.toOption.isSome = true := by decide +kernel
  have hurl : ((arenaService shortBase).config.offerUrl 1).length ≤ 2048 := by decide +kernel
  rcases hc : arenaCreate shortBase with ⟨s', _ | r⟩
  · rw [hc] at hok; cases hok
  · exact ⟨r, rfl, (secure_session_usable_iff arenaLib_lawful rfl rfl hc).2 hurl⟩

/-- The claim without a bound on the offer URL fails: the session issued under
the long base is never accepted. -/
theorem long_base_session_unusable :
    ¬ ∀ (lib : TokenLib) (host : Host) (policy : SecureSessionAuthPolicy)
      (s s' : BootstrapService MonotonicClientIdAllocator) (request : SessionCreateRequest)
      (issuedAt monotonic : Nat) (random : Bytes) (g : SessionGrant) (r : SessionCreateResponse),
      lib.Lawful → policy.admitRequest request issuedAt = .ok g →
      s.createSessionWithRequest host (policy.toPolicy lib random) request (some issuedAt) monotonic =
        (s', .ok r) →
      UsableAsIssued lib s.config request g issuedAt r ∧ Tamperproof lib r := by
  intro hall
  have hok : (arenaCreate longBase).2.toOption.isSome = true := by decide +kernel
  have hurl : ¬ ((arenaService longBase).config.offerUrl 1).length ≤ 2048 := by decide +kernel
  rcases hc : arenaCreate longBase with ⟨s', _ | r⟩
  · rw [hc] at hok; cases hok
  · obtain ⟨husable, -⟩ := hall _ _ _ _ _ _ _ _ _ _ _ arenaLib_lawful rfl hc
    obtain ⟨issued, sec, hr⟩ := create_secure_ok arenaLib_lawful rfl rfl hc
    exact hurl (hr.url_le husable)

end RenetCross.L3
