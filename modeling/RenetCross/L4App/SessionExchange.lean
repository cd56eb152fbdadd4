import RenetCross.L4App.NativeConnect
import RenetCross.L4App.SdpHook

/-!
# A session from the service to the client

The two ends of `POST /api/session/new` put together: the route of
`src/axum_bootstrap.rs` under `SecureSessionAuthPolicy`, a network that delivers what
the route answers, cut into chunks anywhere, and `connect_via_session_http_*` of
`src/native_client.rs`. The request is limited to the same size on both ends, and so is
the response; the address the service writes is the one the client reads.
-/
namespace RenetCross.L4

open RenetCross.L2 RenetCross.L3

def StatusCode.code : StatusCode → Nat
  | .ok => 200
  | .badRequest => 400
  | .unauthorized => 401
  | .forbidden => 403
  | .notFound => 404
  | .conflict => 409
  | .payloadTooLarge => 413
  | .unprocessableEntity => 422
  | .internalServerError => 500
  | .serviceUnavailable => 503

structure HttpReply where
  status : Nat
  body : Bytes

/-- The route with its body limit. `errorBody` writes an `ErrorBody`; the text of a
refused body is axum's own and left empty.
mirrors src/axum_bootstrap.rs:116-133,139-155 -/
def sessionRoute {A : Type} [SessionIdAllocator A] (json : Json) (errorBody : String → Bytes)
    (s : BootstrapService A) (host : Host) (policy : SessionAuthPolicy) (body : Bytes)
    (now : Option Nat) (monotonic : Nat) : BootstrapService A × HttpReply :=
  if body.length > MAX_SESSION_REQUEST_BYTES then (s, ⟨StatusCode.payloadTooLarge.code, []⟩)
  else
    let r := sessionNew s host policy json.decodeRequest body now monotonic
    match r.2 with
    | .error e => (r.1, ⟨e.intoResponse.1.code, errorBody e.intoResponse.2⟩)
    | .ok session =>
      match json.writeResponse session with
      | some bytes => (r.1, ⟨StatusCode.ok.code, bytes⟩)
      | none => (r.1, ⟨StatusCode.internalServerError.code, []⟩)

/-- The whole reply arrives, in any chunks, under its own length if any is declared. -/
structure Delivers {ε : Type} (reply : HttpReply) (response : HttpResponse ε) : Prop where
  status : response.status = reply.status
  body : ∃ body, response.body = some body ∧ body.items = reply.body ∧ body.failure = none
  declared : ∀ n, response.contentLength = some n → n = reply.body.length

/-! ## At the service -/

section Service

variable {A : Type} [SessionIdAllocator A] {json : Json} {errorBody : String → Bytes} {lib : TokenLib}
  {host : Host} {policy : SecureSessionAuthPolicy} {random body : Bytes} {issuedAt monotonic : Nat}
  {s s' : BootstrapService A} {reply : HttpReply} {request asked : SessionCreateRequest}
  {requireSecure : Bool} {protocolId : UInt64}

/-- Only a session is answered with 200. -/
theorem StatusCode.code_ok {status : StatusCode} (h : status.code = 200) : status = .ok := by
  cases status <;> first | rfl | exact absurd h (by decide)

theorem intoResponse_ne_ok (e : ApiError) : e.intoResponse.1 ≠ .ok := by
  cases e with
  | transportLockPoisoned => decide
  | hook e => exact (not_earlyStatus (status_hook e)).1
  | bootstrap e =>
    cases e with
    | auth e =>
      have hmem := authStatus_mem e
      intro h
      rw [show authStatus e = .ok from h] at hmem
      revert hmem
      decide
    | _ => exact fun h => StatusCode.noConfusion h

/-- A 200 means that a session was created for what the body says. -/
theorem sessionRoute_ok {p : SessionAuthPolicy} {now : Option Nat}
    (h : sessionRoute json errorBody s host p body now monotonic = (s', reply))
    (hok : reply.status = 200) :
    ∃ r session, (if body.isEmpty then some {} else json.decodeRequest body) = some r ∧
      s.createSessionWithRequest host p r now monotonic = (s', .ok session) ∧
      json.writeResponse session = some reply.body := by
  unfold sessionRoute at h
  split at h
  · cases h; cases hok
  · dsimp only at h
    split at h
    · rename_i e he
      cases h
      exact absurd (StatusCode.code_ok hok) (intoResponse_ne_ok e)
    · rename_i session hsession
      split at h
      · rename_i bytes hwrite
        cases h
        unfold sessionNew at hsession ⊢
        split at hsession
        · cases hsession
        · rename_i r hr
          rw [hr]
          dsimp only at hsession ⊢
          rcases hc : s.createSessionWithRequest host p r now monotonic with ⟨s₁, _ | session'⟩
          · rw [hc] at hsession; cases hsession
          · rw [hc] at hsession
            cases hsession
            exact ⟨r, session, rfl, hc, hwrite⟩
      · cases h; cases hok

theorem issueSession_admits {c : ClientId} {now : Nat} {config : BootstrapConfig}
    {issued : SessionIssuance} (h : policy.issueSession lib random c asked now config = .ok issued) :
    ∃ g, policy.admitRequest asked now = .ok g := by
  unfold SecureSessionAuthPolicy.issueSession at h
  cases hv : asked.validate with
  | error e => rw [hv] at h; cases h
  | ok _ =>
    rw [hv] at h
    cases hadm : policy.admitRequest asked now with
    | error e => simp only [hadm, bind, Except.bind] at h; cases h
    | ok g => exact ⟨g, rfl⟩

/-- What the service holds and what it has answered, after a 200. -/
structure Served (json : Json) (lib : TokenLib) (s s' : BootstrapService A)
    (asked : SessionCreateRequest) (issuedAt : Nat) (reply : HttpReply)
    (session : SessionCreateResponse) (g : SessionGrant) : Prop where
  issued : ∃ issued sec, IssuedResponse lib asked s.config session.clientId issuedAt g issued sec session
  written : json.writeResponse session = some reply.body
  fits : reply.body.length ≤ MAX_SESSION_RESPONSE_BYTES
  registered : ∃ d, s'.registry.details.get session.clientId = some d ∧ d.token = session.sessionToken ∧
    d.grant = some g ∧ d.offerClaimed = false

/-- The service answers within the limit of the client. -/
theorem prepare_fits {p : SessionAuthPolicy} {config : BootstrapConfig} {now : Nat} {r : Registry}
    {c : ClientId} {prepared : Prepared}
    (h : prepare host p config asked now monotonic r c = .ok prepared) :
    ∃ n, host.jsonLength prepared.response = some n ∧ n ≤ MAX_SESSION_RESPONSE_BYTES := by
  unfold prepare at h
  split at h
  · cases h
  · split at h
    · cases h
    · split at h
      · cases h
      · split at h
        · cases h
        · split at h
          · cases h
          · split at h
            · cases h
            · split at h
              · cases h
              · rename_i issued _ _ _ _ _ _ _ _ _ _ hlen
                cases h
                cases hn : host.jsonLength (responseOf config c issued) with
                | none => rw [hn] at hlen; exact absurd rfl hlen
                | some n =>
                  rw [hn, Option.all_some, decide_eq_true_eq, Nat.not_lt] at hlen
                  exact ⟨n, rfl, hlen⟩

/-- `jsonLength` is the length of what serde_json writes. -/
def Host.Writes (host : Host) (json : Json) : Prop :=
  ∀ r, host.jsonLength r = (json.writeResponse r).map List.length

theorem served (hl : lib.Lawful) (hjson : json.Lawful) (hhost : Host.Writes host json)
    (hasked : Asked request requireSecure protocolId asked)
    (hbody : json.writeRequest asked = some body)
    (h : sessionRoute json errorBody s host (policy.toPolicy lib random) body (some issuedAt)
      monotonic = (s', reply))
    (hok : reply.status = 200) :
    ∃ session g, policy.admitRequest asked issuedAt = .ok g ∧
      Served json lib s s' asked issuedAt reply session g := by
  obtain ⟨r, session, hr, hcreate, hwrite⟩ := sessionRoute_ok h hok
  have hne : body.isEmpty = false := by
    rw [List.isEmpty_eq_false_iff]
    exact (hjson.request hbody).1
  rw [hne, if_neg Bool.false_ne_true, decodeRequest_write hjson hasked.valid hbody] at hr
  cases hr
  rcases BootstrapService.create_cases s host (policy.toPolicy lib random) asked (some issuedAt)
      monotonic with ⟨e, hres, -⟩ | ⟨n, c, p, -, hn, hc, hprep, -, hout⟩
  · rw [hcreate] at hres; cases hres
  · cases hn
    rw [hcreate] at hout
    cases hout
    obtain ⟨issued, userData, replay, hissue, -, -, -, -, hp⟩ := prepare_ok hprep
    obtain ⟨g, hadm⟩ := issueSession_admits hissue
    obtain ⟨issued', sec, hresponse⟩ := create_secure_ok hl hc hadm hcreate
    have hclient : p.response.clientId = c := by rw [hp]; rfl
    obtain ⟨n, hn, hle⟩ := prepare_fits hprep
    rw [hhost, hwrite, Option.map_some, Option.some.injEq] at hn
    refine ⟨p.response, g, hadm, ⟨issued', sec, hclient ▸ hresponse⟩, hwrite, hn ▸ hle, ?_⟩
    obtain ⟨sec', hsec'⟩ := issueSession_ok hl hadm hissue
    rw [hclient]
    refine ⟨_, HashMap.get_insert_self .., ?_⟩
    rw [hp]
    exact ⟨rfl, hsec'.grant, rfl⟩

end Service
/-! ## At the client -/

section Client

variable {lib : TokenLib} {json : Json} {request asked : SessionCreateRequest} {protocolId : UInt64}
  {r : SessionCreateResponse} {sec : SessionSecurity} {requireSecure : Bool}

/-- A session of the service passes the limits of its record. -/
theorem decodeResponse_write (hjson : json.Lawful) {config : BootstrapConfig} {c : ClientId}
    {issuedAt : Nat} {g : SessionGrant} {issued : SessionIssuance} {bytes : Bytes}
    (h : IssuedResponse lib asked config c issuedAt g issued sec r)
    (hwrite : json.writeResponse r = some bytes) : json.decodeResponse bytes = some r := by
  have hrsec : r.security = some sec := by rw [h.response]; exact h.secure.security
  have hsize := h.size
  simp only [oversized, h.secure.security, Option.any_some, Bool.or_eq_false_iff,
    decide_eq_false_iff_not, gt_iff_lt, Nat.not_lt] at hsize
  have hlimits : sec.withinLimits = true := by
    simp only [SessionSecurity.withinLimits, Bool.and_eq_true, decide_eq_true_eq]
    exact hsize.1
  unfold Json.decodeResponse
  rw [hjson.response hwrite, Option.filter_some, hrsec, Option.all_some, if_pos hlimits]

/-- With an envelope, the request a client made its request of is checked like the one
it posted. -/
theorem authentication_asked (hsec : r.security = some sec)
    (hasked : Asked request requireSecure protocolId asked)
    (hprotocol : asked.protocolId = some protocolId) (serverAddr : SocketAddr)
    (transport : SessionTransport) (now : Nat) :
    r.authentication lib protocolId serverAddr transport now requireSecure request =
      r.authentication lib protocolId serverAddr transport now requireSecure asked := by
  have hvalid : request.validate = .ok () := by
    have h := hasked.valid
    unfold SessionCreateRequest.validate at h ⊢
    rw [hasked.service, hasked.matchId, hasked.credential] at h
    exact h
  unfold SessionCreateResponse.authentication
  simp only [hvalid, hasked.valid, hsec, hasked.service, hasked.matchId, hasked.agrees, hprotocol,
    Option.any_some, bne_self_eq_false]

/-- What a session is worth to the client that asked for it: the token it was issued
with, at the address it was issued for, while it is valid. -/
theorem authentication_served {config : BootstrapConfig} {c : ClientId} {issuedAt : Nat}
    {g : SessionGrant} {issued : SessionIssuance}
    (h : IssuedResponse lib asked config c issuedAt g issued sec r)
    (hasked : Asked request requireSecure protocolId asked) (hurl : (config.offerUrl c).length ≤ 2048)
    (transport : SessionTransport) (now : Nat) :
    ∃ token, r.authentication lib protocolId (config.publicAddr transport) transport now
        requireSecure request =
      if Duration.asSecs issuedAt > Duration.asSecs now ∨ g.expiresAt.toNat ≤ Duration.asSecs now then
        .error .expired
      else .ok (.secure token) := by
  have hrsec : r.security = some sec := by rw [h.response]; exact h.secure.security
  have hprotocol : asked.protocolId = some protocolId ∧ g.protocolId = protocolId := by
    have hnamed := hasked.protocol
    rw [h.secure.asked] at hnamed
    split at hnamed
    · rw [h.secure.asked, hnamed]
      exact ⟨rfl, Option.some.inj hnamed⟩
    · cases hnamed
  obtain ⟨token, hauth⟩ := h.authentication hurl protocolId (config.publicAddr transport) transport now
    requireSecure
  refine ⟨token, ?_⟩
  rw [authentication_asked hrsec hasked hprotocol.1, hauth, if_neg (by simp [hprotocol.2])]

end Client

/-! ## End to end -/

section

variable {N C W : Type} [ConnectWorld W] [NetcodeConnect N]

/-- The client's step after its session is there: the world has answered two calls. -/
def Connecting.asked (s : Connecting W) (url body : Bytes) : Connecting W where
  world := (ConnectWorld.post (ConnectWorld.buildHttp s.world).1 url body).1
  log := .posted url body :: s.log

/-- A delivered session is decoded, by either decoder. -/
theorem decode_delivered {json : Json} {reply : HttpReply} {response : HttpResponse IoErrorKind}
    {session : SessionCreateResponse} (hdelivers : Delivers reply response) (hok : reply.status = 200)
    (hfits : reply.body.length ≤ MAX_SESSION_RESPONSE_BYTES)
    (hdecode : json.decodeResponse reply.body = some session) :
    response.decodeJsonResponseBlocking json.decodeResponse = .ok session ∧
      response.decodeJsonResponseAsync json.decodeResponse = .ok session := by
  obtain ⟨body, hbody, hitems, hends⟩ := hdelivers.body
  have hcontent : response.content = body := by rw [HttpResponse.content, hbody]; rfl
  have htaken : response.Taken MAX_SESSION_RESPONSE_BYTES json.decodeResponse session := by
    refine ⟨?_, by rw [hcontent, hends], by rw [hcontent, hitems]; exact hfits,
      by rw [hcontent, hitems, hdecode]⟩
    rw [HttpResponse.isSuccess, hdelivers.status, hok]
    decide
  have hblocking := response.decodeJsonResponseBlocking_ok.2
    ⟨htaken, fun n hn => by rw [hdelivers.declared n hn]; exact hfits⟩
  refine ⟨hblocking, ?_⟩
  rw [response.async_eq_blocking, hblocking]
  rfl

variable {A : Type} [SessionIdAllocator A] {lib : TokenLib} {json : Json} {errorBody : String → Bytes}
  {host : Host} {policy : SecureSessionAuthPolicy} {random body : Bytes} {issuedAt monotonic : Nat}
  {service service' : BootstrapService A} {reply : HttpReply} {response : HttpResponse IoErrorKind}
  {baseHttp : Bytes} {protocolId : UInt64} {options : NativeConnectOptions C} {s : Connecting W}

/-- The service's UDP address, as the client finds it. -/
theorem serverAddr_served {asked : SessionCreateRequest} {config : BootstrapConfig} {c : ClientId}
    {g : SessionGrant} {issued : SessionIssuance} {sec : SessionSecurity}
    {session : SessionCreateResponse}
    (h : IssuedResponse lib asked config c issuedAt g issued sec session)
    (haddr : options.overrideUdpAddr.getD config.publicUdpAddr.withoutFlowinfo = config.publicUdpAddr) :
    Connecting.serverAddr session options = .ok config.publicUdpAddr := by
  unfold Connecting.serverAddr
  cases hover : options.overrideUdpAddr with
  | some addr =>
    rw [hover, Option.getD_some] at haddr
    rw [haddr]
  | none =>
    rw [hover, Option.getD_none] at haddr
    have hparse : SocketAddr.parse session.udpAddr = some config.publicUdpAddr := by
      rw [show session.udpAddr = config.publicUdpAddr.display by rw [h.response]; rfl,
        SocketAddr.parse_display, haddr]
    rw [hparse]

/-- The two calls to the world, and what the client has then. -/
theorem requestSession_delivered
    {decode : HttpResponse IoErrorKind → Except (DecodeError IoErrorKind) SessionCreateResponse}
    {url : Bytes} {session : SessionCreateResponse}
    (hbuilt : (ConnectWorld.buildHttp s.world).2 = true)
    (hpost : (ConnectWorld.post (ConnectWorld.buildHttp s.world).1 url body).2 = .ok response)
    (hdecode : decode response = .ok session) :
    s.requestSession decode url body = (s.asked url body, .ok session) := by
  unfold Connecting.requestSession
  dsimp only
  rw [if_pos hbuilt, hpost]
  dsimp only
  rw [hdecode]
  rfl

/-- What connecting comes to with a session that was issued at `issuedAt` under `g`. -/
def Connecting.arrival (issuedAt : Nat) (g : SessionGrant) (token : ConnectToken) (clientId : ClientId)
    (now : Nat) (options : NativeConnectOptions C) (ready : Connecting W) :
    Connecting W × Except NativeClientError (UdpClientState N C W × ClientId) :=
  if Duration.asSecs issuedAt > Duration.asSecs now ∨ g.expiresAt.toNat ≤ Duration.asSecs now then
    (ready, .error (.security .expired))
  else ready.openTransport (.secure token) clientId now options

/-- **A secure session gets through.** Where the service answers the client's own
request with a session and the network delivers the answer, in whatever chunks, the
client, blocking or async, goes on to open its transport with a token issued for it at
the service's UDP address, if its clock is between the second of issue and the end of
the grant, and reports an expired session otherwise. The service then holds the session
under the client's id, unclaimed, with the token the client has for its offer. -/
theorem secure_session_arrives (hl : lib.Lawful) (hjson : json.Lawful)
    (hhost : Host.Writes host json)
    (hbody : sessionRequestBody json options.sessionRequest options.requireSecure protocolId = .ok body)
    (hroute : sessionRoute json errorBody service host (policy.toPolicy lib random) body
      (some issuedAt) monotonic = (service', reply))
    (hok : reply.status = 200) (hbuilt : (ConnectWorld.buildHttp s.world).2 = true)
    (hpost : (ConnectWorld.post (ConnectWorld.buildHttp s.world).1 (sessionUrl baseHttp) body).2 =
      .ok response)
    (hdelivers : Delivers reply response)
    (haddr : options.overrideUdpAddr.getD service.config.publicUdpAddr.withoutFlowinfo =
      service.config.publicUdpAddr) :
    ∃ session g, json.decodeResponse reply.body = some session ∧
      (∃ d, service'.registry.details.get session.clientId = some d ∧ d.token = session.sessionToken ∧
        d.grant = some g ∧ d.offerClaimed = false) ∧
      ((service.config.offerUrl session.clientId).length ≤ 2048 →
        ∀ now, (ConnectWorld.unixNow (s.asked (sessionUrl baseHttp) body).world).2 = some now →
          ∃ token,
            let ready : Connecting W :=
              { s.asked (sessionUrl baseHttp) body with
                world := (ConnectWorld.unixNow (s.asked (sessionUrl baseHttp) body).world).1 }
            let outcome := Connecting.arrival (N := N) issuedAt g token session.clientId now options ready
            Connecting.connectViaSessionHttpBlocking lib json baseHttp protocolId options s = outcome ∧
              Connecting.connectViaSessionHttpAsync lib json baseHttp protocolId options s = outcome ∧
              (Duration.asSecs issuedAt ≤ Duration.asSecs now →
                Duration.asSecs now < g.expiresAt.toNat →
                BoundToken session protocolId service.config.publicUdpAddr now token)) := by
  obtain ⟨asked, hasked, hwrite, -⟩ := sessionRequestBody_ok hbody
  obtain ⟨session, g, -, hserved⟩ := served hl hjson hhost hasked hwrite hroute hok
  obtain ⟨issued, sec, hissued⟩ := hserved.issued
  have hdecode := decodeResponse_write hjson hissued hserved.written
  refine ⟨session, g, hdecode, hserved.registered, fun hurl now hnow => ?_⟩
  obtain ⟨token, hauth⟩ := authentication_served hissued hasked hurl .udp now
  refine ⟨token, ?_⟩
  dsimp only
  have hconnect : (s.asked (sessionUrl baseHttp) body).connectFromSession lib session protocolId options =
      Connecting.arrival (N := N) issuedAt g token session.clientId now options
        { s.asked (sessionUrl baseHttp) body with
          world := (ConnectWorld.unixNow (s.asked (sessionUrl baseHttp) body).world).1 } := by
    unfold Connecting.connectFromSession Connecting.arrival
    rw [serverAddr_served hissued haddr]
    dsimp only
    rw [hnow]
    dsimp only
    rw [show service.config.publicUdpAddr = service.config.publicAddr .udp from rfl, hauth]
    by_cases hexpired : Duration.asSecs issuedAt > Duration.asSecs now ∨
        g.expiresAt.toNat ≤ Duration.asSecs now
    · rw [if_pos hexpired, if_pos hexpired]
    · rw [if_neg hexpired, if_neg hexpired]
  obtain ⟨hblocking, hasync⟩ := decode_delivered hdelivers hok hserved.fits hdecode
  rw [← hconnect]
  refine ⟨?_, ?_, fun hstart hend => ?_⟩
  · unfold Connecting.connectViaSessionHttpBlocking Connecting.connectVia
    rw [hbody]
    dsimp only
    rw [requestSession_delivered hbuilt hpost hblocking]
  · unfold Connecting.connectViaSessionHttpAsync Connecting.connectVia
    rw [hbody]
    dsimp only
    rw [requestSession_delivered hbuilt hpost hasync]
  · rw [if_neg (by omega)] at hauth
    cases authentication_entitled hauth with
    | secure sec token envelope service matchId bound => exact bound

end

/-! ## The arena answers -/

def arenaJsonHost : Host := ⟨fun r => (arenaJson.writeResponse r).map List.length, U64_MAX⟩

def arenaRoute : BootstrapService MonotonicClientIdAllocator × HttpReply :=
  sessionRoute arenaJson (fun _ => []) (arenaService shortBase) arenaJsonHost
    (arenaPolicy.toPolicy arenaLib (List.replicate 32 1)) [2] (some (Duration.fromSecs 40))
    (Duration.fromSecs 3)

theorem secure_session_arrives_arena :
    arenaConnect.2.toOption.isSome = true ∧
      ∃ session g, arenaJson.decodeResponse arenaRoute.2.body = some session ∧
        ∃ d, arenaRoute.1.registry.details.get session.clientId = some d ∧
          d.token = session.sessionToken ∧ d.grant = some g ∧ d.offerClaimed = false := by
  have hreply : arenaRoute.2.status = 200 ∧ arenaRoute.2.body = [3, 1] := by decide +kernel
  have hbody : sessionRequestBody arenaJson arenaOptions.sessionRequest arenaOptions.requireSecure 7 =
      .ok [2] := by decide +kernel
  have hdelivers : Delivers arenaRoute.2 arenaHome.world.answer :=
    ⟨hreply.1.symm, ⟨_, rfl, hreply.2.symm, rfl⟩, fun n hn => nomatch hn⟩
  have hpost : (ConnectWorld.post (ConnectWorld.buildHttp arenaHome.world).1 (sessionUrl shortBase) [2]).2 =
      .ok arenaHome.world.answer := rfl
  have hroute : arenaRoute = (arenaRoute.1, arenaRoute.2) := (Prod.mk.eta (p := arenaRoute)).symm
  obtain ⟨session, g, hdecode, hheld, -⟩ := secure_session_arrives (N := TaggedNetcode) (s := arenaHome)
    arenaLib_lawful arenaJson_lawful (fun _ => rfl) hbody hroute hreply.1 rfl hpost hdelivers rfl
  exact ⟨by decide +kernel, session, g, hdecode, hheld⟩

end RenetCross.L4
