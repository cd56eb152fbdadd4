import Mathlib.Data.List.ReduceOption
import RenetCross.Core.BoundedBody
import RenetCross.L1Encoding.SocketAddrParse
import RenetCross.L3Protocol.SecureSession

/-!
# `POST /api/session/new`, from the client

What the native and the browser client share of `src/native_client.rs` and
`src/web_client.rs`: the request they post, how they read a JSON response of bounded
length, and what they take a response to entitle them to. `Entitled` is the purpose of
`SessionCreateResponse::authentication`: whoever answered, the client connects with a
token bound to this session, or with nothing at all where nothing was asked for.

JSON is the parameter `Json`; the HTTP libraries are reduced to the response they hand
over.
-/
namespace RenetCross.L3

def MAX_SESSION_REQUEST_BYTES : Nat := 8192

/-- `/api/session/new`. -/
def SESSION_PATH : Bytes :=
  ascii ['/', 'a', 'p', 'i', '/', 's', 'e', 's', 's', 'i', 'o', 'n', '/', 'n', 'e', 'w']

/-- mirrors src/native_client.rs:305,334, src/web_client.rs:533 -/
def sessionUrl (baseHttp : Bytes) : Bytes := trimEndSlashes baseHttp ++ SESSION_PATH

/-! ## JSON -/

/-- serde_json for the two records, without the limits the records set themselves. -/
structure Json where
  writeRequest : SessionCreateRequest → Option Bytes
  readRequest : Bytes → Option SessionCreateRequest
  writeResponse : SessionCreateResponse → Option Bytes
  readResponse : Bytes → Option SessionCreateResponse

structure Json.Lawful (json : Json) : Prop where
  request : ∀ {r bytes}, json.writeRequest r = some bytes →
    bytes ≠ [] ∧ json.readRequest bytes = some r
  response : ∀ {r bytes}, json.writeResponse r = some bytes → json.readResponse bytes = some r

/-- mirrors src/session_security.rs:23-32 -/
def SessionCreateRequest.withinLimits (r : SessionCreateRequest) : Bool :=
  decide (r.service.length ≤ MAX_SERVICE_BYTES) && decide (r.matchId.length ≤ MAX_MATCH_BYTES) &&
    decide (r.credential.length ≤ MAX_SESSION_CREDENTIAL_BYTES)

/-- mirrors src/session_security.rs:145-157 -/
def SessionSecurity.withinLimits (s : SessionSecurity) : Bool :=
  decide (s.service.length ≤ MAX_SERVICE_BYTES) && decide (s.matchId.length ≤ MAX_MATCH_BYTES) &&
    decide (s.udpConnectToken.length ≤ MAX_ENCODED_CONNECT_TOKEN_BYTES) &&
    decide (s.webrtcConnectToken.length ≤ MAX_ENCODED_CONNECT_TOKEN_BYTES)

/-- `serde_json::from_slice::<SessionCreateRequest>`.
mirrors src/session_security.rs:376-411 -/
def Json.decodeRequest (json : Json) (bytes : Bytes) : Option SessionCreateRequest :=
  (json.readRequest bytes).filter SessionCreateRequest.withinLimits

/-- `serde_json::from_slice::<SessionCreateResponse>`.
mirrors src/session_security.rs:376-411 -/
def Json.decodeResponse (json : Json) (bytes : Bytes) : Option SessionCreateResponse :=
  (json.readResponse bytes).filter fun r => r.security.all SessionSecurity.withinLimits

/-! ## The request -/

inductive RequestError where
  | security (error : SessionSecurityError)
  | bootstrapAuth (error : BootstrapAuthError)
  | bodyTooLarge
  deriving DecidableEq, Repr

/-- The request a client makes of its options: a demand for security goes along, and
whoever asks for authentication names the protocol.
mirrors src/native_client.rs:401-409, src/web_client.rs:338-346 -/
def SessionCreateRequest.forProtocol (request : SessionCreateRequest) (requireSecure : Bool)
    (protocolId : UInt64) : Except RequestError SessionCreateRequest :=
  let request := { request with requireSecure := request.requireSecure || requireSecure }
  if request.requestsAuthentication && request.protocolId.any (fun p => p != protocolId) then
    .error (.security .bindingMismatch)
  else
    let request :=
      if request.requestsAuthentication then { request with protocolId := some protocolId } else request
    match request.validate with
    | .error e => .error (.bootstrapAuth e)
    | .ok () => .ok request

/-- mirrors src/native_client.rs:397-415 (`session_request_body`),
src/web_client.rs:535-538 (`create_session`) -/
def sessionRequestBody (json : Json) (request : SessionCreateRequest) (requireSecure : Bool)
    (protocolId : UInt64) : Except RequestError Bytes :=
  match request.forProtocol requireSecure protocolId with
  | .error e => .error e
  | .ok request =>
    match json.writeRequest request with
    | none => .error .bodyTooLarge
    | some bytes => if bytes.length > MAX_SESSION_REQUEST_BYTES then .error .bodyTooLarge else .ok bytes

/-! ## The response -/

/-- What an HTTP library hands over; `ε` is how its body can fail. -/
structure HttpResponse (ε : Type) where
  status : Nat
  contentLength : Option Nat
  body : Option (Body UInt8 ε)

/-- Why a response is not taken. `read` hands on the failure of the body, `decode` is
`HttpDecode` with its detail. -/
inductive DecodeError (ε : Type) where
  | status (status : Nat)
  | bodyTooLarge
  | read (error : ε)
  | decode (detail : String)
  deriving DecidableEq, Repr

variable {α ε : Type}

namespace HttpResponse

/-- `StatusCode::is_success`, `Response::ok`. -/
def isSuccess (r : HttpResponse ε) : Bool := decide (200 ≤ r.status) && decide (r.status ≤ 299)

/-- A native response always has a body to read. -/
def content (r : HttpResponse ε) : Body UInt8 ε := r.body.getD ⟨[], none⟩

/-- The bytes, once they are there, as the record they encode; `lost` is what becomes of
a failure while they are read. -/
def decoded (lost : ε → DecodeError ε) (decode : Bytes → Option α) :
    Except (BodyError ε) Bytes → Except (DecodeError ε) α
  | .error (.read e) => .error (lost e)
  | .error .tooLarge => .error .bodyTooLarge
  | .ok bytes =>
    match decode bytes with
    | none => .error (.decode "invalid bootstrap JSON")
    | some a => .ok a

/-- mirrors src/native_client.rs:417-446 -/
def decodeJsonResponseBlocking (decode : Bytes → Option α) (r : HttpResponse ε) :
    Except (DecodeError ε) α :=
  if !r.isSuccess then .error (.status r.status)
  else if r.contentLength.any fun n => n > MAX_SESSION_RESPONSE_BYTES then .error .bodyTooLarge
  else decoded .read decode (r.content.takeThenCheck MAX_SESSION_RESPONSE_BYTES)

/-- mirrors src/native_client.rs:448-483 -/
def decodeJsonResponseAsync (decode : Bytes → Option α) (r : HttpResponse ε) :
    Except (DecodeError ε) α :=
  if !r.isSuccess then .error (.status r.status)
  else if r.contentLength.any fun n => n > MAX_SESSION_RESPONSE_BYTES then .error .bodyTooLarge
  else decoded (fun _ => .decode "failed to read bootstrap response") decode
    (Body.gather MAX_SESSION_RESPONSE_BYTES r.content.failure r.content.chunks [])

/-- mirrors src/web_client.rs:588-635 -/
def decodeJsonResponse (limit : Nat) (decode : Bytes → Option α) (r : HttpResponse ε) :
    Except (DecodeError ε) α :=
  if !r.isSuccess then .error (.status r.status)
  else
    match r.body with
    | none => .error (.decode "missing response body")
    | some body => decoded .read decode (Body.gather limit body.failure body.chunks [])

/-! ## The three decoders -/

theorem decoded_ok {lost : ε → DecodeError ε} {decode : Bytes → Option α} {b : Body UInt8 ε}
    {limit : Nat} {a : α} :
    decoded lost decode (Body.outcome limit b.items b.failure) = .ok a ↔
      b.failure = none ∧ b.items.length ≤ limit ∧ decode b.items = some a := by
  constructor
  · intro h
    cases hout : Body.outcome limit b.items b.failure with
    | error e => rw [hout] at h; cases e <;> cases h
    | ok bytes =>
      obtain ⟨rfl, hend, hlen⟩ := Body.outcome_ok.1 hout
      rw [hout] at h
      unfold decoded at h
      dsimp only at h
      split at h
      · cases h
      · rename_i hdecode
        cases h
        exact ⟨hend, hlen, hdecode⟩
  · rintro ⟨hend, hlen, hdecode⟩
    rw [Body.outcome_ok.2 ⟨rfl, hend, hlen⟩]
    unfold decoded
    simp only [hdecode]

/-- A response the clients take: of a good status, with a body that ends within the
limit and encodes a record. -/
structure Taken (limit : Nat) (decode : Bytes → Option α) (r : HttpResponse ε) (a : α) : Prop where
  status : r.isSuccess = true
  ends : r.content.failure = none
  fits : r.content.items.length ≤ limit
  encodes : decode r.content.items = some a

/-- The async decoder does not hand a failed read on. -/
def unread : DecodeError ε → DecodeError ε
  | .read _ => .decode "failed to read bootstrap response"
  | e => e

theorem decoded_unread (decode : Bytes → Option α) (r : Except (BodyError ε) Bytes) :
    decoded (fun _ => .decode "failed to read bootstrap response") decode r =
      (decoded .read decode r).mapError unread := by
  rcases r with (e | _) | bytes
  · rfl
  · rfl
  · unfold decoded
    dsimp only
    split <;> rfl

/-- Up to the error of a failed read, the native decoders are one. -/
theorem async_eq_blocking (decode : Bytes → Option α) (r : HttpResponse ε) :
    r.decodeJsonResponseAsync decode = (r.decodeJsonResponseBlocking decode).mapError unread := by
  unfold decodeJsonResponseBlocking decodeJsonResponseAsync
  rw [Body.takeThenCheck_eq_outcome, Body.gather_eq_outcome, decoded_unread]
  split
  · rfl
  · split <;> rfl

theorem decodeJsonResponseBlocking_ok {decode : Bytes → Option α} (r : HttpResponse ε) {a : α} :
    r.decodeJsonResponseBlocking decode = .ok a ↔
      r.Taken MAX_SESSION_RESPONSE_BYTES decode a ∧
        ∀ n, r.contentLength = some n → n ≤ MAX_SESSION_RESPONSE_BYTES := by
  unfold decodeJsonResponseBlocking
  rw [Body.takeThenCheck_eq_outcome]
  by_cases hs : r.isSuccess = true
  · rw [hs, Bool.not_true, if_neg Bool.false_ne_true]
    by_cases hdeclared : (r.contentLength.any fun n => n > MAX_SESSION_RESPONSE_BYTES) = true
    · rw [if_pos hdeclared]
      obtain ⟨n, hn, hlong⟩ := (Option.any_eq_true _ _).1 hdeclared
      exact ⟨fun h => (nomatch h), fun h => absurd (h.2 n hn) (Nat.not_le.2 (of_decide_eq_true hlong))⟩
    · rw [if_neg hdeclared, decoded_ok]
      have hle : ∀ n, r.contentLength = some n → n ≤ MAX_SESSION_RESPONSE_BYTES := fun n hn =>
        Nat.le_of_not_lt fun hlong => hdeclared ((Option.any_eq_true _ _).2 ⟨n, hn, decide_eq_true hlong⟩)
      exact ⟨fun h => ⟨⟨hs, h.1, h.2.1, h.2.2⟩, hle⟩,
        fun h => ⟨h.1.ends, h.1.fits, h.1.encodes⟩⟩
  · rw [if_pos (by rw [Bool.eq_false_iff.2 hs]; rfl)]
    exact ⟨fun h => (nomatch h), fun h => absurd h.1.status hs⟩

theorem decodeJsonResponse_ok {limit : Nat} {decode : Bytes → Option α} (r : HttpResponse ε) {a : α} :
    r.decodeJsonResponse limit decode = .ok a ↔ r.body ≠ none ∧ r.Taken limit decode a := by
  unfold decodeJsonResponse
  by_cases hs : r.isSuccess = true
  · rw [hs, Bool.not_true, if_neg Bool.false_ne_true]
    cases hbody : r.body with
    | none => exact ⟨fun h => (nomatch h), fun h => absurd rfl h.1⟩
    | some body =>
      have hcontent : r.content = body := by rw [content, hbody]; rfl
      dsimp only
      rw [Body.gather_eq_outcome, decoded_ok, ← hcontent]
      exact ⟨fun h => ⟨Option.some_ne_none _, ⟨hs, h.1, h.2.1, h.2.2⟩⟩,
        fun h => ⟨h.2.ends, h.2.fits, h.2.encodes⟩⟩
  · rw [if_pos (by rw [Bool.eq_false_iff.2 hs]; rfl)]
    exact ⟨fun h => (nomatch h), fun h => absurd h.2.status hs⟩

end HttpResponse

/-- **Bounded responses.** The blocking and the async decoder answer every response
alike, however it is cut into chunks, but for the error when the body breaks off; they
take what fits the limit and declares no more; the browser's takes what fits, if there is
a body, whatever length was declared. While reading, none holds more than one byte over
the limit. -/
theorem decoders_agree (decode : Bytes → Option α) (r : HttpResponse ε) :
    r.decodeJsonResponseAsync decode = (r.decodeJsonResponseBlocking decode).mapError HttpResponse.unread ∧
      (∀ a, r.decodeJsonResponseBlocking decode = .ok a ↔
        r.Taken MAX_SESSION_RESPONSE_BYTES decode a ∧
          ∀ n, r.contentLength = some n → n ≤ MAX_SESSION_RESPONSE_BYTES) ∧
      (∀ limit a, r.decodeJsonResponse limit decode = .ok a ↔
        r.body ≠ none ∧ r.Taken limit decode a) ∧
      (∀ limit, Body.gatherPeak limit r.content.chunks [] ≤ limit) ∧
      ∀ held, Body.takeToEnd r.content.failure (MAX_SESSION_RESPONSE_BYTES + 1) r.content.chunks [] =
        .ok held → held.length ≤ MAX_SESSION_RESPONSE_BYTES + 1 := by
  refine ⟨r.async_eq_blocking decode, fun a => r.decodeJsonResponseBlocking_ok, fun limit a =>
    r.decodeJsonResponse_ok, fun limit => Body.gatherPeak_le limit _ [] (Nat.zero_le limit), ?_⟩
  intro held hheld
  have hle := Body.takeToEnd_length_le hheld
  rwa [List.length_nil, Nat.zero_add] at hle

/-! ## What a response entitles to -/

/-- A token for this session and this server only, valid at `now`. -/
structure BoundToken (r : SessionCreateResponse) (protocolId : UInt64) (serverAddr : SocketAddr)
    (now : Nat) (token : ConnectToken) : Prop where
  client : token.clientId = r.clientId
  protocol : token.protocolId = protocolId
  address : token.serverAddresses.head? = some (some serverAddr)
  alone : ∀ a ∈ token.serverAddresses.drop 1, a = none
  timeout : token.timeoutSeconds > 0
  started : token.createTimestamp ≤ Duration.asSecs now
  current : Duration.asSecs now < token.expireTimestamp

/-- What a client may connect with: the token of an envelope for what it asked, or, where
the session has no envelope and nothing was asked, no token. -/
inductive Entitled (r : SessionCreateResponse) (protocolId : UInt64) (serverAddr : SocketAddr)
    (now : Nat) (requireSecure : Bool) (request : SessionCreateRequest) :
    ClientAuthentication → Prop where
  | secure (sec : SessionSecurity) (token : ConnectToken) (envelope : r.security = some sec)
      (service : request.service ≠ [] → sec.service = request.service)
      (matchId : request.matchId ≠ [] → sec.matchId = request.matchId)
      (bound : BoundToken r protocolId serverAddr now token) :
      Entitled r protocolId serverAddr now requireSecure request (.secure token)
  | unsecure (envelope : r.security = none) (demanded : requireSecure = false)
      (asked : request.requestsAuthentication = false) :
      Entitled r protocolId serverAddr now requireSecure request
        (.unsecure protocolId r.clientId serverAddr)

/-- The server addresses a client may connect to. -/
def ClientAuthentication.addresses : ClientAuthentication → List SocketAddr
  | .unsecure _ _ serverAddr => [serverAddr]
  | .secure token => token.serverAddresses.reduceOption

/-- A client is entitled to one address. -/
theorem Entitled.addresses {r : SessionCreateResponse} {protocolId : UInt64} {serverAddr : SocketAddr}
    {now : Nat} {requireSecure : Bool} {request : SessionCreateRequest} {auth : ClientAuthentication}
    (h : Entitled r protocolId serverAddr now requireSecure request auth) :
    auth.addresses = [serverAddr] := by
  cases h with
  | unsecure => rfl
  | secure sec token envelope service matchId bound =>
    obtain ⟨rest, hrest⟩ := List.head?_eq_some_iff.1 bound.address
    have halone := bound.alone
    rw [hrest, List.drop_succ_cons, List.drop_zero] at halone
    have hnone : rest.reduceOption = [] := by
      rw [List.reduceOption, List.filterMap_eq_nil_iff]
      exact halone
    simp only [ClientAuthentication.addresses, hrest, List.reduceOption_cons_of_some, hnone]

theorem checkToken_bound {lib : TokenLib} {r : SessionCreateResponse} {sec : SessionSecurity}
    {protocolId : UInt64} {serverAddr : SocketAddr} {transport : SessionTransport} {now : Nat}
    {auth : ClientAuthentication}
    (h : r.checkToken lib sec protocolId serverAddr transport now = .ok auth) :
    ∃ token, auth = .secure token ∧ BoundToken r protocolId serverAddr now token := by
  unfold SessionCreateResponse.checkToken at h
  split at h
  · cases h
  · split at h
    · cases h
    · split at h
      · cases h
      · split at h
        · cases h
        · rename_i token position hread
          split at h
          · cases h
          · rename_i hbinding
            split at h
            · cases h
            · rename_i htime
              cases h
              simp only [not_or, not_not, Nat.not_lt, Nat.not_le] at hbinding htime
              obtain ⟨hclient, hprotocol, hhead, hrest, -, htimeout⟩ := hbinding.2
              refine ⟨token, rfl, hclient, hprotocol, hhead, fun a ha => ?_, htimeout, htime.1, htime.2.1⟩
              cases a with
              | none => rfl
              | some a => exact absurd (List.any_eq_true.2 ⟨some a, ha, rfl⟩) (by rw [hrest]; decide)

/-- **Nothing is accepted that the client is not entitled to**, whoever answered. -/
theorem authentication_entitled {lib : TokenLib} {r : SessionCreateResponse} {protocolId : UInt64}
    {serverAddr : SocketAddr} {transport : SessionTransport} {now : Nat} {requireSecure : Bool}
    {request : SessionCreateRequest} {auth : ClientAuthentication}
    (h : r.authentication lib protocolId serverAddr transport now requireSecure request = .ok auth) :
    Entitled r protocolId serverAddr now requireSecure request auth := by
  unfold SessionCreateResponse.authentication at h
  split at h
  · cases h
  · split at h
    · cases h
    · split at h
      · rename_i hnone
        split at h
        · cases h
        · rename_i hask
          cases h
          simp only [Bool.or_eq_true, not_or, Bool.not_eq_true] at hask
          exact .unsecure hnone hask.1 hask.2
      · rename_i sec hsec
        split at h
        · cases h
        · rename_i hbinding
          simp only [not_or, not_and, not_not] at hbinding
          obtain ⟨-, -, hservice, hmatch⟩ := hbinding
          obtain ⟨token, rfl, hbound⟩ := checkToken_bound h
          exact .secure sec token hsec (fun hne => (hservice hne).symm) (fun hne => (hmatch hne).symm) hbound

/-! ## What the server makes of the request -/

/-- What is posted: the request itself, with the demand for security, and naming the
protocol where it asks for authentication. -/
structure Asked (request : SessionCreateRequest) (requireSecure : Bool) (protocolId : UInt64)
    (asked : SessionCreateRequest) : Prop where
  valid : asked.validate = .ok ()
  service : asked.service = request.service
  matchId : asked.matchId = request.matchId
  credential : asked.credential = request.credential
  requireSecure : asked.requireSecure = (request.requireSecure || requireSecure)
  protocol : asked.protocolId = if asked.requestsAuthentication then some protocolId else none
  agrees : (request.protocolId.any fun p => p != protocolId) = false

theorem forProtocol_ok {request asked : SessionCreateRequest} {requireSecure : Bool}
    {protocolId : UInt64} (h : request.forProtocol requireSecure protocolId = .ok asked) :
    Asked request requireSecure protocolId asked := by
  unfold SessionCreateRequest.forProtocol at h
  dsimp only at h
  split at h
  · cases h
  · rename_i hmismatch
    set demanded : SessionCreateRequest :=
      { request with requireSecure := request.requireSecure || requireSecure }
    cases hasks : demanded.requestsAuthentication with
    | true =>
      rw [hasks] at h
      rw [hasks, Bool.true_and, Bool.not_eq_true] at hmismatch
      simp only [if_true] at h
      split at h
      · cases h
      · rename_i hvalid
        cases h
        refine ⟨hvalid, rfl, rfl, rfl, rfl, ?_, hmismatch⟩
        simp [SessionCreateRequest.requestsAuthentication]
    | false =>
      rw [hasks] at h
      simp only [Bool.false_eq_true, if_false] at h
      split at h
      · cases h
      · rename_i hvalid
        cases h
        have hnone : request.protocolId = none := by
          simp only [SessionCreateRequest.requestsAuthentication, Bool.or_eq_false_iff] at hasks
          exact Option.isSome_eq_false_iff.1 hasks.1.1.1.2 |> Option.isNone_iff_eq_none.1
        refine ⟨hvalid, rfl, rfl, rfl, rfl, ?_, ?_⟩
        · rw [hasks]
          exact hnone
        · rw [hnone]
          rfl

/-- A body that is posted is the JSON of what is asked, within the server's limit. -/
theorem sessionRequestBody_ok {json : Json} {request : SessionCreateRequest} {requireSecure : Bool}
    {protocolId : UInt64} {body : Bytes}
    (h : sessionRequestBody json request requireSecure protocolId = .ok body) :
    ∃ asked, Asked request requireSecure protocolId asked ∧ json.writeRequest asked = some body ∧
      body.length ≤ MAX_SESSION_REQUEST_BYTES := by
  unfold sessionRequestBody at h
  split at h
  · cases h
  · rename_i asked hasked
    split at h
    · cases h
    · rename_i bytes hwrite
      split at h
      · cases h
      · rename_i hlen
        cases h
        exact ⟨asked, forProtocol_ok hasked, hwrite, Nat.not_lt.1 hlen⟩

/-- A request within the limits of `validate` is within those of its record. -/
theorem withinLimits_of_validate {r : SessionCreateRequest} (h : r.validate = .ok ()) :
    r.withinLimits = true := by
  unfold SessionCreateRequest.validate at h
  split at h
  · cases h
  · rename_i hle
    simp only [gt_iff_lt, not_or, Nat.not_lt] at hle
    simp only [SessionCreateRequest.withinLimits, Bool.and_eq_true, decide_eq_true_eq]
    exact ⟨⟨hle.2.1, hle.2.2⟩, hle.1⟩

theorem decodeRequest_write {json : Json} (hjson : json.Lawful) {r : SessionCreateRequest}
    {bytes : Bytes} (hvalid : r.validate = .ok ()) (h : json.writeRequest r = some bytes) :
    json.decodeRequest bytes = some r := by
  unfold Json.decodeRequest
  rw [(hjson.request h).2, Option.filter_some, if_pos (withinLimits_of_validate hvalid)]

end RenetCross.L3
