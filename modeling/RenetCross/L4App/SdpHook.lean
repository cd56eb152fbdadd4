import RenetCross.L3Protocol.OfferClaims
import RenetCross.L4App.WebRtcPeers

/-!
# The SDP hook and its HTTP front

`src/sdp_http.rs`: `accept_offer_and_add_peer` answers an offer and registers the
peer. `src/bootstrap.rs`: `accept_offer` claims the session first.
`src/axum_bootstrap.rs`: the two handlers over them, and the status every error is
answered with.

str0m and serde are parameters (`Signaling`): what an offer parses to, the new `Rtc`
and its answer, and the length of the response as JSON. An error of theirs is its
message. Left out: the extractors and the body limits of axum, `healthz`.
-/
namespace RenetCross.L4

open RenetCross.L2 RenetCross.L3

/-- `max_clients` and `set_max_clients` of renetcode's `NetcodeServer`. -/
class ClientLimit (N : Type) where
  maxClients : N → Nat
  setMaxClients : N → Nat → N

/-- A lower limit disconnects nobody. -/
class LawfulClientLimit (N : Type) [NetcodeServer N] [ClientLimit N] : Prop where
  setMaxClients : ∀ (n : N) limit, SameClients n (ClientLimit.setMaxClients n limit)

/-- mirrors src/sdp_http.rs:10-12 -/
structure SdpHttpHookConfig where
  localCandidateAddr : SocketAddr

/-- mirrors src/sdp_http.rs:36-40 -/
structure SdpHttpAnswerResponse where
  clientId : ClientId
  sdp : Bytes
  deriving DecidableEq, Repr

/-- mirrors src/sdp_http.rs:42-54 -/
inductive SdpHttpHookError where
  | duplicateClientId (clientId : ClientId)
  | capacityReached (maxClients : Nat)
  | invalidOffer (message : String)
  | ice (message : String)
  | rtc (message : String)
  deriving DecidableEq, Repr

def SdpHttpHookError.display : SdpHttpHookError → String
  | .duplicateClientId clientId =>
    "client " ++ toString clientId.toNat ++ " already exists in webrtc transport"
  | .capacityReached maxClients => "webrtc peer capacity reached (" ++ toString maxClients ++ ")"
  | .invalidOffer message => "invalid SDP offer: " ++ message
  | .ice message => message
  | .rtc message => message

/-- What the hook calls of str0m and serde. -/
structure Signaling (R : Type) where
  Offer : Type
  Candidate : Type
  fromSdpString : Bytes → Except String Offer
  build : Nat → R
  host : SocketAddr → Except String Candidate
  addLocalCandidate : R → Candidate → R
  acceptOffer : R → Offer → R × Except String Bytes
  jsonLength : SdpHttpAnswerResponse → Option Nat

/-- The new `Rtc` and the response; `now` is its `Instant`.
mirrors src/sdp_http.rs:83-101 -/
def Signaling.answer {R : Type} (lib : Signaling R) (clientId : ClientId) (sdp : Bytes)
    (config : SdpHttpHookConfig) (now : Nat) : Except SdpHttpHookError (R × SdpHttpAnswerResponse) :=
  match lib.fromSdpString sdp with
  | .error message => .error (.invalidOffer message)
  | .ok offer =>
    match lib.host config.localCandidateAddr with
    | .error message => .error (.ice message)
    | .ok candidate =>
      let r := lib.acceptOffer (lib.addLocalCandidate (lib.build now) candidate) offer
      match r.2 with
      | .error message => .error (.rtc message)
      | .ok answer =>
        if (lib.jsonLength ⟨clientId, answer⟩).all (fun n => decide (n > MAX_SDP_BODY_BYTES)) then
          .error (.invalidOffer "answer exceeds size limit")
        else .ok (r.1, ⟨clientId, answer⟩)

/-- An answer is for the client it was asked for, and fits a response. -/
theorem Signaling.answer_ok {R : Type} {lib : Signaling R} {c : ClientId} {sdp : Bytes}
    {config : SdpHttpHookConfig} {now : Nat} {rtc : R} {response : SdpHttpAnswerResponse}
    (h : lib.answer c sdp config now = .ok (rtc, response)) :
    response.clientId = c ∧ ∃ n ≤ MAX_SDP_BODY_BYTES, lib.jsonLength response = some n := by
  unfold Signaling.answer at h
  split at h
  · cases h
  · split at h
    · cases h
    · dsimp only at h
      split at h
      · cases h
      · split at h
        · cases h
        · rename_i answer _ hfits
          cases h
          refine ⟨rfl, ?_⟩
          cases hj : lib.jsonLength ⟨c, answer⟩ with
          | none => rw [hj] at hfits; exact absurd rfl hfits
          | some n =>
            rw [hj] at hfits
            exact ⟨n, by simpa using hfits, rfl⟩

/-- The size check both `accept_offer` and the hook make.
mirrors src/sdp_http.rs:62-66, src/bootstrap.rs:571-575 -/
def offerTooLarge (offer : BootstrapService.SdpHttpOfferRequest) : Bool :=
  decide (offer.sdp.length > MAX_SDP_BODY_BYTES) ||
    offer.sessionToken.any (fun t => decide (t.length > MAX_SESSION_TOKEN_BYTES))

namespace WebRtcState

variable {N R S W : Type} [World W] [NetcodeServer N] [ClientLimit N]

/-- mirrors src/server.rs:216-218 -/
def maxClients (s : WebRtcState N R S W) : Nat := ClientLimit.maxClients s.netcodeServer

/-- mirrors src/server.rs:220-222 -/
def setMaxClients (s : WebRtcState N R S W) (limit : Nat) : WebRtcState N R S W :=
  { s with netcodeServer := ClientLimit.setMaxClients s.netcodeServer limit }

/-- mirrors src/sdp_http.rs:56-104 -/
def acceptOfferAndAddPeer (s : WebRtcState N R S W) (lib : Signaling R) (clientId : ClientId)
    (offer : BootstrapService.SdpHttpOfferRequest) (config : SdpHttpHookConfig) (now : Nat) :
    WebRtcState N R S W × Except SdpHttpHookError SdpHttpAnswerResponse :=
  if offerTooLarge offer then (s, .error (.invalidOffer "offer exceeds size limit"))
  else if clientId ∈ s.peers then (s, .error (.duplicateClientId clientId))
  else if s.peers.len ≥ s.maxClients then (s, .error (.capacityReached s.maxClients))
  else
    match lib.answer clientId offer.sdp config now with
    | .error e => (s, .error e)
    | .ok (rtc, response) => (s.addPeer clientId rtc, .ok response)

/-- What an offer does to the transport. An offer that is refused does nothing; one
that is answered adds the peer of a client that had none, within the limit. -/
theorem acceptOfferAndAddPeer_cases (s : WebRtcState N R S W) (lib : Signaling R) (c : ClientId)
    (offer : BootstrapService.SdpHttpOfferRequest) (config : SdpHttpHookConfig) (now : Nat) :
    (∃ e, s.acceptOfferAndAddPeer lib c offer config now = (s, .error e)) ∨
      ∃ rtc answer, s.acceptOfferAndAddPeer lib c offer config now = (s.addPeer c rtc, .ok answer) ∧
        c ∉ s.peers ∧ s.peers.len < s.maxClients ∧ offerTooLarge offer = false ∧
        answer.clientId = c ∧ ∃ n ≤ MAX_SDP_BODY_BYTES, lib.jsonLength answer = some n := by
  unfold acceptOfferAndAddPeer
  split
  · exact .inl ⟨_, rfl⟩
  · rename_i hsize
    split
    · exact .inl ⟨_, rfl⟩
    · rename_i hfree
      split
      · exact .inl ⟨_, rfl⟩
      · rename_i hroom
        split
        · exact .inl ⟨_, rfl⟩
        · rename_i rtc response hanswer
          exact .inr ⟨rtc, response, rfl, hfree, by omega, by simpa using hsize,
            Signaling.answer_ok hanswer⟩

end WebRtcState

/-! ## The handlers -/

inductive StatusCode where
  | ok
  | badRequest
  | unauthorized
  | forbidden
  | notFound
  | conflict
  | payloadTooLarge
  | unprocessableEntity
  | internalServerError
  | serviceUnavailable
  deriving DecidableEq, Repr

/-- `BootstrapError::Hook` is `hook` here.
mirrors src/axum_bootstrap.rs:44-47 -/
inductive ApiError where
  | bootstrap (error : BootstrapError)
  | hook (error : SdpHttpHookError)
  | transportLockPoisoned
  deriving DecidableEq, Repr

/-- mirrors src/sdp_http.rs:127-132 -/
def SdpHttpHookError.status : SdpHttpHookError → StatusCode
  | .duplicateClientId _ => .conflict
  | .capacityReached _ => .serviceUnavailable
  | .invalidOffer _ => .badRequest
  | .ice _ => .unprocessableEntity
  | .rtc _ => .unprocessableEntity

/-- mirrors src/axum_bootstrap.rs:70-75 -/
def authStatus : BootstrapAuthError → StatusCode
  | .missingToken _ => .unauthorized
  | .invalidToken _ => .unauthorized
  | .invalidRequest => .badRequest
  | _ => .forbidden

/-- The status and the text of `ErrorBody`.
mirrors src/axum_bootstrap.rs:56-113, src/sdp_http.rs:119-141 -/
def ApiError.intoResponse : ApiError → StatusCode × String
  | .bootstrap (.unknownSession clientId) =>
    (.notFound, "unknown or expired session id: " ++ toString clientId.toNat)
  | .bootstrap (.auth error) => (authStatus error, "bootstrap authentication rejected")
  | .hook error => (error.status, error.display)
  | .bootstrap .bodyTooLarge => (.payloadTooLarge, "bootstrap body too large")
  | .bootstrap .capacity => (.serviceUnavailable, "bootstrap capacity reached")
  | .bootstrap .duplicateSession => (.conflict, "session unavailable")
  | .bootstrap .clock => (.internalServerError, "internal server error")
  | .transportLockPoisoned => (.internalServerError, "internal server error")

/-- The status a request is answered with. -/
def statusOf {α : Type} : Except ApiError α → StatusCode
  | .ok _ => .ok
  | .error e => e.intoResponse.1

/-- `decode` is `serde_json::from_slice`.
mirrors src/axum_bootstrap.rs:139-155 -/
def sessionNew {A : Type} [SessionIdAllocator A] (s : BootstrapService A) (host : Host)
    (policy : SessionAuthPolicy) (decode : Bytes → Option SessionCreateRequest) (body : Bytes)
    (now : Option Nat) (monotonic : Nat) :
    BootstrapService A × Except ApiError SessionCreateResponse :=
  match if body.isEmpty then some {} else decode body with
  | none => (s, .error (.bootstrap (.auth .invalidRequest)))
  | some request =>
    let r := s.createSessionWithRequest host policy request now monotonic
    (r.1, r.2.mapError .bootstrap)

section

variable {A N R S W : Type} [World W] [NetcodeServer N] [ClientLimit N]

/-- `accept_offer` as a whole.
mirrors src/bootstrap.rs:564-613 -/
def acceptOffer (s : BootstrapService A) (t : WebRtcState N R S W) (lib : Signaling R)
    (policy : SessionAuthPolicy) (clientId : ClientId) (offer : BootstrapService.SdpHttpOfferRequest)
    (hook : SdpHttpHookConfig) (now : Option Nat) (monotonic rtcNow : Nat) :
    BootstrapService A × WebRtcState N R S W × Except ApiError SdpHttpAnswerResponse :=
  match s.acceptOffer policy clientId offer now monotonic with
  | (s, .error e) => (s, t, .error (.bootstrap e))
  | (s, .ok ()) =>
    let r := t.acceptOfferAndAddPeer lib clientId offer hook rtcNow
    (s, r.1, r.2.mapError .hook)

/-- `poisoned`: a holder of the transport's lock has panicked.
mirrors src/axum_bootstrap.rs:157-179 -/
def webrtcOffer (poisoned : Bool) (s : BootstrapService A) (t : WebRtcState N R S W)
    (lib : Signaling R) (policy : SessionAuthPolicy) (clientId : ClientId)
    (offer : BootstrapService.SdpHttpOfferRequest) (hook : SdpHttpHookConfig) (now : Option Nat)
    (monotonic rtcNow : Nat) :
    BootstrapService A × WebRtcState N R S W × Except ApiError SdpHttpAnswerResponse :=
  if poisoned then (s, t, .error .transportLockPoisoned)
  else acceptOffer s t lib policy clientId offer hook now monotonic rtcNow

/-! ## What a status tells -/

/-- The service has refused the offer, and has at most cleaned up. -/
def Refused (s s' : BootstrapService A) (monotonic : Nat) : Prop :=
  s' = s ∨ s' = { s with registry := s.registry.cleanupAt monotonic }

/-- The session of `c` is claimed: offers that find it pending are not heard. -/
def Spent (s : BootstrapService A) (c : ClientId) : Prop :=
  ∃ d, s.registry.details.get c = some d ∧ d.offerClaimed = true

/-- The errors with which `accept_offer` refuses an offer itself. -/
def BeforeClaim : BootstrapError → Prop
  | .bodyTooLarge => True
  | .unknownSession _ => True
  | .auth _ => True
  | .clock => True
  | .capacity => False
  | .duplicateSession => False

theorem acceptOffer_beforeClaim {s s' : BootstrapService A} {policy : SessionAuthPolicy}
    {c : ClientId} {offer : BootstrapService.SdpHttpOfferRequest} {now : Option Nat}
    {monotonic : Nat} {e : BootstrapError}
    (h : s.acceptOffer policy c offer now monotonic = (s', .error e)) : BeforeClaim e := by
  unfold BootstrapService.acceptOffer at h
  split at h
  · cases h; trivial
  · split at h
    · cases h; trivial
    · dsimp only at h
      split at h
      · cases h; trivial
      · split at h
        · cases h; trivial
        · split at h
          · cases h; trivial
          · split at h
            · cases h; trivial
            · cases h

/-- The three ways a request with an offer can end. -/
theorem webrtcOffer_cases (poisoned : Bool) (s : BootstrapService A) (t : WebRtcState N R S W)
    (lib : Signaling R) (policy : SessionAuthPolicy) (c : ClientId)
    (offer : BootstrapService.SdpHttpOfferRequest) (hook : SdpHttpHookConfig) (now : Option Nat)
    (monotonic rtcNow : Nat) :
    let r := webrtcOffer poisoned s t lib policy c offer hook now monotonic rtcNow
    (Refused s r.1 monotonic ∧ r.2.1 = t ∧ ∃ e, r.2.2 = .error e ∧
        (e = .transportLockPoisoned ∨ ∃ e', e = .bootstrap e' ∧ BeforeClaim e')) ∨
      (Spent r.1 c ∧ r.2.1 = t ∧ ∃ e, r.2.2 = .error (.hook e)) ∨
      (Spent r.1 c ∧ c ∉ t.peers ∧ t.peers.len < t.maxClients ∧ (∃ rtc, r.2.1 = t.addPeer c rtc) ∧
        ∃ answer, r.2.2 = .ok answer) := by
  dsimp only
  unfold webrtcOffer
  split
  · exact .inl ⟨.inl rfl, rfl, _, rfl, .inl rfl⟩
  · unfold acceptOffer
    rcases s.acceptOffer_cases policy c offer now monotonic with ⟨e, hres, hst⟩ | ⟨n, d, -, hcl, hout⟩
    · rcases hout : s.acceptOffer policy c offer now monotonic with ⟨s', res⟩
      rw [hout] at hres hst
      cases hres
      exact .inl ⟨hst, rfl, _, rfl, .inr ⟨e, rfl, acceptOffer_beforeClaim hout⟩⟩
    · rw [hout]
      have hspent : Spent { s with registry := (s.registry.cleanupAt monotonic).claimed c d } c :=
        ⟨_, HashMap.get_insert_self .., rfl⟩
      rcases t.acceptOfferAndAddPeer_cases lib c offer hook rtcNow with
        ⟨e, hhook⟩ | ⟨rtc, answer, hhook, hfree, hroom, -⟩
      · rw [hhook]
        exact .inr (.inl ⟨hspent, rfl, e, rfl⟩)
      · rw [hhook]
        exact .inr (.inr ⟨hspent, hfree, hroom, ⟨rtc, rfl⟩, answer, rfl⟩)

theorem authStatus_mem (e : BootstrapAuthError) :
    authStatus e ∈ [StatusCode.unauthorized, .forbidden, .badRequest] := by
  cases e with
  | missingToken _ => exact List.mem_cons_self
  | invalidToken _ => exact List.mem_cons_self
  | invalidRequest => exact List.mem_cons_of_mem _ (List.mem_cons_of_mem _ List.mem_cons_self)
  | _ => exact List.mem_cons_of_mem _ List.mem_cons_self

/-- The statuses of a request that was refused before the claim, 400 apart. -/
def earlyStatuses : List StatusCode :=
  [.unauthorized, .forbidden, .notFound, .payloadTooLarge, .internalServerError]

/-- The statuses of an offer the hook refused, 400 apart. -/
def hookStatuses : List StatusCode := [.conflict, .unprocessableEntity, .serviceUnavailable]

theorem status_beforeClaim {e : BootstrapError} (h : BeforeClaim e) :
    (ApiError.bootstrap e).intoResponse.1 ∈ StatusCode.badRequest :: earlyStatuses := by
  cases e with
  | capacity => exact h.elim
  | duplicateSession => exact h.elim
  | auth error =>
    have hm := authStatus_mem error
    simp only [List.mem_cons, List.not_mem_nil, or_false] at hm
    rcases hm with hm | hm | hm <;> simp [ApiError.intoResponse, earlyStatuses, hm]
  | _ => simp [ApiError.intoResponse, earlyStatuses]

theorem status_hook (e : SdpHttpHookError) : e.status ∈ StatusCode.badRequest :: hookStatuses := by
  cases e <;> simp [SdpHttpHookError.status, hookStatuses]

theorem not_hookStatus {code : StatusCode} (h : code ∈ StatusCode.badRequest :: earlyStatuses) :
    code ≠ .ok ∧ code ∉ hookStatuses := by
  revert h
  cases code <;> decide

theorem not_earlyStatus {code : StatusCode} (h : code ∈ StatusCode.badRequest :: hookStatuses) :
    code ≠ .ok ∧ code ∉ earlyStatuses := by
  revert h
  cases code <;> decide

/-- **What the status of an offer tells**, once the request has passed axum's own
extractors. The transport changes with a 200 only: it gets a peer for a client that had
none, while it had room. A 409, 422 or 503 means that the session is spent, a 401, 403,
404, 413 or 500 that the offer was refused before the claim and may be made again. A 400
may be either. -/
theorem offer_status_tells (poisoned : Bool) (s : BootstrapService A) (t : WebRtcState N R S W)
    (lib : Signaling R) (policy : SessionAuthPolicy) (c : ClientId)
    (offer : BootstrapService.SdpHttpOfferRequest) (hook : SdpHttpHookConfig) (now : Option Nat)
    (monotonic rtcNow : Nat) :
    let r := webrtcOffer poisoned s t lib policy c offer hook now monotonic rtcNow
    (statusOf r.2.2 ≠ .ok → r.2.1 = t) ∧
      (statusOf r.2.2 = .ok → Spent r.1 c ∧ c ∉ t.peers ∧ t.peers.len < t.maxClients ∧
        ∃ rtc, r.2.1 = t.addPeer c rtc) ∧
      (statusOf r.2.2 ∈ hookStatuses → Spent r.1 c) ∧
      (statusOf r.2.2 ∈ earlyStatuses → Refused s r.1 monotonic) ∧
      (Refused s r.1 monotonic ∨ Spent r.1 c) := by
  have hcases := webrtcOffer_cases poisoned s t lib policy c offer hook now monotonic rtcNow
  dsimp only at hcases ⊢
  rcases hcases with ⟨hrefused, ht, e, hres, he⟩ | ⟨hspent, ht, e, hres⟩ |
    ⟨hspent, hfree, hroom, hadd, answer, hres⟩
  · have hearly : e.intoResponse.1 ∈ StatusCode.badRequest :: earlyStatuses := by
      rcases he with rfl | ⟨e', rfl, he'⟩
      · decide
      · exact status_beforeClaim he'
    obtain ⟨hok, hhook⟩ := not_hookStatus hearly
    rw [hres]
    exact ⟨fun _ => ht, fun h => absurd h hok, fun h => absurd h hhook, fun _ => hrefused, .inl hrefused⟩
  · obtain ⟨hok, hearly⟩ := not_earlyStatus (status_hook e)
    rw [hres]
    exact ⟨fun _ => ht, fun h => absurd h hok, fun _ => hspent, fun h => absurd h hearly, .inr hspent⟩
  · rw [hres]
    exact ⟨fun h => absurd rfl h, fun _ => ⟨hspent, hfree, hroom, hadd⟩, fun _ => hspent,
      fun h => absurd h (show StatusCode.ok ∉ earlyStatuses by decide), .inr hspent⟩

end

end RenetCross.L4
