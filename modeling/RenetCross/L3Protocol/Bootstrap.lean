import RenetCross.Core.Map
import RenetCross.L3Protocol.Session

/-!
# The bootstrap service

`src/bootstrap.rs`: the session registry and the service calls on it. A call
takes its clock readings as arguments, in the order in which the source takes
them: a wall-clock reading is `none` when the clock is before the Unix epoch, a
monotonic reading (`Instant`) is a number of nanoseconds. Everything after the
readings happens under the registry's lock.

What the service calls outside this crate is a parameter: the authorization
policy and the id allocator (traits of the source), the length of a response as
JSON, and the largest `Instant` of the platform.

A call that fails still returns the registry, since it may have been cleaned up.
The lock is never poisoned here: no call panics while it holds it.
-/
namespace RenetCross.L3

/-- mirrors src/bootstrap.rs:131-135 -/
structure BootstrapLimits where
  pendingSessions : Nat := 1024
  activeSessions : Nat := 256
  replayGrants : Nat := 8192
  deriving DecidableEq, Repr

/-- mirrors src/bootstrap.rs:145-154 -/
structure SessionDetails where
  token : Option Bytes
  grant : Option SessionGrant
  userData : Option Bytes
  offerClaimed : Bool
  expires : Option Nat
  deriving DecidableEq, Repr

/-- mirrors src/bootstrap.rs:120-127 -/
structure Registry where
  pending : HashMap ClientId Nat
  active : HashSet ClientId
  ttl : Nat
  limits : BootstrapLimits
  details : HashMap ClientId SessionDetails
  usedGrants : HashMap ReplayKey Nat

/-- mirrors src/bootstrap.rs:395-413, without the errors of the SDP hook, which
are raised after the registry has been released. -/
inductive BootstrapError where
  | capacity
  | duplicateSession
  | bodyTooLarge
  | unknownSession (clientId : ClientId)
  | auth (error : BootstrapAuthError)
  | clock
  deriving DecidableEq, Repr

namespace Registry

/-- mirrors src/bootstrap.rs:164-173 -/
def new (ttl : Nat) : Registry where
  pending := ∅
  active := ∅
  ttl := ttl
  limits := {}
  details := ∅
  usedGrants := ∅

/-- mirrors src/bootstrap.rs:175-183 -/
def withLimits (ttl : Nat) (limits : BootstrapLimits) : Except BootstrapError Registry :=
  if limits.pendingSessions = 0 ∨ limits.activeSessions = 0 ∨ limits.replayGrants = 0 then
    .error .capacity
  else .ok { new ttl with limits := limits }

/-- A pending entry `cleanup_at` keeps.
mirrors src/bootstrap.rs:257-262 -/
def keepsPending (r : Registry) (now : Nat) (id : ClientId) (started : Nat) : Bool :=
  now - started < r.ttl && (r.details.get id).all fun d => d.expires.all fun e => now < e

/-- mirrors src/bootstrap.rs:254-266 -/
def cleanupAt (r : Registry) (now : Nat) : Registry :=
  let pending := r.pending.retain (r.keepsPending now)
  { r with
    pending := pending
    details := r.details.retain fun id _ => decide (id ∈ pending) || decide (id ∈ r.active)
    usedGrants := r.usedGrants.retain fun _ expires => now < expires }

/-- No room for another session.
mirrors src/bootstrap.rs:196-197,479-480 -/
def atCapacity (r : Registry) : Bool :=
  r.pending.len ≥ r.limits.pendingSessions || r.active.len ≥ r.limits.activeSessions

/-- mirrors src/bootstrap.rs:194-206 -/
def tryIssueAt (r : Registry) (clientId : ClientId) (now : Nat) :
    Registry × Except BootstrapError Unit :=
  let r := r.cleanupAt now
  if r.atCapacity then (r, .error .capacity)
  else if clientId ∈ r.pending ∨ clientId ∈ r.active then (r, .error .duplicateSession)
  else ({ r with pending := r.pending.insert clientId now }, .ok ())

/-- mirrors src/bootstrap.rs:220-223 -/
def isPendingAt (r : Registry) (clientId : ClientId) (now : Nat) : Registry × Bool :=
  let r := r.cleanupAt now
  (r, clientId ∈ r.pending)

/-- mirrors src/bootstrap.rs:229-240 -/
def activateAt (r : Registry) (clientId : ClientId) (now : Nat) : Registry × Bool :=
  let r := r.cleanupAt now
  if r.active.len ≥ r.limits.activeSessions then (r, false)
  else if clientId ∈ r.pending then
    ({ r with pending := r.pending.remove clientId, active := r.active.insert clientId () }, true)
  else (r, false)

/-- mirrors src/bootstrap.rs:242-246 -/
def deactivate (r : Registry) (clientId : ClientId) : Registry :=
  { r with
    pending := r.pending.remove clientId
    active := r.active.remove clientId
    details := r.details.remove clientId }

end Registry

/-- The trait `SessionIdAllocator`.
mirrors src/bootstrap.rs:45-50 -/
class SessionIdAllocator (A : Type) where
  tryNextClientId : A → A × Option ClientId

/-- mirrors src/bootstrap.rs:24-26 -/
structure MonotonicClientIdAllocator where
  nextId : ClientId
  deriving DecidableEq, Repr

/-- `fetch_update` returns the previous value, and fails at `u64::MAX`.
mirrors src/bootstrap.rs:35-39 -/
def MonotonicClientIdAllocator.tryNext (a : MonotonicClientIdAllocator) :
    MonotonicClientIdAllocator × Option ClientId :=
  if a.nextId.toNat < U64_MAX then (⟨a.nextId + 1⟩, some a.nextId) else (a, none)

instance : SessionIdAllocator MonotonicClientIdAllocator := ⟨MonotonicClientIdAllocator.tryNext⟩

/-- The part of the trait `SessionAuthPolicy` the service calls. A policy may
answer differently at every call, so each call has its own.
mirrors src/bootstrap.rs:289-330 -/
structure SessionAuthPolicy where
  issueSession : ClientId → SessionCreateRequest → Nat → BootstrapConfig →
    Except BootstrapAuthError SessionIssuance
  verifyIssuedOffer : ClientId → Option Bytes → Option Bytes → Nat → Except BootstrapAuthError Unit

/-- The platform: the length of a response as JSON (`none` when it cannot be
written) and the largest `Instant`. -/
structure Host where
  jsonLength : SessionCreateResponse → Option Nat
  instantMax : Nat

/-- `Instant::checked_add`. -/
def Host.checkedAdd (host : Host) (at_ d : Nat) : Option Nat :=
  if at_ + d ≤ host.instantMax then some (at_ + d) else none

/-- The sizes of an issuance, as the issuer limits them.
mirrors src/bootstrap.rs:491-497 -/
def oversized (issued : SessionIssuance) (config : BootstrapConfig) : Bool :=
  (issued.security.any fun s =>
    decide (s.service.length > MAX_SERVICE_BYTES) || decide (s.matchId.length > MAX_MATCH_BYTES) ||
      decide (s.udpConnectToken.length > MAX_ENCODED_CONNECT_TOKEN_BYTES) ||
      decide (s.webrtcConnectToken.length > MAX_ENCODED_CONNECT_TOKEN_BYTES)) ||
    decide (config.publicHttpBase.length > 2048)

/-- `grant.map(user_data).transpose()`.
mirrors src/bootstrap.rs:512-516 -/
def grantUserData (grant : Option SessionGrant) : Except BootstrapAuthError (Option Bytes) :=
  match grant with
  | none => .ok none
  | some g =>
    match g.userData with
    | .ok data => .ok (some data)
    | .error e => .error e

/-- The fence of a grant: its key and the monotonic time at which it is lifted.
mirrors src/bootstrap.rs:517-531 -/
def replayFence (host : Host) (r : Registry) (now monotonic : Nat) (grant : Option SessionGrant) :
    Except BootstrapError (Option (ReplayKey × Nat)) :=
  match grant with
  | none => .ok none
  | some g =>
    match g.validate now with
    | .error e => .error (.auth e)
    | .ok () =>
      if g.replayKey ∈ r.usedGrants then .error (.auth .replay)
      else if r.usedGrants.len ≥ r.limits.replayGrants then .error .capacity
      else
        match host.checkedAdd monotonic
            (Duration.fromSecs (g.expiresAt.toNat - Duration.asSecs now)) with
        | none => .error (.auth .invalidGrant)
        | some expires => .ok (some (g.replayKey, expires))

/-- What `create_session_with_request` has worked out when it commits. -/
structure Prepared where
  response : SessionCreateResponse
  details : SessionDetails
  replay : Option (ReplayKey × Nat)

/-- mirrors src/bootstrap.rs:532-539 -/
def responseOf (config : BootstrapConfig) (clientId : ClientId) (issued : SessionIssuance) :
    SessionCreateResponse where
  clientId := clientId
  udpAddr := config.publicUdpAddr.display
  webrtcAddr := config.publicWebrtcAddr.display
  webrtcOfferUrl := config.offerUrl clientId
  sessionToken := issued.sessionToken
  security := issued.security

/-- The details of a session, once its user data and its fence are known.
mirrors src/bootstrap.rs:550-556 -/
def detailsOf (issued : SessionIssuance) (userData : Option Bytes)
    (replay : Option (ReplayKey × Nat)) : SessionDetails where
  token := issued.sessionToken
  grant := issued.grant
  userData := userData
  offerClaimed := false
  expires := replay.map Prod.snd

/-- The checks between the allocation of an id and the commit.
mirrors src/bootstrap.rs:488-546 -/
def prepare (host : Host) (policy : SessionAuthPolicy) (config : BootstrapConfig)
    (request : SessionCreateRequest) (now monotonic : Nat) (r : Registry) (clientId : ClientId) :
    Except BootstrapError Prepared :=
  match policy.issueSession clientId request now config with
  | .error e => .error (.auth e)
  | .ok issued =>
    if oversized issued config then .error .bodyTooLarge
    else if issued.sessionToken.any (fun t => decide (t.length > MAX_SESSION_TOKEN_BYTES)) then
      .error .bodyTooLarge
    else if issued.security.isSome ≠ issued.grant.isSome ∨
        (request.requestsAuthentication ∧ issued.security.isNone) then
      .error (.auth .admissionRequired)
    else
      match grantUserData issued.grant with
      | .error e => .error (.auth e)
      | .ok userData =>
        match replayFence host r now monotonic issued.grant with
        | .error e => .error e
        | .ok replay =>
          if (host.jsonLength (responseOf config clientId issued)).all
              (fun n => decide (n > MAX_SESSION_RESPONSE_BYTES)) then
            .error .bodyTooLarge
          else .ok ⟨responseOf config clientId issued, detailsOf issued userData replay, replay⟩

/-- mirrors src/bootstrap.rs:547-561 -/
def commit (r : Registry) (clientId : ClientId) (monotonic : Nat) (p : Prepared) :
    Registry × Except BootstrapError SessionCreateResponse :=
  match r.tryIssueAt clientId monotonic with
  | (r, .error e) => (r, .error e)
  | (r, .ok ()) =>
    ({ r with
        details := r.details.insert clientId p.details
        usedGrants := match p.replay with
          | some (key, expiry) => r.usedGrants.insert key expiry
          | none => r.usedGrants }, .ok p.response)

/-- The service, generic in its allocator.
mirrors src/bootstrap.rs:417-426 -/
structure BootstrapService (A : Type) where
  allocator : A
  registry : Registry
  config : BootstrapConfig

namespace BootstrapService

variable {A : Type} [SessionIdAllocator A]

omit [SessionIdAllocator A] in
/-- mirrors src/bootstrap.rs:434-441 -/
def new (config : BootstrapConfig) (allocator : A) : BootstrapService A where
  allocator := allocator
  registry := .new config.sessionTtl
  config := config

/-- mirrors src/bootstrap.rs:447-462 -/
def withLimits (config : BootstrapConfig) (allocator : A) (limits : BootstrapLimits) :
    Except BootstrapError (BootstrapService A) :=
  match Registry.withLimits config.sessionTtl limits with
  | .ok registry => .ok { allocator := allocator, registry := registry, config := config }
  | .error e => .error e

/-- The critical section of `create_session_with_request`, entered with the two
clock readings.
mirrors src/bootstrap.rs:474-561 -/
def createLocked (s : BootstrapService A) (host : Host) (policy : SessionAuthPolicy)
    (request : SessionCreateRequest) (now monotonic : Nat) :
    BootstrapService A × Except BootstrapError SessionCreateResponse :=
  let s := { s with registry := s.registry.cleanupAt monotonic }
  if s.registry.atCapacity then (s, .error .capacity)
  else
    match SessionIdAllocator.tryNextClientId s.allocator with
    | (allocator, none) => ({ s with allocator := allocator }, .error .capacity)
    | (allocator, some clientId) =>
      let s := { s with allocator := allocator }
      match prepare host policy s.config request now monotonic s.registry clientId with
      | .error e => (s, .error e)
      | .ok p =>
        let r := commit s.registry clientId monotonic p
        ({ s with registry := r.1 }, r.2)

/-- mirrors src/bootstrap.rs:467-562 -/
def createSessionWithRequest (s : BootstrapService A) (host : Host) (policy : SessionAuthPolicy)
    (request : SessionCreateRequest) (now : Option Nat) (monotonic : Nat) :
    BootstrapService A × Except BootstrapError SessionCreateResponse :=
  match request.validate with
  | .error e => (s, .error (.auth e))
  | .ok () =>
    match now with
    | none => (s, .error .clock)
    | some now => s.createLocked host policy request now monotonic

/-- What `accept_offer` looks at of an offer. -/
structure SdpHttpOfferRequest where
  sdp : Bytes
  sessionToken : Option Bytes

/-- `accept_offer` up to the point where the registry is released; `.ok` means
that the offer is passed on to `accept_offer_and_add_peer`, which does not touch
the registry.
mirrors src/bootstrap.rs:564-613 -/
def acceptOffer (s : BootstrapService A) (policy : SessionAuthPolicy) (clientId : ClientId)
    (offer : SdpHttpOfferRequest) (now : Option Nat) (monotonic : Nat) :
    BootstrapService A × Except BootstrapError Unit :=
  if offer.sdp.length > MAX_SDP_BODY_BYTES ∨
      offer.sessionToken.any (fun t => decide (t.length > MAX_SESSION_TOKEN_BYTES)) then
    (s, .error .bodyTooLarge)
  else
    match now with
    | none => (s, .error .clock)
    | some now =>
      let r := s.registry.isPendingAt clientId monotonic
      let s := { s with registry := r.1 }
      if !r.2 then (s, .error (.unknownSession clientId))
      else
        match s.registry.details.get clientId with
        | none => (s, .error (.unknownSession clientId))
        | some detail =>
          if detail.offerClaimed ∨
              detail.grant.any (fun g => g.expiresAt.toNat ≤ Duration.asSecs now) then
            (s, .error (.unknownSession clientId))
          else
            match policy.verifyIssuedOffer clientId offer.sessionToken detail.token now with
            | .error e => (s, .error (.auth e))
            | .ok () =>
              ({ s with registry.details :=
                  s.registry.details.insert clientId { detail with offerClaimed := true } }, .ok ())

/-- The checks of `activate_session` on a session's details.
mirrors src/bootstrap.rs:642-654 -/
def checkDetail (detail : SessionDetails) (userData : Option Bytes) (now : Nat) :
    Except BootstrapError Unit :=
  if detail.grant.any fun g => g.expiresAt.toNat ≤ Duration.asSecs now then
    .error (.auth .invalidGrant)
  else
    match detail.userData with
    | none => .ok ()
    | some expected =>
      match userData with
      | none => .error (.auth .admissionRequired)
      | some actual => if actual = expected then .ok () else .error (.auth .invalidGrant)

/-- A session without details passes.
mirrors src/bootstrap.rs:641-655 -/
def checkSession (r : Registry) (clientId : ClientId) (userData : Option Bytes) (now : Nat) :
    Except BootstrapError Unit :=
  match r.details.get clientId with
  | some detail => checkDetail detail userData now
  | none => .ok ()

/-- `pendingAt` and `activatedAt` are the readings of `is_pending` and `activate`.
mirrors src/bootstrap.rs:627-661 -/
def activateSession (s : BootstrapService A) (clientId : ClientId) (userData : Option Bytes)
    (now : Option Nat) (pendingAt activatedAt : Nat) :
    BootstrapService A × Except BootstrapError Unit :=
  match now with
  | none => (s, .error .clock)
  | some now =>
    let r := s.registry.isPendingAt clientId pendingAt
    let s := { s with registry := r.1 }
    if !r.2 then (s, .error (.unknownSession clientId))
    else
      match checkSession s.registry clientId userData now with
      | .error e => (s, .error e)
      | .ok () =>
        let r := s.registry.activateAt clientId activatedAt
        ({ s with registry := r.1 },
          if r.2 then .ok () else .error (.unknownSession clientId))

/-- mirrors src/bootstrap.rs:617-619 -/
def onClientConnected (s : BootstrapService A) (clientId : ClientId) (now : Option Nat)
    (pendingAt activatedAt : Nat) : BootstrapService A × Except BootstrapError Unit :=
  s.activateSession clientId none now pendingAt activatedAt

/-- mirrors src/bootstrap.rs:620-626 -/
def onClientConnectedWithUserData (s : BootstrapService A) (clientId : ClientId) (userData : Bytes)
    (now : Option Nat) (pendingAt activatedAt : Nat) :
    BootstrapService A × Except BootstrapError Unit :=
  s.activateSession clientId (some userData) now pendingAt activatedAt

/-- mirrors src/bootstrap.rs:662-675 -/
def sessionGrant (s : BootstrapService A) (clientId : ClientId) (monotonic : Nat) :
    BootstrapService A × Option SessionGrant :=
  let s := { s with registry := s.registry.cleanupAt monotonic }
  (s, (s.registry.details.get clientId).bind SessionDetails.grant)

/-- mirrors src/bootstrap.rs:677-681 -/
def onClientDisconnected (s : BootstrapService A) (clientId : ClientId) : BootstrapService A :=
  { s with registry := s.registry.deactivate clientId }

/-- mirrors src/bootstrap.rs:683-690 -/
def cleanupSessions (s : BootstrapService A) (monotonic : Nat) : BootstrapService A :=
  { s with registry := s.registry.cleanupAt monotonic }

/-- mirrors src/bootstrap.rs:692-698 -/
def isPendingSession (s : BootstrapService A) (clientId : ClientId) (monotonic : Nat) :
    BootstrapService A × Bool :=
  let r := s.registry.isPendingAt clientId monotonic
  ({ s with registry := r.1 }, r.2)

end BootstrapService
end RenetCross.L3
