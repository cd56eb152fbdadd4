import Mathlib.Logic.Relation
import RenetCross.Core.LTS
import RenetCross.L3Protocol.Bootstrap

/-!
# What one bootstrap call does

The cases of every call of the service: what it found when it got through, and
the registry it leaves. `Registry.Move` lists the things a call can do to the
registry, each with its guard. A call other than a disconnect is a chain of them
(`after_moves`), so what every move keeps is kept by every call.
-/
namespace RenetCross.L3

namespace Registry

variable {r : Registry} {now : Nat} {c : ClientId} {d : SessionDetails}

/-! ## Clean-ups -/

theorem mem_pending_cleanup (h : c ∈ (r.cleanupAt now).pending) : c ∈ r.pending := by
  obtain ⟨started, hs, -⟩ := HashMap.mem_retain.1 h
  exact HashMap.mem_iff_get.2 ⟨started, hs⟩

theorem cleanupAt_details : (r.cleanupAt now).details =
    r.details.retain fun id _ => decide (id ∈ (r.cleanupAt now).pending) || decide (id ∈ r.active) := rfl

theorem details_cleanup (h : (r.cleanupAt now).details.get c = some d) :
    r.details.get c = some d := by
  simp only [cleanupAt, HashMap.get_retain, Option.filter_eq_some_iff] at h
  exact h.1

/-- A session that stays pending, or is active, keeps its details. -/
theorem get_details_cleanup (h : c ∈ (r.cleanupAt now).pending ∨ c ∈ r.active) :
    (r.cleanupAt now).details.get c = r.details.get c := by
  have hkeep : (decide (c ∈ (r.cleanupAt now).pending) || decide (c ∈ r.active)) = true := by
    simpa only [Bool.or_eq_true, decide_eq_true_eq] using h
  simp only [cleanupAt, HashMap.get_retain] at hkeep ⊢
  cases hd : r.details.get c with
  | none => rfl
  | some d => exact Option.filter_some_pos hkeep

theorem mem_details_cleanup :
    c ∈ (r.cleanupAt now).details ↔
      c ∈ r.details ∧ (c ∈ (r.cleanupAt now).pending ∨ c ∈ r.active) := by
  simp only [cleanupAt, HashMap.mem_retain, Bool.or_eq_true, decide_eq_true_eq]
  constructor
  · intro h
    obtain ⟨d, hd, hkeep⟩ := h
    exact ⟨HashMap.mem_iff_get.2 ⟨d, hd⟩, hkeep⟩
  · intro h
    obtain ⟨hd, hkeep⟩ := h
    obtain ⟨d, hd⟩ := HashMap.mem_iff_get.1 hd
    exact ⟨d, hd, hkeep⟩

theorem usedGrants_cleanup {key : ReplayKey} {fence : Nat}
    (h : r.usedGrants.get key = some fence) (hlt : now < fence) :
    (r.cleanupAt now).usedGrants.get key = some fence := by
  simp only [cleanupAt, HashMap.get_retain, Option.filter_eq_some_iff]
  exact ⟨h, by simpa using hlt⟩

theorem keepsPending_iff {started : Nat} :
    r.keepsPending now c started = true ↔
      now - started < r.ttl ∧
        ∀ d, r.details.get c = some d → ∀ e, d.expires = some e → now < e := by
  simp only [keepsPending, Bool.and_eq_true, decide_eq_true_eq, Option.all_eq_true]

/-- What stays pending at two clean-ups is worth keeping at the later time. -/
theorem keepsPending_cleanup (a b : Nat) {started : Nat} (hp : r.pending.get c = some started) :
    (r.keepsPending a c started && (r.cleanupAt a).keepsPending b c started) =
      r.keepsPending (max a b) c started := by
  rw [Bool.eq_iff_iff, Bool.and_eq_true]
  constructor
  · intro h
    obtain ⟨ha, hb⟩ := h
    have hmem : c ∈ (r.cleanupAt a).pending := HashMap.mem_retain.2 ⟨started, hp, ha⟩
    rw [keepsPending_iff, get_details_cleanup (.inl hmem)] at hb
    rw [keepsPending_iff] at ha ⊢
    have hb1 : b - started < r.ttl := hb.1
    refine ⟨by omega, fun d hd e he => ?_⟩
    exact Nat.max_lt.2 ⟨ha.2 d hd e he, hb.2 d hd e he⟩
  · intro hmax
    rw [keepsPending_iff] at hmax
    have ha : r.keepsPending a c started = true := by
      rw [keepsPending_iff]
      exact ⟨by omega, fun d hd e he => Nat.lt_of_le_of_lt (Nat.le_max_left a b) (hmax.2 d hd e he)⟩
    refine ⟨ha, ?_⟩
    have hmem : c ∈ (r.cleanupAt a).pending := HashMap.mem_retain.2 ⟨started, hp, ha⟩
    rw [keepsPending_iff, get_details_cleanup (.inl hmem)]
    have hb : b - started < r.ttl := by omega
    exact ⟨hb, fun d hd e he => Nat.lt_of_le_of_lt (Nat.le_max_right a b) (hmax.2 d hd e he)⟩

/-- Two clean-ups are one at the later time, in whatever order they ran. -/
theorem cleanupAt_cleanupAt (r : Registry) (a b : Nat) :
    (r.cleanupAt a).cleanupAt b = r.cleanupAt (max a b) := by
  have hp : ((r.cleanupAt a).cleanupAt b).pending = (r.cleanupAt (max a b)).pending := by
    simp only [cleanupAt, HashMap.retain_retain]
    exact HashMap.retain_congr fun c started hs => keepsPending_cleanup a b hs
  have hd : ((r.cleanupAt a).cleanupAt b).details = (r.cleanupAt (max a b)).details := by
    rw [cleanupAt_details, cleanupAt_details, cleanupAt_details, HashMap.retain_retain, hp]
    refine HashMap.retain_congr fun c d _ => ?_
    rw [Bool.eq_iff_iff]
    simp only [Bool.and_eq_true, Bool.or_eq_true, decide_eq_true_eq]
    constructor
    · exact fun h => h.2
    · intro h
      refine ⟨h.imp_left fun hc => ?_, h⟩
      have hc' : c ∈ ((r.cleanupAt a).cleanupAt b).pending := hp ▸ hc
      exact mem_pending_cleanup hc'
  have hu : ((r.cleanupAt a).cleanupAt b).usedGrants = (r.cleanupAt (max a b)).usedGrants := by
    simp only [cleanupAt, HashMap.retain_retain]
    refine HashMap.retain_congr fun key fence _ => ?_
    rw [Bool.eq_iff_iff]
    simp only [Bool.and_eq_true, decide_eq_true_eq]
    omega
  change { r with
    pending := ((r.cleanupAt a).cleanupAt b).pending
    details := ((r.cleanupAt a).cleanupAt b).details
    usedGrants := ((r.cleanupAt a).cleanupAt b).usedGrants } = r.cleanupAt (max a b)
  rw [hp, hd, hu]
  rfl

theorem cleanupAt_of_le {a b : Nat} (h : a ≤ b) : (r.cleanupAt a).cleanupAt b = r.cleanupAt b := by
  rw [cleanupAt_cleanupAt, Nat.max_eq_right h]

end Registry

/-! ## Creating a session -/

/-- What has passed when `prepare` succeeds. -/
theorem prepare_ok {host : Host} {policy : SessionAuthPolicy} {config : BootstrapConfig}
    {request : SessionCreateRequest} {now t : Nat} {r : Registry} {c : ClientId} {p : Prepared}
    (h : prepare host policy config request now t r c = .ok p) :
    ∃ issued userData replay, policy.issueSession c request now config = .ok issued ∧
      oversized issued config = false ∧
      (∀ token, issued.sessionToken = some token → token.length ≤ MAX_SESSION_TOKEN_BYTES) ∧
      grantUserData issued.grant = .ok userData ∧
      replayFence host r now t issued.grant = .ok replay ∧
      p = ⟨responseOf config c issued, detailsOf issued userData replay, replay⟩ := by
  unfold prepare at h
  cases hi : policy.issueSession c request now config with
  | error e => rw [hi] at h; cases h
  | ok issued =>
    rw [hi] at h
    simp only at h
    split at h
    · cases h
    · rename_i hsize
      split at h
      · cases h
      · rename_i htoken
        split at h
        · cases h
        · cases hu : grantUserData issued.grant with
          | error e => rw [hu] at h; cases h
          | ok userData =>
            cases hf : replayFence host r now t issued.grant with
            | error e => rw [hu, hf] at h; cases h
            | ok replay =>
              rw [hu, hf] at h
              simp only at h
              split at h
              · cases h
              · cases h
                refine ⟨issued, userData, replay, rfl, by simpa using hsize, fun token ht => ?_, hu,
                  hf, rfl⟩
                simpa [ht] using htoken

/-- The fence of a valid grant that was not used yet. -/
theorem replayFence_ok {host : Host} {r : Registry} {now t : Nat} {g : SessionGrant}
    {replay : Option (ReplayKey × Nat)} (h : replayFence host r now t (some g) = .ok replay) :
    Duration.asSecs now < g.expiresAt.toNat ∧ g.replayKey ∉ r.usedGrants ∧
      r.usedGrants.len < r.limits.replayGrants ∧ replay = some (g.replayKey,
        t + Duration.fromSecs (g.expiresAt.toNat - Duration.asSecs now)) := by
  simp only [replayFence] at h
  cases hv : g.validate now with
  | error e => rw [hv] at h; cases h
  | ok _ =>
    rw [hv] at h
    simp only at h
    split at h
    · cases h
    · rename_i hused
      split at h
      · cases h
      · rename_i hroom
        split at h
        · cases h
        · rename_i expires hadd
          cases h
          unfold Host.checkedAdd at hadd
          split at hadd
          · cases hadd; exact ⟨g.validate_lt hv, hused, Nat.lt_of_not_le hroom, rfl⟩
          · cases hadd

/-- What a session that passed all checks carries. -/
theorem prepare_grant {host : Host} {policy : SessionAuthPolicy} {config : BootstrapConfig}
    {request : SessionCreateRequest} {now t : Nat} {r : Registry} {c : ClientId} {p : Prepared}
    (h : prepare host policy config request now t r c = .ok p) :
    p.response.clientId = c ∧
      ∃ issued, policy.issueSession c request now config = .ok issued ∧ p.details.grant = issued.grant ∧
        match issued.grant with
        | none => p.replay = none
        | some g => Duration.asSecs now < g.expiresAt.toNat ∧ g.replayKey ∉ r.usedGrants ∧
          r.usedGrants.len < r.limits.replayGrants ∧
          (∃ data, p.details.userData = some data ∧ g.userData = .ok data) ∧
          p.replay = some (g.replayKey,
            t + Duration.fromSecs (g.expiresAt.toNat - Duration.asSecs now)) := by
  obtain ⟨issued, userData, replay, hi, -, -, hu, hf, rfl⟩ := prepare_ok h
  refine ⟨rfl, issued, hi, rfl, ?_⟩
  cases hg : issued.grant with
  | none => rw [hg] at hf; cases hf; rfl
  | some g =>
    rw [hg] at hf hu
    obtain ⟨h1, h2, h3, h4⟩ := replayFence_ok hf
    refine ⟨h1, h2, h3, ?_, h4⟩
    simp only [grantUserData] at hu
    split at hu
    · rename_i data hd; cases hu; exact ⟨data, rfl, hd⟩
    · cases hu

/-- A fence is only set where there is room for it. -/
theorem prepare_room {host : Host} {policy : SessionAuthPolicy} {config : BootstrapConfig}
    {request : SessionCreateRequest} {now t : Nat} {r : Registry} {c : ClientId} {p : Prepared}
    (h : prepare host policy config request now t r c = .ok p) {key : ReplayKey} {fence : Nat}
    (hr : p.replay = some (key, fence)) : r.usedGrants.len < r.limits.replayGrants := by
  obtain ⟨-, issued, -, -, hfence⟩ := prepare_grant h
  cases hg : issued.grant with
  | none => rw [hg] at hfence; rw [hfence] at hr; cases hr
  | some g => rw [hg] at hfence; exact hfence.2.2.1

/-- There is room for a session under the id `c`, which is not in use. -/
structure Registry.Vacant (r : Registry) (c : ClientId) : Prop where
  pendingRoom : r.pending.len < r.limits.pendingSessions
  activeRoom : r.active.len < r.limits.activeSessions
  notPending : c ∉ r.pending
  notActive : c ∉ r.active

/-- The registry after a session was committed. -/
def Registry.issued (r : Registry) (c : ClientId) (t : Nat) (p : Prepared) : Registry :=
  { r with
    pending := r.pending.insert c t
    details := r.details.insert c p.details
    usedGrants := match p.replay with
      | some (key, expiry) => r.usedGrants.insert key expiry
      | none => r.usedGrants }

/-- The id is in use, there is no room, or the session is committed; the clean-up
that `create_session_with_request` ran before is not repeated to any effect. -/
theorem commit_spec (r : Registry) (c : ClientId) (t : Nat) (p : Prepared) :
    (∃ e, commit (r.cleanupAt t) c t p = (r.cleanupAt t, .error e)) ∨
      ((r.cleanupAt t).Vacant c ∧
        commit (r.cleanupAt t) c t p = ((r.cleanupAt t).issued c t p, .ok p.response)) := by
  unfold commit Registry.tryIssueAt
  simp only [Registry.cleanupAt_of_le (Nat.le_refl t)]
  by_cases h1 : (r.cleanupAt t).atCapacity = true
  · rw [if_pos h1]; exact .inl ⟨_, rfl⟩
  · by_cases h2 : c ∈ (r.cleanupAt t).pending ∨ c ∈ (r.cleanupAt t).active
    · rw [if_neg h1, if_pos h2]; exact .inl ⟨_, rfl⟩
    · rw [if_neg h1, if_neg h2]
      simp only [Registry.atCapacity, ge_iff_le, Bool.or_eq_true, decide_eq_true_eq, not_or,
        Nat.not_le] at h1
      simp only [not_or] at h2
      exact .inr ⟨⟨h1.1, h1.2, h2.1, h2.2⟩, rfl⟩

namespace BootstrapService

variable {A : Type} [SessionIdAllocator A]

/-- A create call: it fails with at most a clean-up and an id spent, or it issues
a session under the id the allocator gave. -/
theorem create_cases (v : BootstrapService A) (host : Host) (policy : SessionAuthPolicy)
    (request : SessionCreateRequest) (now : Option Nat) (t : Nat) :
    let r := v.registry.cleanupAt t
    let next := SessionIdAllocator.tryNextClientId v.allocator
    let out := v.createSessionWithRequest host policy request now t
    (∃ e, out.2 = .error e ∧ (out.1 = v ∨ ∃ a, (a = v.allocator ∨ a = next.1) ∧
      out.1 = { v with allocator := a, registry := r })) ∨
    ∃ n c p, request.validate = .ok () ∧ now = some n ∧ next.2 = some c ∧
      prepare host policy v.config request n t r c = .ok p ∧ r.Vacant c ∧
      out = ({ v with allocator := next.1, registry := r.issued c t p }, .ok p.response) := by
  dsimp only
  unfold createSessionWithRequest
  cases request.validate with
  | error e => exact .inl ⟨_, rfl, .inl rfl⟩
  | ok _ =>
    cases now with
    | none => exact .inl ⟨_, rfl, .inl rfl⟩
    | some n =>
      simp only [createLocked]
      by_cases hcap : (v.registry.cleanupAt t).atCapacity = true
      · rw [if_pos hcap]
        exact .inl ⟨_, rfl, .inr ⟨v.allocator, .inl rfl, rfl⟩⟩
      · rw [if_neg hcap]
        rcases hnext : SessionIdAllocator.tryNextClientId v.allocator with ⟨a, _ | c⟩
        · exact .inl ⟨_, rfl, .inr ⟨a, .inr rfl, rfl⟩⟩
        · cases hp : prepare host policy v.config request n t (v.registry.cleanupAt t) c with
          | error e =>
            simp only [hp]
            exact .inl ⟨_, rfl, .inr ⟨a, .inr rfl, rfl⟩⟩
          | ok p =>
            rcases commit_spec v.registry c t p with ⟨e, hc⟩ | ⟨hvac, hc⟩
            · simp only [hp, hc]
              exact .inl ⟨_, rfl, .inr ⟨a, .inr rfl, rfl⟩⟩
            · simp only [hp, hc]
              exact .inr ⟨n, c, p, trivial, rfl, rfl, hp, hvac, rfl⟩

end BootstrapService

/-! ## Claiming an offer -/

/-- The registry after the offer of a session was claimed. -/
def Registry.claimed (r : Registry) (c : ClientId) (d : SessionDetails) : Registry :=
  { r with details := r.details.insert c { d with offerClaimed := true } }

/-- What `accept_offer` has seen when it claims the session. -/
structure Claimable (r : Registry) (policy : SessionAuthPolicy) (c : ClientId)
    (presented : Option Bytes) (now : Nat) (d : SessionDetails) : Prop where
  pending : c ∈ r.pending
  detail : r.details.get c = some d
  unclaimed : d.offerClaimed = false
  unexpired : ∀ g, d.grant = some g → Duration.asSecs now < g.expiresAt.toNat
  verified : policy.verifyIssuedOffer c presented d.token now = .ok ()

/-- An offer is refused with at most a clean-up, or it claims the session. -/
theorem BootstrapService.acceptOffer_cases {A : Type} (v : BootstrapService A)
    (policy : SessionAuthPolicy) (c : ClientId) (offer : SdpHttpOfferRequest) (now : Option Nat)
    (t : Nat) :
    let r := v.registry.cleanupAt t
    let out := v.acceptOffer policy c offer now t
    (∃ e, out.2 = .error e ∧ (out.1 = v ∨ out.1 = { v with registry := r })) ∨
      ∃ n d, now = some n ∧ Claimable r policy c offer.sessionToken n d ∧
        out = ({ v with registry := r.claimed c d }, .ok ()) := by
  dsimp only
  unfold acceptOffer
  split
  · exact .inl ⟨_, rfl, .inl rfl⟩
  · cases now with
    | none => exact .inl ⟨_, rfl, .inl rfl⟩
    | some n =>
      simp only [Registry.isPendingAt]
      by_cases hp : c ∈ (v.registry.cleanupAt t).pending
      swap
      · simp only [hp, decide_false, Bool.not_false, if_true]
        exact .inl ⟨_, rfl, .inr trivial⟩
      simp only [hp, decide_true, Bool.not_true, Bool.false_eq_true, if_false]
      cases hd : (v.registry.cleanupAt t).details.get c with
      | none => exact .inl ⟨_, rfl, .inr rfl⟩
      | some d =>
        dsimp only
        split
        · exact .inl ⟨_, rfl, .inr rfl⟩
        · rename_i hopen
          simp only [not_or, Bool.not_eq_true, Option.any_eq_false, decide_eq_false_iff_not,
            Nat.not_le] at hopen
          cases hv : policy.verifyIssuedOffer c offer.sessionToken d.token n with
          | error e => exact .inl ⟨_, rfl, .inr rfl⟩
          | ok _ => exact .inr ⟨n, d, rfl, ⟨hp, hd, hopen.1, hopen.2, hv⟩, rfl⟩

/-! ## Activating a session -/

/-- The registry after a session was activated. -/
def Registry.activated (r : Registry) (c : ClientId) : Registry :=
  { r with pending := r.pending.remove c, active := r.active.insert c () }

theorem activateAt_spec (r : Registry) (c : ClientId) (now : Nat) :
    let r' := r.cleanupAt now
    r.activateAt c now = (r', false) ∨
      (c ∈ r'.pending ∧ r'.active.len < r'.limits.activeSessions ∧
        r.activateAt c now = (r'.activated c, true)) := by
  dsimp only
  unfold Registry.activateAt
  dsimp only
  split
  · exact .inl rfl
  · rename_i hroom
    split
    · rename_i hp; exact .inr ⟨hp, Nat.lt_of_not_le hroom, rfl⟩
    · exact .inl rfl

/-- An activation: it fails and leaves what its clean-ups left, or the session
was pending, its details passed the checks, and it moves to the active set. -/
theorem BootstrapService.activateSession_cases {A : Type} (v : BootstrapService A) (c : ClientId)
    (userData : Option Bytes) (now : Option Nat) (t₂ t₃ : Nat) :
    let r₂ := v.registry.cleanupAt t₂
    let r₃ := r₂.cleanupAt t₃
    let out := v.activateSession c userData now t₂ t₃
    (∃ e, out.2 = .error e ∧ (out.1 = v ∨ out.1 = { v with registry := r₂ } ∨
      out.1 = { v with registry := r₃ })) ∨
    ∃ n, now = some n ∧ c ∈ r₃.pending ∧ r₃.active.len < r₃.limits.activeSessions ∧
      checkSession r₂ c userData n = .ok () ∧
      out = ({ v with registry := r₃.activated c }, .ok ()) := by
  dsimp only
  unfold activateSession
  cases now with
  | none => exact .inl ⟨_, rfl, .inl rfl⟩
  | some n =>
    by_cases hpend : c ∈ (v.registry.cleanupAt t₂).pending
    swap
    · simp only [Registry.isPendingAt, hpend, decide_false, Bool.not_false, if_true]
      exact .inl ⟨_, rfl, .inr (.inl trivial)⟩
    · simp only [Registry.isPendingAt, hpend, decide_true, Bool.not_true, Bool.false_eq_true, if_false]
      cases hchk : checkSession (v.registry.cleanupAt t₂) c userData n with
      | error e => exact .inl ⟨_, rfl, .inr (.inl rfl)⟩
      | ok _ =>
        rcases activateAt_spec (v.registry.cleanupAt t₂) c t₃ with hact | ⟨hp, hroom, hact⟩
        · simp only [hact]
          exact .inl ⟨_, rfl, .inr (.inr trivial)⟩
        · simp only [hact]
          exact .inr ⟨n, rfl, hp, hroom, hchk, rfl⟩

/-- The checks on the details of a session issued under a grant. -/
theorem checkDetail_ok {d : SessionDetails} {userData : Option Bytes} {now : Nat} {g : SessionGrant}
    {data : Bytes} (hg : d.grant = some g) (hd : d.userData = some data)
    (h : BootstrapService.checkDetail d userData now = .ok ()) :
    Duration.asSecs now < g.expiresAt.toNat ∧ userData = some data := by
  unfold BootstrapService.checkDetail at h
  rw [hg, hd] at h
  split at h
  · cases h
  · rename_i hexp
    refine ⟨by simpa using hexp, ?_⟩
    dsimp only at h
    split at h
    · cases h
    · split at h
      · rename_i heq; rw [heq]
      · cases h

/-! ## Calls and moves -/

/-- A call of the service with its clock readings, whatever they are. -/
inductive ServiceCall where
  | create (policy : SessionAuthPolicy) (request : SessionCreateRequest) (now : Option Nat)
      (monotonic : Nat)
  | acceptOffer (policy : SessionAuthPolicy) (clientId : ClientId)
      (offer : BootstrapService.SdpHttpOfferRequest) (now : Option Nat) (monotonic : Nat)
  | activate (clientId : ClientId) (userData : Option Bytes) (now : Option Nat)
      (pendingAt activatedAt : Nat)
  | sessionGrant (clientId : ClientId) (monotonic : Nat)
  | disconnected (clientId : ClientId)
  | cleanup (monotonic : Nat)
  | isPending (clientId : ClientId) (monotonic : Nat)

/-- One thing a call does to the registry. -/
inductive Registry.Move (r : Registry) : Registry → Prop
  | cleanup (t : Nat) : Move r (r.cleanupAt t)
  | issue {c : ClientId} {t : Nat} {p : Prepared} : r.Vacant c →
      (∀ key fence, p.replay = some (key, fence) → r.usedGrants.len < r.limits.replayGrants) →
      Move r (r.issued c t p)
  | claim {c : ClientId} {d : SessionDetails} : c ∈ r.pending → r.details.get c = some d →
      Move r (r.claimed c d)
  | activate {c : ClientId} : c ∈ r.pending → r.active.len < r.limits.activeSessions →
      Move r (r.activated c)

namespace BootstrapService

variable {A : Type} [SessionIdAllocator A]

/-- The service after a call. -/
def after (v : BootstrapService A) (host : Host) : ServiceCall → BootstrapService A
  | .create policy request now t => (v.createSessionWithRequest host policy request now t).1
  | .acceptOffer policy c offer now t => (v.acceptOffer policy c offer now t).1
  | .activate c userData now t₂ t₃ => (v.activateSession c userData now t₂ t₃).1
  | .sessionGrant c t => (v.sessionGrant c t).1
  | .disconnected c => v.onClientDisconnected c
  | .cleanup t => v.cleanupSessions t
  | .isPending c t => (v.isPendingSession c t).1

/-- Calls one after the other on a service of either constructor. -/
def calls (A : Type) [SessionIdAllocator A] (host : Host) : LTS (BootstrapService A) ServiceCall where
  init v := (∃ config allocator, v = new config allocator) ∨
    ∃ config allocator limits, withLimits config allocator limits = .ok v
  step v call v' := v' = v.after host call

/-- A service begins with an empty registry. -/
theorem calls_init {host : Host} {v : BootstrapService A} (h : (calls A host).init v) :
    ∃ ttl limits, v.registry = { Registry.new ttl with limits := limits } := by
  rcases h with ⟨config, allocator, rfl⟩ | ⟨config, allocator, limits, hv⟩
  · exact ⟨_, _, rfl⟩
  · unfold withLimits Registry.withLimits at hv
    split at hv
    · rename_i registry hr
      cases hv
      split at hr
      · cases hr
      · cases hr; exact ⟨_, _, rfl⟩
    · cases hv

/-- A call that is not a disconnect moves the registry along. -/
theorem after_moves (v : BootstrapService A) (host : Host) {call : ServiceCall}
    (h : ∀ c, call ≠ .disconnected c) :
    Relation.ReflTransGen Registry.Move v.registry (v.after host call).registry := by
  have hclean : ∀ t, Relation.ReflTransGen Registry.Move v.registry (v.registry.cleanupAt t) :=
    fun t => .single (.cleanup t)
  cases call with
  | create policy request now t =>
    rcases v.create_cases host policy request now t with
      ⟨e, -, hst | ⟨a, -, hst⟩⟩ | ⟨n, c, p, -, -, -, hprep, hvac, hout⟩
    · simp only [after, hst]; exact .refl
    · simp only [after, hst]; exact hclean t
    · simp only [after, hout]
      exact (hclean t).tail (.issue hvac fun key fence hr => prepare_room hprep hr)
  | acceptOffer policy c offer now t =>
    rcases v.acceptOffer_cases policy c offer now t with ⟨e, -, hst | hst⟩ | ⟨n, d, -, hd, hout⟩
    · simp only [after, hst]; exact .refl
    · simp only [after, hst]; exact hclean t
    · simp only [after, hout]
      exact (hclean t).tail (.claim hd.pending hd.detail)
  | activate c userData now t₂ t₃ =>
    have hclean₂ := (hclean t₂).tail (.cleanup t₃)
    rcases v.activateSession_cases c userData now t₂ t₃ with
      ⟨e, -, hst | hst | hst⟩ | ⟨n, -, hp, hroom, -, hout⟩
    · simp only [after, hst]; exact .refl
    · simp only [after, hst]; exact hclean t₂
    · simp only [after, hst]; exact hclean₂
    · simp only [after, hout]
      exact hclean₂.tail (.activate hp hroom)
  | sessionGrant c t => exact hclean t
  | disconnected c => exact absurd rfl (h c)
  | cleanup t => exact hclean t
  | isPending c t => exact hclean t

end BootstrapService

/-! ## A desk -/

/-- A ticket for one match, good until second 100. -/
def matchTicket : SessionGrant where
  protocolId := 7
  service := [1]
  matchId := [2]
  expiresAt := 100
  replayKey := Vector.replicate 32 0
  application := []

/-- A policy that admits everybody with that ticket. -/
def ticketDesk : SessionAuthPolicy where
  issueSession _ _ _ _ := .ok
    { sessionToken := none
      security := some ⟨7, [1], [2], 100, [], []⟩
      grant := some matchTicket }
  verifyIssuedOffer _ _ _ _ := .ok ()

def deskHost : Host := ⟨fun _ => some 512, U64_MAX⟩

def deskConfig : BootstrapConfig :=
  ⟨Duration.fromSecs 120, .v4 ⟨127, 0, 0, 1⟩ 5000, .v4 ⟨127, 0, 0, 1⟩ 5001, []⟩

end RenetCross.L3
