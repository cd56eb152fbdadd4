import RenetCross.Core.LTS
import RenetCross.L3Protocol.BootstrapCalls

/-!
# One ticket admits at most one player

Runs of `BootstrapService` calls, one at a time, with the monotonic allocator and
any policy whose grants carry one expiry per replay key. The clocks advance in
step: at monotonic time `t` the wall clock shows `epoch + t` nanoseconds since
the Unix epoch.

The replay fence lives in monotonic time, the validity checks in whole wall
seconds. The link is `fenced`: a fence set with the readings of one `create`
call is lifted only at a time when the wall clock has reached `expires_at`, and
then no session of that ticket passes the expiry check any more. Until then the
fence keeps a second session from being issued (`sole`), and a session leaves
`pending` when it is activated and its id is never issued again (`spent`).
-/
namespace RenetCross.L3

/-- The wall clock at monotonic time `t`. -/
def unixNow (epoch : Int) (t : Nat) : Option Nat :=
  if 0 ≤ epoch + t then some (epoch + t).toNat else none

/-- A successful activation. -/
structure Activation where
  clientId : ClientId
  userData : Option Bytes
  now : Nat

/-- The service with the time of the last reading, the grants its sessions were
issued under, and the activations so far. -/
structure TicketRun where
  service : BootstrapService MonotonicClientIdAllocator
  time : Nat
  grants : List (ClientId × SessionGrant)
  activations : List Activation

/-- A call with the monotonic times of its clock readings. -/
inductive Call where
  | create (policy : SessionAuthPolicy) (request : SessionCreateRequest) (t₁ t₂ : Nat)
  | acceptOffer (policy : SessionAuthPolicy) (clientId : ClientId)
      (offer : BootstrapService.SdpHttpOfferRequest) (t₁ t₂ : Nat)
  | connected (clientId : ClientId) (t₁ t₂ t₃ : Nat)
  | connectedWithUserData (clientId : ClientId) (userData : Bytes) (t₁ t₂ t₃ : Nat)
  | disconnected (clientId : ClientId)
  | cleanup (t : Nat)
  | isPending (clientId : ClientId) (t : Nat)
  | sessionGrant (clientId : ClientId) (t : Nat)

def Call.readings : Call → List Nat
  | .create _ _ t₁ t₂ => [t₁, t₂]
  | .acceptOffer _ _ _ t₁ t₂ => [t₁, t₂]
  | .connected _ t₁ t₂ t₃ => [t₁, t₂, t₃]
  | .connectedWithUserData _ _ t₁ t₂ t₃ => [t₁, t₂, t₃]
  | .disconnected _ => []
  | .cleanup t => [t]
  | .isPending _ t => [t]
  | .sessionGrant _ t => [t]

/-- The policy of a call gives every grant the expiry of its replay key. -/
def Call.Fixed (expiry : ReplayKey → UInt64) : Call → Prop
  | .create policy _ _ _ => ∀ clientId request now config issued g,
      policy.issueSession clientId request now config = .ok issued → issued.grant = some g →
      g.expiresAt = expiry g.replayKey
  | _ => True

namespace TicketRun

/-- The grant a session just issued is under. -/
def issuedGrant (service : BootstrapService MonotonicClientIdAllocator) (clientId : ClientId) :
    List (ClientId × SessionGrant) :=
  match (service.registry.details.get clientId).bind SessionDetails.grant with
  | some g => [(clientId, g)]
  | none => []

def create (s : TicketRun) (host : Host) (epoch : Int) (policy : SessionAuthPolicy)
    (request : SessionCreateRequest) (t₁ t₂ : Nat) : TicketRun :=
  let r := s.service.createSessionWithRequest host policy request (unixNow epoch t₁) t₂
  { s with
    service := r.1
    time := t₂
    grants := match r.2 with
      | .ok response => issuedGrant r.1 response.clientId ++ s.grants
      | .error _ => s.grants }

def activate (s : TicketRun) (epoch : Int) (clientId : ClientId) (userData : Option Bytes)
    (t₁ t₃ : Nat) (r : BootstrapService MonotonicClientIdAllocator × Except BootstrapError Unit) :
    TicketRun :=
  { s with
    service := r.1
    time := t₃
    activations := match r.2, unixNow epoch t₁ with
      | .ok (), some now => ⟨clientId, userData, now⟩ :: s.activations
      | _, _ => s.activations }

def step (host : Host) (epoch : Int) (s : TicketRun) : Call → TicketRun
  | .create policy request t₁ t₂ => s.create host epoch policy request t₁ t₂
  | .acceptOffer policy clientId offer t₁ t₂ =>
    { s with
      service := (s.service.acceptOffer policy clientId offer (unixNow epoch t₁) t₂).1
      time := t₂ }
  | .connected clientId t₁ t₂ t₃ =>
    s.activate epoch clientId none t₁ t₃
      (s.service.onClientConnected clientId (unixNow epoch t₁) t₂ t₃)
  | .connectedWithUserData clientId userData t₁ t₂ t₃ =>
    s.activate epoch clientId (some userData) t₁ t₃
      (s.service.onClientConnectedWithUserData clientId userData (unixNow epoch t₁) t₂ t₃)
  | .disconnected clientId => { s with service := s.service.onClientDisconnected clientId }
  | .cleanup t => { s with service := s.service.cleanupSessions t, time := t }
  | .isPending clientId t => { s with service := (s.service.isPendingSession clientId t).1, time := t }
  | .sessionGrant clientId t => { s with service := (s.service.sessionGrant clientId t).1, time := t }

/-- A fresh service of either constructor. -/
def Fresh (s : TicketRun) : Prop :=
  s.grants = [] ∧ s.activations = [] ∧
    s.service.registry.pending = ∅ ∧ s.service.registry.active = ∅ ∧
    s.service.registry.details = ∅ ∧ s.service.registry.usedGrants = ∅

/-- Calls one at a time, at readings that never go back. -/
def runs (host : Host) (epoch : Int) (expiry : ReplayKey → UInt64) : LTS TicketRun Call where
  init := Fresh
  step s c s' := (s.time :: c.readings).Pairwise (· ≤ ·) ∧ c.Fixed expiry ∧ s' = s.step host epoch c

/-- The activation is of a session issued under `key`. -/
def under (s : TicketRun) (key : ReplayKey) (a : Activation) : Bool :=
  s.grants.any fun x => decide (x.1 = a.clientId) && decide (x.2.replayKey = key)

end TicketRun

/-! ## The invariant -/

/-- The wall clock has not reached second `e` at monotonic time `t`. -/
def Unexpired (epoch : Int) (t : Nat) (e : UInt64) : Prop :=
  epoch + (t : Int) < (Duration.fromSecs e.toNat : Int)

theorem Unexpired.mono {epoch : Int} {t t' : Nat} {e : UInt64} (h : Unexpired epoch t' e)
    (hle : t ≤ t') : Unexpired epoch t e := by
  unfold Unexpired at *; omega

/-- A validity check in whole seconds is one in exact time. -/
theorem unexpired_of_now {epoch : Int} {t now : Nat} {e : UInt64} (hnow : unixNow epoch t = some now)
    (h : Duration.asSecs now < e.toNat) : Unexpired epoch t e := by
  unfold unixNow at hnow
  split at hnow
  · rename_i hpos
    cases hnow
    unfold Unexpired
    unfold Duration.asSecs at h
    have := (Nat.div_lt_iff_lt_mul (by decide : 0 < NANOS_PER_SEC)).1 h
    unfold Duration.fromSecs
    rw [Nat.mul_comm] at this
    omega
  · cases hnow

/-- A fence set with the readings `t₁` and `t₂` of one call is lifted only when
the wall clock has reached the grant's expiry. -/
theorem fence_late {epoch : Int} {t₁ t₂ now : Nat} {e : Nat} (hnow : unixNow epoch t₁ = some now)
    (hle : t₁ ≤ t₂) (hlt : Duration.asSecs now < e) :
    (Duration.fromSecs e : Int) ≤
      epoch + ((t₂ + Duration.fromSecs (e - Duration.asSecs now) : Nat) : Int) := by
  unfold unixNow at hnow
  split at hnow
  · rename_i hpos
    cases hnow
    have hfloor : Duration.fromSecs (Duration.asSecs (epoch + t₁).toNat) ≤ (epoch + t₁).toNat :=
      Nat.mul_div_le _ _
    have hsplit : Duration.fromSecs e = Duration.fromSecs (e - Duration.asSecs (epoch + t₁).toNat) +
        Duration.fromSecs (Duration.asSecs (epoch + t₁).toNat) := by
      unfold Duration.fromSecs
      rw [← Nat.mul_add, Nat.sub_add_cancel (Nat.le_of_lt hlt)]
    omega
  · cases hnow

/-- What details say about the grant a session was issued under. -/
def DetailOf (grants : List (ClientId × SessionGrant)) (c : ClientId) (d : SessionDetails) : Prop :=
  match d.grant with
  | some g => (c, g) ∈ grants ∧ ∃ data, d.userData = some data ∧ g.userData = .ok data
  | none => ∀ g, (c, g) ∉ grants

structure TicketInv (epoch : Int) (expiry : ReplayKey → UInt64) (s : TicketRun) : Prop where
  /-- ids in use were allocated -/
  pendingIds : ∀ c ∈ s.service.registry.pending, c.toNat < s.service.allocator.nextId.toNat
  grantIds : ∀ c g, (c, g) ∈ s.grants → c.toNat < s.service.allocator.nextId.toNat
  activatedIds : ∀ a ∈ s.activations, a.clientId.toNat < s.service.allocator.nextId.toNat
  detailIds : ∀ c d, s.service.registry.details.get c = some d →
    c.toNat < s.service.allocator.nextId.toNat
  /-- a pending session has its details, and they carry its grant -/
  held : ∀ c ∈ s.service.registry.pending, ∃ d, s.service.registry.details.get c = some d
  detail : ∀ c d, s.service.registry.details.get c = some d → DetailOf s.grants c d
  unique : ∀ c g g', (c, g) ∈ s.grants → (c, g') ∈ s.grants → g = g'
  fixed : ∀ c g, (c, g) ∈ s.grants → g.expiresAt = expiry g.replayKey
  /-- an activated session is not pending again -/
  spent : ∀ a ∈ s.activations, a.clientId ∉ s.service.registry.pending
  /-- the fence of a ticket stands until the ticket has expired -/
  fenced : ∀ c g, (c, g) ∈ s.grants → Unexpired epoch s.time g.expiresAt →
    ∃ fence : Nat, s.service.registry.usedGrants.get g.replayKey = some fence ∧
      (Duration.fromSecs g.expiresAt.toNat : Int) ≤ epoch + (fence : Int)
  /-- until then one session was issued under it -/
  sole : ∀ c g c' g', (c, g) ∈ s.grants → (c', g') ∈ s.grants → g.replayKey = g'.replayKey →
    Unexpired epoch s.time g.expiresAt → c = c'
  used : ∀ a ∈ s.activations, ∀ g, (a.clientId, g) ∈ s.grants →
    Duration.asSecs a.now < g.expiresAt.toNat ∧ ∃ data, a.userData = some data ∧ g.userData = .ok data
  once : s.activations.Pairwise fun a b => ∀ g g', (a.clientId, g) ∈ s.grants →
    (b.clientId, g') ∈ s.grants → g.replayKey ≠ g'.replayKey

variable {host : Host} {epoch : Int} {expiry : ReplayKey → UInt64} {s : TicketRun}

theorem ticketInv_fresh (h : s.Fresh) : TicketInv epoch expiry s := by
  obtain ⟨hg, ha, hp, -, hd, -⟩ := h
  have hnp : ∀ c, c ∉ s.service.registry.pending := fun c hc => by
    rw [hp] at hc; obtain ⟨v, hv⟩ := HashMap.mem_iff_get.1 hc; cases hv
  have hnd : ∀ c d, s.service.registry.details.get c ≠ some d := fun c d h => by
    rw [hd] at h; cases h
  have hng : ∀ x, x ∉ s.grants := fun x hx => by rw [hg] at hx; cases hx
  have hna : ∀ a, a ∉ s.activations := fun a hx => by rw [ha] at hx; cases hx
  exact
    { pendingIds := fun c h => absurd h (hnp c)
      grantIds := fun c g h => absurd h (hng _)
      activatedIds := fun a h => absurd h (hna a)
      detailIds := fun c d h => absurd h (hnd c d)
      held := fun c h => absurd h (hnp c)
      detail := fun c d h => absurd h (hnd c d)
      unique := fun c g g' h => absurd h (hng _)
      fixed := fun c g h => absurd h (hng _)
      spent := fun a h => absurd h (hna a)
      fenced := fun c g h => absurd h (hng _)
      sole := fun c g c' g' h => absurd h (hng _)
      used := fun a h => absurd h (hna a)
      once := by rw [ha]; exact .nil }

/-- A clean-up at a later time. -/
theorem TicketInv.cleanup (h : TicketInv epoch expiry s) {t : Nat} (hle : s.time ≤ t) :
    TicketInv epoch expiry
      { s with service := { s.service with registry := s.service.registry.cleanupAt t }, time := t } where
  pendingIds c hc := h.pendingIds c (Registry.mem_pending_cleanup hc)
  grantIds := h.grantIds
  activatedIds := h.activatedIds
  detailIds c d hd := h.detailIds c d (Registry.details_cleanup hd)
  held c hc := by
    obtain ⟨d, hd⟩ := h.held c (Registry.mem_pending_cleanup hc)
    exact ⟨d, (Registry.get_details_cleanup (.inl hc)).trans hd⟩
  detail c d hd := h.detail c d (Registry.details_cleanup hd)
  unique := h.unique
  fixed := h.fixed
  spent a ha hp := h.spent a ha (Registry.mem_pending_cleanup hp)
  fenced c g hg hu := by
    obtain ⟨fence, hf, hlate⟩ := h.fenced c g hg (hu.mono hle)
    refine ⟨fence, Registry.usedGrants_cleanup hf ?_, hlate⟩
    have hu' : epoch + (t : Int) < (Duration.fromSecs g.expiresAt.toNat : Int) := hu
    omega
  sole c g c' g' hg hg' hk hu := h.sole c g c' g' hg hg' hk (hu.mono hle)
  used := h.used
  once := h.once

theorem TicketInv.wait (h : TicketInv epoch expiry s) {t : Nat} (hle : s.time ≤ t) :
    TicketInv epoch expiry { s with time := t } :=
  { h with
    fenced := fun c g hg hu => h.fenced c g hg (Unexpired.mono hu hle)
    sole := fun c g c' g' hg hg' hk hu => h.sole c g c' g' hg hg' hk (Unexpired.mono hu hle) }

theorem TicketInv.deactivate (h : TicketInv epoch expiry s) (clientId : ClientId) :
    TicketInv epoch expiry
      { s with service := { s.service with registry := s.service.registry.deactivate clientId } } where
  pendingIds c hc := h.pendingIds c (HashMap.mem_remove.1 hc).2
  grantIds := h.grantIds
  activatedIds := h.activatedIds
  detailIds c d hd := by
    simp only [Registry.deactivate, HashMap.get_remove] at hd
    split at hd
    · cases hd
    · exact h.detailIds c d hd
  held c hc := by
    obtain ⟨hne, hc'⟩ := HashMap.mem_remove.1 hc
    obtain ⟨d, hd⟩ := h.held c hc'
    exact ⟨d, by simp only [Registry.deactivate, HashMap.get_remove, if_neg hne, hd]⟩
  detail c d hd := by
    simp only [Registry.deactivate, HashMap.get_remove] at hd
    split at hd
    · cases hd
    · exact h.detail c d hd
  unique := h.unique
  fixed := h.fixed
  spent a ha hp := h.spent a ha (HashMap.mem_remove.1 hp).2
  fenced := h.fenced
  sole := h.sole
  used := h.used
  once := h.once

/-- Claiming an offer marks the details and nothing else. -/
theorem TicketInv.claim (h : TicketInv epoch expiry s) {clientId : ClientId} {d : SessionDetails}
    (hd : s.service.registry.details.get clientId = some d) :
    TicketInv epoch expiry
      { s with service := { s.service with
          registry.details :=
            s.service.registry.details.insert clientId { d with offerClaimed := true } } } :=
  { h with
    detailIds := fun c d' hd' => by
      dsimp only at hd'
      rw [HashMap.get_insert] at hd'
      split at hd'
      · rename_i hc; subst hc; exact h.detailIds c d hd
      · exact h.detailIds c d' hd'
    held := fun c hc => by
      obtain ⟨d', hd'⟩ := h.held c hc
      dsimp only
      rw [HashMap.get_insert]
      split
      · exact ⟨_, rfl⟩
      · exact ⟨d', hd'⟩
    detail := fun c d' hd' => by
      dsimp only at hd'
      rw [HashMap.get_insert] at hd'
      split at hd'
      · rename_i hc; subst hc; cases hd'; exact h.detail c d hd
      · exact h.detail c d' hd' }

/-- Ids are handed out in increasing order. -/
theorem tryNext_spec {a : MonotonicClientIdAllocator} {c : ClientId}
    (h : a.tryNext.2 = some c) : a.nextId = c ∧ a.tryNext.1.nextId.toNat = c.toNat + 1 := by
  unfold MonotonicClientIdAllocator.tryNext at h ⊢
  split at h
  · rename_i hlt
    cases h
    rw [if_pos hlt]
    refine ⟨rfl, ?_⟩
    simp only [U64_MAX] at hlt
    rw [UInt64.toNat_add, UInt64.toNat_one]
    omega
  · cases h

theorem tryNext_le (a : MonotonicClientIdAllocator) : a.nextId.toNat ≤ a.tryNext.1.nextId.toNat := by
  unfold MonotonicClientIdAllocator.tryNext
  split
  · rename_i hlt
    simp only [U64_MAX] at hlt
    rw [UInt64.toNat_add, UInt64.toNat_one]
    omega
  · exact Nat.le_refl _

theorem TicketInv.allocate (h : TicketInv epoch expiry s) {a : MonotonicClientIdAllocator}
    (hle : s.service.allocator.nextId.toNat ≤ a.nextId.toNat) :
    TicketInv epoch expiry { s with service := { s.service with allocator := a } } :=
  { h with
    pendingIds := fun c hc => Nat.lt_of_lt_of_le (h.pendingIds c hc) hle
    grantIds := fun c g hg => Nat.lt_of_lt_of_le (h.grantIds c g hg) hle
    activatedIds := fun a ha => Nat.lt_of_lt_of_le (h.activatedIds a ha) hle
    detailIds := fun c d hd => Nat.lt_of_lt_of_le (h.detailIds c d hd) hle }

/-! ## Activation -/

theorem TicketInv.activateStep (h : TicketInv epoch expiry s) (clientId : ClientId)
    (userData : Option Bytes) {t₁ t₂ t₃ : Nat} (h1 : s.time ≤ t₁) (h2 : t₁ ≤ t₂)
    (h3 : t₂ ≤ t₃) :
    TicketInv epoch expiry (s.activate epoch clientId userData t₁ t₃
      (s.service.activateSession clientId userData (unixNow epoch t₁) t₂ t₃)) := by
  have hc1 := h.cleanup (Nat.le_trans h1 h2)
  have hc2 := hc1.cleanup h3
  rcases s.service.activateSession_cases clientId userData (unixNow epoch t₁) t₂ t₃ with
    ⟨e, hres, hst⟩ | ⟨now, hnow, hpend, -, hchk, hout⟩
  · simp only [TicketRun.activate, hres]
    rcases hst with hst | hst | hst <;> rw [hst]
    · exact h.wait (Nat.le_trans h1 (Nat.le_trans h2 h3))
    · exact hc1.wait h3
    · exact hc2
  · rw [hout]
    simp only [TicketRun.activate, hnow]
    have hpend1 := Registry.mem_pending_cleanup hpend
    have hpend0 := Registry.mem_pending_cleanup hpend1
    -- what the details said when they were checked
    have hgrant : ∀ g, (clientId, g) ∈ s.grants →
        Duration.asSecs now < g.expiresAt.toNat ∧
          ∃ data, userData = some data ∧ g.userData = .ok data := by
      intro g hg
      obtain ⟨d, hd⟩ := hc1.held clientId hpend1
      have hdet := hc1.detail clientId d hd
      unfold DetailOf at hdet
      split at hdet
      · rename_i g' hg'
        obtain ⟨hmem, data, hdata, hud⟩ := hdet
        cases h.unique clientId g g' hg hmem
        have hchk' : BootstrapService.checkDetail d userData now = .ok () := by
          simpa only [BootstrapService.checkSession, hd] using hchk
        obtain ⟨hlt, heq⟩ := checkDetail_ok hg' hdata hchk'
        exact ⟨hlt, data, heq, hud⟩
      · exact absurd hg (hdet g)
    have hleft : ∀ c, c ∈ ((s.service.registry.cleanupAt t₂).cleanupAt t₃).pending.remove clientId →
        c ≠ clientId ∧ c ∈ ((s.service.registry.cleanupAt t₂).cleanupAt t₃).pending :=
      fun c hc => HashMap.mem_remove.1 hc
    exact
      { pendingIds := fun c hc => hc2.pendingIds c (hleft c hc).2
        grantIds := h.grantIds
        activatedIds := fun a ha => by
          rcases List.mem_cons.1 ha with rfl | ha
          · exact h.pendingIds _ hpend0
          · exact h.activatedIds a ha
        detailIds := hc2.detailIds
        held := fun c hc => hc2.held c (hleft c hc).2
        detail := hc2.detail
        unique := h.unique
        fixed := h.fixed
        spent := fun a ha hp => by
          obtain ⟨hne, hp'⟩ := hleft _ hp
          rcases List.mem_cons.1 ha with rfl | ha
          · exact hne rfl
          · exact hc2.spent a ha hp'
        fenced := hc2.fenced
        sole := hc2.sole
        used := fun a ha g hg => by
          rcases List.mem_cons.1 ha with rfl | ha
          · exact hgrant g hg
          · exact h.used a ha g hg
        once := by
          refine List.pairwise_cons.2 ⟨fun b hb g g' hg hg' hk => ?_, h.once⟩
          -- an earlier activation under the same key would be of the same session
          have hlive := unexpired_of_now hnow (hgrant g hg).1
          have hsame := h.sole _ _ _ _ hg hg' hk (hlive.mono h1)
          exact h.spent b hb (hsame ▸ hpend0) }

/-! ## Issuing a session -/

/-- A second session of a ticket is issued only once the ticket has expired: the
fence of the first would still stand. -/
theorem TicketInv.not_fenced (h : TicketInv epoch expiry s) {c : ClientId} {g : SessionGrant}
    (hg : (c, g) ∈ s.grants) (hk : g.replayKey ∉ s.service.registry.usedGrants) :
    ¬ Unexpired epoch s.time g.expiresAt := by
  intro hu
  obtain ⟨fence, hf, -⟩ := h.fenced c g hg hu
  exact hk (HashMap.mem_iff_get.2 ⟨fence, hf⟩)

/-- Committing a session under a fresh id `c`; `new` is the grant it is under. -/
theorem TicketInv.issue (h : TicketInv epoch expiry s) {a : MonotonicClientIdAllocator} {c : ClientId}
    {p : Prepared} (hc : s.service.allocator.nextId = c) (ha : a.nextId.toNat = c.toNat + 1)
    {new : List (ClientId × SessionGrant)}
    (hnew : ∀ x, x ∈ new ↔ x.1 = c ∧ p.details.grant = some x.2)
    (hgrant : ∀ g, p.details.grant = some g → g.expiresAt = expiry g.replayKey ∧
      (∃ data, p.details.userData = some data ∧ g.userData = .ok data) ∧
      (∀ c' g', (c', g') ∈ s.grants → g'.replayKey = g.replayKey →
        ¬ Unexpired epoch s.time g'.expiresAt) ∧
      ∃ fence : Nat, p.replay = some (g.replayKey, fence) ∧
        (Duration.fromSecs g.expiresAt.toNat : Int) ≤ epoch + (fence : Int))
    (hnone : p.details.grant = none → p.replay = none) :
    TicketInv epoch expiry
      { s with
        service := { s.service with allocator := a, registry := s.service.registry.issued c s.time p }
        grants := new ++ s.grants } := by
  have hlt : ∀ {c' : ClientId}, c'.toNat < s.service.allocator.nextId.toNat →
      c'.toNat < a.nextId.toNat ∧ c' ≠ c := by
    intro c' hc'
    rw [hc] at hc'
    exact ⟨by omega, fun he => by subst he; exact Nat.lt_irrefl _ hc'⟩
  have hcnew : c.toNat < a.nextId.toNat := by omega
  have hmem : ∀ c' g, (c', g) ∈ new ++ s.grants →
      (c' = c ∧ p.details.grant = some g) ∨ (c' ≠ c ∧ (c', g) ∈ s.grants) := by
    intro c' g hx
    rcases List.mem_append.1 hx with hx | hx
    · exact .inl ((hnew _).1 hx)
    · exact .inr ⟨(hlt (h.grantIds c' g hx)).2, hx⟩
  have hdet : ∀ c' d, (s.service.registry.details.insert c p.details).get c' = some d →
      (c' = c ∧ d = p.details) ∨ (c' ≠ c ∧ s.service.registry.details.get c' = some d) := by
    intro c' d hd
    rw [HashMap.get_insert] at hd
    split at hd
    · rename_i he; cases hd; exact .inl ⟨he, rfl⟩
    · rename_i he; exact .inr ⟨he, hd⟩
  have hold : ∀ {c' : ClientId} {d : SessionDetails}, c' ≠ c → DetailOf s.grants c' d →
      DetailOf (new ++ s.grants) c' d := by
    intro c' d hne hd
    unfold DetailOf at hd ⊢
    split at hd
    · exact ⟨List.mem_append_right _ hd.1, hd.2⟩
    · intro g hg
      rcases hmem c' g hg with ⟨rfl, -⟩ | ⟨-, hg⟩
      · exact hne rfl
      · exact hd g hg
  -- fences: the new one is set, the others stay
  have hfence : ∀ key fence, s.service.registry.usedGrants.get key = some fence →
      (∀ g, p.details.grant = some g → g.replayKey ≠ key) →
      (s.service.registry.issued c s.time p).usedGrants.get key = some fence := by
    intro key fence hf hne
    unfold Registry.issued
    cases hg : p.details.grant with
    | none => simp only [hnone hg]; exact hf
    | some g =>
      obtain ⟨-, -, -, f, hr, -⟩ := hgrant g hg
      simp only [hr, HashMap.get_insert]
      rw [if_neg (fun he => hne g hg he.symm)]
      exact hf
  refine
    { pendingIds := fun c' hc' => ?_
      grantIds := fun c' g hg => ?_
      activatedIds := fun b hb => (hlt (h.activatedIds b hb)).1
      detailIds := fun c' d hd => ?_
      held := fun c' hc' => ?_
      detail := fun c' d hd => ?_
      unique := fun c' g g' hg hg' => ?_
      fixed := fun c' g hg => ?_
      spent := fun b hb hp => ?_
      fenced := fun c' g hg hu => ?_
      sole := fun c₁ g₁ c₂ g₂ hg₁ hg₂ hk hu => ?_
      used := fun b hb g hg => ?_
      once := ?_ }
  · rcases HashMap.mem_insert.1 hc' with rfl | hc'
    · exact hcnew
    · exact (hlt (h.pendingIds c' hc')).1
  · rcases hmem c' g hg with ⟨rfl, -⟩ | ⟨-, hg⟩
    · exact hcnew
    · exact (hlt (h.grantIds c' g hg)).1
  · rcases hdet c' d hd with ⟨rfl, -⟩ | ⟨-, hd⟩
    · exact hcnew
    · exact (hlt (h.detailIds c' d hd)).1
  · simp only [Registry.issued, HashMap.get_insert]
    split
    · exact ⟨_, rfl⟩
    · rename_i hne
      exact h.held c' ((HashMap.mem_insert.1 hc').resolve_left hne)
  · rcases hdet c' d hd with ⟨rfl, rfl⟩ | ⟨hne, hd⟩
    · unfold DetailOf
      split
      · rename_i g hg
        exact ⟨List.mem_append_left _ ((hnew _).2 ⟨rfl, hg⟩), (hgrant g hg).2.1⟩
      · rename_i hg
        intro g hx
        rcases hmem c' g hx with ⟨-, hx⟩ | ⟨hne, -⟩
        · rw [hg] at hx; cases hx
        · exact hne rfl
    · exact hold hne (h.detail c' d hd)
  · rcases hmem c' g hg with ⟨rfl, h1⟩ | ⟨hne, h1⟩
    · rcases hmem c' g' hg' with ⟨-, h2⟩ | ⟨hne, -⟩
      · rw [h1] at h2; cases h2; rfl
      · exact absurd rfl hne
    · rcases hmem c' g' hg' with ⟨rfl, -⟩ | ⟨-, h2⟩
      · exact absurd rfl hne
      · exact h.unique c' g g' h1 h2
  · rcases hmem c' g hg with ⟨-, hg⟩ | ⟨-, hg⟩
    · exact (hgrant g hg).1
    · exact h.fixed c' g hg
  · rcases HashMap.mem_insert.1 hp with he | hp
    · exact (hlt (h.activatedIds b hb)).2 he
    · exact h.spent b hb hp
  · rcases hmem c' g hg with ⟨-, hg⟩ | ⟨-, hg⟩
    · obtain ⟨-, -, -, fence, hr, hlate⟩ := hgrant g hg
      refine ⟨fence, ?_, hlate⟩
      simp only [Registry.issued, hr, HashMap.get_insert_self]
    · obtain ⟨fence, hf, hlate⟩ := h.fenced c' g hg hu
      refine ⟨fence, hfence _ _ hf fun g₀ hg₀ he => ?_, hlate⟩
      exact (hgrant g₀ hg₀).2.2.1 c' g hg he.symm hu
  · rcases hmem c₁ g₁ hg₁ with ⟨rfl, h1⟩ | ⟨-, h1⟩
    · rcases hmem c₂ g₂ hg₂ with ⟨rfl, -⟩ | ⟨-, h2⟩
      · rfl
      · have hexp : g₂.expiresAt = g₁.expiresAt := by
          rw [h.fixed c₂ g₂ h2, (hgrant g₁ h1).1, hk]
        exact absurd (hexp ▸ hu) ((hgrant g₁ h1).2.2.1 c₂ g₂ h2 hk.symm)
    · rcases hmem c₂ g₂ hg₂ with ⟨rfl, h2⟩ | ⟨-, h2⟩
      · exact absurd hu ((hgrant g₂ h2).2.2.1 c₁ g₁ h1 hk)
      · exact h.sole c₁ g₁ c₂ g₂ h1 h2 hk hu
  · rcases hmem _ g hg with ⟨he, -⟩ | ⟨-, hg⟩
    · exact absurd he (hlt (h.activatedIds b hb)).2
    · exact h.used b hb g hg
  · refine h.once.imp_of_mem fun {x y} hx hy hxy g g' hg hg' => ?_
    rcases hmem _ g hg with ⟨he, -⟩ | ⟨-, hg⟩
    · exact absurd he (hlt (h.activatedIds x hx)).2
    · rcases hmem _ g' hg' with ⟨he, -⟩ | ⟨-, hg'⟩
      · exact absurd he (hlt (h.activatedIds y hy)).2
      · exact hxy g g' hg hg'

theorem TicketInv.createStep (h : TicketInv epoch expiry s) {policy : SessionAuthPolicy}
    {request : SessionCreateRequest} {t₁ t₂ : Nat} (h1 : s.time ≤ t₁) (h2 : t₁ ≤ t₂)
    (hfix : Call.Fixed expiry (.create policy request t₁ t₂)) :
    TicketInv epoch expiry (s.create host epoch policy request t₁ t₂) := by
  have hle := Nat.le_trans h1 h2
  have hc1 := h.cleanup hle
  rcases s.service.create_cases host policy request (unixNow epoch t₁) t₂ with
    ⟨e, hres, hst⟩ | ⟨now, c, p, -, hnow, hnext, hprep, -, hout⟩
  · simp only [TicketRun.create, hres]
    rcases hst with hst | ⟨a, ha, hst⟩
    · rw [hst]; exact h.wait hle
    · have hle' : s.service.allocator.nextId.toNat ≤ a.nextId.toNat := by
        rcases ha with rfl | rfl
        · exact Nat.le_refl _
        · exact tryNext_le _
      rw [hst]
      exact hc1.allocate hle'
  · obtain ⟨hc, ha⟩ := tryNext_spec hnext
    obtain ⟨hid, issued, hissue, hgr, hfence⟩ := prepare_grant hprep
    unfold TicketRun.create
    rw [hout]
    dsimp only
    refine hc1.issue (c := c) (p := p) hc ha (fun x => ?_) (fun g hg => ?_) (fun hg => ?_)
    · unfold TicketRun.issuedGrant
      simp only [hid, Registry.issued, HashMap.get_insert_self, Option.bind_some]
      cases p.details.grant with
      | none => simp
      | some g =>
        simp only [List.mem_singleton, Option.some.injEq, Prod.ext_iff]
        exact ⟨fun hx => ⟨hx.1, hx.2.symm⟩, fun hx => ⟨hx.1, hx.2.symm⟩⟩
    · rw [hgr] at hg
      rw [hg] at hfence
      obtain ⟨hlt, hused, -, hdata, hreplay⟩ := hfence
      refine ⟨hfix _ _ _ _ _ _ hissue hg, hdata, fun c' g' hg' hk => ?_, _, hreplay, ?_⟩
      · exact hc1.not_fenced hg' (hk ▸ hused)
      · exact fence_late hnow h2 hlt
    · rw [hgr] at hg
      rw [hg] at hfence
      exact hfence

/-! ## Whole runs -/

theorem ticketInv_inductive (host : Host) (epoch : Int) (expiry : ReplayKey → UInt64) :
    (TicketRun.runs host epoch expiry).Inductive (TicketInv epoch expiry) := by
  refine ⟨fun s hs => ticketInv_fresh hs, fun s call s' hi hs => ?_⟩
  obtain ⟨hsort, hfix, rfl⟩ := hs
  cases call with
  | create policy request t₁ t₂ =>
    simp only [Call.readings, List.pairwise_cons, List.mem_cons, forall_eq_or_imp] at hsort
    exact hi.createStep hsort.1.1 hsort.2.1.1 hfix
  | acceptOffer policy clientId offer t₁ t₂ =>
    simp only [Call.readings, List.pairwise_cons, List.mem_cons, forall_eq_or_imp] at hsort
    have hle := Nat.le_trans hsort.1.1 hsort.2.1.1
    have hc := hi.cleanup hle
    simp only [TicketRun.step]
    rcases s.service.acceptOffer_cases policy clientId offer (unixNow epoch t₁) t₂ with
      ⟨e, -, hst | hst⟩ | ⟨n, d, -, hd, hst⟩ <;> rw [hst]
    · exact hi.wait hle
    · exact hc
    · exact hc.claim hd.detail
  | connected clientId t₁ t₂ t₃ =>
    simp only [Call.readings, List.pairwise_cons, List.mem_cons, forall_eq_or_imp] at hsort
    exact hi.activateStep _ _ hsort.1.1 hsort.2.1.1 hsort.2.2.1.1
  | connectedWithUserData clientId userData t₁ t₂ t₃ =>
    simp only [Call.readings, List.pairwise_cons, List.mem_cons, forall_eq_or_imp] at hsort
    exact hi.activateStep _ _ hsort.1.1 hsort.2.1.1 hsort.2.2.1.1
  | disconnected clientId => exact hi.deactivate clientId
  | cleanup t =>
    simp only [Call.readings, List.pairwise_cons, List.mem_cons, forall_eq_or_imp] at hsort
    exact hi.cleanup hsort.1.1
  | isPending clientId t =>
    simp only [Call.readings, List.pairwise_cons, List.mem_cons, forall_eq_or_imp] at hsort
    exact hi.cleanup hsort.1.1
  | sessionGrant clientId t =>
    simp only [Call.readings, List.pairwise_cons, List.mem_cons, forall_eq_or_imp] at hsort
    exact hi.cleanup hsort.1.1

/-- **One ticket admits at most one player.** In every run, at most one activation
is of a session issued under a given replay key; an activation of a session
issued under a grant happened before the grant's expiry second and presented
exactly the grant's user data, so `on_client_connected` never activates such a
session. -/
theorem ticket_admits_once (host : Host) (epoch : Int) (expiry : ReplayKey → UInt64) (s : TicketRun)
    (h : (TicketRun.runs host epoch expiry).Reachable s) :
    (∀ key, (s.activations.filter (s.under key)).length ≤ 1) ∧
      (∀ a ∈ s.activations, ∀ g, (a.clientId, g) ∈ s.grants →
        Duration.asSecs a.now < g.expiresAt.toNat ∧
          ∃ data, a.userData = some data ∧ g.userData = .ok data) ∧
      ∀ c g t₁ t₂ t₃, (c, g) ∈ s.grants → s.time ≤ t₁ → t₁ ≤ t₂ → t₂ ≤ t₃ →
        (s.service.onClientConnected c (unixNow epoch t₁) t₂ t₃).2 ≠ .ok () := by
  have hi := (ticketInv_inductive host epoch expiry).reachable s h
  refine ⟨fun key => ?_, hi.used, fun c g t₁ t₂ t₃ hg h1 h2 h3 hok => ?_⟩
  swap
  · have hi' := hi.activateStep c none h1 h2 h3
    rcases s.service.activateSession_cases c none (unixNow epoch t₁) t₂ t₃ with
      ⟨e, hres, -⟩ | ⟨now, hnow, -, -, -, hout⟩
    · simp only [BootstrapService.onClientConnected, hres] at hok; cases hok
    · rw [hout] at hi'
      simp only [TicketRun.activate, hnow] at hi'
      obtain ⟨-, data, hdata, -⟩ := hi'.used _ (List.mem_cons_self ..) g hg
      cases hdata
  have hunder : ∀ a, s.under key a = true →
      ∃ g, (a.clientId, g) ∈ s.grants ∧ g.replayKey = key := by
    intro a ha
    simp only [TicketRun.under, List.any_eq_true, Bool.and_eq_true, decide_eq_true_eq] at ha
    obtain ⟨⟨c, g⟩, hmem, rfl, hk⟩ := ha
    exact ⟨g, hmem, hk⟩
  have hpair := hi.once.filter (s.under key)
  rcases hf : s.activations.filter (s.under key) with _ | ⟨a, _ | ⟨b, rest⟩⟩
  · exact Nat.zero_le _
  · exact Nat.le_refl _
  · rw [hf] at hpair
    have ha : a ∈ s.activations.filter (s.under key) := by rw [hf]; exact List.mem_cons_self ..
    have hb : b ∈ s.activations.filter (s.under key) := by rw [hf]; simp
    obtain ⟨g, hg, hk⟩ := hunder a (List.mem_filter.1 ha).2
    obtain ⟨g', hg', hk'⟩ := hunder b (List.mem_filter.1 hb).2
    exact absurd (hk.trans hk'.symm) ((List.pairwise_cons.1 hpair).1 b (List.mem_cons_self ..) g g' hg hg')

def deskOpen : TicketRun := ⟨.new deskConfig ⟨1⟩, 0, [], []⟩

/-- The session is issued in the first second and activated in the second. -/
def deskCreate : Call := .create ticketDesk {} (Duration.fromSecs 1) (Duration.fromSecs 1)

def deskConnect : Call :=
  .connectedWithUserData 1 (matchTicket.userData.toOption.getD []) (Duration.fromSecs 2)
    (Duration.fromSecs 2) (Duration.fromSecs 2)

def deskRun : TicketRun := (deskOpen.step deskHost 0 deskCreate).step deskHost 0 deskConnect

theorem ticket_admits_once_desk :
    deskRun.activations.length = 1 ∧
      (deskRun.activations.filter (deskRun.under matchTicket.replayKey)).length ≤ 1 := by
  have hfixed : deskCreate.Fixed fun _ => 100 := by
    intro clientId request now config issued g hi hg
    cases hi; cases hg; rfl
  have hcreate : (deskOpen.time :: deskCreate.readings).Pairwise (· ≤ ·) := by decide
  have hconnect : ((deskOpen.step deskHost 0 deskCreate).time :: deskConnect.readings).Pairwise
      (· ≤ ·) := by decide +kernel
  have hreach : (TicketRun.runs deskHost 0 fun _ => 100).Reachable deskRun :=
    ⟨deskOpen, [deskCreate, deskConnect], ⟨rfl, rfl, rfl, rfl, rfl, rfl⟩,
      .cons ⟨hcreate, hfixed, rfl⟩ (.cons ⟨hconnect, trivial, rfl⟩ (.nil _))⟩
  exact ⟨by decide +kernel, (ticket_admits_once _ _ _ _ hreach).1 matchTicket.replayKey⟩

end RenetCross.L3
