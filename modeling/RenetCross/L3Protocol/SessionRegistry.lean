import RenetCross.L3Protocol.BootstrapCalls

/-!
# The session registry

The invariant of the four collections of `InMemorySessionRegistry`, over every
run of the service's calls with any policy, any allocator and any clock readings.
Each move of a call re-establishes it (`Inv.move`), and no move takes an active
session or its details away (`Move.keeps_active`): only a disconnect does.
-/
namespace RenetCross.L3

namespace Registry

structure Inv (r : Registry) : Prop where
  disjoint : ∀ c ∈ r.pending, c ∉ r.active
  detailed : ∀ c, c ∈ r.details ↔ c ∈ r.pending ∨ c ∈ r.active
  pendingLen : r.pending.len ≤ r.limits.pendingSessions
  activeLen : r.active.len ≤ r.limits.activeSessions
  replayLen : r.usedGrants.len ≤ r.limits.replayGrants

variable {r r' : Registry}

theorem inv_empty (ttl : Nat) (limits : BootstrapLimits) : Inv { new ttl with limits := limits } where
  disjoint c hc := absurd hc (AList.notMem_empty c)
  detailed c := by
    constructor
    · intro hc; exact absurd hc (AList.notMem_empty c)
    · intro hc
      rcases hc with hc | hc
      · exact absurd hc (AList.notMem_empty c)
      · exact absurd hc (AList.notMem_empty c)
  pendingLen := Nat.zero_le _
  activeLen := Nat.zero_le _
  replayLen := Nat.zero_le _

theorem Inv.cleanup (h : r.Inv) (t : Nat) : (r.cleanupAt t).Inv where
  disjoint c hc := h.disjoint c (mem_pending_cleanup hc)
  detailed c := by
    rw [mem_details_cleanup]
    constructor
    · exact fun hc => hc.2
    · intro hc
      refine ⟨(h.detailed c).2 ?_, hc⟩
      exact hc.imp_left mem_pending_cleanup
  pendingLen := Nat.le_trans (HashMap.len_retain_le _ _) h.pendingLen
  activeLen := h.activeLen
  replayLen := Nat.le_trans (HashMap.len_retain_le _ _) h.replayLen

theorem Inv.issue (h : r.Inv) {c : ClientId} {t : Nat} {p : Prepared} (hvac : r.Vacant c)
    (hroom : ∀ key fence, p.replay = some (key, fence) → r.usedGrants.len < r.limits.replayGrants) :
    (r.issued c t p).Inv where
  disjoint c' hc' := by
    rcases HashMap.mem_insert.1 hc' with rfl | hc'
    · exact hvac.notActive
    · exact h.disjoint c' hc'
  detailed c' := by
    simp only [issued, HashMap.mem_insert, h.detailed c', or_assoc]
  pendingLen := HashMap.len_insert_le _ _ hvac.pendingRoom
  activeLen := h.activeLen
  replayLen := by
    simp only [issued]
    split
    · rename_i key fence hr
      exact HashMap.len_insert_le _ _ (hroom key fence hr)
    · exact h.replayLen

theorem Inv.claim (h : r.Inv) {c : ClientId} {d : SessionDetails} (hp : c ∈ r.pending) :
    (r.claimed c d).Inv :=
  { h with
    detailed := fun c' => by
      simp only [claimed, HashMap.mem_insert, h.detailed c']
      constructor
      · intro hc
        rcases hc with rfl | hc
        · exact .inl hp
        · exact hc
      · exact .inr }

theorem Inv.activate (h : r.Inv) {c : ClientId} (hp : c ∈ r.pending)
    (hroom : r.active.len < r.limits.activeSessions) : (r.activated c).Inv where
  disjoint c' hc' := by
    obtain ⟨hne, hc'⟩ := HashMap.mem_remove.1 hc'
    intro ha
    exact h.disjoint c' hc' ((HashMap.mem_insert.1 ha).resolve_left hne)
  detailed c' := by
    simp only [activated, HashMap.mem_remove, HashMap.mem_insert, h.detailed c']
    by_cases he : c' = c
    · subst he; simp [hp]
    · simp [he]
  pendingLen := Nat.le_trans (HashMap.len_remove_le _ _) h.pendingLen
  activeLen := HashMap.len_insert_le _ _ hroom
  replayLen := h.replayLen

theorem Inv.move (h : r.Inv) (hm : Move r r') : r'.Inv := by
  cases hm with
  | cleanup t => exact h.cleanup t
  | issue hvac hroom => exact h.issue hvac hroom
  | claim hp _ => exact h.claim hp
  | activate hp hroom => exact h.activate hp hroom

theorem Inv.moves (h : r.Inv) (hm : Relation.ReflTransGen Move r r') : r'.Inv := by
  induction hm with
  | refl => exact h
  | tail _ hstep ih => exact ih.move hstep

theorem Inv.deactivate (h : r.Inv) (c : ClientId) : (r.deactivate c).Inv where
  disjoint c' hc' ha := h.disjoint c' (HashMap.mem_remove.1 hc').2 (HashMap.mem_remove.1 ha).2
  detailed c' := by
    simp only [Registry.deactivate, HashMap.mem_remove, h.detailed c']
    constructor
    · intro h
      obtain ⟨hne, hc⟩ := h
      exact hc.imp (fun hc => ⟨hne, hc⟩) (fun hc => ⟨hne, hc⟩)
    · intro hc
      rcases hc with ⟨hne, hc⟩ | ⟨hne, hc⟩
      · exact ⟨hne, .inl hc⟩
      · exact ⟨hne, .inr hc⟩
  pendingLen := Nat.le_trans (HashMap.len_remove_le _ _) h.pendingLen
  activeLen := Nat.le_trans (HashMap.len_remove_le _ _) h.activeLen
  replayLen := h.replayLen

/-! ## Active sessions -/

/-- An active session stays, with its details as they are. -/
def KeepsActive (r r' : Registry) (c : ClientId) : Prop :=
  c ∈ r.active → c ∈ r'.active ∧ r'.details.get c = r.details.get c

theorem Move.keeps_active (h : r.Inv) (hm : Move r r') (c : ClientId) : KeepsActive r r' c := by
  intro ha
  cases hm with
  | cleanup t => exact ⟨ha, get_details_cleanup (.inr ha)⟩
  | @issue c' _ p hvac _ =>
    have hne : c ≠ c' := fun he => hvac.notActive (he ▸ ha)
    refine ⟨ha, ?_⟩
    simp only [issued, HashMap.get_insert, if_neg hne]
  | @claim c' d hp _ =>
    -- a claimed session is pending, so it is not the active one
    have hne : c ≠ c' := fun he => h.disjoint c' hp (he ▸ ha)
    refine ⟨ha, ?_⟩
    simp only [claimed, HashMap.get_insert, if_neg hne]
  | activate _ _ => exact ⟨HashMap.mem_insert.2 (.inr ha), rfl⟩

theorem moves_keep_active (h : r.Inv) (hm : Relation.ReflTransGen Move r r') (c : ClientId) :
    KeepsActive r r' c := by
  induction hm with
  | refl => exact fun ha => ⟨ha, rfl⟩
  | tail hchain hstep ih =>
    intro ha
    obtain ⟨ha', hd'⟩ := ih ha
    obtain ⟨ha'', hd''⟩ := hstep.keeps_active (h.moves hchain) c ha'
    exact ⟨ha'', hd''.trans hd'⟩

theorem deactivate_keeps_active {c c' : ClientId} (hne : c ≠ c') :
    KeepsActive r (r.deactivate c') c := by
  intro ha
  refine ⟨HashMap.mem_remove.2 ⟨hne, ha⟩, ?_⟩
  simp only [deactivate, HashMap.get_remove, if_neg hne]

end Registry

/-! ## Whole runs -/

section
variable {A : Type} [SessionIdAllocator A]

theorem registryInv_inductive (host : Host) :
    (BootstrapService.calls A host).Inductive fun v => v.registry.Inv where
  init := by
    intro v hv
    obtain ⟨ttl, limits, hr⟩ := BootstrapService.calls_init hv
    rw [hr]
    exact Registry.inv_empty ttl limits
  step := by
    intro v call v' h hstep
    rw [hstep]
    by_cases hdis : ∃ c, call = .disconnected c
    · obtain ⟨c, rfl⟩ := hdis
      exact h.deactivate c
    · exact h.moves (v.after_moves host fun c he => hdis ⟨c, he⟩)

/-- **The session registry.** After any run of calls, whatever the policies, the
allocator and the clock readings: the pending and the active sessions are
disjoint, the details are exactly theirs, all three bounds hold, and an active
session keeps its place and its details (its grant among them) through every
call but a disconnect of its own id. -/
theorem session_registry (host : Host) (v : BootstrapService A)
    (h : (BootstrapService.calls A host).Reachable v) :
    v.registry.Inv ∧ ∀ call c, call ≠ .disconnected c →
      v.registry.KeepsActive (v.after host call).registry c := by
  have hinv := (registryInv_inductive host).reachable v h
  refine ⟨hinv, fun call c hne => ?_⟩
  by_cases hdis : ∃ c', call = .disconnected c'
  · obtain ⟨c', rfl⟩ := hdis
    exact Registry.deactivate_keeps_active fun he => hne (he ▸ rfl)
  · exact Registry.moves_keep_active hinv (v.after_moves host fun c' he => hdis ⟨c', he⟩) c

end

/-- An allocator that gives out one id for ever. -/
structure FixedId where
  id : ClientId

instance : SessionIdAllocator FixedId := ⟨fun a => (a, some a.id)⟩

/-- Room for one session of each kind. -/
def narrowDesk : BootstrapService FixedId where
  allocator := ⟨5⟩
  registry := { Registry.new deskConfig.sessionTtl with limits := ⟨1, 1, 1⟩ }
  config := deskConfig

/-- Issued with a reading of second 9, activated in second 2. -/
def narrowCreate : ServiceCall :=
  .create ticketDesk {} (some (Duration.fromSecs 1)) (Duration.fromSecs 9)

def narrowConnect : ServiceCall :=
  .activate 5 (matchTicket.userData.toOption) (some (Duration.fromSecs 2)) (Duration.fromSecs 2)
    (Duration.fromSecs 2)

def narrowRun : BootstrapService FixedId :=
  (narrowDesk.after deskHost narrowCreate).after deskHost narrowConnect

theorem session_registry_narrow :
    narrowRun.registry.active.has 5 = true ∧ narrowRun.registry.Inv ∧
      narrowRun.registry.KeepsActive
        (narrowRun.after deskHost (.cleanup (Duration.fromSecs 1000))).registry 5 := by
  have hreach : (BootstrapService.calls FixedId deskHost).Reachable narrowRun :=
    ⟨narrowDesk, [narrowCreate, narrowConnect], .inr ⟨deskConfig, ⟨5⟩, ⟨1, 1, 1⟩, rfl⟩,
      .cons rfl (.cons rfl (.nil _))⟩
  obtain ⟨hinv, hkeep⟩ := session_registry deskHost narrowRun hreach
  exact ⟨by decide +kernel, hinv, hkeep _ _ (by simp)⟩

/-! ## Failed calls -/

/-- `r'` is `r` with one new session under `c`: a pending entry, a details entry
and, when the details hold a grant, a fence for a key that had none. -/
structure Registry.OneSession (r r' : Registry) (c : ClientId) (t : Nat) : Prop where
  fresh : c ∉ r.pending ∧ c ∉ r.active ∧ c ∉ r.details
  added : ∃ (d : SessionDetails) (fence : Nat),
    (∀ g, d.grant = some g → g.replayKey ∉ r.usedGrants) ∧
    r' = { r with
      pending := r.pending.insert c t
      details := r.details.insert c d
      usedGrants := match d.grant with
        | some g => r.usedGrants.insert g.replayKey fence
        | none => r.usedGrants }

section
variable {A : Type} [SessionIdAllocator A]

/-- What `create_session_with_request` commits is one session. -/
theorem Registry.oneSession_issued {host : Host} {policy : SessionAuthPolicy} {config : BootstrapConfig}
    {request : SessionCreateRequest} {now t : Nat} {r : Registry} {c : ClientId} {p : Prepared}
    (hp : prepare host policy config request now t (r.cleanupAt t) c = .ok p)
    (hvac : (r.cleanupAt t).Vacant c) :
    (r.cleanupAt t).OneSession ((r.cleanupAt t).issued c t p) p.response.clientId t := by
  obtain ⟨hid, issued, -, hgrant, hfence⟩ := prepare_grant hp
  rw [hid]
  refine ⟨⟨hvac.notPending, hvac.notActive, fun hd => ?_⟩, ?_⟩
  · obtain ⟨-, hpend | hact⟩ := Registry.mem_details_cleanup.1 hd
    · exact hvac.notPending hpend
    · exact hvac.notActive hact
  · cases hg : issued.grant with
    | none =>
      rw [hg] at hgrant hfence
      refine ⟨p.details, 0, fun g h => absurd (hgrant.symm.trans h) (by simp), ?_⟩
      simp only [Registry.issued, hfence, hgrant]
    | some g =>
      rw [hg] at hgrant hfence
      obtain ⟨-, hunused, -, -, hreplay⟩ := hfence
      refine ⟨p.details, t + Duration.fromSecs (g.expiresAt.toNat - Duration.asSecs now),
        fun g' h => ?_, ?_⟩
      · cases hgrant.symm.trans h
        exact hunused
      · simp only [Registry.issued, hreplay, hgrant]

/-- **Failed calls leave no trace.** In every state, for every policy, allocator
and clock reading: a failed create call leaves the registry as it was or as its
clean-up leaves it, a successful one adds exactly one session to that; a failed
activation and an offer refused before its claim leave at most a clean-up. -/
theorem failed_calls_leave_no_trace (host : Host) (v : BootstrapService A) :
    (∀ policy request now t,
      let r := v.registry.cleanupAt t
      let out := v.createSessionWithRequest host policy request now t
      (∀ e, out.2 = .error e → out.1.registry = v.registry ∨ out.1.registry = r) ∧
        ∀ response, out.2 = .ok response → r.OneSession out.1.registry response.clientId t) ∧
      (∀ c userData now t₂ t₃ e,
        let out := v.activateSession c userData now t₂ t₃
        out.2 = .error e → out.1.registry = v.registry ∨
          ∃ t, (t = t₂ ∨ t = max t₂ t₃) ∧ out.1.registry = v.registry.cleanupAt t) ∧
      ∀ policy c offer now t e,
        let out := v.acceptOffer policy c offer now t
        out.2 = .error e → out.1.registry = v.registry ∨ out.1.registry = v.registry.cleanupAt t := by
  refine ⟨fun policy request now t => ?_, fun c userData now t₂ t₃ e hout => ?_,
    fun policy c offer now t e hout => ?_⟩
  · rcases v.create_cases host policy request now t with
      ⟨e', herr, hst⟩ | ⟨n, c, p, -, -, -, hprep, hvac, hok⟩
    · refine ⟨fun e _ => ?_, fun response h => absurd (herr.symm.trans h) (by simp)⟩
      rcases hst with hst | ⟨a, -, hst⟩
      · exact .inl (by rw [hst])
      · exact .inr (by rw [hst])
    · rw [hok]
      refine ⟨fun e h => (by cases h), fun response h => ?_⟩
      cases h
      exact Registry.oneSession_issued hprep hvac
  · rcases v.activateSession_cases c userData now t₂ t₃ with ⟨e', -, hst⟩ | ⟨n, -, -, -, -, hok⟩
    · rcases hst with hst | hst | hst
      · exact .inl (by rw [hst])
      · exact .inr ⟨t₂, .inl rfl, by rw [hst]⟩
      · exact .inr ⟨max t₂ t₃, .inr rfl, by rw [hst, Registry.cleanupAt_cleanupAt]⟩
    · rw [hok] at hout
      cases hout
  · rcases v.acceptOffer_cases policy c offer now t with ⟨e', -, hst⟩ | ⟨n, d, -, -, hok⟩
    · rcases hst with hst | hst
      · exact .inl (by rw [hst])
      · exact .inr (by rw [hst])
    · rw [hok] at hout
      cases hout

end

/-- The narrow desk issues one session, refuses the second for want of room, an
activation with nothing presented, and an offer before the Unix epoch. -/
theorem failed_calls_leave_no_trace_narrow :
    let v := narrowDesk.after deskHost narrowCreate
    (narrowDesk.registry.cleanupAt (Duration.fromSecs 9)).OneSession v.registry 5 (Duration.fromSecs 9) ∧
      ((v.after deskHost narrowCreate).registry = v.registry ∨
        (v.after deskHost narrowCreate).registry =
          v.registry.cleanupAt (Duration.fromSecs 9)) ∧
      ((v.activateSession 5 none (some 0) 0 0).1.registry = v.registry ∨
        ∃ t, (t = 0 ∨ t = max 0 0) ∧
          (v.activateSession 5 none (some 0) 0 0).1.registry = v.registry.cleanupAt t) ∧
      ((v.acceptOffer ticketDesk 5 ⟨[], none⟩ none 0).1.registry = v.registry ∨
        (v.acceptOffer ticketDesk 5 ⟨[], none⟩ none 0).1.registry = v.registry.cleanupAt 0) := by
  intro v
  obtain ⟨hcreate₀, -, -⟩ := failed_calls_leave_no_trace deskHost narrowDesk
  obtain ⟨hcreate, hactivate, hoffer⟩ := failed_calls_leave_no_trace deskHost v
  have hfirst := (hcreate₀ ticketDesk {} (some (Duration.fromSecs 1)) (Duration.fromSecs 9)).2
  have hsecond := (hcreate ticketDesk {} (some (Duration.fromSecs 1)) (Duration.fromSecs 9)).1
  refine ⟨?_, hsecond .capacity (by decide +kernel), hactivate 5 none (some 0) 0 0
    (.auth .admissionRequired) (by decide +kernel), hoffer ticketDesk 5 ⟨[], none⟩ none 0 .clock rfl⟩
  have hid : (narrowDesk.createSessionWithRequest deskHost ticketDesk {} (some (Duration.fromSecs 1))
      (Duration.fromSecs 9)).2.toOption.map SessionCreateResponse.clientId = some 5 := by
    decide +kernel
  cases hres : (narrowDesk.createSessionWithRequest deskHost ticketDesk {}
      (some (Duration.fromSecs 1)) (Duration.fromSecs 9)).2 with
  | error e => rw [hres] at hid; cases hid
  | ok response =>
    rw [hres] at hid
    have hresponse := hfirst response hres
    rw [Option.some.inj hid] at hresponse
    exact hresponse

/-! ## Clean-ups in any order -/

namespace Registry

/-- Clean-ups one after the other are one at the latest of their readings. -/
theorem foldl_cleanupAt (r : Registry) (t : Nat) (ts : List Nat) :
    ts.foldl cleanupAt (r.cleanupAt t) = r.cleanupAt (ts.foldl max t) := by
  induction ts generalizing t with
  | nil => rfl
  | cons a ts ih =>
    rw [List.foldl_cons, List.foldl_cons, cleanupAt_cleanupAt]
    exact ih (max t a)

theorem cleanupAt_comm (r : Registry) (a b : Nat) :
    (r.cleanupAt a).cleanupAt b = (r.cleanupAt b).cleanupAt a := by
  rw [cleanupAt_cleanupAt, cleanupAt_cleanupAt, Nat.max_comm]

end Registry

/-- **Clean-up does not depend on the order.** In every registry, one whose details are
all of pending or active sessions or not: a clean-up at `a` and then one at `b`, the
later reading first or last, leave what one at the later of the two leaves. Callers that
read the clock before they got the lock leave what one clean-up at the latest reading
leaves, in whatever order they run. -/
theorem cleanup_order_insensitive (r : Registry) :
    (∀ a b, (r.cleanupAt a).cleanupAt b = r.cleanupAt (max a b)) ∧
      ∀ (t : Nat) (ts order : List Nat), order.Perm (t :: ts) →
        order.foldl Registry.cleanupAt r = r.cleanupAt (ts.foldl max t) := by
  refine ⟨r.cleanupAt_cleanupAt, fun t ts order hperm => ?_⟩
  have hcomm : order.foldl Registry.cleanupAt r = (t :: ts).foldl Registry.cleanupAt r := by
    apply hperm.foldl_eq'
    intro a _ b _ r'
    exact r'.cleanupAt_comm a b
  rw [hcomm, List.foldl_cons]
  exact r.foldl_cleanupAt t ts

/-- A session issued at second 9 is still pending then and gone at second 1000, whichever
caller comes first. -/
theorem cleanup_order_insensitive_narrow :
    let r := (narrowDesk.after deskHost narrowCreate).registry
    ((r.cleanupAt (Duration.fromSecs 9)).pending.has 5 = true ∧
      (r.cleanupAt (Duration.fromSecs 1000)).pending.has 5 = false) ∧
      [Duration.fromSecs 1000, Duration.fromSecs 9].foldl Registry.cleanupAt r =
        r.cleanupAt ([Duration.fromSecs 1000].foldl max (Duration.fromSecs 9)) := by
  refine ⟨by decide +kernel, ?_⟩
  obtain ⟨-, hany⟩ := cleanup_order_insensitive (narrowDesk.after deskHost narrowCreate).registry
  exact hany (Duration.fromSecs 9) [Duration.fromSecs 1000] _ (.swap _ _ _)

end RenetCross.L3
