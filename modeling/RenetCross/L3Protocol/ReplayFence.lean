import RenetCross.L3Protocol.BootstrapThreads
import RenetCross.L3Protocol.TicketOnce

/-!
# The replay fence under concurrency

A create call decides with a wall reading taken before the lock. The fence of an
earlier success is lifted by the first clean-up at or past its time, and from
then on only the wall reading keeps the ticket from being used again. Where that
reading is from before the expiry the second use succeeds, even with both clocks
in step (`late_create_replays`).

`Timely` names these steps, and without them no ticket is issued twice
(`ticket_issued_once`): as long as no clean-up has reached a fence it stands
(`fenced`).
-/
namespace RenetCross.L3

/-- What a grant is one use of. -/
def SessionGrant.ticket (g : SessionGrant) : ReplayKey × UInt64 := (g.replayKey, g.expiresAt)

namespace Event

/-- The ticket a session was issued for. -/
def ticket : Event → Option (ReplayKey × UInt64)
  | .issued _ _ _ d _ _ => d.grant.map SessionGrant.ticket
  | _ => none

/-- The time of the fence that was set with it. -/
def fence : Event → Nat
  | .issued _ _ _ d now monotonic =>
    match d.grant with
    | some g => monotonic + Duration.fromSecs (g.expiresAt.toNat - Duration.asSecs now)
    | none => 0
  | _ => 0

end Event

namespace Threads

variable {A : Type}

/-- The clocks advance in step, and readings are taken in the order of the steps. -/
def Clocked (epoch : Int) (s : Threads A) : ThreadStep → Prop
  | .readWall _ now t => s.time ≤ t ∧ now = unixNow epoch t
  | .readMonotonic _ t => s.time ≤ t
  | .enter _ t t' => s.time ≤ t ∧ t ≤ t'
  | .sessionGrant _ t => s.time ≤ t
  | .cleanup t => s.time ≤ t
  | .isPending _ t => s.time ≤ t
  | .call _ => True
  | .process _ _ => True
  | .disconnected _ => True

instance (epoch : Int) (s : Threads A) (l : ThreadStep) : Decidable (Clocked epoch s l) :=
  match l with
  | .readWall _ now t => inferInstanceAs (Decidable (s.time ≤ t ∧ now = unixNow epoch t))
  | .readMonotonic _ t => inferInstanceAs (Decidable (s.time ≤ t))
  | .enter _ t t' => inferInstanceAs (Decidable (s.time ≤ t ∧ t ≤ t'))
  | .sessionGrant _ t => inferInstanceAs (Decidable (s.time ≤ t))
  | .cleanup t => inferInstanceAs (Decidable (s.time ≤ t))
  | .isPending _ t => inferInstanceAs (Decidable (s.time ≤ t))
  | .call _ => .isTrue trivial
  | .process _ _ => .isTrue trivial
  | .disconnected _ => .isTrue trivial

variable [SessionIdAllocator A]

/-- The grant a create call would be issued in its critical section, with the
call's readings. -/
def presented (s : Threads A) (k : Nat) : Option (SessionGrant × Nat × Nat) :=
  match s.threads[k]?, (SessionIdAllocator.tryNextClientId s.service.allocator).2 with
  | some ⟨.create policy request, .ready now monotonic⟩, some c =>
    match policy.issueSession c request now s.service.config with
    | .ok issued => issued.grant.map fun g => (g, now, monotonic)
    | .error _ => none
  | _, _ => none

/-- A create call with a wall reading from before the expiry of a ticket that was
issued already comes before any clean-up, its own included, at or past the fence
of that issue. -/
def Timely (s : Threads A) : ThreadStep → Prop
  | .enter k _ _ => ∀ x ∈ s.presented k, Duration.asSecs x.2.1 < x.1.expiresAt.toNat →
    ∀ e ∈ s.log, e.ticket = some x.1.ticket → max s.swept x.2.2 < e.fence
  | _ => True

instance (s : Threads A) (l : ThreadStep) : Decidable (Timely s l) :=
  match l with
  | .enter k _ _ => inferInstanceAs (Decidable (∀ x ∈ s.presented k, _ → ∀ e ∈ s.log, _ → _))
  | .readWall _ _ _ => .isTrue trivial
  | .readMonotonic _ _ => .isTrue trivial
  | .sessionGrant _ _ => .isTrue trivial
  | .cleanup _ => .isTrue trivial
  | .isPending _ _ => .isTrue trivial
  | .call _ => .isTrue trivial
  | .process _ _ => .isTrue trivial
  | .disconnected _ => .isTrue trivial

/-- The runs of threads whose clocks advance in step. -/
def clocked (A : Type) [SessionIdAllocator A] (host : Host) (epoch : Int) :
    LTS (Threads A) ThreadStep :=
  (runs A host).restrict (Clocked epoch)

end Threads

/-! ## The fence stands until a clean-up reaches it -/

section
variable {A : Type} [SessionIdAllocator A] {host : Host} {s s' : Threads A}

/-- The fences of the log that no clean-up up to `swept` has reached are set. -/
def Fenced (r : Registry) (swept : Nat) (log : List Event) : Prop :=
  ∀ e ∈ log, ∀ ticket, e.ticket = some ticket → swept < e.fence →
    r.usedGrants.get ticket.1 = some e.fence

theorem Fenced.cleanup {r : Registry} {swept : Nat} {log : List Event} (h : Fenced r swept log)
    {u t : Nat} (hle : u ≤ t) : Fenced (r.cleanupAt u) (max swept t) log := by
  intro e he ticket ht hlt
  have hset := h e he ticket ht (by omega)
  exact Registry.usedGrants_cleanup hset (by omega)

theorem Fenced.swept {r r' : Registry} {swept : Nat} {log : List Event} (h : Fenced r swept log)
    {t : Nat} (hs : Threads.Swept r r' t) : Fenced r' (max swept t) log := by
  rcases hs with rfl | ⟨u, hle, rfl⟩
  · intro e he ticket ht hlt
    exact h e he ticket ht (by omega)
  · exact h.cleanup hle

omit [SessionIdAllocator A] in
structure FenceInv (s : Threads A) : Prop where
  fenced : Fenced s.service.registry s.swept s.log
  once : (s.log.filterMap Event.ticket).Nodup

omit [SessionIdAllocator A] in
/-- An event without a ticket. -/
theorem FenceInv.note (h : FenceInv s) {e : Event} (he : e.ticket = none) :
    FenceInv (s.record [e]) where
  fenced e' he' ticket ht hlt := by
    rcases List.mem_cons.1 he' with rfl | he'
    · rw [he] at ht; cases ht
    · exact h.fenced e' he' ticket ht hlt
  once := by
    change ((e :: s.log).filterMap Event.ticket).Nodup
    rw [List.filterMap_cons_none he]
    exact h.once

omit [SessionIdAllocator A] in
/-- A change of the calls, or of the time. -/
theorem FenceInv.of_eq (h : FenceInv s) (hv : s'.service.registry.usedGrants =
    s.service.registry.usedGrants) (hs : s'.swept = s.swept) (hl : s'.log = s.log) : FenceInv s' where
  fenced e he ticket ht hlt := by
    rw [hl] at he
    rw [hs] at hlt
    rw [hv]
    exact h.fenced e he ticket ht hlt
  once := by rw [hl]; exact h.once

/-- The grant of a call that gets through is the one it presented. -/
theorem presented_of_prepare {k : Nat} {policy : SessionAuthPolicy} {request : SessionCreateRequest}
    {now m : Nat} {c : ClientId} {r : Registry} {p : Prepared} {g : SessionGrant}
    (hk : s.threads[k]? = some ⟨.create policy request, .ready now m⟩)
    (hc : (SessionIdAllocator.tryNextClientId s.service.allocator).2 = some c)
    (hprep : prepare host policy s.service.config request now m r c = .ok p)
    (hg : p.details.grant = some g) : s.presented k = some (g, now, m) := by
  obtain ⟨-, issued, hissue, hgr, -⟩ := prepare_grant hprep
  simp only [Threads.presented, hk, hc, hissue, ← hgr, hg, Option.map_some]

/-- A session is issued: its ticket was not issued before, and its fence is set. -/
theorem FenceInv.issue (h : FenceInv s) {k : Nat} {policy : SessionAuthPolicy}
    {request : SessionCreateRequest} {now m : Nat} {c : ClientId} {p : Prepared}
    {v : BootstrapService A} {t t' : Nat} (ht : s.Timely (.enter k t t'))
    (hk : s.threads[k]? = some ⟨.create policy request, .ready now m⟩)
    (hc : (SessionIdAllocator.tryNextClientId s.service.allocator).2 = some c)
    (hprep : prepare host policy s.service.config request now m
      (s.service.registry.cleanupAt m) c = .ok p)
    (hv : v.registry = (s.service.registry.cleanupAt m).issued c m p) (job : Job) (n : Nat) :
    FenceInv (((s.locked v m).advance k job .done).record [.issued k c n p.details now m]) := by
  have hold := h.fenced.cleanup (Nat.le_refl m)
  obtain ⟨-, issued, -, hgr, hfence⟩ := prepare_grant hprep
  cases hg : p.details.grant with
  | none =>
    rw [← hgr, hg] at hfence
    have hused : v.registry.usedGrants = (s.service.registry.cleanupAt m).usedGrants := by
      rw [hv]; simp only [Registry.issued, hfence]
    have hs : FenceInv (s.locked v m) :=
      ⟨fun e he ticket htk hlt => by
        rw [show (s.locked v m).service = v from rfl, hused]; exact hold e he ticket htk hlt, h.once⟩
    have hs' : FenceInv ((s.locked v m).advance k job .done) := hs.of_eq rfl rfl rfl
    exact hs'.note (by simp [Event.ticket, hg])
  | some g =>
    rw [← hgr, hg] at hfence
    obtain ⟨hlt, hnew, -, -, hreplay⟩ := hfence
    have hticket : Event.ticket (.issued k c n p.details now m) = some g.ticket := by
      simp [Event.ticket, hg]
    have hused : v.registry.usedGrants = (s.service.registry.cleanupAt m).usedGrants.insert
        g.replayKey (Event.fence (.issued k c n p.details now m)) := by
      rw [hv]
      simp only [Registry.issued, hreplay, Event.fence, hg]
    have hpres := presented_of_prepare hk hc hprep hg
    refine ⟨fun e he ticket htk hlt' => ?_, ?_⟩
    · change v.registry.usedGrants.get ticket.1 = some e.fence
      rw [hused, HashMap.get_insert]
      rcases List.mem_cons.1 he with rfl | he
      · rw [hticket] at htk
        cases htk
        exact if_pos rfl
      · have hset := hold e he ticket htk hlt'
        -- another fence of the same key would have kept this call out
        rw [if_neg]
        · exact hset
        · intro hkey
          exact hnew (HashMap.mem_iff_get.2 ⟨e.fence, hkey ▸ hset⟩)
    · change (List.filterMap Event.ticket (_ :: s.log)).Nodup
      rw [List.filterMap_cons_some hticket, List.nodup_cons]
      refine ⟨fun hmem => ?_, h.once⟩
      obtain ⟨e, he, htk⟩ := List.mem_filterMap.1 hmem
      have htime := ht (g, now, m) hpres hlt e he htk
      exact hnew (HashMap.mem_iff_get.2 ⟨e.fence, hold e he g.ticket htk htime⟩)

theorem FenceInv.did {l : ThreadStep} (h : FenceInv s) (ht : s.Timely l)
    (hd : Threads.Did host s l s') : FenceInv s' := by
  cases hd with
  | begun job => exact h.of_eq rfl rfl rfl
  | waited t _ _ _ => exact h.of_eq rfl rfl rfl
  | refused u _ _ hswept _ => exact ⟨h.fenced.swept hswept, h.once⟩
  | issued t t' hk hc hprep _ hv _ => exact h.issue ht hk hc hprep hv _ _
  | @claimed _ k policy c offer now t d v _ _ hv _ =>
    have hs : Fenced v.registry (max s.swept t) s.log := by
      rw [hv]; exact h.fenced.cleanup (Nat.le_refl t)
    have hi : FenceInv (((s.locked v t).at_ t).advance k (.acceptOffer policy c offer)
      (.claimed c (sessionNo c s.log))) := ⟨hs, h.once⟩
    exact hi.note rfl
  | @activated _ k c userData p t v u _ _ _ _ hv _ =>
    have hs : Fenced v.registry (max s.swept t) s.log := by
      rw [hv]; exact h.fenced.cleanup (Nat.le_refl t)
    exact ⟨hs, h.once⟩
  | @processed k job c n ok _ =>
    have h' : FenceInv (s.advance k job .done) := h.of_eq rfl rfl rfl
    exact h'.note rfl
  | swept t => exact ⟨h.fenced.cleanup (Nat.le_refl t), h.once⟩
  | disconnected c => exact h.of_eq rfl rfl rfl

theorem fenceInv_inductive (host : Host) (epoch : Int) :
    ((Threads.clocked A host epoch).restrict Threads.Timely).Inductive FenceInv where
  init := by
    intro s hs
    obtain ⟨v, -, rfl⟩ := hs
    exact ⟨fun e he => absurd he List.not_mem_nil, .nil⟩
  step := by
    intro s l s' h hstep
    exact h.did hstep.1 (Threads.step_did hstep.2.2)

/-- **The replay fence.** In every run whose create calls are timely, no two of
them are issued a session for grants of the same replay key and expiry. -/
theorem ticket_issued_once (host : Host) (epoch : Int) (s : Threads A)
    (h : ((Threads.clocked A host epoch).restrict Threads.Timely).Reachable s) :
    (s.log.filterMap Event.ticket).Nodup :=
  ((fenceInv_inductive host epoch).reachable s h).once

end

/-- A policy that gives everybody a ticket good until second 2. -/
def lateDesk : SessionAuthPolicy where
  issueSession _ _ _ _ := .ok
    { sessionToken := none
      security := some ⟨7, [1], [2], 2, [], []⟩
      grant := some { matchTicket with expiresAt := 2 } }
  verifyIssuedOffer _ _ _ _ := .ok ()

def lateService : BootstrapService MonotonicClientIdAllocator := .new deskConfig ⟨1⟩

/-- One create call from its beginning to its wait for the lock, at time `t` with
the wall clock at `t` too. -/
def queued (k t : Nat) : List ThreadStep :=
  [.call (.create lateDesk {}), .readWall k (some t) t, .readMonotonic k t]

/-- The second call comes while the fence stands. -/
def timelySteps : List ThreadStep :=
  queued 0 1000000000 ++ [.enter 0 1000000000 1000000000] ++
    queued 1 1999999998 ++ [.cleanup 1999999999, .enter 1 1999999999 1999999999]

/-- A nanosecond later: the second call reads both clocks just before the expiry,
and another thread cleans up before it gets the lock. -/
def lateSteps : List ThreadStep :=
  queued 0 1000000000 ++ [.enter 0 1000000000 1000000000] ++
    queued 1 1999999999 ++ [.cleanup 2000000000, .enter 1 2000000000 2000000000]

theorem ticket_issued_once_desk :
    ∃ s, ((Threads.clocked _ deskHost 0).restrict Threads.Timely).Run (.begin lateService)
        timelySteps s ∧ s.log.length = 1 ∧ (s.log.filterMap Event.ticket).Nodup := by
  have hlog : (timelySteps.foldlM (fun s l => if Threads.Timely s l ∧ Threads.Clocked 0 s l then
      Threads.step deskHost s l else none) (.begin lateService)).map (fun s => s.log.length) =
        some 1 := by decide +kernel
  obtain ⟨s, hs, hlen⟩ := Option.map_eq_some_iff.1 hlog
  have hrun : ((Threads.clocked _ deskHost 0).restrict Threads.Timely).Run (.begin lateService)
      timelySteps s :=
    LTS.run_of_foldlM (fun _ _ _ h => and_assoc.1 (Option.ite_none_right_eq_some.1 h)) hs
  exact ⟨s, hrun, hlen,
    ticket_issued_once deskHost 0 s ⟨_, _, ⟨_, .inl ⟨_, _, rfl⟩, rfl⟩, hrun⟩⟩

/-- **The fence can be missed.** The claim for every run with clocks in step is
false: both calls of `lateSteps` are issued a session for the same ticket. -/
theorem late_create_replays :
    ¬ ∀ (host : Host) (epoch : Int) (s : Threads MonotonicClientIdAllocator),
      (Threads.clocked MonotonicClientIdAllocator host epoch).Reachable s →
        (s.log.filterMap Event.ticket).Nodup := by
  intro hall
  have hrun : (lateSteps.foldlM (fun s l => if Threads.Clocked 0 s l then
      Threads.step deskHost s l else none) (.begin lateService)).map
        (fun s => decide (s.log.filterMap Event.ticket).Nodup) = some false := by decide +kernel
  obtain ⟨s, hs, hdup⟩ := Option.map_eq_some_iff.1 hrun
  have hreach : (Threads.clocked MonotonicClientIdAllocator deskHost 0).Reachable s :=
    ⟨.begin lateService, lateSteps, ⟨_, .inl ⟨_, _, rfl⟩, rfl⟩,
      LTS.run_of_foldlM (fun _ _ _ h => Option.ite_none_right_eq_some.1 h) hs⟩
  exact of_decide_eq_false hdup (hall deskHost 0 s hreach)

end RenetCross.L3
