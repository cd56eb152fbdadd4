import RenetCross.L2Machine.ClientConditioner

/-!
# Limits and statistics of a client's conditioner

The counters live in the handle and the queues in the engine, and a change of the
handle zeroes the ones at once and is noticed by the other later. In every run
with fewer than `2^64` changes of the handle the counters describe the queues or
are zero, keep within the limits, and per direction add up to what was offered
(`limits_and_statistics`). After `2^64` changes in a row they do not: the revision
is a `u64`, the engine keeps its queues, and the counters say they are empty
(`revision_comes_round`).
-/
namespace RenetCross.L2

/-- `popReady` with the subtractions checked: `none` where the source would overflow. -/
def popReadyChecked {T : Type} (now : Nat) :
    List (Scheduled T) → DirectionStats → Option (List (Scheduled T) × DirectionStats × List T)
  | [], stats => some ([], stats, [])
  | p :: rest, stats =>
    if p.due ≤ now then
      if 1 ≤ stats.queuedPackets ∧ p.bytes ≤ stats.queuedBytes then
        (popReadyChecked now rest
          { stats with
            queuedPackets := stats.queuedPackets - 1
            queuedBytes := stats.queuedBytes - p.bytes }).map
          fun r => (r.1, r.2.1, p.payload :: r.2.2)
      else none
    else some (p :: rest, stats, [])

namespace PacketConditioner

variable {T : Type} {e : PacketConditioner T} {n : Nat}

/-- Counters that describe the queue never underflow. -/
theorem popReadyChecked_eq (now : Nat) {q : List (Scheduled T)} {s : DirectionStats}
    (h : Matches s q) : popReadyChecked now q s = some (popReady now q s) := by
  induction q generalizing s with
  | nil => rfl
  | cons p rest ih =>
    obtain ⟨hpackets, hbytes⟩ := h
    simp only [List.length_cons, List.map_cons, List.sum_cons] at hpackets hbytes
    unfold popReadyChecked popReady
    by_cases hdue : p.due ≤ now
    · rw [if_pos hdue, if_pos hdue, if_pos ⟨by omega, by omega⟩, ih]
      · rfl
      · exact ⟨by simp only; omega, by simp only; omega⟩
    · rw [if_neg hdue, if_neg hdue]

theorem tallied_changed (hb : Behind e n) (hn : n < U64_MAX) {c : Control}
    (hc : c.revision = wrapU64 (e.handle.revision + 1))
    (hz : ∀ d, (c.stats.direction d).queuedPackets = 0 ∧ (c.stats.direction d).queuedBytes = 0) :
    Tallied { e with handle := c } := by
  refine ⟨fun heq d => ?_, fun _ => hz⟩
  rcases hb.noticed hn with hempty | hnoticed
  · obtain ⟨hpackets, hbytes⟩ := hz d
    refine ⟨?_, ?_⟩
    · simp only [hempty d]; exact hpackets
    · simp only [hempty d]; exact hbytes
  · exact absurd (heq.trans hc) hnoticed

/-- The queue counters are within the limits of the settings. -/
def Limited (e : PacketConditioner T) : Prop :=
  ∀ d, (e.handle.stats.direction d).queuedPackets ≤ e.handle.config.1.maxQueuePackets ∧
    (e.handle.stats.direction d).queuedBytes ≤ e.handle.config.1.maxQueueBytes

theorem limited_of_zero
    (hz : ∀ d, (e.handle.stats.direction d).queuedPackets = 0 ∧
      (e.handle.stats.direction d).queuedBytes = 0) : Limited e := by
  intro d
  obtain ⟨hpackets, hbytes⟩ := hz d
  rw [hpackets, hbytes]
  exact ⟨Nat.zero_le _, Nat.zero_le _⟩

theorem limited_sync (h : Limited e) (now : Nat) : Limited (e.sync now) := by
  obtain ⟨hst, hcfg, -, -, -, -⟩ := sync_frame e now
  intro d
  rw [hst, hcfg]
  exact h d

theorem limited_enqueued (h : Limited e) {d : ConditionerDirection} {payload : T} {byteLen : Nat}
    {out : PacketConditioner T × Option T} {due : Option Nat}
    (hout : Enqueued e d payload byteLen out due) : Limited out.1 := by
  intro d'
  cases hout with
  | bypassed _ => exact h d'
  | dropped hf =>
    simp only [PacketConditioner.count, ConditionerStats.direction_modify]
    split
    · rename_i heq
      subst heq
      rw [(hf.queue _).1, (hf.queue _).2]
      exact h d'
    · exact h d'
  | queued _ _ hfull =>
    simp only [PacketConditioner.count, ConditionerStats.direction_modify]
    split
    · rename_i heq
      subst heq
      have hold := h d'
      simp only [full, ge_iff_le, gt_iff_lt, Bool.or_eq_false_iff, decide_eq_false_iff_not] at hfull
      simp only [oneMore]
      omega
    · exact h d'

theorem limited_enqueue (h : Limited e) (delay : Nat → Nat → Nat → Nat) (d : ConditionerDirection)
    (now : Nat) (payload : T) (byteLen : Nat) :
    Limited (e.enqueue delay d now payload byteLen).1 :=
  limited_enqueued (limited_sync h now) (enqueue_did delay e d now payload byteLen)

theorem popReady_le (now : Nat) (q : List (Scheduled T)) (s : DirectionStats) :
    (popReady now q s).2.1.queuedPackets ≤ s.queuedPackets ∧
      (popReady now q s).2.1.queuedBytes ≤ s.queuedBytes := by
  induction q generalizing s with
  | nil => exact ⟨Nat.le_refl _, Nat.le_refl _⟩
  | cons p rest ih =>
    unfold popReady
    split
    · have := ih
        { s with queuedPackets := s.queuedPackets - 1, queuedBytes := s.queuedBytes - p.bytes }
      simp only at this ⊢
      omega
    · exact ⟨Nat.le_refl _, Nat.le_refl _⟩

theorem limited_drainReady (h : Limited e) (d : ConditionerDirection) (now : Nat) :
    Limited (e.drainReady d now).1 := by
  have hsync := limited_sync h now
  intro d'
  have hd := hsync d'
  simp only [drainReady, PacketConditioner.count, ConditionerStats.direction_modify]
  split
  · rename_i heq
    subst heq
    have hle := popReady_le (e.sync now).lastNow ((e.sync now).queues d')
      ((e.sync now).handle.stats.direction d')
    omega
  · exact hd

/-! Each call, in one direction: what comes in and goes out. -/

/-- A packet offered is returned, or one more is counted. -/
theorem enqueue_total (delay : Nat → Nat → Nat → Nat) (e : PacketConditioner T)
    (d : ConditionerDirection) (now : Nat) (payload : T) (byteLen : Nat)
    (hu : ((e.enqueue delay d now payload byteLen).1.handle.stats.direction d).Unsaturated) :
    (e.handle.stats.direction d).Unsaturated ∧
      ((e.enqueue delay d now payload byteLen).1.handle.stats.direction d).total +
          (if (e.enqueue delay d now payload byteLen).2.isSome then 1 else 0) =
        (e.handle.stats.direction d).total + 1 := by
  obtain ⟨hst, -, -, -, -, -⟩ := sync_frame e now
  rw [← hst d]
  have hdid := enqueue_did delay e d now payload byteLen
  generalize e.enqueue delay d now payload byteLen = out at hdid hu ⊢
  generalize e.queuedAt delay d now byteLen = due at hdid
  cases hdid with
  | bypassed _ => exact ⟨hu, rfl⟩
  | dropped hf =>
    simp only [PacketConditioner.count, ConditionerStats.direction_modify, if_true] at hu ⊢
    obtain ⟨hbefore, htotal⟩ := hf.total _ hu
    exact ⟨hbefore, by simpa using htotal⟩
  | queued _ _ _ =>
    simp only [PacketConditioner.count, ConditionerStats.direction_modify, if_true] at hu ⊢
    refine ⟨⟨hu.loss, hu.outage, hu.overflow, hu.transition⟩, ?_⟩
    simp only [oneMore, DirectionStats.total, Option.isSome_none]
    simp only [Bool.false_eq_true, if_false]
    omega

/-- The other direction is left alone. -/
theorem enqueue_other (delay : Nat → Nat → Nat → Nat) (e : PacketConditioner T)
    {d d' : ConditionerDirection} (hd : d' ≠ d) (now : Nat) (payload : T) (byteLen : Nat) :
    (e.enqueue delay d now payload byteLen).1.handle.stats.direction d' =
      e.handle.stats.direction d' := by
  obtain ⟨hst, -, -, -, -, -⟩ := sync_frame e now
  rw [← hst d']
  have hdid := enqueue_did delay e d now payload byteLen
  generalize e.enqueue delay d now payload byteLen = out at hdid ⊢
  generalize e.queuedAt delay d now byteLen = due at hdid
  cases hdid with
  | bypassed _ => rfl
  | dropped _ => simp only [PacketConditioner.count, ConditionerStats.direction_modify, if_neg hd]
  | queued _ _ _ => simp only [PacketConditioner.count, ConditionerStats.direction_modify, if_neg hd]

theorem drainReady_total (h : Tallied e) (d : ConditionerDirection) (now : Nat)
    (hu : ((e.drainReady d now).1.handle.stats.direction d).Unsaturated) :
    (e.handle.stats.direction d).Unsaturated ∧
      ((e.drainReady d now).1.handle.stats.direction d).total + (e.drainReady d now).2.length =
        (e.handle.stats.direction d).total := by
  obtain ⟨hst, -, -, -, -, -⟩ := sync_frame e now
  have hcounted := (tallied_sync h now).2 d
  rw [← hst d]
  simp only [drainReady, PacketConditioner.count, ConditionerStats.direction_modify, if_true] at hu ⊢
  obtain ⟨-, htotal, hbefore⟩ := popReady_spec (e.sync now).lastNow _ _ hcounted
  exact ⟨hbefore hu, htotal⟩

theorem drainReady_other (e : PacketConditioner T) {d d' : ConditionerDirection} (hd : d' ≠ d)
    (now : Nat) :
    (e.drainReady d now).1.handle.stats.direction d' = e.handle.stats.direction d' := by
  obtain ⟨hst, -, -, -, -, -⟩ := sync_frame e now
  rw [← hst d']
  simp only [drainReady, PacketConditioner.count, ConditionerStats.direction_modify, if_neg hd]

end PacketConditioner

namespace ClientRun

variable {T : Type}

/-- The books of a run: per direction every packet offered came straight back, was
delivered, waits, or was dropped and counted. -/
structure Counted (s : ClientRun T) : Prop where
  tallied : PacketConditioner.Tallied s.engine
  limited : PacketConditioner.Limited s.engine
  balance : ∀ d, (s.engine.handle.stats.direction d).Unsaturated →
    s.offered d = s.bypassed d + s.delivered d + (s.engine.handle.stats.direction d).total

theorem bump_self (f : ConditionerDirection → Nat) (d : ConditionerDirection) (n : Nat) :
    bump f d n d = f d + n := Function.update_self ..

theorem bump_of_ne (f : ConditionerDirection → Nat) {d d' : ConditionerDirection} (h : d' ≠ d)
    (n : Nat) : bump f d n d' = f d' := Function.update_of_ne h ..

namespace Counted

variable {s : ClientRun T} {n : Nat}

/-- No packet is offered yet and the counters are at zero. -/
theorem recounted (ht : PacketConditioner.Tallied s.engine) (hz : s.engine.handle.stats = {}) :
    Counted s.recount where
  tallied := ht
  limited := PacketConditioner.limited_of_zero fun d => by
    simp only [recount, hz]
    cases d <;> exact ⟨rfl, rfl⟩
  balance := fun d _ => by
    simp only [recount, hz]
    cases d <;> rfl

/-- The queued packets are counted as dropped. -/
theorem changed (h : Counted s) (hb : PacketConditioner.Behind s.engine n) (hn : n < U64_MAX)
    {c : Control} {active : Bool} (hc : c.revision = wrapU64 (s.engine.handle.revision + 1))
    (hst : c.stats = { s.engine.handle.stats.discardQueues with outageActive := active }) :
    Counted (s.changed c) := by
  have hdir : ∀ d, c.stats.direction d = (s.engine.handle.stats.direction d).discardQueue := by
    intro d
    rw [hst]
    exact PacketConditioner.direction_discardQueues _ active d
  have hz : ∀ d, (c.stats.direction d).queuedPackets = 0 ∧ (c.stats.direction d).queuedBytes = 0 := by
    intro d
    rw [hdir d]
    exact ⟨rfl, rfl⟩
  exact
    { tallied := PacketConditioner.tallied_changed hb hn hc hz
      limited := PacketConditioner.limited_of_zero hz
      balance := fun d hu => by
        simp only [ClientRun.changed, hdir d] at hu ⊢
        obtain ⟨hbefore, htotal⟩ := DirectionStats.discardQueue_spec hu
        rw [htotal]
        exact h.balance d hbefore }

theorem offer (h : Counted s) (delay : Nat → Nat → Nat → Nat) (d : ConditionerDirection) (now : Nat)
    (payload : T) (byteLen : Nat) : Counted (s.offer delay d now payload byteLen) where
  tallied := (PacketConditioner.booked_enqueue h.tallied delay d now payload byteLen).tallied
  limited := PacketConditioner.limited_enqueue h.limited delay d now payload byteLen
  balance := fun d' hu => by
    simp only [ClientRun.offer] at hu ⊢
    by_cases hd : d' = d
    · subst hd
      obtain ⟨hbefore, htotal⟩ := s.engine.enqueue_total delay d' now payload byteLen hu
      have hold := h.balance d' hbefore
      rw [bump_self, bump_self]
      omega
    · rw [s.engine.enqueue_other delay hd] at hu ⊢
      rw [bump_of_ne _ hd, bump_of_ne _ hd]
      exact h.balance d' hu

theorem drain (h : Counted s) (d : ConditionerDirection) (now : Nat) : Counted (s.drain d now) where
  tallied := (PacketConditioner.booked_drainReady h.tallied d now).tallied
  limited := PacketConditioner.limited_drainReady h.limited d now
  balance := fun d' hu => by
    simp only [ClientRun.drain] at hu ⊢
    by_cases hd : d' = d
    · subst hd
      obtain ⟨hbefore, htotal⟩ := PacketConditioner.drainReady_total h.tallied d' now hu
      have hold := h.balance d' hbefore
      rw [bump_self]
      omega
    · rw [s.engine.drainReady_other hd] at hu ⊢
      rw [bump_of_ne _ hd]
      exact h.balance d' hu

end Counted

/-- The books are kept as long as the handle has not been changed too often. -/
theorem counted_inductive : (runs T).Inductive fun s => s.changes ≤ U64_MAX →
    PacketConditioner.LineInv s.engine s.changes s.line ∧ Counted s where
  init := by
    intro s hs hle
    obtain ⟨c, rfl⟩ := hs
    exact ⟨.fresh c, Counted.recounted (s := start c) (PacketConditioner.tallied_new c) rfl⟩
  step := by
    intro s op s' ih hstep hle
    have hline := lineInv_inductive.step s op s' (fun h => (ih h).1) hstep hle
    refine ⟨hline, ?_⟩
    subst hstep
    cases op with
    | configure config =>
      simp only [step, Control.configure] at hle ⊢
      by_cases hvalid : config.validate = .ok ()
      · rw [dif_pos hvalid] at hle ⊢
        obtain ⟨hinv, hcounted⟩ := ih (Nat.le_of_succ_le hle)
        exact hcounted.changed hinv.behind hle rfl rfl
      · rw [dif_neg hvalid] at hle ⊢
        exact (ih hle).2
    | outage duration =>
      obtain ⟨hinv, hcounted⟩ := ih (Nat.le_of_succ_le hle)
      exact hcounted.changed hinv.behind hle rfl rfl
    | resetSession =>
      obtain ⟨hinv, -⟩ := ih (Nat.le_of_succ_le hle)
      refine Counted.recounted ?_ rfl
      exact PacketConditioner.tallied_changed hinv.behind hle rfl fun d => by
        cases d <;> exact ⟨rfl, rfl⟩
    | enqueue delay d now payload byteLen => exact (ih hle).2.offer delay d now payload byteLen
    | drainReady d now => exact (ih hle).2.drain d now
    | clearSession =>
      refine Counted.recounted (s := { s with engine := s.engine.clearSession, line := .start }) ?_ rfl
      refine ⟨fun _ d => ?_, fun _ d => ?_⟩
      · cases d <;> exact ⟨rfl, rfl⟩
      · cases d <;> exact ⟨rfl, rfl⟩
    | attach =>
      exact Counted.recounted (s := { s with engine := .new s.engine.handle, line := .start })
        (PacketConditioner.tallied_new _) rfl

/-- Per direction: where the revisions agree the counters are the length and the size
of the queue, and where they differ the counters are zero; taking packets off the
queue never underflows; the counters are within the limits of the settings; until a
counter saturates, they account for every packet offered since the last
`reset_session`. A rejected `configure` changes nothing. -/
theorem limits_and_statistics {s : ClientRun T} (hs : (runs T).Reachable s) (hn : s.changes ≤ U64_MAX) :
    (∀ d, s.engine.revision = s.engine.handle.revision →
        (s.engine.handle.stats.direction d).queuedPackets = (s.engine.queues d).length ∧
          (s.engine.handle.stats.direction d).queuedBytes =
            ((s.engine.queues d).map Scheduled.bytes).sum) ∧
      (∀ d, s.engine.revision ≠ s.engine.handle.revision →
        (s.engine.handle.stats.direction d).queuedPackets = 0 ∧
          (s.engine.handle.stats.direction d).queuedBytes = 0) ∧
      (∀ d now, (popReadyChecked (s.engine.sync now).lastNow ((s.engine.sync now).queues d)
        ((s.engine.sync now).handle.stats.direction d)).isSome = true) ∧
      (∀ d, (s.engine.handle.stats.direction d).queuedPackets ≤
          s.engine.handle.config.1.maxQueuePackets ∧
        (s.engine.handle.stats.direction d).queuedBytes ≤ s.engine.handle.config.1.maxQueueBytes) ∧
      (∀ d, (s.engine.handle.stats.direction d).Unsaturated →
        s.offered d = s.bypassed d + s.delivered d + (s.engine.handle.stats.direction d).total) ∧
      ∀ config err, s.engine.handle.configure config = .error err → s.step (.configure config) = s := by
  obtain ⟨-, hcounted⟩ := counted_inductive.reachable s hs hn
  refine ⟨fun d heq => hcounted.tallied.agree heq d, fun d hne => hcounted.tallied.stale hne d, ?_,
    hcounted.limited, hcounted.balance, ?_⟩
  · intro d now
    have hmatches := (PacketConditioner.tallied_sync hcounted.tallied now).2 d
    rw [PacketConditioner.popReadyChecked_eq _ hmatches]
    rfl
  · intro config err herr
    simp only [step, herr]

theorem limits_and_statistics_threeQueued :
    threeQueued.changes ≤ U64_MAX ∧
      (threeQueued.engine.handle.stats.direction .incoming).Unsaturated ∧
      threeQueued.offered .incoming = threeQueued.bypassed .incoming + threeQueued.delivered .incoming +
        (threeQueued.engine.handle.stats.direction .incoming).total := by
  have hn : threeQueued.changes ≤ U64_MAX := by decide
  have hu : (threeQueued.engine.handle.stats.direction .incoming).Unsaturated :=
    ⟨by decide +kernel, by decide +kernel, by decide +kernel, by decide +kernel⟩
  exact ⟨hn, hu, (limits_and_statistics threeQueued_reachable hn).2.2.2.2.1 .incoming hu⟩

/-! ### The revision wraps around -/

/-- `n` calls of `reset_session` in a row. -/
def resets (s : ClientRun T) (n : Nat) : ClientRun T := (fun s => s.step .resetSession)^[n] s

theorem resets_succ (s : ClientRun T) (n : Nat) :
    s.resets (n + 1) = (s.resets n).step .resetSession := Function.iterate_succ_apply' ..

theorem resets_reachable {s : ClientRun T} (hs : (runs T).Reachable s) (n : Nat) :
    (runs T).Reachable (s.resets n) := by
  induction n with
  | zero => exact hs
  | succ n ih =>
    rw [resets_succ]
    exact ih.run (.cons rfl (.nil _))

/-- The engine is not touched, and the revision of the handle counts on. -/
theorem resets_engine (s : ClientRun T) (n : Nat) :
    (s.resets (n + 1)).engine =
      { s.engine with
        handle := { s.engine.handle with
          stats := {}
          pendingOutage := none
          revision := wrapU64 (s.engine.handle.revision + (n + 1)) } } := by
  induction n with
  | zero => rfl
  | succ n ih =>
    rw [resets_succ]
    simp only [step, recount, ClientRun.changed, Control.resetSession, ih, wrapU64_wrapU64_add]
    rfl

/-- After `2^64` changes the engine sees the revision it knows: it keeps a packet in
its queue that the counters deny, and the next `drain_ready` takes it off a counter
that is at zero. -/
theorem revision_comes_round : ∃ s : ClientRun Nat, (runs Nat).Reachable s ∧
    s.engine.revision = s.engine.handle.revision ∧
    (s.engine.queues .incoming).length = 3 ∧
    (s.engine.handle.stats.direction .incoming).queuedPackets = 0 ∧
    popReadyChecked 8 (s.engine.queues .incoming) (s.engine.handle.stats.direction .incoming) = none := by
  refine ⟨threeQueued.resets (U64_MAX + 1), resets_reachable threeQueued_reachable _, ?_⟩
  have hwrap : wrapU64 (threeQueued.engine.handle.revision + (U64_MAX + 1)) =
      threeQueued.engine.revision := by decide +kernel
  rw [resets_engine]
  refine ⟨hwrap.symm, ?_, rfl, ?_⟩
  · decide +kernel
  · decide +kernel

end ClientRun
end RenetCross.L2
