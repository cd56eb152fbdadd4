import Mathlib.Algebra.BigOperators.Group.List.Basic
import Mathlib.Algebra.GroupWithZero.Nat
import RenetCross.L2Machine.Conditioner

/-!
# Accounting of one conditioner engine

Every packet an engine takes in is counted once: it sits in a queue or in one of
four drop counters (`total`). `Tallied` ties the queue counters to the queues.
The counters live in the handle and are zeroed by a change of the handle, while
the queues are cleared only when the engine next looks, so the tie is between
the counters and the queues only as long as the two revisions agree; otherwise
the counters are zero.

Saturation is excluded on the state after a call (`Unsaturated`): the drop
counters never decrease, so what holds after the call held before it.
-/
namespace RenetCross.L2

/-- Packets a direction accounts for: queued, or dropped for one of four reasons. -/
def DirectionStats.total (s : DirectionStats) : Nat :=
  s.queuedPackets + s.simulatedLossDrops + s.outageDrops + s.overflowDrops + s.transitionDrops

/-- No drop counter has reached the top. -/
structure DirectionStats.Unsaturated (s : DirectionStats) : Prop where
  loss : s.simulatedLossDrops < U64_MAX
  outage : s.outageDrops < U64_MAX
  overflow : s.overflowDrops < U64_MAX
  transition : s.transitionDrops < U64_MAX

instance (s : DirectionStats) : Decidable s.Unsaturated :=
  decidable_of_iff (s.simulatedLossDrops < U64_MAX ∧ s.outageDrops < U64_MAX ∧
      s.overflowDrops < U64_MAX ∧ s.transitionDrops < U64_MAX)
    ⟨fun ⟨hloss, hout, hover, htrans⟩ => ⟨hloss, hout, hover, htrans⟩,
      fun h => ⟨h.loss, h.outage, h.overflow, h.transition⟩⟩

namespace ConditionerStats

def total (s : ConditionerStats) : Nat := s.incoming.total + s.outgoing.total

structure Unsaturated (s : ConditionerStats) : Prop where
  incoming : s.incoming.Unsaturated
  outgoing : s.outgoing.Unsaturated

theorem Unsaturated.direction {s : ConditionerStats} (h : s.Unsaturated) (d : ConditionerDirection) :
    (s.direction d).Unsaturated := by cases d; exacts [h.incoming, h.outgoing]

/-- A write to one direction changes the total by what it changes there. -/
theorem total_modify (s : ConditionerStats) (d : ConditionerDirection)
    (f : DirectionStats → DirectionStats) :
    (s.modifyDirection d f).total + (s.direction d).total = s.total + (f (s.direction d)).total := by
  cases d <;> simp only [modifyDirection, total, direction] <;> omega

theorem direction_modify (s : ConditionerStats) (d d' : ConditionerDirection)
    (f : DirectionStats → DirectionStats) :
    (s.modifyDirection d f).direction d' = if d' = d then f (s.direction d) else s.direction d' := by
  cases d <;> cases d' <;> rfl

theorem unsaturated_iff {s : ConditionerStats} : s.Unsaturated ↔ ∀ d, (s.direction d).Unsaturated :=
  ⟨fun h d => h.direction d, fun h => ⟨h .incoming, h .outgoing⟩⟩

end ConditionerStats

/-- Discarding a queue moves its packets to `transition_drops`. -/
theorem DirectionStats.discardQueue_spec {s : DirectionStats} (h : s.discardQueue.Unsaturated) :
    s.Unsaturated ∧ s.discardQueue.total = s.total := by
  have ht := h.transition
  have hsum : satAdd U64_MAX s.transitionDrops s.queuedPackets = s.transitionDrops + s.queuedPackets :=
    satAdd_eq_of_lt ht
  simp only [discardQueue] at ht
  refine ⟨⟨h.loss, h.outage, h.overflow, by omega⟩, ?_⟩
  simp only [total, discardQueue]
  omega

theorem ConditionerStats.discardQueues_spec {s : ConditionerStats} {active : Bool}
    (h : ({ s.discardQueues with outageActive := active } : ConditionerStats).Unsaturated) :
    s.Unsaturated ∧
      ({ s.discardQueues with outageActive := active } : ConditionerStats).total = s.total := by
  obtain ⟨hi, hit⟩ := DirectionStats.discardQueue_spec h.incoming
  obtain ⟨ho, hot⟩ := DirectionStats.discardQueue_spec h.outgoing
  refine ⟨⟨hi, ho⟩, ?_⟩
  simp only [total, discardQueues]
  omega

namespace PacketConditioner

variable {T : Type}

/-- The counters of a direction describe its queue. -/
def Matches (stats : DirectionStats) (queue : List (Scheduled T)) : Prop :=
  stats.queuedPackets = queue.length ∧ stats.queuedBytes = (queue.map Scheduled.bytes).sum

/-- The queue counters describe the queues, or are zero when the engine has yet
to notice a change. -/
structure Tallied (e : PacketConditioner T) : Prop where
  agree : e.revision = e.handle.revision → ∀ d, Matches (e.handle.stats.direction d) (e.queues d)
  stale : e.revision ≠ e.handle.revision →
    ∀ d, (e.handle.stats.direction d).queuedPackets = 0 ∧ (e.handle.stats.direction d).queuedBytes = 0

theorem full_rng (e : PacketConditioner T) (rng : UInt64) (d : ConditionerDirection) (byteLen : Nat) :
    full { e with rng := rng } d byteLen = e.full d byteLen := rfl

/-- A change of the handle will be noticed. -/
def Noticed (e : PacketConditioner T) : Prop := e.revision ≠ wrapU64 (e.handle.revision + 1)

theorem tallied_new (c : Control) : Tallied (PacketConditioner.new c : PacketConditioner T) := by
  refine ⟨fun _ d => ?_, fun _ d => ?_⟩
  · cases d <;> exact ⟨rfl, rfl⟩
  · cases d <;> exact ⟨rfl, rfl⟩

/-! ## Changes of the handle -/

theorem direction_discardQueues (s : ConditionerStats) (active : Bool) (d : ConditionerDirection) :
    (({ s.discardQueues with outageActive := active } : ConditionerStats).direction d) =
      (s.direction d).discardQueue := by cases d <;> rfl

theorem tallied_outage {e : PacketConditioner T} (hn : Noticed e) (duration : Nat) :
    Tallied { e with handle := e.handle.outage duration } := by
  refine ⟨fun h => absurd h hn, fun _ d => ?_⟩
  simp only [Control.outage, direction_discardQueues]
  exact ⟨rfl, rfl⟩

theorem tallied_reconfigure {e : PacketConditioner T} (hn : Noticed e) (config : ValidConfig) :
    Tallied { e with handle := e.handle.reconfigure config } := by
  refine ⟨fun h => absurd h hn, fun _ d => ?_⟩
  simp only [Control.reconfigure, direction_discardQueues]
  exact ⟨rfl, rfl⟩

/-! ## `sync` -/

/-- What `sync` does to the counters and the queues. -/
theorem sync_frame (e : PacketConditioner T) (now : Nat) :
    (∀ d, (e.sync now).handle.stats.direction d = e.handle.stats.direction d) ∧
      (e.sync now).handle.config = e.handle.config ∧
      (e.sync now).handle.revision = e.handle.revision ∧
      (e.sync now).revision = e.handle.revision ∧
      (e.sync now).lastNow = max now e.lastNow ∧
      (e.sync now).queues = if e.revision = e.handle.revision then e.queues else fun _ => [] := by
  unfold sync resync expire
  by_cases h : e.revision = e.handle.revision
  · simp only [h, ne_eq, not_true_eq_false, if_false, if_true, and_self, and_true]
    intro d; cases d <;> rfl
  · simp only [h, ne_eq, not_false_eq_true, if_true, if_false, and_self, and_true]
    intro d; cases d <;> rfl

/-- After `sync` the revisions agree and the counters describe the queues. -/
theorem tallied_sync {e : PacketConditioner T} (h : Tallied e) (now : Nat) :
    (e.sync now).revision = (e.sync now).handle.revision ∧
      ∀ d, Matches ((e.sync now).handle.stats.direction d) ((e.sync now).queues d) := by
  obtain ⟨hst, -, hrev, hrev', -, hq⟩ := sync_frame e now
  refine ⟨hrev'.trans hrev.symm, fun d => ?_⟩
  rw [hst, hq]
  split
  · rename_i heq; exact h.agree heq d
  · rename_i hne
    obtain ⟨h1, h2⟩ := h.stale hne d
    exact ⟨h1, by simpa using h2⟩

theorem total_eq_of_direction {s s' : ConditionerStats} (h : ∀ d, s.direction d = s'.direction d) :
    s.total = s'.total := by
  have h1 : s.incoming = s'.incoming := h .incoming
  have h2 : s.outgoing = s'.outgoing := h .outgoing
  unfold ConditionerStats.total; rw [h1, h2]

theorem unsaturated_of_direction {s s' : ConditionerStats} (h : ∀ d, s.direction d = s'.direction d)
    (hs : s.Unsaturated) : s'.Unsaturated :=
  ConditionerStats.unsaturated_iff.2 fun d => h d ▸ hs.direction d

/-! ## Counting one packet -/

/-- A drop counted in `d` by one of the saturating counters. -/
structure CountsOne (f : DirectionStats → DirectionStats) : Prop where
  queue : ∀ s, (f s).queuedPackets = s.queuedPackets ∧ (f s).queuedBytes = s.queuedBytes
  total : ∀ s, (f s).Unsaturated → s.Unsaturated ∧ (f s).total = s.total + 1

theorem countsOne_loss :
    CountsOne fun s => { s with simulatedLossDrops := satAdd U64_MAX s.simulatedLossDrops 1 } := by
  refine ⟨fun s => ⟨rfl, rfl⟩, fun s h => ?_⟩
  have hl := satAdd_eq_of_lt h.loss
  have hlt := h.loss; simp only at hlt
  exact ⟨⟨by omega, h.outage, h.overflow, h.transition⟩, by simp only [DirectionStats.total]; omega⟩

theorem countsOne_outage :
    CountsOne fun s => { s with outageDrops := satAdd U64_MAX s.outageDrops 1 } := by
  refine ⟨fun s => ⟨rfl, rfl⟩, fun s h => ?_⟩
  have hl := satAdd_eq_of_lt h.outage
  have hlt := h.outage; simp only at hlt
  exact ⟨⟨h.loss, by omega, h.overflow, h.transition⟩, by simp only [DirectionStats.total]; omega⟩

theorem countsOne_overflow :
    CountsOne fun s => { s with overflowDrops := satAdd U64_MAX s.overflowDrops 1 } := by
  refine ⟨fun s => ⟨rfl, rfl⟩, fun s h => ?_⟩
  have hl := satAdd_eq_of_lt h.overflow
  have hlt := h.overflow; simp only at hlt
  exact ⟨⟨h.loss, h.outage, by omega, h.transition⟩, by simp only [DirectionStats.total]; omega⟩

/-- What a call does to an engine: afterwards the revisions agree and the
counters describe the queues, `taken` packets came in and `released` went out. -/
structure Booked (e e' : PacketConditioner T) (taken released : Nat) : Prop where
  synced : e'.revision = e'.handle.revision
  counted : ∀ d, Matches (e'.handle.stats.direction d) (e'.queues d)
  revision : e'.handle.revision = e.handle.revision
  config : e'.handle.config = e.handle.config
  total : e'.handle.stats.Unsaturated → e.handle.stats.Unsaturated ∧
    e'.handle.stats.total + released = e.handle.stats.total + taken

theorem Booked.tallied {e e' : PacketConditioner T} {taken released : Nat}
    (h : Booked e e' taken released) : Tallied e' :=
  ⟨fun _ => h.counted, fun hne => absurd h.synced hne⟩

theorem booked_sync {e : PacketConditioner T} (h : Tallied e) (now : Nat) :
    Booked e (e.sync now) 0 0 := by
  obtain ⟨hst, hcfg, hrev, -, -, -⟩ := sync_frame e now
  obtain ⟨hs, hc⟩ := tallied_sync h now
  exact ⟨hs, hc, hrev, hcfg, fun hu => ⟨unsaturated_of_direction hst hu, by
    rw [total_eq_of_direction hst]⟩⟩

theorem Booked.count {e e' : PacketConditioner T} (h : Booked e e' 0 0) (d : ConditionerDirection)
    {f : DirectionStats → DirectionStats} (hf : CountsOne f) : Booked e (e'.count d f) 1 0 := by
  refine ⟨h.synced, fun d' => ?_, h.revision, h.config, fun hu => ?_⟩
  · have hm := h.counted d'
    have hq := hf.queue (e'.handle.stats.direction d)
    simp only [PacketConditioner.count, ConditionerStats.direction_modify]
    split
    · rename_i heq; subst heq; exact ⟨hq.1.trans hm.1, hq.2.trans hm.2⟩
    · exact hm
  · have hud := hu.direction d
    simp only [PacketConditioner.count, ConditionerStats.direction_modify, if_true] at hud
    obtain ⟨hd, htot⟩ := hf.total _ hud
    have hall : e'.handle.stats.Unsaturated := by
      refine ConditionerStats.unsaturated_iff.2 fun d' => ?_
      have hud' := hu.direction d'
      simp only [PacketConditioner.count, ConditionerStats.direction_modify] at hud'
      split at hud'
      · rename_i heq; subst heq; exact hd
      · exact hud'
    obtain ⟨hue, hte⟩ := h.total hall
    have hmod := ConditionerStats.total_modify e'.handle.stats d f
    refine ⟨hue, ?_⟩
    simp only [PacketConditioner.count]
    omega

theorem schedule_perm (p : Scheduled T) (q : List (Scheduled T)) : (schedule p q).Perm (p :: q) := by
  induction q with
  | nil => exact .refl _
  | cons x rest ih =>
    unfold schedule
    split
    · exact .refl _
    · exact (ih.cons x).trans (.swap p x rest)

theorem length_schedule (p : Scheduled T) : ∀ q : List (Scheduled T),
    (schedule p q).length = q.length + 1
  | [] => rfl
  | q :: rest => by unfold schedule; split <;> simp [length_schedule p rest]

theorem bytes_schedule (p : Scheduled T) : ∀ q : List (Scheduled T),
    ((schedule p q).map Scheduled.bytes).sum = (q.map Scheduled.bytes).sum + p.bytes
  | [] => by simp [schedule]
  | q :: rest => by
    unfold schedule
    split
    · simp only [List.map_cons, List.sum_cons]; omega
    · simp only [List.map_cons, List.sum_cons, bytes_schedule p rest]; omega

theorem Booked.push {e e' : PacketConditioner T} (h : Booked e e' 0 0)
    (delay : Nat → Nat → Nat → Nat) (d : ConditionerDirection) (payload : T) (byteLen : Nat) :
    Booked e (e'.push delay d payload byteLen) 1 0 := by
  refine ⟨h.synced, fun d' => ?_, h.revision, h.config, fun hu => ?_⟩
  · have hm := h.counted d'
    simp only [PacketConditioner.push, PacketConditioner.count, ConditionerStats.direction_modify]
    split
    · rename_i heq; subst heq
      simp only [Function.update_self, Matches, length_schedule, bytes_schedule]
      exact ⟨by rw [hm.1], by rw [hm.2]⟩
    · rename_i hne; rw [Function.update_of_ne hne]; exact hm
  · have hud : e'.handle.stats.Unsaturated := by
      refine ConditionerStats.unsaturated_iff.2 fun d' => ?_
      have hud' := hu.direction d'
      simp only [PacketConditioner.push, PacketConditioner.count,
        ConditionerStats.direction_modify] at hud'
      split at hud'
      · rename_i heq; subst heq
        exact ⟨hud'.loss, hud'.outage, hud'.overflow, hud'.transition⟩
      · exact hud'
    obtain ⟨hue, hte⟩ := h.total hud
    refine ⟨hue, ?_⟩
    have hmod := ConditionerStats.total_modify e'.handle.stats d fun s =>
      { s with queuedPackets := s.queuedPackets + 1, queuedBytes := s.queuedBytes + byteLen }
    simp only [PacketConditioner.push, PacketConditioner.count]
    simp only [DirectionStats.total] at hmod
    omega

/-! ## The engine's calls -/

theorem Booked.impair {e e' : PacketConditioner T} (h : Booked e e' 0 0)
    (delay : Nat → Nat → Nat → Nat) (d : ConditionerDirection) (payload : T) (byteLen : Nat) :
    Booked e (e'.impair delay d payload byteLen) 1 0 := by
  have hrng : Booked e { e' with rng := (splitMix64 e'.rng).1 } 0 0 :=
    ⟨h.synced, h.counted, h.revision, h.config, h.total⟩
  unfold PacketConditioner.impair
  dsimp only
  split
  · exact hrng.count d countsOne_loss
  · split
    · exact hrng.count d countsOne_overflow
    · exact hrng.push delay d payload byteLen

/-- A packet offered to an engine is counted exactly if it is not returned. -/
theorem booked_enqueue {e : PacketConditioner T} (h : Tallied e) (delay : Nat → Nat → Nat → Nat)
    (d : ConditionerDirection) (now : Nat) (payload : T) (byteLen : Nat) :
    Booked e (e.enqueue delay d now payload byteLen).1
      (if (e.enqueue delay d now payload byteLen).2.isNone then 1 else 0) 0 := by
  have hs := booked_sync h now
  unfold enqueue
  dsimp only
  split
  · exact hs.count d countsOne_outage
  · split
    · exact hs
    · exact hs.impair delay d payload byteLen

/-- Releasing packets takes them off the queue and its counters together. -/
theorem popReady_spec (now : Nat) : ∀ (q : List (Scheduled T)) (s : DirectionStats), Matches s q →
    Matches (popReady now q s).2.1 (popReady now q s).1 ∧
      (popReady now q s).2.1.total + (popReady now q s).2.2.length = s.total ∧
      ((popReady now q s).2.1.Unsaturated → s.Unsaturated)
  | [], s, h => ⟨h, rfl, id⟩
  | p :: rest, s, h => by
    unfold popReady
    split
    · obtain ⟨h1, h2⟩ := h
      simp only [List.length_cons, List.map_cons, List.sum_cons] at h1 h2
      obtain ⟨hm, ht, hu⟩ := popReady_spec now rest
        { s with queuedPackets := s.queuedPackets - 1, queuedBytes := s.queuedBytes - p.bytes }
        ⟨by simp only [h1]; omega, by simp only [h2]; omega⟩
      refine ⟨hm, ?_, fun hsat => ?_⟩
      · simp only [DirectionStats.total, List.length_cons] at ht ⊢; omega
      · obtain ⟨a, b, c, d⟩ := hu hsat; exact ⟨a, b, c, d⟩
    · exact ⟨h, rfl, id⟩

theorem booked_drainReady {e : PacketConditioner T} (h : Tallied e) (d : ConditionerDirection)
    (now : Nat) : Booked e (e.drainReady d now).1 0 (e.drainReady d now).2.length := by
  have hs := booked_sync h now
  set e1 := e.sync now with he1
  obtain ⟨hm, ht, hu⟩ := popReady_spec e1.lastNow (e1.queues d) _ (hs.counted d)
  unfold drainReady
  rw [← he1]
  refine ⟨hs.synced, fun d' => ?_, hs.revision, hs.config, fun hsat => ?_⟩
  · simp only [PacketConditioner.count, ConditionerStats.direction_modify]
    split
    · rename_i heq; subst heq; rw [Function.update_self]; exact hm
    · rename_i hne; rw [Function.update_of_ne hne]; exact hs.counted d'
  · have hud : e1.handle.stats.Unsaturated := by
      refine ConditionerStats.unsaturated_iff.2 fun d' => ?_
      have hud' := hsat.direction d'
      simp only [PacketConditioner.count, ConditionerStats.direction_modify] at hud'
      split at hud'
      · rename_i heq; subst heq; exact hu hud'
      · exact hud'
    obtain ⟨hue, hte⟩ := hs.total hud
    refine ⟨hue, ?_⟩
    have hmod := ConditionerStats.total_modify e1.handle.stats d fun _ =>
      (popReady e1.lastNow (e1.queues d) (e1.handle.stats.direction d)).2.1
    simp only [PacketConditioner.count]
    omega

/-! ## Where a packet goes -/

/-- When a packet offered now is due, if it is queued at all. -/
def queuedAt (delay : Nat → Nat → Nat → Nat) (e : PacketConditioner T) (d : ConditionerDirection)
    (now byteLen : Nat) : Option Nat :=
  let e := e.sync now
  let r := splitMix64 e.rng
  if e.outageUntil.isSome ∨ e.handle.config.1.enabled = false ∨
      lost r.2 e.handle.config.1.packetLoss ∨ e.full d byteLen then
    none
  else
    some (Duration.saturatingAdd e.lastNow
      (delay e.handle.config.1.latency e.handle.config.1.jitter (splitMix64 r.1).2))

/-- One more packet in the queue. -/
def oneMore (byteLen : Nat) (s : DirectionStats) : DirectionStats :=
  { s with queuedPackets := s.queuedPackets + 1, queuedBytes := s.queuedBytes + byteLen }

/-- What `enqueue` does, after `sync`, with the time the packet is due. -/
inductive Enqueued (e : PacketConditioner T) (d : ConditionerDirection) (payload : T) (byteLen : Nat) :
    PacketConditioner T × Option T → Option Nat → Prop
  | bypassed : e.handle.config.1.enabled = false → Enqueued e d payload byteLen (e, some payload) none
  | dropped {rng : UInt64} {f : DirectionStats → DirectionStats} : CountsOne f →
      Enqueued e d payload byteLen ({ e with rng := rng }.count d f, none) none
  | queued {rng : UInt64} {due : Nat} : e.outageUntil = none → e.handle.config.1.enabled = true →
      e.full d byteLen = false →
      Enqueued e d payload byteLen
        ({ e with
            rng := rng
            queues := Function.update e.queues d (schedule ⟨due, payload, byteLen⟩ (e.queues d))
          }.count d (oneMore byteLen), none) (some due)

theorem enqueue_did (delay : Nat → Nat → Nat → Nat) (e : PacketConditioner T)
    (d : ConditionerDirection) (now : Nat) (payload : T) (byteLen : Nat) :
    Enqueued (e.sync now) d payload byteLen (e.enqueue delay d now payload byteLen)
      (e.queuedAt delay d now byteLen) := by
  unfold enqueue queuedAt
  dsimp only
  by_cases hout : (e.sync now).outageUntil.isSome = true
  · rw [if_pos hout, if_pos (.inl hout)]
    exact .dropped countsOne_outage
  · rw [if_neg hout]
    by_cases hen : (e.sync now).handle.config.1.enabled = true
    swap
    · have hdis : (e.sync now).handle.config.1.enabled = false := by simpa using hen
      rw [if_pos (by simp [hdis]), if_pos (.inr (.inl hdis))]
      exact .bypassed hdis
    · rw [if_neg (by simp [hen])]
      unfold impair
      dsimp only
      by_cases hlost : lost (splitMix64 (e.sync now).rng).2 (e.sync now).handle.config.1.packetLoss = true
      · rw [if_pos hlost, if_pos (.inr (.inr (.inl hlost)))]
        exact .dropped countsOne_loss
      · rw [if_neg hlost]
        rw [full_rng]
        by_cases hfull : (e.sync now).full d byteLen = true
        · rw [if_pos hfull, if_pos (.inr (.inr (.inr hfull)))]
          exact .dropped countsOne_overflow
        · rw [if_neg hfull, if_neg]
          · exact .queued (by simpa using hout) hen (by simpa using hfull)
          · simp only [not_or]
            exact ⟨hout, by simp [hen], hlost, hfull⟩

/-- After a call the engine knows the revision of its handle. -/
theorem enqueue_revision (delay : Nat → Nat → Nat → Nat) (e : PacketConditioner T)
    (d : ConditionerDirection) (now : Nat) (payload : T) (byteLen : Nat) :
    (e.enqueue delay d now payload byteLen).1.revision = e.handle.revision ∧
      (e.enqueue delay d now payload byteLen).1.handle.revision = e.handle.revision := by
  obtain ⟨-, -, hhandle, hrev, -, -⟩ := sync_frame e now
  have hdid := enqueue_did delay e d now payload byteLen
  generalize e.enqueue delay d now payload byteLen = out at hdid ⊢
  generalize e.queuedAt delay d now byteLen = at_ at hdid
  cases hdid with
  | bypassed _ => exact ⟨hrev, hhandle⟩
  | dropped _ => exact ⟨hrev, hhandle⟩
  | queued _ _ _ => exact ⟨hrev, hhandle⟩

theorem drainReady_revision (e : PacketConditioner T) (d : ConditionerDirection) (now : Nat) :
    (e.drainReady d now).1.revision = e.handle.revision ∧
      (e.drainReady d now).1.handle.revision = e.handle.revision := by
  obtain ⟨-, -, hhandle, hrev, -, -⟩ := sync_frame e now
  exact ⟨hrev, hhandle⟩

end PacketConditioner
end RenetCross.L2
