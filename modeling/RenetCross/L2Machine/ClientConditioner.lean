import RenetCross.Core.DelayLine
import RenetCross.Core.LTS
import RenetCross.L2Machine.ConditionerAccounting

/-!
# One conditioner handle and its engine

Runs of a client's conditioner: changes made through clones of the handle
(`configure`, `outage`, `reset_session`), and the calls on the engine. The engine
can be replaced (`attach`): `PacketGate::attach` in `src/packet_io/client.rs` is a
`clear_session` on the old engine followed by a new one on the handle, and
`detach`, `reset` and the drop of the gate are a `clear_session`.

Two things are kept beside the engine: an ideal delay line, fed with the packets
the engine puts in its queues (`queuedAt`), and per direction the packets
offered, passed straight through and delivered since the last `reset_session`.

What `drain_ready` returns is what the ideal line releases (`delay_line`), in runs
with fewer than `2^64` calls that change the handle. The `reset_session` inside
`clear_session` and `new` is not counted: it comes with empty queues. The revision is
a `u64` that wraps around, so after `2^64` changes in a row the engine notices none.
-/
namespace RenetCross.L2

/-- A call on the handle or on the engine; the delay of a packet is arbitrary. -/
inductive ClientOp (T : Type) where
  | configure (config : ConditionerConfig)
  | outage (duration : Nat)
  | resetSession
  | enqueue (delay : Nat → Nat → Nat → Nat) (direction : ConditionerDirection) (now : Nat)
      (payload : T) (byteLen : Nat)
  | drainReady (direction : ConditionerDirection) (now : Nat)
  | clearSession
  | attach

open DelayLine in
/-- The engine, with what is kept beside it. -/
structure ClientRun (T : Type) where
  engine : PacketConditioner T
  /-- calls that changed the handle, through any clone -/
  changes : Nat
  line : DelayLine ConditionerDirection (Scheduled T)
  offered : ConditionerDirection → Nat
  bypassed : ConditionerDirection → Nat
  delivered : ConditionerDirection → Nat

namespace ClientRun

variable {T : Type}

/-- A new engine on a handle. -/
def start (c : Control) : ClientRun T where
  engine := .new c
  changes := 0
  line := .start
  offered := fun _ => 0
  bypassed := fun _ => 0
  delivered := fun _ => 0

/-- The handle was changed; the queued packets are gone. -/
def changed (s : ClientRun T) (c : Control) : ClientRun T :=
  { s with
    engine := { s.engine with handle := c }
    changes := s.changes + 1
    line := s.line.flush }

/-- The counts begin again. -/
def recount (s : ClientRun T) : ClientRun T :=
  { s with offered := fun _ => 0, bypassed := fun _ => 0, delivered := fun _ => 0 }

def bump (f : ConditionerDirection → Nat) (d : ConditionerDirection) (n : Nat) :
    ConditionerDirection → Nat := Function.update f d (f d + n)

def offer (s : ClientRun T) (delay : Nat → Nat → Nat → Nat) (d : ConditionerDirection) (now : Nat)
    (payload : T) (byteLen : Nat) : ClientRun T :=
  let r := s.engine.enqueue delay d now payload byteLen
  { s with
    engine := r.1
    line := (s.line.read now).offer d
      ((s.engine.queuedAt delay d now byteLen).map (⟨·, payload, byteLen⟩))
    offered := bump s.offered d 1
    bypassed := bump s.bypassed d (if r.2.isSome then 1 else 0) }

def drain (s : ClientRun T) (d : ConditionerDirection) (now : Nat) : ClientRun T :=
  let r := s.engine.drainReady d now
  { s with
    engine := r.1
    line := (s.line.read now).take Scheduled.due d
    delivered := bump s.delivered d r.2.length }

def step (s : ClientRun T) : ClientOp T → ClientRun T
  | .configure config =>
    match s.engine.handle.configure config with
    | .ok c => s.changed c
    | .error _ => s
  | .outage duration => s.changed (s.engine.handle.outage duration)
  | .resetSession => (s.changed s.engine.handle.resetSession).recount
  | .enqueue delay d now payload byteLen => s.offer delay d now payload byteLen
  | .drainReady d now => s.drain d now
  | .clearSession =>
    { s.recount with engine := s.engine.clearSession, line := .start }
  | .attach =>
    { s.recount with engine := .new s.engine.handle, line := .start }

/-- Runs on one handle. -/
def runs (T : Type) : LTS (ClientRun T) (ClientOp T) where
  init s := ∃ c, s = start c
  step s op s' := s' = s.step op

end ClientRun

/-! ## The ideal line -/

namespace PacketConditioner

variable {T : Type}

theorem schedule_eq (p : Scheduled T) (q : List (Scheduled T)) :
    schedule p q = DelayLine.insertLate Scheduled.due p q := by
  induction q with
  | nil => rfl
  | cons x rest ih => simp only [schedule, DelayLine.insertLate, ih]

/-- Popping the front while it is due splits a sorted queue by what is due. -/
theorem popReady_sorted (now : Nat) {q : List (Scheduled T)}
    (h : q.Pairwise fun a b => a.due ≤ b.due) (s : DirectionStats) :
    (popReady now q s).1 = q.filter (fun x => !decide (x.due ≤ now)) ∧
      (popReady now q s).2.2 = (q.filter fun x => decide (x.due ≤ now)).map Scheduled.payload := by
  induction q generalizing s with
  | nil => exact ⟨rfl, rfl⟩
  | cons x rest ih =>
    obtain ⟨hx, hrest⟩ := List.pairwise_cons.1 h
    unfold popReady
    by_cases hdue : x.due ≤ now
    · rw [if_pos hdue]
      obtain ⟨h1, h2⟩ := ih hrest
        { s with queuedPackets := s.queuedPackets - 1, queuedBytes := s.queuedBytes - x.bytes }
      dsimp only
      rw [h1, h2]
      exact ⟨by simp [hdue], by simp [hdue]⟩
    · rw [if_neg hdue]
      -- nothing behind the front is due either
      have hnone : ∀ y ∈ x :: rest, ¬ y.due ≤ now := by
        intro y hy
        rcases List.mem_cons.1 hy with rfl | hy
        · exact hdue
        · have := hx y hy
          omega
      refine ⟨?_, ?_⟩
      · rw [List.filter_eq_self.2]
        intro y hy
        simpa using hnone y hy
      · rw [List.filter_eq_nil_iff.2]
        · rfl
        · intro y hy
          simpa using hnone y hy

/-- How far the handle is ahead of the engine. -/
structure Behind (e : PacketConditioner T) (n : Nat) : Prop where
  engine : e.revision ≤ U64_MAX
  handle : e.handle.revision ≤ U64_MAX
  /-- at most `n` changes ahead, unless the engine holds nothing -/
  ahead : (∀ d, e.queues d = []) ∨ ∃ k ≤ n, e.handle.revision = wrapU64 (e.revision + k)

namespace Behind

variable {e : PacketConditioner T} {n : Nat}

theorem fresh (c : Control) : Behind (PacketConditioner.new c : PacketConditioner T) n where
  engine := Nat.le_refl _
  handle := wrapU64_le _
  ahead := .inl fun _ => rfl

theorem cleared (h : Behind e n) : Behind e.clearSession n where
  engine := h.engine
  handle := wrapU64_le _
  ahead := .inl fun _ => rfl

/-- One more change is noticed, if there is anything to be lost. -/
theorem noticed (h : Behind e n) (hn : n < U64_MAX) : (∀ d, e.queues d = []) ∨ Noticed e := by
  rcases h.ahead with hempty | ⟨k, hk, hrev⟩
  · exact .inl hempty
  · right
    have hle := h.engine
    unfold Noticed
    rw [hrev]
    unfold wrapU64 U64_MAX at *
    omega

theorem changed (h : Behind e n) {c : Control} (hc : c.revision = wrapU64 (e.handle.revision + 1)) :
    Behind { e with handle := c } (n + 1) where
  engine := h.engine
  handle := by rw [hc]; exact wrapU64_le _
  ahead := by
    rcases h.ahead with hempty | ⟨k, hk, hrev⟩
    · exact .inl hempty
    · refine .inr ⟨k + 1, Nat.succ_le_succ hk, ?_⟩
      rw [hc, hrev, wrapU64_wrapU64_add]
      rfl

/-- An engine that has looked at its handle is not behind. -/
theorem synced (hs : e.revision = e.handle.revision) (hle : e.handle.revision ≤ U64_MAX) :
    Behind e n where
  engine := by rw [hs]; exact hle
  handle := hle
  ahead := .inr ⟨0, Nat.zero_le _, by rw [hs, Nat.add_zero, wrapU64_eq hle]⟩

end Behind

/-- The engine and the ideal line, after `n` changes of the handle. -/
structure LineInv (e : PacketConditioner T) (n : Nat)
    (line : DelayLine ConditionerDirection (Scheduled T)) : Prop where
  behind : Behind e n
  clock : e.lastNow = line.clock
  agree : e.revision = e.handle.revision →
    ∀ d, e.queues d = DelayLine.byDue Scheduled.due (line.waiting d)
  stale : e.revision ≠ e.handle.revision → ∀ d, line.waiting d = []
  disabled : e.handle.config.1.enabled = false → ∀ d, line.waiting d = []

namespace LineInv

variable {e : PacketConditioner T} {n : Nat} {line : DelayLine ConditionerDirection (Scheduled T)}

theorem changed (h : LineInv e n line) (hn : n < U64_MAX) {c : Control}
    (hc : c.revision = wrapU64 (e.handle.revision + 1)) :
    LineInv { e with handle := c } (n + 1) line.flush where
  behind := h.behind.changed hc
  clock := h.clock
  agree := fun heq d => by
    rcases h.behind.noticed hn with hempty | hnoticed
    · exact hempty d
    · exact absurd (heq.trans hc) hnoticed
  stale := fun _ _ => rfl
  disabled := fun _ _ => rfl

theorem fresh (c : Control) : LineInv (PacketConditioner.new c : PacketConditioner T) n .start where
  behind := .fresh c
  clock := rfl
  agree := fun _ _ => rfl
  stale := fun _ _ => rfl
  disabled := fun _ _ => rfl

theorem cleared (h : LineInv e n line) : LineInv e.clearSession n .start where
  behind := h.behind.cleared
  clock := rfl
  agree := fun _ _ => rfl
  stale := fun _ _ => rfl
  disabled := fun _ _ => rfl

theorem sync (h : LineInv e n line) (now : Nat) :
    LineInv (e.sync now) n (line.read now) ∧ (e.sync now).revision = (e.sync now).handle.revision := by
  obtain ⟨-, hcfg, hrev, hrev', hnow, hq⟩ := sync_frame e now
  have hagree : (e.sync now).revision = (e.sync now).handle.revision := hrev'.trans hrev.symm
  refine ⟨?_, hagree⟩
  exact
    { behind := .synced hagree (by rw [hrev]; exact h.behind.handle)
      clock := by rw [hnow, h.clock]; rfl
      agree := fun _ d => by
        rw [hq]
        by_cases heq : e.revision = e.handle.revision
        · rw [if_pos heq]; exact h.agree heq d
        · rw [if_neg heq]
          simp only [DelayLine.read, h.stale heq d]
          rfl
      stale := fun hne => absurd hagree hne
      disabled := fun hdis => h.disabled (by rw [← hcfg]; exact hdis) }

/-- Counting does not touch the line. -/
theorem count (h : LineInv e n line) (rng : UInt64) (d : ConditionerDirection)
    (f : DirectionStats → DirectionStats) : LineInv ({ e with rng := rng }.count d f) n line :=
  { h with behind := { h.behind with } }

theorem enqueued (h : LineInv e n line) (hs : e.revision = e.handle.revision)
    {d : ConditionerDirection} {payload : T} {byteLen : Nat} {out : PacketConditioner T × Option T}
    {due : Option Nat} (hout : Enqueued e d payload byteLen out due) :
    LineInv out.1 n (line.offer d (due.map (⟨·, payload, byteLen⟩))) := by
  cases hout with
  | bypassed _ => exact h
  | dropped _ => exact h.count _ d _
  | @queued rng due _ hen _ =>
    refine
      { behind := .synced hs h.behind.handle
        clock := h.clock
        agree := fun _ d' => ?_
        stale := fun hne => absurd hs hne
        disabled := fun hdis => ?_ }
    · simp only [PacketConditioner.count, Option.map_some, DelayLine.offer, DelayLine.put]
      by_cases hd : d' = d
      · subst hd
        rw [Function.update_self, Function.update_self, schedule_eq, h.agree hs,
          DelayLine.insertLate_byDue]
      · rw [Function.update_of_ne hd, Function.update_of_ne hd, h.agree hs]
    · simp only [PacketConditioner.count, hen] at hdis
      cases hdis

/-- The packets `drain_ready` returns are those the line has ready. -/
theorem drained (h : LineInv e n line) (hs : e.revision = e.handle.revision)
    (d : ConditionerDirection) (s : DirectionStats) :
    (popReady e.lastNow (e.queues d) s).1 =
        DelayLine.byDue Scheduled.due ((line.take Scheduled.due d).waiting d) ∧
      (popReady e.lastNow (e.queues d) s).2.2 =
        (line.ready Scheduled.due d).map Scheduled.payload := by
  have hsorted := DelayLine.pairwise_byDue Scheduled.due (line.waiting d)
  rw [h.agree hs, h.clock]
  obtain ⟨h1, h2⟩ := popReady_sorted line.clock hsorted s
  rw [h1, h2, DelayLine.filter_byDue, DelayLine.filter_byDue]
  refine ⟨?_, rfl⟩
  simp only [DelayLine.take, Function.update_self]

theorem drain (h : LineInv e n line) (d : ConditionerDirection) (now : Nat) :
    LineInv (e.drainReady d now).1 n ((line.read now).take Scheduled.due d) ∧
      (e.drainReady d now).2 = ((line.read now).ready Scheduled.due d).map Scheduled.payload := by
  obtain ⟨hsync, hs⟩ := h.sync now
  obtain ⟨hleft, hout⟩ := hsync.drained hs d ((e.sync now).handle.stats.direction d)
  refine ⟨?_, hout⟩
  refine
    { behind := .synced hs hsync.behind.handle
      clock := hsync.clock
      agree := fun _ d' => ?_
      stale := fun hne => absurd hs hne
      disabled := fun hdis d' => ?_ }
  · simp only [drainReady, PacketConditioner.count]
    by_cases hd : d' = d
    · subst hd
      rw [Function.update_self]
      exact hleft
    · rw [Function.update_of_ne hd, hsync.agree hs]
      simp only [DelayLine.take, Function.update_of_ne hd]
  · have hempty := hsync.disabled hdis d'
    simp only [DelayLine.take]
    by_cases hd : d' = d
    · subst hd
      rw [Function.update_self, hempty]
      rfl
    · rw [Function.update_of_ne hd, hempty]

end LineInv

/-- The queue grows by the packet that is put on the line. -/
theorem length_enqueue (delay : Nat → Nat → Nat → Nat) (e : PacketConditioner T)
    (d : ConditionerDirection) (now : Nat) (payload : T) (byteLen : Nat) :
    ((e.enqueue delay d now payload byteLen).1.queues d).length =
      ((e.sync now).queues d).length + (e.queuedAt delay d now byteLen).toList.length := by
  have hdid := enqueue_did delay e d now payload byteLen
  generalize e.enqueue delay d now payload byteLen = out at hdid ⊢
  generalize e.queuedAt delay d now byteLen = due at hdid ⊢
  cases hdid with
  | bypassed _ => rfl
  | dropped _ => rfl
  | queued _ _ _ => simp [PacketConditioner.count, length_schedule]

/-- A queued packet is due after its delay, by the clock of the engine. -/
theorem queuedAt_due {delay : Nat → Nat → Nat → Nat} {e : PacketConditioner T}
    {d : ConditionerDirection} {now byteLen due : Nat} (h : e.queuedAt delay d now byteLen = some due) :
    ∃ r, due = Duration.saturatingAdd (max now e.lastNow)
      (delay e.handle.config.1.latency e.handle.config.1.jitter r) := by
  obtain ⟨-, hcfg, -, -, hnow, -⟩ := sync_frame e now
  unfold queuedAt at h
  dsimp only at h
  split at h
  · cases h
  · rw [hcfg, hnow] at h
    exact ⟨_, (Option.some.inj h).symm⟩

/-- A packet comes straight back only when conditioning is off. -/
theorem enqueue_bypass {delay : Nat → Nat → Nat → Nat} {e : PacketConditioner T}
    {d : ConditionerDirection} {now byteLen : Nat} {payload p : T}
    (h : (e.enqueue delay d now payload byteLen).2 = some p) :
    p = payload ∧ e.handle.config.1.enabled = false ∧
      (e.enqueue delay d now payload byteLen).1 = e.sync now := by
  obtain ⟨-, hcfg, -, -, -, -⟩ := sync_frame e now
  have hdid := enqueue_did delay e d now payload byteLen
  generalize e.enqueue delay d now payload byteLen = out at hdid h ⊢
  generalize e.queuedAt delay d now byteLen = due at hdid
  cases hdid with
  | bypassed hdis => exact ⟨(Option.some.inj h).symm, by rw [← hcfg]; exact hdis, rfl⟩
  | dropped _ => cases h
  | queued _ _ _ => cases h

end PacketConditioner

namespace ClientRun

variable {T : Type}

theorem lineInv_offer {s : ClientRun T}
    (h : PacketConditioner.LineInv s.engine s.changes s.line) (delay : Nat → Nat → Nat → Nat)
    (d : ConditionerDirection) (now : Nat) (payload : T) (byteLen : Nat) :
    PacketConditioner.LineInv (s.offer delay d now payload byteLen).engine
      (s.offer delay d now payload byteLen).changes (s.offer delay d now payload byteLen).line := by
  obtain ⟨hsync, hs⟩ := h.sync now
  exact hsync.enqueued hs (PacketConditioner.enqueue_did delay s.engine d now payload byteLen)

/-- The engine and the line stay together as long as the handle has not been
changed too often. -/
theorem lineInv_inductive : (runs T).Inductive fun s =>
    s.changes ≤ U64_MAX → PacketConditioner.LineInv s.engine s.changes s.line where
  init := by
    intro s hs
    obtain ⟨c, rfl⟩ := hs
    intro _
    exact .fresh c
  step := by
    intro s op s' ih hstep hle
    subst hstep
    cases op with
    | configure config =>
      simp only [step, Control.configure] at hle ⊢
      by_cases hvalid : config.validate = .ok ()
      · rw [dif_pos hvalid] at hle ⊢
        exact (ih (Nat.le_of_succ_le hle)).changed hle rfl
      · rw [dif_neg hvalid] at hle ⊢
        exact ih hle
    | outage duration => exact (ih (Nat.le_of_succ_le hle)).changed hle rfl
    | resetSession => exact (ih (Nat.le_of_succ_le hle)).changed hle rfl
    | enqueue delay d now payload byteLen => exact lineInv_offer (ih hle) delay d now payload byteLen
    | drainReady d now => exact ((ih hle).drain d now).1
    | clearSession => exact (ih hle).cleared
    | attach => exact .fresh _

/-- The conditioner is an ideal delay line: `drain_ready` returns what waits on the
line and is due by its clock, a packet is put on the line when the engine queues it,
due after its delay, and a packet comes straight back only when nothing waits. -/
theorem delay_line {s : ClientRun T} (hs : (runs T).Reachable s) (hn : s.changes ≤ U64_MAX) :
    (∀ d now, (s.engine.drainReady d now).2 =
        ((s.line.read now).ready Scheduled.due d).map Scheduled.payload) ∧
      (∀ delay d now payload byteLen,
        ((s.engine.enqueue delay d now payload byteLen).1.queues d).length =
            ((s.engine.sync now).queues d).length +
              (s.engine.queuedAt delay d now byteLen).toList.length ∧
          ∀ due, s.engine.queuedAt delay d now byteLen = some due →
            ∃ r, due = Duration.saturatingAdd (s.line.read now).clock
              (delay s.engine.handle.config.1.latency s.engine.handle.config.1.jitter r)) ∧
      ∀ delay d now payload byteLen p,
        (s.engine.enqueue delay d now payload byteLen).2 = some p →
          p = payload ∧ ∀ d', s.line.waiting d' = [] ∧
            (s.engine.enqueue delay d now payload byteLen).1.queues d' = [] := by
  have hinv := lineInv_inductive.reachable s hs hn
  refine ⟨fun d now => (hinv.drain d now).2, ?_, ?_⟩
  · intro delay d now payload byteLen
    refine ⟨s.engine.length_enqueue delay d now payload byteLen, fun due hdue => ?_⟩
    have := PacketConditioner.queuedAt_due hdue
    rwa [hinv.clock] at this
  · intro delay d now payload byteLen p hp
    obtain ⟨hpay, hdis, hengine⟩ := PacketConditioner.enqueue_bypass hp
    obtain ⟨hsync, hagree⟩ := hinv.sync now
    refine ⟨hpay, fun d' => ⟨hinv.disabled hdis d', ?_⟩⟩
    rw [hengine, hsync.agree hagree d']
    simp only [DelayLine.read, hinv.disabled hdis d']
    rfl

/-- Settings under which every packet is delayed by five nanoseconds. -/
def fiveLate : ValidConfig := ⟨{ enabled := true, latency := 5 }, by decide +kernel⟩

def byLatency : Nat → Nat → Nat → Nat := fun latency _ _ => latency

/-- Three packets in a row, one of them with a clock that went back. -/
def threeQueued : ClientRun Nat :=
  (((start (Control.ofValid fiveLate)).step
    (.enqueue byLatency .incoming 3 7 10)).step
    (.enqueue byLatency .incoming 1 8 10)).step
    (.enqueue byLatency .incoming 4 9 10)

theorem threeQueued_reachable : (runs Nat).Reachable threeQueued :=
  ⟨_, _, ⟨_, rfl⟩, .cons rfl (.cons rfl (.cons rfl (.nil _)))⟩

theorem delay_line_threeQueued :
    threeQueued.changes ≤ U64_MAX ∧ (threeQueued.engine.drainReady .incoming 8).2 = [7, 8] := by
  have hn : threeQueued.changes ≤ U64_MAX := by decide
  refine ⟨hn, ?_⟩
  rw [(delay_line threeQueued_reachable hn).1]
  decide +kernel

end ClientRun
end RenetCross.L2
