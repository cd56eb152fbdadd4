import RenetCross.L2Machine.ClientStatistics

/-!
# Reconfiguring forgets the past

`configure` leaves an engine that behaves like a new one on a new handle: what is
queued, the position of the random generator and an outage are all dropped when
the engine next looks at the handle, and the counters grow from then on as they
would from zero. The two engines are never equal: their revisions, the counters
before and, until the first call, their clocks differ.

* `regrown`: an engine with another revision whose counters began elsewhere; the
  calls on it are the calls on the engine.
* `Renewed`: the relation between the reconfigured engine and the new one, which
  every later call keeps.

The revision is a `u64` that wraps around. `Revised` counts the changes of the handle,
those inside `clear_session` and `new` included, and as long as they are fewer than
`2^64 - 1` every change is noticed. After `2^64` changes the queue of the old engine
survives (`queue_survives_configure`).
-/
namespace RenetCross.L2

/-! ## Counters that began elsewhere -/

/-- The counters `s` as they would be had the drops been counted from `base` on. -/
def DirectionStats.grownFrom (base s : DirectionStats) : DirectionStats where
  queuedPackets := s.queuedPackets
  queuedBytes := s.queuedBytes
  simulatedLossDrops := satAdd U64_MAX base.simulatedLossDrops s.simulatedLossDrops
  outageDrops := satAdd U64_MAX base.outageDrops s.outageDrops
  overflowDrops := satAdd U64_MAX base.overflowDrops s.overflowDrops
  transitionDrops := satAdd U64_MAX base.transitionDrops s.transitionDrops

/-- The drop counters are `u64`s. -/
structure DirectionStats.InRange (s : DirectionStats) : Prop where
  loss : s.simulatedLossDrops ≤ U64_MAX
  outage : s.outageDrops ≤ U64_MAX
  overflow : s.overflowDrops ≤ U64_MAX
  transition : s.transitionDrops ≤ U64_MAX

/-- The same in both directions. -/
def ConditionerStats.grownFrom (base s : ConditionerStats) : ConditionerStats where
  incoming := base.incoming.grownFrom s.incoming
  outgoing := base.outgoing.grownFrom s.outgoing
  outageActive := s.outageActive

theorem satAdd_assoc (top a b c : Nat) :
    satAdd top (satAdd top a b) c = satAdd top a (satAdd top b c) := by
  unfold satAdd
  omega

theorem satAdd_inRange (a b : Nat) : satAdd U64_MAX a b ≤ U64_MAX := Nat.min_le_right _ _

namespace DirectionStats

theorem grownFrom_discardQueue (base s : DirectionStats) :
    (base.grownFrom s).discardQueue = base.grownFrom s.discardQueue := by
  simp only [discardQueue, grownFrom, satAdd_assoc]

/-- A fresh count gives back `base` itself. -/
theorem grownFrom_zero {base : DirectionStats} (h : base.InRange) (hp : base.queuedPackets = 0)
    (hb : base.queuedBytes = 0) : base.grownFrom {} = base := by
  have hzero : ∀ {n : Nat}, n ≤ U64_MAX → satAdd U64_MAX n 0 = n := by
    intro n hn
    unfold satAdd
    omega
  cases base with
  | mk packets bytes loss outage overflow transition =>
    cases hp
    cases hb
    simp only [grownFrom, hzero h.loss, hzero h.outage, hzero h.overflow, hzero h.transition]

end DirectionStats

namespace ConditionerStats

theorem direction_grownFrom (base s : ConditionerStats) (d : ConditionerDirection) :
    (base.grownFrom s).direction d = (base.direction d).grownFrom (s.direction d) := by cases d <;> rfl

theorem grownFrom_modifyDirection (base s : ConditionerStats) (d : ConditionerDirection)
    {f g : DirectionStats → DirectionStats}
    (h : g ((base.direction d).grownFrom (s.direction d)) =
      (base.direction d).grownFrom (f (s.direction d))) :
    (base.grownFrom s).modifyDirection d g = base.grownFrom (s.modifyDirection d f) := by
  cases d with
  | incoming => simp only [modifyDirection, grownFrom]; congr
  | outgoing => simp only [modifyDirection, grownFrom]; congr

theorem grownFrom_discardQueues (base s : ConditionerStats) :
    (base.grownFrom s).discardQueues = base.grownFrom s.discardQueues := by
  simp only [discardQueues, grownFrom, DirectionStats.grownFrom_discardQueue]

end ConditionerStats

/-- A drain changes no counter but those of the queue. -/
theorem popReady_grownFrom {T : Type} (now : Nat) (base : DirectionStats) (q : List (Scheduled T)) :
    ∀ s : DirectionStats, popReady now q (base.grownFrom s) =
      ((popReady now q s).1, base.grownFrom (popReady now q s).2.1, (popReady now q s).2.2) := by
  induction q with
  | nil => intro s; rfl
  | cons p rest ih =>
    intro s
    unfold popReady
    by_cases hdue : p.due ≤ now
    · rw [if_pos hdue, if_pos hdue]
      have hnext := ih
        { s with queuedPackets := s.queuedPackets - 1, queuedBytes := s.queuedBytes - p.bytes }
      dsimp only [DirectionStats.grownFrom] at hnext ⊢
      rw [hnext]
    · rw [if_neg hdue, if_neg hdue]

namespace PacketConditioner

variable {T : Type}

/-- The engine, were its handle at revision `r` and counting from `base` on. -/
def regrown (base : ConditionerStats) (r : Nat) (e : PacketConditioner T) : PacketConditioner T :=
  { e with
    revision := r
    handle := { e.handle with revision := r, stats := base.grownFrom e.handle.stats } }

variable {base : ConditionerStats} {r : Nat} {e : PacketConditioner T}

theorem count_regrown {d : ConditionerDirection} {f g : DirectionStats → DirectionStats}
    (h : g ((base.direction d).grownFrom (e.handle.stats.direction d)) =
      (base.direction d).grownFrom (f (e.handle.stats.direction d))) :
    (e.regrown base r).count d g = (e.count d f).regrown base r := by
  simp only [count, regrown]
  rw [ConditionerStats.grownFrom_modifyDirection base e.handle.stats d h]

theorem full_regrown (d : ConditionerDirection) (byteLen : Nat) :
    (e.regrown base r).full d byteLen = e.full d byteLen := by
  simp only [full, regrown, ConditionerStats.direction_grownFrom, DirectionStats.grownFrom]

variable {delay : Nat → Nat → Nat → Nat} {d : ConditionerDirection}

theorem push_regrown (payload : T) (byteLen : Nat) :
    (e.regrown base r).push delay d payload byteLen =
      (e.push delay d payload byteLen).regrown base r := by
  unfold push
  dsimp only
  exact count_regrown (f := oneMore byteLen) (g := oneMore byteLen) rfl
    (e := { e with
      rng := (splitMix64 e.rng).1
      queues := Function.update e.queues d (schedule
        ⟨Duration.saturatingAdd e.lastNow
          (delay e.handle.config.1.latency e.handle.config.1.jitter (splitMix64 e.rng).2),
          payload, byteLen⟩ (e.queues d)) })

/-- Which packets are lost is for the settings and the generator to say. -/
theorem impair_regrown (payload : T) (byteLen : Nat) :
    (e.regrown base r).impair delay d payload byteLen =
      (e.impair delay d payload byteLen).regrown base r := by
  unfold impair
  dsimp only
  -- the draw is the same, and makes the same engine of both
  have hlost : lost (splitMix64 (e.regrown base r).rng).2
      (e.regrown base r).handle.config.1.packetLoss =
      lost (splitMix64 e.rng).2 e.handle.config.1.packetLoss := rfl
  have hdrawn : { e.regrown base r with rng := (splitMix64 (e.regrown base r).rng).1 } =
      { e with rng := (splitMix64 e.rng).1 }.regrown base r := rfl
  rw [hlost, hdrawn, full_regrown]
  generalize lost (splitMix64 e.rng).2 e.handle.config.1.packetLoss = isLost
  generalize { e with rng := (splitMix64 e.rng).1 } = e
  cases isLost with
  | true =>
    refine count_regrown ?_
    simp only [DirectionStats.grownFrom, satAdd_assoc]
  | false =>
    simp only [Bool.false_eq_true, if_false]
    cases e.full d byteLen with
    | true =>
      refine count_regrown ?_
      simp only [DirectionStats.grownFrom, satAdd_assoc]
    | false => exact push_regrown payload byteLen

/-- `enqueue` on two engines that look the same after `sync`. -/
theorem enqueue_regrown (delay : Nat → Nat → Nat → Nat) (d : ConditionerDirection)
    {e' : PacketConditioner T} {now : Nat} (h : e'.sync now = (e.sync now).regrown base r)
    (payload : T) (byteLen : Nat) :
    e'.enqueue delay d now payload byteLen =
      ((e.enqueue delay d now payload byteLen).1.regrown base r,
        (e.enqueue delay d now payload byteLen).2) := by
  unfold enqueue
  dsimp only
  rw [h]
  generalize e.sync now = e
  by_cases hout : e.outageUntil.isSome = true
  · rw [if_pos hout, if_pos (show (e.regrown base r).outageUntil.isSome = true from hout)]
    refine Prod.ext (count_regrown ?_) rfl
    simp only [DirectionStats.grownFrom, satAdd_assoc]
  · rw [if_neg hout, if_neg (show ¬ (e.regrown base r).outageUntil.isSome = true from hout)]
    by_cases hoff : (!e.handle.config.1.enabled) = true
    · rw [if_pos hoff, if_pos (show (!(e.regrown base r).handle.config.1.enabled) = true from hoff)]
    · rw [if_neg hoff, if_neg (show ¬ (!(e.regrown base r).handle.config.1.enabled) = true from hoff)]
      exact Prod.ext (impair_regrown payload byteLen) rfl

theorem drainReady_regrown {e' : PacketConditioner T} {now : Nat}
    (h : e'.sync now = (e.sync now).regrown base r) :
    e'.drainReady d now = ((e.drainReady d now).1.regrown base r, (e.drainReady d now).2) := by
  unfold drainReady
  dsimp only
  rw [h]
  generalize e.sync now = e
  have hstats : (e.regrown base r).handle.stats.direction d =
      (base.direction d).grownFrom (e.handle.stats.direction d) :=
    ConditionerStats.direction_grownFrom base e.handle.stats d
  have hpop := popReady_grownFrom e.lastNow (base.direction d) (e.queues d) (e.handle.stats.direction d)
  rw [hstats, show (e.regrown base r).lastNow = e.lastNow from rfl,
    show (e.regrown base r).queues = e.queues from rfl, hpop]
  generalize popReady e.lastNow (e.queues d) (e.handle.stats.direction d) = out
  exact Prod.ext (count_regrown (e := { e with queues := Function.update e.queues d out.1 }) rfl) rfl

/-! ## Which changes are noticed -/

/-- The handle has been changed `n` times since it was made. -/
structure Revised (e : PacketConditioner T) (n : Nat) : Prop where
  handle : e.handle.revision = n
  engine : e.revision = U64_MAX ∨ e.revision ≤ n

/-- As long as few changes were made, the engine tells the next one. -/
theorem Revised.noticed {n : Nat} (h : Revised e n) (hn : n + 1 < U64_MAX) :
    e.revision ≠ wrapU64 (e.handle.revision + 1) := by
  have := h.engine
  rw [h.handle, wrapU64_eq (by omega)]
  omega

theorem Revised.changed {n : Nat} (h : Revised e n) (hn : n + 1 < U64_MAX) {c : Control}
    (hc : c.revision = wrapU64 (e.handle.revision + 1)) : Revised { e with handle := c } (n + 1) where
  handle := by
    show c.revision = n + 1
    rw [hc, h.handle, wrapU64_eq (by omega)]
  engine := by
    have := h.engine
    show e.revision = U64_MAX ∨ e.revision ≤ n + 1
    omega

/-! ## A reconfigured engine and a new one -/

/-- `e` is a new engine and `e'` one that was reconfigured, with the counters `base`,
when no clock had passed `floor`. Where one has yet to look at its handle, so has the
other, and what they hold does not matter. -/
structure Renewed (floor : Nat) (base : ConditionerStats) (e e' : PacketConditioner T) : Prop where
  config : e'.handle.config = e.handle.config
  pending : e'.handle.pendingOutage = e.handle.pendingOutage
  stats : e'.handle.stats = base.grownFrom e.handle.stats
  clock : e'.lastNow = e.lastNow ∨ e.lastNow ≤ floor ∧ e'.lastNow ≤ floor
  state : e.revision ≠ e.handle.revision ∧ e'.revision ≠ e'.handle.revision ∨
    e.revision = e.handle.revision ∧ e' = e.regrown base e'.handle.revision

namespace Renewed

variable {floor : Nat} {e' : PacketConditioner T}

/-- Past the floor both look at their handles, and then agree. -/
theorem sync (h : Renewed floor base e e') {now : Nat} (hnow : floor ≤ now) :
    e'.sync now = (e.sync now).regrown base e'.handle.revision := by
  have hclock : max now e'.lastNow = max now e.lastNow := by
    have := h.clock
    omega
  unfold PacketConditioner.sync
  dsimp only
  rw [hclock]
  rcases h.state with ⟨hne, hne'⟩ | ⟨heq, heq'⟩
  · unfold resync
    rw [if_pos (show _ ≠ _ from hne), if_pos (show _ ≠ _ from hne')]
    simp only [expire, regrown, h.config, h.pending, h.stats]
    rfl
  · have hstay : ∀ (x : PacketConditioner T) (now : Nat), x.revision = x.handle.revision →
        x.resync now = x := by
      intro x now hx
      exact if_neg (not_not.2 hx)
    rw [heq', hstay { e with lastNow := max now e.lastNow } _ heq,
      hstay { e.regrown base e'.handle.revision with lastNow := max now e.lastNow } _ rfl]
    rfl

theorem of_regrown (hs : e.revision = e.handle.revision) (heq : e' = e.regrown base r) :
    Renewed floor base e e' := by
  subst heq
  exact ⟨rfl, rfl, rfl, .inl rfl, .inr ⟨hs, rfl⟩⟩

theorem enqueue (h : Renewed floor base e e') {now : Nat} (hnow : floor ≤ now)
    (delay : Nat → Nat → Nat → Nat) (d : ConditionerDirection) (payload : T) (byteLen : Nat) :
    (e'.enqueue delay d now payload byteLen).2 = (e.enqueue delay d now payload byteLen).2 ∧
      Renewed floor base (e.enqueue delay d now payload byteLen).1
        (e'.enqueue delay d now payload byteLen).1 := by
  have heq := enqueue_regrown delay d (h.sync hnow) payload byteLen
  obtain ⟨hrev', hrev⟩ := enqueue_revision delay e d now payload byteLen
  rw [heq]
  exact ⟨rfl, of_regrown (hrev'.trans hrev.symm) rfl⟩

theorem drainReady (h : Renewed floor base e e') {now : Nat} (hnow : floor ≤ now)
    (d : ConditionerDirection) :
    (e'.drainReady d now).2 = (e.drainReady d now).2 ∧
      Renewed floor base (e.drainReady d now).1 (e'.drainReady d now).1 := by
  have heq := drainReady_regrown (d := d) (h.sync hnow)
  obtain ⟨hrev', hrev⟩ := drainReady_revision e d now
  rw [heq]
  exact ⟨rfl, of_regrown (hrev'.trans hrev.symm) rfl⟩

/-- The same change of both handles, noticed by both engines. -/
theorem changed (h : Renewed floor base e e') {c c' : Control} (hcfg : c'.config = c.config)
    (hpend : c'.pendingOutage = c.pendingOutage) (hstats : c'.stats = base.grownFrom c.stats)
    (hne : e.revision ≠ c.revision) (hne' : e'.revision ≠ c'.revision) :
    Renewed floor base { e with handle := c } { e' with handle := c' } :=
  ⟨hcfg, hpend, hstats, h.clock, .inl ⟨hne, hne'⟩⟩

end Renewed

/-! ## The counters stay in range -/

/-- The drop counters of both directions are `u64`s. -/
def InRange (e : PacketConditioner T) : Prop := ∀ d, (e.handle.stats.direction d).InRange

theorem inRange_count (h : InRange e) (d : ConditionerDirection) {f : DirectionStats → DirectionStats}
    (hf : ∀ s : DirectionStats, s.InRange → (f s).InRange) : InRange (e.count d f) := by
  intro d'
  simp only [count, ConditionerStats.direction_modify]
  split
  · exact hf _ (h d)
  · exact h d'

theorem inRange_drawn (h : InRange e) (rng : UInt64) : InRange { e with rng := rng } := h

theorem inRange_push (h : InRange e) (delay : Nat → Nat → Nat → Nat) (d : ConditionerDirection)
    (payload : T) (byteLen : Nat) : InRange (e.push delay d payload byteLen) := by
  have hfields : ∀ (rng : UInt64) (queues : ConditionerDirection → List (Scheduled T)),
      InRange { e with rng := rng, queues := queues } := fun _ _ => h
  unfold push
  dsimp only
  exact inRange_count (hfields _ _) d fun s hs => ⟨hs.loss, hs.outage, hs.overflow, hs.transition⟩

theorem inRange_enqueue (h : InRange e) (delay : Nat → Nat → Nat → Nat) (d : ConditionerDirection)
    (now : Nat) (payload : T) (byteLen : Nat) :
    InRange (e.enqueue delay d now payload byteLen).1 := by
  have hsync : InRange (e.sync now) := by
    intro d
    rw [(sync_frame e now).1]
    exact h d
  unfold enqueue
  dsimp only
  split
  · exact inRange_count hsync d fun s hs => ⟨hs.loss, satAdd_inRange _ _, hs.overflow, hs.transition⟩
  · split
    · exact hsync
    · unfold impair
      dsimp only
      have hdrawn := inRange_drawn hsync (splitMix64 (e.sync now).rng).1
      split
      · exact inRange_count hdrawn d fun s hs =>
          ⟨satAdd_inRange _ _, hs.outage, hs.overflow, hs.transition⟩
      · split
        · exact inRange_count hdrawn d fun s hs =>
            ⟨hs.loss, hs.outage, satAdd_inRange _ _, hs.transition⟩
        · exact inRange_push hdrawn delay d payload byteLen

theorem inRange_popReady (now : Nat) (q : List (Scheduled T)) :
    ∀ s : DirectionStats, s.InRange → (popReady now q s).2.1.InRange := by
  induction q with
  | nil => intro s hs; exact hs
  | cons p rest ih =>
    intro s hs
    unfold popReady
    split
    · exact ih _ ⟨hs.loss, hs.outage, hs.overflow, hs.transition⟩
    · exact hs

theorem inRange_drainReady (h : InRange e) (d : ConditionerDirection) (now : Nat) :
    InRange (e.drainReady d now).1 := by
  have hsync : InRange (e.sync now) := by
    intro d
    rw [(sync_frame e now).1]
    exact h d
  intro d'
  simp only [drainReady, count, ConditionerStats.direction_modify]
  split
  · exact inRange_popReady _ _ _ (hsync d)
  · exact hsync d'

theorem inRange_discarded (h : InRange e) {c : Control} {active : Bool}
    (hc : c.stats = { e.handle.stats.discardQueues with outageActive := active }) :
    InRange { e with handle := c } := by
  intro d
  show (c.stats.direction d).InRange
  rw [hc, direction_discardQueues]
  obtain ⟨hl, ho, hf, -⟩ := h d
  exact ⟨hl, ho, hf, satAdd_inRange _ _⟩

theorem inRange_zero {c : Control} (hc : c.stats = {}) : ∀ d, (c.stats.direction d).InRange := by
  intro d
  rw [hc]
  cases d <;> exact ⟨Nat.zero_le _, Nat.zero_le _, Nat.zero_le _, Nat.zero_le _⟩

end PacketConditioner

/-! ## The answers of a run -/

namespace ClientOp

variable {T : Type}

/-- How often a call changes the handle. -/
def revisions : ClientOp T → Nat
  | .configure config => if config.validate = .ok () then 1 else 0
  | .outage _ => 1
  | .resetSession => 1
  | .enqueue _ _ _ _ _ => 0
  | .drainReady _ _ => 0
  | .clearSession => 1
  | .attach => 1

/-- The clock reading a call is made with. -/
def reading : ClientOp T → Option Nat
  | .enqueue _ _ now _ _ => some now
  | .drainReady _ now => some now
  | _ => none

/-- The call leaves the session alone. -/
def continues : ClientOp T → Bool
  | .resetSession => false
  | .clearSession => false
  | .attach => false
  | _ => true

end ClientOp

/-- What a call on an engine returns. -/
inductive Answer (T : Type) where
  | enqueued (packet : Option T)
  | drained (packets : List T)
  deriving DecidableEq

namespace ClientRun

open PacketConditioner

variable {T : Type}

def answer (s : ClientRun T) : ClientOp T → Option (Answer T)
  | .enqueue delay d now payload byteLen =>
    some (.enqueued (s.engine.enqueue delay d now payload byteLen).2)
  | .drainReady d now => some (.drained (s.engine.drainReady d now).2)
  | _ => none

def answers (s : ClientRun T) : List (ClientOp T) → List (Option (Answer T))
  | [] => []
  | op :: ops => s.answer op :: (s.step op).answers ops

/-- The state after the calls `ops`. -/
def after (s : ClientRun T) (ops : List (ClientOp T)) : ClientRun T := ops.foldl step s

def revisions (ops : List (ClientOp T)) : Nat := (ops.map ClientOp.revisions).sum

theorem step_configure (s : ClientRun T) (config : ValidConfig) :
    s.step (.configure config.1) = s.changed (s.engine.handle.reconfigure config) := by
  simp only [step, Control.configure, dif_pos config.2]

theorem step_rejected (s : ClientRun T) {config : ConditionerConfig} (h : ¬ config.validate = .ok ()) :
    s.step (.configure config) = s := by
  simp only [step, Control.configure, dif_neg h]

theorem revised_step {s : ClientRun T} {n : Nat} (h : Revised s.engine n) (op : ClientOp T)
    (hn : n + op.revisions < U64_MAX) : Revised (s.step op).engine (n + op.revisions) := by
  cases op with
  | configure config =>
    by_cases hvalid : config.validate = .ok ()
    · simp only [ClientOp.revisions, if_pos hvalid] at hn ⊢
      rw [step_configure s ⟨config, hvalid⟩]
      exact h.changed hn rfl
    · simp only [ClientOp.revisions, if_neg hvalid]
      rw [step_rejected s hvalid]
      exact h
  | outage duration => exact h.changed hn rfl
  | resetSession => exact h.changed hn rfl
  | enqueue delay d now payload byteLen =>
    obtain ⟨hrev', hrev⟩ := enqueue_revision delay s.engine d now payload byteLen
    exact ⟨hrev.trans h.handle, .inr (hrev'.trans h.handle).le⟩
  | drainReady d now =>
    obtain ⟨hrev', hrev⟩ := drainReady_revision s.engine d now
    exact ⟨hrev.trans h.handle, .inr (hrev'.trans h.handle).le⟩
  | clearSession =>
    obtain ⟨hhandle, hengine⟩ := h.changed (c := s.engine.handle.resetSession) hn rfl
    exact ⟨hhandle, hengine⟩
  | attach =>
    obtain ⟨hhandle, -⟩ := h.changed (c := s.engine.handle.resetSession) hn rfl
    exact ⟨hhandle, .inl rfl⟩

theorem revised_run {s s' : ClientRun T} {ops : List (ClientOp T)} (hrun : (runs T).Run s ops s') :
    ∀ {n : Nat}, Revised s.engine n → n + revisions ops < U64_MAX →
      Revised s'.engine (n + revisions ops) := by
  induction hrun with
  | nil s => intro n h _; exact h
  | cons hstep _ ih =>
    intro n h hn
    cases hstep
    simp only [revisions, List.map_cons, List.sum_cons] at hn ih ⊢
    have := ih (revised_step h _ (by omega)) (by omega)
    rwa [Nat.add_assoc] at this

theorem inRange_inductive : (runs T).Inductive fun s => InRange s.engine where
  init := by
    intro s hs
    obtain ⟨c, rfl⟩ := hs
    exact inRange_zero rfl
  step := by
    intro s op s' h hstep
    subst hstep
    cases op with
    | configure config =>
      by_cases hvalid : config.validate = .ok ()
      · rw [step_configure s ⟨config, hvalid⟩]
        exact inRange_discarded h rfl
      · rw [step_rejected s hvalid]
        exact h
    | outage duration => exact inRange_discarded h rfl
    | resetSession => exact inRange_zero rfl
    | enqueue delay d now payload byteLen => exact inRange_enqueue h delay d now payload byteLen
    | drainReady d now => exact inRange_drainReady h d now
    | clearSession => exact inRange_zero rfl
    | attach => exact inRange_zero rfl

/-! ## The same answers as a new engine -/

variable {floor : Nat} {base : ConditionerStats} {s s' : ClientRun T} {n n' : Nat}

theorem renewed_step (h : Renewed floor base s.engine s'.engine) (hn : Revised s.engine n)
    (hn' : Revised s'.engine n') {op : ClientOp T} (hop : op.continues = true)
    (hnow : ∀ now, op.reading = some now → floor ≤ now) (hlt : n + op.revisions < U64_MAX)
    (hlt' : n' + op.revisions < U64_MAX) :
    s'.answer op = s.answer op ∧ Renewed floor base (s.step op).engine (s'.step op).engine := by
  cases op with
  | configure config =>
    refine ⟨rfl, ?_⟩
    by_cases hvalid : config.validate = .ok ()
    · simp only [ClientOp.revisions, if_pos hvalid] at hlt hlt'
      rw [step_configure s ⟨config, hvalid⟩, step_configure s' ⟨config, hvalid⟩]
      refine h.changed rfl rfl ?_ (hn.noticed hlt) (hn'.noticed hlt')
      simp only [Control.reconfigure, h.stats, ConditionerStats.grownFrom_discardQueues]
      rfl
    · rw [step_rejected s hvalid, step_rejected s' hvalid]
      exact h
  | outage duration =>
    refine ⟨rfl, h.changed h.config rfl ?_ (hn.noticed hlt) (hn'.noticed hlt')⟩
    simp only [Control.outage, h.stats, ConditionerStats.grownFrom_discardQueues]
    rfl
  | enqueue delay d now payload byteLen =>
    obtain ⟨hans, hnext⟩ := h.enqueue (hnow now rfl) delay d payload byteLen
    exact ⟨by simp only [answer, hans], hnext⟩
  | drainReady d now =>
    obtain ⟨hans, hnext⟩ := h.drainReady (hnow now rfl) d
    exact ⟨by simp only [answer, hans], hnext⟩
  | resetSession => cases hop
  | clearSession => cases hop
  | attach => cases hop

theorem renewed_run {ops : List (ClientOp T)} :
    ∀ {s s' : ClientRun T} {n n' : Nat}, Renewed floor base s.engine s'.engine →
      Revised s.engine n → Revised s'.engine n' → (∀ op ∈ ops, op.continues = true) →
      (∀ op ∈ ops, ∀ now, op.reading = some now → floor ≤ now) →
      n + revisions ops < U64_MAX → n' + revisions ops < U64_MAX →
      s'.answers ops = s.answers ops ∧
        Renewed floor base (s.after ops).engine (s'.after ops).engine := by
  induction ops with
  | nil => intro s s' n n' h _ _ _ _ _ _; exact ⟨rfl, h⟩
  | cons op ops ih =>
    intro s s' n n' h hn hn' hops hnow hlt hlt'
    simp only [revisions, List.map_cons, List.sum_cons] at hlt hlt' ih
    obtain ⟨hop, hrest⟩ := List.forall_mem_cons.1 hops
    obtain ⟨hop', hrest'⟩ := List.forall_mem_cons.1 hnow
    obtain ⟨hans, hnext⟩ := renewed_step h hn hn' hop hop' (by omega) (by omega)
    obtain ⟨hans', hlast⟩ := ih hnext (revised_step hn op (by omega)) (revised_step hn' op (by omega))
      hrest hrest' (by omega) (by omega)
    exact ⟨by simp only [answers, hans, hans'], hlast⟩

theorem renewed_configure (hrange : InRange s.engine) (hn : Revised s.engine n) (hlt : n + 1 < U64_MAX)
    (config : ValidConfig) :
    Renewed s.engine.lastNow (s.step (.configure config.1)).engine.handle.stats
      (start (.ofValid config)).engine (s.step (.configure config.1)).engine := by
  have hzero : ∀ stats : DirectionStats, stats.InRange →
      stats.discardQueue.grownFrom {} = stats.discardQueue := by
    intro stats hs
    exact DirectionStats.grownFrom_zero ⟨hs.loss, hs.outage, hs.overflow, satAdd_inRange _ _⟩ rfl rfl
  rw [step_configure]
  have hfresh : U64_MAX ≠ wrapU64 (0 + 1) := by decide
  refine ⟨rfl, rfl, ?_, .inr ⟨Nat.zero_le _, Nat.le_refl _⟩, .inl ⟨hfresh, hn.noticed hlt⟩⟩
  simp only [changed, start, PacketConditioner.new, Control.resetSession, Control.reconfigure,
    ConditionerStats.discardQueues, ConditionerStats.grownFrom]
  have hin : s.engine.handle.stats.incoming.InRange := hrange .incoming
  have hout : s.engine.handle.stats.outgoing.InRange := hrange .outgoing
  rw [hzero _ hin, hzero _ hout]

/-- Whatever was done with the handle and the engine, after `configure` every later
sequence of calls, at readings the engine has not yet passed, is answered as by a new
engine on a new handle with these settings. The queue counters and the outage flag are
the same, and the drop counters grow from what they were by as much, until they
saturate. The handle must have been changed fewer than `2^64 - 1` times. -/
theorem configure_forgets {c₀ : Control} {ops₀ : List (ClientOp T)} {s : ClientRun T}
    (hs : (runs T).Run (start c₀) ops₀ s) (config : ValidConfig) (ops : List (ClientOp T))
    (hops : ∀ op ∈ ops, op.continues = true)
    (hnow : ∀ op ∈ ops, ∀ now, op.reading = some now → s.engine.lastNow ≤ now)
    (hn : c₀.revision + 1 + revisions ops₀ + 1 + revisions ops < U64_MAX) :
    (s.step (.configure config.1)).answers ops = (start (.ofValid config)).answers ops ∧
      (∀ d, ((s.step (.configure config.1)).after ops).engine.handle.stats.direction d =
        ((s.step (.configure config.1)).engine.handle.stats.direction d).grownFrom
          (((start (.ofValid config)).after ops).engine.handle.stats.direction d)) ∧
      ((s.step (.configure config.1)).after ops).engine.handle.stats.outageActive =
        ((start (.ofValid config)).after ops).engine.handle.stats.outageActive := by
  have hrange := inRange_inductive.reachable s ⟨_, ops₀, ⟨c₀, rfl⟩, hs⟩
  have hfirst : Revised (start c₀ : ClientRun T).engine (c₀.revision + 1) :=
    ⟨wrapU64_eq (by omega), .inl rfl⟩
  have hold := revised_run hs hfirst (by omega)
  have hstep : (ClientOp.configure config.1 : ClientOp T).revisions = 1 := if_pos config.2
  have hnext := revised_step hold (.configure config.1) (by omega)
  have hnew : Revised (start (.ofValid config) : ClientRun T).engine 1 := ⟨rfl, .inl rfl⟩
  obtain ⟨hans, hlast⟩ := renewed_run (renewed_configure hrange hold (by omega) config) hnew hnext hops
    hnow (by omega) (by omega)
  refine ⟨hans, fun d => ?_, ?_⟩
  · rw [hlast.stats]
    exact ConditionerStats.direction_grownFrom _ _ d
  · rw [hlast.stats]
    rfl

/-- Three packets wait when the settings are applied again. -/
theorem configure_forgets_threeQueued :
    (threeQueued.step (.configure fiveLate.1)).answers
        [.enqueue byLatency .incoming 5 1 10, .drainReady .incoming 10] =
      [some (.enqueued none), some (.drained [1])] := by
  have hrun : (runs Nat).Run (start (.ofValid fiveLate)) _ threeQueued :=
    .cons rfl (.cons rfl (.cons rfl (.nil _)))
  refine (configure_forgets hrun fiveLate _ ?_ ?_ (by decide)).1.trans (by decide +kernel)
  · decide
  · intro op hop now hnow
    have hlast : threeQueued.engine.lastNow = 4 := by decide +kernel
    simp only [List.mem_cons, List.not_mem_nil, or_false] at hop
    rcases hop with rfl | rfl
    · cases hnow; omega
    · cases hnow; omega

/-- After `2^64 - 1` changes nobody noticed, `configure` is not noticed either, and the
packets that waited are returned. -/
theorem queue_survives_configure : ∃ s : ClientRun Nat, (runs Nat).Reachable s ∧
    s.engine.lastNow ≤ 9 ∧
    (s.step (.configure fiveLate.1)).answers [.drainReady .incoming 9] ≠
      (start (.ofValid fiveLate)).answers [.drainReady .incoming 9] := by
  refine ⟨threeQueued.resets (U64_MAX - 1 + 1), resets_reachable threeQueued_reachable _, ?_⟩
  have hans : ∀ s : ClientRun Nat, (s.step (.configure fiveLate.1)).answers [.drainReady .incoming 9] =
      [some (.drained (({ s.engine with
        handle := s.engine.handle.reconfigure fiveLate }).drainReady .incoming 9).2)] := by
    intro s
    rw [step_configure]
    rfl
  rw [hans, resets_engine]
  exact ⟨by decide +kernel, by decide +kernel⟩

end ClientRun
end RenetCross.L2
