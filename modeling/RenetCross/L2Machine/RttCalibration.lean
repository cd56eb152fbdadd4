import Mathlib.Data.List.Induction
import RenetCross.Core.LTS
import RenetCross.Core.Num

/-!
# Round-trip calibration

`RttCalibration` of `src/conditioner.rs`: a baseline round-trip time that is sampled
only while conditioning is off, and not for five seconds after it was switched off,
since Renet's own RTT is smoothed over the impaired samples. The moving average is
floating-point arithmetic in the source and a parameter here.

What the calibration remembers is one flag, one deadline and one clock. What they
stand for is said over the whole history of calls: the clock is the latest reading
(`clock`), the deadline is five seconds after the first inactive call behind the last
active one (`Released`), and resets are not part of it.
-/
namespace RenetCross.L2

/-- mirrors src/conditioner.rs:321-327 -/
structure RttCalibration where
  baseline : Option Nat := none
  wasActive : Bool := false
  resumeAfter : Nat := 0
  lastNow : Nat := 0
  deriving DecidableEq, Repr

namespace RttCalibration

/-- The settling period after impairment is disabled.
mirrors src/conditioner.rs:345 -/
def SETTLING : Nat := Duration.fromSecs 5

section
-- `old.mul_f64(0.875).saturating_add(rtt.mul_f64(0.125))`
variable (average : Nat → Nat → Nat)

/-- mirrors src/conditioner.rs:329-337 -/
def observe (r : RttCalibration) (rtt : Nat) (conditioningActive : Bool) : RttCalibration :=
  if conditioningActive || rtt == 0 then r
  else
    { r with
      baseline := some (match r.baseline with
        | none => rtt
        | some old => average old rtt) }

/-- The clock and the deadline of `observe_at`, before the sample is looked at.
mirrors src/conditioner.rs:342-347 -/
def advance (r : RttCalibration) (now : Nat) (conditioningActive : Bool) : RttCalibration :=
  let now := max now r.lastNow
  { r with
    lastNow := now
    resumeAfter :=
      if r.wasActive && !conditioningActive then Duration.saturatingAdd now SETTLING else r.resumeAfter
    wasActive := conditioningActive }

/-- mirrors src/conditioner.rs:341-351 -/
def observeAt (r : RttCalibration) (now rtt : Nat) (conditioningActive : Bool) : RttCalibration :=
  let r := r.advance now conditioningActive
  if r.resumeAfter ≤ r.lastNow then r.observe average rtt conditioningActive else r

end

/-- mirrors src/conditioner.rs:353-355 -/
def reset (r : RttCalibration) : RttCalibration := { r with baseline := none }

/-- mirrors src/conditioner.rs:361-364 -/
def addedDelayForTarget (r : RttCalibration) (target : Nat) : Option Nat :=
  r.baseline.map fun baseline => (target - baseline) / 2

/-- The delay, added once in each direction, brings the baseline up to the target, short
of it by at most the nanosecond that halving loses; a target at or below the baseline
adds nothing. -/
theorem addedDelayForTarget_spec {r : RttCalibration} {target delay : Nat}
    (h : r.addedDelayForTarget target = some delay) :
    ∃ baseline, r.baseline = some baseline ∧
      (baseline ≤ target → baseline + 2 * delay ≤ target ∧ target ≤ baseline + 2 * delay + 1) ∧
      (target ≤ baseline → delay = 0) := by
  obtain ⟨baseline, hb, rfl⟩ := Option.map_eq_some_iff.1 h
  refine ⟨baseline, hb, fun hle => ?_, fun hle => ?_⟩
  · omega
  · rw [Nat.sub_eq_zero_of_le hle]

/-! ## Runs -/

inductive Op where
  | observeAt (now rtt : Nat) (conditioningActive : Bool)
  | reset
  deriving DecidableEq, Repr

namespace Op

def reading : Op → Option Nat
  | .observeAt now _ _ => some now
  | .reset => none

def isObserve : Op → Bool
  | .observeAt _ _ _ => true
  | .reset => false

/-- A call that reports conditioning active. -/
def isActive : Op → Bool
  | .observeAt _ _ conditioningActive => conditioningActive
  | .reset => false

end Op

def step (average : Nat → Nat → Nat) (r : RttCalibration) : Op → RttCalibration
  | .observeAt now rtt conditioningActive => r.observeAt average now rtt conditioningActive
  | .reset => r.reset

def run (average : Nat → Nat → Nat) (ops : List Op) : RttCalibration := ops.foldl (step average) {}

/-- The latest clock reading: the time the last call was clamped to. -/
def clock (ops : List Op) : Nat := (ops.filterMap Op.reading).foldl max 0

/-- Call `j` is the first inactive one after the last active one. -/
structure Released (ops : List Op) (j : Nat) : Prop where
  inactive : ∃ now rtt, ops[j]? = some (.observeAt now rtt false)
  active : ∃ i now rtt, i < j ∧ ops[i]? = some (.observeAt now rtt true) ∧
    (∀ (k : Nat) (op : Op), i < k → ops[k]? = some op → op.isActive = false) ∧
    ∀ (k : Nat) (op : Op), i < k → k < j → ops[k]? = some op → op = .reset

/-! ## The clock -/

theorem clock_observe (ops : List Op) (now rtt : Nat) (conditioningActive : Bool) :
    clock (ops ++ [.observeAt now rtt conditioningActive]) = max now (clock ops) := by
  simp only [clock, List.filterMap_append, List.filterMap_cons, Op.reading, List.filterMap_nil,
    List.foldl_append, List.foldl_cons, List.foldl_nil]
  exact Nat.max_comm _ _

theorem clock_reset (ops : List Op) : clock (ops ++ [.reset]) = clock ops := by
  simp only [clock, List.filterMap_append, List.filterMap_cons, Op.reading, List.filterMap_nil,
    List.append_nil]

/-- Every reading is more than the settling period below `Duration::MAX`. -/
def Early (ops : List Op) : Prop := ∀ t ∈ ops.filterMap Op.reading, t + SETTLING < Duration.MAX

theorem Early.left {ops : List Op} {op : Op} (h : Early (ops ++ [op])) : Early ops := by
  intro t ht
  refine h t ?_
  rw [List.filterMap_append]
  exact List.mem_append_left _ ht

theorem Early.clock {ops : List Op} (h : Early ops) : clock ops + SETTLING < Duration.MAX := by
  induction ops using List.reverseRecOn with
  | nil => decide
  | append_singleton ops op ih =>
    have hops := ih h.left
    cases op with
    | observeAt now rtt conditioningActive =>
      have hnow := h now (List.mem_filterMap.2 ⟨_, List.mem_append_right _ List.mem_cons_self, rfl⟩)
      rw [clock_observe]
      omega
    | reset => rwa [clock_reset]

/-! ## What the calibration remembers -/

theorem observe_frame (average : Nat → Nat → Nat) (r : RttCalibration) (rtt : Nat)
    (conditioningActive : Bool) :
    (r.observe average rtt conditioningActive).wasActive = r.wasActive ∧
      (r.observe average rtt conditioningActive).resumeAfter = r.resumeAfter ∧
      (r.observe average rtt conditioningActive).lastNow = r.lastNow := by
  unfold observe
  split
  · exact ⟨rfl, rfl, rfl⟩
  · exact ⟨rfl, rfl, rfl⟩

/-- The sample leaves the clock and the deadline alone. -/
theorem observeAt_frame (average : Nat → Nat → Nat) (r : RttCalibration) (now rtt : Nat)
    (conditioningActive : Bool) :
    (r.observeAt average now rtt conditioningActive).wasActive =
        (r.advance now conditioningActive).wasActive ∧
      (r.observeAt average now rtt conditioningActive).resumeAfter =
        (r.advance now conditioningActive).resumeAfter ∧
      (r.observeAt average now rtt conditioningActive).lastNow =
        (r.advance now conditioningActive).lastNow := by
  unfold observeAt
  dsimp only
  split
  · exact observe_frame average _ rtt conditioningActive
  · exact ⟨rfl, rfl, rfl⟩

/-- The flag and the deadline, as a reading of the calls so far: conditioning was
never on; it is on; or it is off again and the deadline counts from the first call
that said so. -/
inductive Phase (ops : List Op) (r : RttCalibration) : Prop
  | quiet : (∀ op ∈ ops, op.isActive = false) → r.wasActive = false → r.resumeAfter = 0 →
      Phase ops r
  | active (i now rtt : Nat) : ops[i]? = some (.observeAt now rtt true) →
      (∀ (k : Nat) (op : Op), i < k → ops[k]? = some op → op = .reset) → r.wasActive = true →
      Phase ops r
  | settling (j : Nat) : Released ops j → r.wasActive = false →
      r.resumeAfter = clock (ops.take (j + 1)) + SETTLING → Phase ops r

structure History (ops : List Op) (r : RttCalibration) : Prop where
  clock : r.lastNow = clock ops
  phase : Phase ops r

theorem Released.lt {ops : List Op} {j : Nat} (h : Released ops j) : j < ops.length := by
  obtain ⟨now, rtt, hj⟩ := h.inactive
  exact (List.getElem?_eq_some_iff.1 hj).1

/-- A call that does not report conditioning active leaves the release where it is. -/
theorem Released.snoc {ops : List Op} {j : Nat} (h : Released ops j) {op : Op}
    (hop : op.isActive = false) : Released (ops ++ [op]) j := by
  have hlt := h.lt
  obtain ⟨now, rtt, hj⟩ := h.inactive
  obtain ⟨i, now', rtt', hij, hi, hlast, hfirst⟩ := h.active
  refine ⟨⟨now, rtt, get_snoc_of_get hj op⟩, i, now', rtt', hij, get_snoc_of_get hi op,
    fun k op' hk hget => ?_, fun k op' hk hkj hget => ?_⟩
  · rcases get_snoc hget with ⟨-, hget⟩ | ⟨-, rfl⟩
    · exact hlast k op' hk hget
    · exact hop
  · rcases get_snoc hget with ⟨-, hget⟩ | ⟨hlen, -⟩
    · exact hfirst k op' hk hkj hget
    · omega

/-- The first inactive call after an active one. -/
theorem released_here {ops : List Op} {i now rtt : Nat}
    (hi : ops[i]? = some (.observeAt now rtt true))
    (hafter : ∀ (k : Nat) (op : Op), i < k → ops[k]? = some op → op = .reset) (now' rtt' : Nat) :
    Released (ops ++ [.observeAt now' rtt' false]) ops.length := by
  have hlt := (List.getElem?_eq_some_iff.1 hi).1
  refine ⟨⟨now', rtt', List.getElem?_concat_length⟩, i, now, rtt, hlt, get_snoc_of_get hi _,
    fun k op hk hget => ?_, fun k op hk hlen hget => ?_⟩
  · rcases get_snoc hget with ⟨-, hget⟩ | ⟨-, rfl⟩
    · rw [hafter k op hk hget]
      rfl
    · rfl
  · rcases get_snoc hget with ⟨-, hget⟩ | ⟨rfl, -⟩
    · exact hafter k op hk hget
    · exact absurd hlen (Nat.lt_irrefl _)

/-- `reset` is no part of the history the flag and the deadline stand for. -/
theorem Phase.reset {ops : List Op} {r : RttCalibration} (h : Phase ops r) :
    Phase (ops ++ [.reset]) r.reset := by
  cases h with
  | quiet hnever hwas hresume =>
    refine .quiet (fun op hop => ?_) hwas hresume
    rcases List.mem_append.1 hop with hop | hop
    · exact hnever op hop
    · rw [List.mem_singleton.1 hop]
      rfl
  | active i now rtt hi hafter hwas =>
    refine .active i now rtt (get_snoc_of_get hi _) (fun k op hk hget => ?_) hwas
    rcases get_snoc hget with ⟨-, hget⟩ | ⟨-, rfl⟩
    · exact hafter k op hk hget
    · rfl
  | settling j hrel hwas hresume =>
    refine .settling j (hrel.snoc rfl) hwas ?_
    rw [List.take_append_of_le_length hrel.lt]
    exact hresume

/-- `observe_at`: the deadline is set by the first inactive call after an active one,
and the sum that sets it does not saturate. -/
theorem Phase.advance {ops : List Op} {r : RttCalibration} (h : Phase ops r)
    (hclock : r.lastNow = clock ops) (now rtt : Nat) (conditioningActive : Bool)
    (hearly : Early (ops ++ [.observeAt now rtt conditioningActive])) :
    Phase (ops ++ [.observeAt now rtt conditioningActive]) (r.advance now conditioningActive) := by
  cases conditioningActive with
  | true =>
    refine .active ops.length now rtt List.getElem?_concat_length (fun k op hk hget => ?_) rfl
    have hlt := (List.getElem?_eq_some_iff.1 hget).1
    rw [List.length_append, List.length_singleton] at hlt
    omega
  | false =>
    cases h with
    | quiet hnever hwas hresume =>
      refine .quiet (fun op hop => ?_) rfl ?_
      · rcases List.mem_append.1 hop with hop | hop
        · exact hnever op hop
        · rw [List.mem_singleton.1 hop]
          rfl
      · simp only [RttCalibration.advance, hwas, hresume, Bool.false_and, Bool.false_eq_true, if_false]
    | active i now' rtt' hi hafter hwas =>
      refine .settling ops.length (released_here hi hafter now rtt) rfl ?_
      have hfit := hearly.clock
      have hwhole : (ops ++ [Op.observeAt now rtt false]).take (ops.length + 1) =
          ops ++ [Op.observeAt now rtt false] := List.take_of_length_le (by simp)
      rw [hwhole]
      rw [clock_observe] at hfit ⊢
      simp only [RttCalibration.advance, hwas, hclock, Bool.not_false, Bool.and_true, if_true,
        Duration.saturatingAdd, satAdd]
      exact Nat.min_eq_left (Nat.le_of_lt hfit)
    | settling j hrel hwas hresume =>
      refine .settling j (hrel.snoc rfl) rfl ?_
      rw [List.take_append_of_le_length hrel.lt]
      simp only [RttCalibration.advance, hwas, hresume, Bool.false_and, Bool.false_eq_true, if_false]

theorem Phase.of_eq {ops : List Op} {r r' : RttCalibration} (h : Phase ops r)
    (hwas : r'.wasActive = r.wasActive) (hresume : r'.resumeAfter = r.resumeAfter) : Phase ops r' := by
  cases h with
  | quiet hnever hw hr => exact .quiet hnever (hwas.trans hw) (hresume.trans hr)
  | active i now rtt hi hafter hw => exact .active i now rtt hi hafter (hwas.trans hw)
  | settling j hrel hw hr => exact .settling j hrel (hwas.trans hw) (hresume.trans hr)

theorem run_snoc (average : Nat → Nat → Nat) (ops : List Op) (op : Op) :
    run average (ops ++ [op]) = step average (run average ops) op := by
  unfold run
  rw [List.foldl_append]
  rfl

/-- Along every run the three memories stand for the whole history. -/
theorem history_run (average : Nat → Nat → Nat) (ops : List Op) (h : Early ops) :
    History ops (run average ops) := by
  induction ops using List.reverseRecOn with
  | nil => exact ⟨rfl, .quiet (fun op hop => absurd hop List.not_mem_nil) rfl rfl⟩
  | append_singleton ops op ih =>
    obtain ⟨hclock, hphase⟩ := ih h.left
    rw [run_snoc]
    cases op with
    | observeAt now rtt conditioningActive =>
      obtain ⟨hwas, hresume, hlast⟩ :=
        observeAt_frame average (run average ops) now rtt conditioningActive
      refine ⟨?_, (hphase.advance hclock now rtt conditioningActive h).of_eq hwas hresume⟩
      rw [clock_observe, ← hclock]
      exact hlast
    | reset => exact ⟨by rw [clock_reset]; exact hclock, hphase.reset⟩

/-! ## The baseline -/

/-- A call that changes the baseline took a sample: the deadline had passed. -/
theorem observeAt_changes {average : Nat → Nat → Nat} {r : RttCalibration} {now rtt : Nat}
    {conditioningActive : Bool}
    (h : (r.observeAt average now rtt conditioningActive).baseline ≠ r.baseline) :
    conditioningActive = false ∧ rtt ≠ 0 ∧
      (r.advance now conditioningActive).resumeAfter ≤ (r.advance now conditioningActive).lastNow := by
  have hsame : (r.advance now conditioningActive).baseline = r.baseline := rfl
  unfold observeAt at h
  dsimp only at h
  split at h
  · rename_i hpast
    unfold observe at h
    split at h
    · exact absurd hsame h
    · rename_i hsample
      simp only [Bool.or_eq_true, beq_iff_eq, not_or, Bool.not_eq_true] at hsample
      exact ⟨hsample.1, hsample.2, hpast⟩
  · exact absurd hsame h

/-- The same flag, deadline and clock. -/
structure SameSettling (r r' : RttCalibration) : Prop where
  wasActive : r.wasActive = r'.wasActive
  resumeAfter : r.resumeAfter = r'.resumeAfter
  lastNow : r.lastNow = r'.lastNow

theorem SameSettling.observeAt {r r' : RttCalibration} (h : SameSettling r r')
    (average : Nat → Nat → Nat) (now rtt : Nat) (conditioningActive : Bool) :
    SameSettling (r.observeAt average now rtt conditioningActive)
      (r'.observeAt average now rtt conditioningActive) := by
  obtain ⟨hwas, hresume, hlast⟩ := observeAt_frame average r now rtt conditioningActive
  obtain ⟨hwas', hresume', hlast'⟩ := observeAt_frame average r' now rtt conditioningActive
  refine ⟨hwas.trans hwas'.symm, ?_, ?_⟩
  · rw [hresume, hresume']
    simp only [advance, h.wasActive, h.resumeAfter, h.lastNow]
  · rw [hlast, hlast']
    simp only [advance, h.lastNow]

/-- Without its resets a run ends with the same flag, deadline and clock. -/
theorem sameSettling_run (average : Nat → Nat → Nat) (ops : List Op) :
    SameSettling (run average ops) (run average (ops.filter Op.isObserve)) := by
  induction ops using List.reverseRecOn with
  | nil => exact ⟨rfl, rfl, rfl⟩
  | append_singleton ops op ih =>
    rw [run_snoc, List.filter_append]
    cases op with
    | observeAt now rtt conditioningActive =>
      have hkept : [Op.observeAt now rtt conditioningActive].filter Op.isObserve =
          [.observeAt now rtt conditioningActive] := rfl
      rw [hkept, run_snoc]
      exact ih.observeAt average now rtt conditioningActive
    | reset =>
      have hgone : [Op.reset].filter Op.isObserve = [] := rfl
      rw [hgone, List.append_nil]
      exact ⟨ih.wasActive, ih.resumeAfter, ih.lastNow⟩

/-- **The baseline is never contaminated.** In every run of `observe_at` and `reset`,
with any clock readings more than five seconds below `Duration::MAX`: a call that
changes the baseline reports conditioning inactive and a round trip that is not zero,
and either no call before it reported conditioning active, or the first inactive call
after the last active one was clamped to a time at least five seconds before this
call's. The deadline is the one of the same run without its resets. -/
theorem baseline_uncontaminated (average : Nat → Nat → Nat) (ops : List Op) (now rtt : Nat)
    (conditioningActive : Bool)
    (hearly : Early (ops ++ [.observeAt now rtt conditioningActive])) :
    let calls := ops ++ [.observeAt now rtt conditioningActive]
    ((run average calls).baseline ≠ (run average ops).baseline →
      conditioningActive = false ∧ rtt ≠ 0 ∧
        ((∀ op ∈ ops, op.isActive = false) ∨
          ∃ j, Released calls j ∧ clock (calls.take (j + 1)) + SETTLING ≤ clock calls)) ∧
      SameSettling (run average calls) (run average (calls.filter Op.isObserve)) := by
  intro calls
  refine ⟨fun hchange => ?_, sameSettling_run average calls⟩
  obtain ⟨hclock, hphase⟩ := history_run average calls hearly
  obtain ⟨hwas, hresume, hlast⟩ :=
    observeAt_frame average (run average ops) now rtt conditioningActive
  simp only [calls, run_snoc, step] at hchange hclock hphase
  obtain ⟨hinactive, hrtt, hpast⟩ := observeAt_changes hchange
  refine ⟨hinactive, hrtt, ?_⟩
  rw [← hresume, ← hlast, hclock] at hpast
  cases hphase with
  | quiet hnever _ _ => exact .inl fun op hop => hnever op (List.mem_append_left _ hop)
  | active i now' rtt' hi hafter hactive =>
    -- this call is not active, so it is not the last word of an active phase
    rw [hwas] at hactive
    exact absurd (hinactive.symm.trans hactive) (by simp)
  | settling j hrel _ hdeadline =>
    rw [hdeadline] at hpast
    exact .inr ⟨j, hrel, hpast⟩

/-- Seven parts old to one part new, rounded down. -/
def eighth (old rtt : Nat) : Nat := (7 * old + rtt) / 8

def millis (n : Nat) : Nat := 1000000 * n

/-- Impaired for a millisecond, and reset while it settles. -/
def settlingCalls : List Op :=
  [.observeAt (millis 0) (millis 40) false, .observeAt (millis 1) (millis 300) true,
    .observeAt (millis 2) (millis 250) false, .reset]

/-- The impairment ended at 2 ms; the sample at 5002 ms is the first one taken. -/
theorem baseline_uncontaminated_settled :
    let calls := settlingCalls ++ [.observeAt (millis 5002) (millis 40) false]
    (run eighth settlingCalls).baseline = none ∧ (run eighth calls).baseline = some (millis 40) ∧
      ((∀ op ∈ settlingCalls, op.isActive = false) ∨
        ∃ j, Released calls j ∧ clock (calls.take (j + 1)) + SETTLING ≤ clock calls) := by
  have hbefore : (run eighth settlingCalls).baseline = none := by decide
  have hafter : (run eighth (settlingCalls ++
      [.observeAt (millis 5002) (millis 40) false])).baseline = some (millis 40) := by decide
  refine ⟨hbefore, hafter, ?_⟩
  have hearly : Early (settlingCalls ++ [.observeAt (millis 5002) (millis 40) false]) := by
    unfold Early
    decide
  obtain ⟨hchange, -⟩ :=
    baseline_uncontaminated eighth settlingCalls (millis 5002) (millis 40) false hearly
  have hne : (run eighth (settlingCalls ++
      [.observeAt (millis 5002) (millis 40) false])).baseline ≠ (run eighth settlingCalls).baseline := by
    rw [hbefore, hafter]
    exact Option.some_ne_none _
  exact (hchange hne).2.2

/-- One millisecond earlier it is still too soon. -/
example : (run eighth (settlingCalls ++ [.observeAt (millis 5001) (millis 100) false])).baseline =
    none := by decide

end RttCalibration
end RenetCross.L2
