import RenetCross.Core.LTS
import RenetCross.L2Machine.EgressCalls

/-!
# The arithmetic of a token bucket

`Bucket::admit` and `Bucket::allowance` work on `u128` credit with saturating sums and
products, on `u64` charges with unchecked ones, and cast back to `u64`. Here the same
computations are written over the integers, each intermediate value checked against its
type (`fits`). On every bucket that can be reached they never leave a type, so the code
computes what the unbounded integers do. The two drop counters are the exception:
they are made to stop at `u64::MAX`, and how they count is a parameter.
-/
namespace RenetCross.L2

/-- The test of `EgressConfig::new`, whose last clause is reached only when the others
do not hold.
mirrors src/egress.rs:34-37 -/
def EgressConfig.invalidExact (bytesPerSecond burstBytes controlReserveBytes : Nat) : Option Bool :=
  if ¬ (1 ≤ bytesPerSecond ∧ bytesPerSecond ≤ 1000000000) then some true
  else if ¬ (2048 ≤ burstBytes ∧ burstBytes ≤ 67108864) then some true
  else if controlReserveBytes < 256 then some true
  else do
    let most ← fits U64_MAX ((burstBytes : Int) - (1448 : Nat))
    return decide (controlReserveBytes > most)

/-- A counter over the integers. -/
def countExact (n : Nat) : Option Nat := fits U64_MAX ((n : Int) + (1 : Nat))

/-- A counter that stops at `u64::MAX`. -/
def countStopping (n : Nat) : Option Nat := some (satAdd U64_MAX n 1)

namespace Bucket

/-- `refilled` over the integers. The time since the last call is zero when the clock
went back.
mirrors src/egress.rs:133-140,162-169 -/
def refilledExact (b : Bucket) (c : EgressConfig) (now : Nat) : Option Nat := do
  let elapsed := now - b.at_
  let earned ← fits U128_MAX ((elapsed : Int) * c.bytesPerSecond)
  let credit ← fits U128_MAX ((b.credit : Int) + earned)
  let cap ← fits U128_MAX ((NANOS_PER_SEC : Int) * c.burstBytes)
  return min credit cap

/-- mirrors src/egress.rs:131-154 -/
def allowanceExact (b : Bucket) (now : Nat) : Option EgressAllowance :=
  match b.stats.config with
  | none =>
    some { basis := b.stats.basis, config := none, availableDataBytes := U64_MAX,
           maximumDataBytes := U64_MAX, ipUdpOverhead := 0 }
  | some c => do
    let refilled ← b.refilledExact c now
    let credit ← fits U64_MAX ((refilled : Int) / NANOS_PER_SEC)
    let maximum ← fits U64_MAX ((c.burstBytes : Int) - c.controlReserveBytes)
    return { basis := b.stats.basis, config := some c,
             availableDataBytes := credit - c.controlReserveBytes,
             maximumDataBytes := maximum, ipUdpOverhead := 0 }

/-- mirrors src/egress.rs:170-180 -/
def spendExact (count : Nat → Option Nat) (b : Bucket) (c : EgressConfig) (bytes : Nat)
    (control : Bool) : Option (Bucket × Bool) := do
  let reserve := c.reserveFor control
  let most ← fits U64_MAX ((c.burstBytes : Int) - reserve)
  if bytes > most then
    let capDrops ← count b.stats.capDrops
    return ({ b with stats.capDrops := capDrops }, false)
  else
    let needed ← fits U64_MAX ((bytes : Int) + reserve)
    let floor ← fits U128_MAX ((NANOS_PER_SEC : Int) * needed)
    if b.credit < floor then
      let pacingDrops ← count b.stats.pacingDrops
      return ({ b with stats.pacingDrops := pacingDrops }, false)
    else
      let price ← fits U128_MAX ((NANOS_PER_SEC : Int) * bytes)
      let credit ← fits U128_MAX ((b.credit : Int) - price)
      return ({ b with credit := credit }, true)

/-- mirrors src/egress.rs:155-181 -/
def admitExact (count : Nat → Option Nat) (b : Bucket) (bytes : Nat) (control : Bool) (now : Nat) :
    Option (Bucket × Bool) :=
  match b.stats.config with
  | none => some (b, true)
  | some c => do
    let credit ← b.refilledExact c now
    { b with credit := credit, at_ := max b.at_ now }.spendExact count c bytes control

end Bucket

/-! ## Reachable buckets -/

/-- What `Egress` does to one of its buckets. -/
inductive BucketOp where
  | admitOne (bytes : Nat) (control : Bool) (now : Nat)
  | configure (config : Option EgressConfig) (now : Nat)
  | complete (payload : Bytes) (overhead : Nat) (sent : Bool)

/-- The charge is a `u64` and the reading a `Duration`. -/
def BucketOp.Typed : BucketOp → Prop
  | .admitOne bytes _ now => bytes ≤ U64_MAX ∧ now ≤ Duration.MAX
  | .configure _ now => now ≤ Duration.MAX
  | .complete _ _ _ => True

namespace Bucket

def step (b : Bucket) : BucketOp → Bucket
  | .admitOne bytes control now => (b.admitOne bytes control now).1
  | .configure config now => Egress.reconfigured config now b
  | .complete payload overhead sent => { b with stats := record b.stats payload overhead sent }

def runs : LTS Bucket BucketOp where
  init b := ∃ basis config at_, at_ ≤ Duration.MAX ∧ b = .new basis config at_
  step b op b' := op.Typed ∧ b' = b.step op

/-- At most one burst of credit, and counters that are `u64`s. -/
structure Inv (b : Bucket) : Prop where
  credit : b.credit ≤ fullCredit b.stats.config
  capDrops : b.stats.capDrops ≤ U64_MAX
  pacingDrops : b.stats.pacingDrops ≤ U64_MAX

/-- An admission never turns a drop counter back, nor past `u64::MAX`. -/
theorem Inv.drops {b : Bucket} (h : Inv b) (bytes : Nat) (control : Bool) (now : Nat) :
    (b.stats.capDrops ≤ (b.admitOne bytes control now).1.stats.capDrops ∧
        (b.admitOne bytes control now).1.stats.capDrops ≤ U64_MAX) ∧
      b.stats.pacingDrops ≤ (b.admitOne bytes control now).1.stats.pacingDrops ∧
        (b.admitOne bytes control now).1.stats.pacingDrops ≤ U64_MAX := by
  have hcap : b.stats.capDrops ≤ b.stats.capDrops ∧ b.stats.capDrops ≤ U64_MAX :=
    ⟨Nat.le_refl _, h.capDrops⟩
  have hpacing : b.stats.pacingDrops ≤ b.stats.pacingDrops ∧ b.stats.pacingDrops ≤ U64_MAX :=
    ⟨Nat.le_refl _, h.pacingDrops⟩
  have hcount : ∀ {n : Nat}, n ≤ U64_MAX →
      n ≤ satAdd U64_MAX n 1 ∧ satAdd U64_MAX n 1 ≤ U64_MAX :=
    fun hn => ⟨Nat.le_min.2 ⟨Nat.le_succ _, hn⟩, Nat.min_le_right _ _⟩
  unfold admitOne
  split
  · exact ⟨hcap, hpacing⟩
  · unfold spend
    split
    · exact ⟨hcount h.capDrops, hpacing⟩
    · split
      · exact ⟨hcap, hcount h.pacingDrops⟩
      · exact ⟨hcap, hpacing⟩

theorem Inv.admitOne {b : Bucket} (h : Inv b) (bytes : Nat) (control : Bool) (now : Nat) :
    Inv (b.admitOne bytes control now).1 where
  credit := by
    rw [(Egress.admit_stats b bytes control now).1]
    exact Egress.admit_credit_le bytes control now h.credit
  capDrops := (h.drops bytes control now).1.2
  pacingDrops := (h.drops bytes control now).2.2

theorem inv_inductive : runs.Inductive Inv where
  init := by
    rintro b ⟨basis, config, at_, -, rfl⟩
    exact ⟨Nat.le_refl _, Nat.zero_le _, Nat.zero_le _⟩
  step := by
    rintro b op b' h ⟨-, rfl⟩
    cases op with
    | admitOne bytes control now => exact h.admitOne bytes control now
    | configure config now => exact ⟨Nat.min_le_right _ _, h.capDrops, h.pacingDrops⟩
    | complete payload overhead sent =>
      simp only [step]
      unfold record
      split
      · exact ⟨h.credit, h.capDrops, h.pacingDrops⟩
      · exact ⟨h.credit, h.capDrops, h.pacingDrops⟩

/-! ## Nothing leaves its type -/

/-- What can be earned between two `Durations` on top of a full bucket is a `u128`. -/
theorem earned_le {b : Bucket} {c : EgressConfig} {now : Nat}
    (hcredit : b.credit ≤ byteNanos c.burstBytes) (hnow : now ≤ Duration.MAX) :
    b.credit + (now - b.at_) * c.bytesPerSecond ≤ U128_MAX := by
  have hburst := c.burst_mem
  have helapsed : now - b.at_ ≤ Duration.MAX := Nat.le_trans (Nat.sub_le _ _) hnow
  have hearned : (now - b.at_) * c.bytesPerSecond ≤ Duration.MAX * 1000000000 :=
    Nat.mul_le_mul helapsed c.rate_mem.2
  have hcap : byteNanos c.burstBytes ≤ byteNanos 67108864 := Egress.byteNanos_le hburst.2
  have htop : byteNanos 67108864 + Duration.MAX * 1000000000 ≤ U128_MAX := by decide
  exact Nat.le_trans (Nat.add_le_add (Nat.le_trans hcredit hcap) hearned) htop

theorem byteNanos_le_u128 {bytes : Nat} (h : bytes ≤ U64_MAX) : byteNanos bytes ≤ U128_MAX :=
  Nat.le_trans (Egress.byteNanos_le h) (by decide)

theorem fits_byteNanos {bytes : Nat} (h : bytes ≤ U64_MAX) :
    fits U128_MAX ((NANOS_PER_SEC : Int) * bytes) = some (byteNanos bytes) :=
  fits_mul (byteNanos_le_u128 h)

theorem burst_le (c : EgressConfig) : c.burstBytes ≤ U64_MAX :=
  Nat.le_trans c.burst_mem.2 (by decide)

theorem refilledExact_eq {b : Bucket} {c : EgressConfig} {now : Nat}
    (hcredit : b.credit ≤ byteNanos c.burstBytes) (hnow : now ≤ Duration.MAX) :
    b.refilledExact c now = some (b.refilled c now) := by
  have hsum := earned_le hcredit hnow
  have hprod : (now - b.at_) * c.bytesPerSecond ≤ U128_MAX := Nat.le_trans (Nat.le_add_left _ _) hsum
  have hsat : satAdd U128_MAX b.credit (satMul U128_MAX (now - b.at_) c.bytesPerSecond) =
      b.credit + (now - b.at_) * c.bytesPerSecond := by
    unfold satAdd satMul
    rw [Nat.min_eq_left hprod, Nat.min_eq_left hsum]
  simp only [refilledExact, fits_mul hprod, fits_add hsum,
    fits_byteNanos (burst_le c), Option.bind_eq_bind, Option.bind_some, refilled, hsat]
  rfl

theorem allowanceExact_eq {b : Bucket} {now : Nat} (hcredit : b.credit ≤ fullCredit b.stats.config)
    (hnow : now ≤ Duration.MAX) : b.allowanceExact now = some (b.allowance now) := by
  unfold allowanceExact allowance
  cases hc : b.stats.config with
  | none => rfl
  | some c =>
    rw [hc] at hcredit
    have hrefill := refilledExact_eq hcredit hnow
    have hwhole : b.refilled c now / NANOS_PER_SEC ≤ c.burstBytes :=
      Nat.div_le_of_le_mul (Egress.refilled_le b c now).2
    have hcast : b.refilled c now / NANOS_PER_SEC ≤ U64_MAX := Nat.le_trans hwhole (burst_le c)
    have hreserve := c.reserve_mem
    have hdiff : fits U64_MAX ((c.burstBytes : Int) - c.controlReserveBytes) =
        some (c.burstBytes - c.controlReserveBytes) := fits_sub (by omega) (burst_le c)
    simp only [hrefill, fits_div hcast, hdiff, Option.bind_eq_bind, Option.bind_some, wrapU64_eq hcast]
    rfl

/-- A decision, if its counter counts. -/
theorem spendExact_eq {count : Nat → Option Nat} {b : Bucket} {c : EgressConfig}
    (hcredit : b.credit ≤ byteNanos c.burstBytes)
    (hcap : count b.stats.capDrops = some (satAdd U64_MAX b.stats.capDrops 1))
    (hpacing : count b.stats.pacingDrops = some (satAdd U64_MAX b.stats.pacingDrops 1))
    (bytes : Nat) (control : Bool) :
    b.spendExact count c bytes control = some (b.spend c bytes control) := by
  have hreserve := Egress.reserveFor_lt c control
  have hburst := burst_le c
  have hmost : fits U64_MAX ((c.burstBytes : Int) - c.reserveFor control) =
      some (c.burstBytes - c.reserveFor control) := fits_sub (Nat.le_of_lt hreserve) hburst
  unfold spendExact spend
  simp only [hmost, Option.bind_eq_bind, Option.bind_some]
  split
  · rw [hcap]
    rfl
  · rename_i hsmall
    -- the cap test bounds the sum it guards
    have hneeded : bytes + c.reserveFor control ≤ c.burstBytes := by omega
    have hsum : bytes + c.reserveFor control ≤ U64_MAX := Nat.le_trans hneeded hburst
    simp only [fits_add hsum, fits_byteNanos hsum, Option.bind_some, wrapU64_eq hsum]
    split
    · rw [hpacing]
      rfl
    · rename_i henough
      rw [Egress.byteNanos_add] at henough
      have hpaid : byteNanos bytes ≤ b.credit := by omega
      have hheld : b.credit ≤ U128_MAX := Nat.le_trans hcredit (byteNanos_le_u128 hburst)
      have hcharge : bytes ≤ U64_MAX := Nat.le_trans (Nat.le_add_right _ _) hsum
      simp only [fits_byteNanos hcharge, fits_sub hpaid hheld, Option.bind_some]
      rfl

theorem admitExact_eq {count : Nat → Option Nat} {b : Bucket} {now : Nat}
    (hcredit : b.credit ≤ fullCredit b.stats.config) (hnow : now ≤ Duration.MAX)
    (hcap : count b.stats.capDrops = some (satAdd U64_MAX b.stats.capDrops 1))
    (hpacing : count b.stats.pacingDrops = some (satAdd U64_MAX b.stats.pacingDrops 1))
    (bytes : Nat) (control : Bool) :
    b.admitExact count bytes control now = some (b.admitOne bytes control now) := by
  unfold admitExact admitOne
  cases hc : b.stats.config with
  | none => rfl
  | some c =>
    rw [hc] at hcredit
    simp only [refilledExact_eq hcredit hnow, Option.bind_eq_bind, Option.bind_some]
    have hrefilled : (b.refill c now).credit ≤ byteNanos c.burstBytes := (Egress.refilled_le b c now).2
    exact spendExact_eq hrefilled hcap hpacing bytes control

theorem step_reachable {b : Bucket} (h : runs.Reachable b) (op : BucketOp) (hop : op.Typed) :
    runs.Reachable (b.step op) := h.run (.cons ⟨hop, rfl⟩ (.nil _))

end Bucket

/-- The test of `EgressConfig::new` decides without underflow. -/
theorem EgressConfig.invalidExact_eq (basis : EgressBasis) (rate burst reserve : Nat) :
    invalidExact rate burst reserve = some (EgressConfig.new basis rate burst reserve).toOption.isNone := by
  unfold invalidExact EgressConfig.new
  split
  · rename_i hrate
    rw [dif_neg (fun h => hrate h.1)]
    rfl
  · rename_i hrate
    split
    · rename_i hburst
      rw [dif_neg (fun h => hburst h.2.1)]
      rfl
    · rename_i hburst
      rw [Decidable.not_not] at hrate hburst
      split
      · rename_i hreserve
        rw [dif_neg (fun h => Nat.not_le_of_lt hreserve h.2.2.1)]
        rfl
      · rename_i hreserve
        have hfit : burst ≤ U64_MAX := Nat.le_trans hburst.2 (by decide)
        have hbig : 1448 ≤ burst := Nat.le_trans (by decide) hburst.1
        simp only [fits_sub hbig hfit, Option.bind_eq_bind, Option.bind_some]
        by_cases hmost : reserve ≤ burst - 1448
        · rw [dif_pos ⟨hrate, hburst, Nat.le_of_not_lt hreserve, hmost⟩, decide_eq_false (by omega)]
          rfl
        · rw [dif_neg (fun h => hmost h.2.2.2), decide_eq_true (by omega)]
          rfl

/-! ## The buckets of a table -/

namespace Egress

variable {κ : Type} [DecidableEq κ]

/-- Every bucket of the table is a reachable one. -/
def AllReachable (e : Egress κ) : Prop := ∀ x b, e.at? x = some b → Bucket.runs.Reachable b

theorem AllReachable.step {e : Egress κ} (h : AllReachable e) (op : Op κ)
    (hop : op.now ≤ Duration.MAX) : AllReachable (e.step op) := by
  intro x b' hb'
  obtain ⟨b, hfrom, htouch⟩ := step_touched hb'
  have hb : Bucket.runs.Reachable b := by
    rcases hfrom with hb | rfl
    · exact h x b hb
    · exact ⟨_, [], ⟨e.basis, e.config, op.now, hop, rfl⟩, .nil _⟩
  cases htouch with
  | left _ => exact hb
  | admitted key payload overhead now heq =>
    rw [heq] at hop
    exact Bucket.step_reachable hb (.admitOne _ (isControl payload) now) ⟨wrapU64_le _, hop⟩
  | completed key payload overhead sent now _ =>
    exact Bucket.step_reachable hb (.complete payload overhead sent) trivial
  | configured config now heq _ =>
    rw [heq] at hop
    exact Bucket.step_reachable hb (.configure config now) hop

theorem AllReachable.run {e : Egress κ} (h : AllReachable e) {ops : List (Op κ)}
    (hops : ∀ op ∈ ops, op.now ≤ Duration.MAX) : AllReachable (e.run ops) := by
  induction ops generalizing e with
  | nil => exact h
  | cons op ops ih =>
    have hnext := h.step op (hops op List.mem_cons_self)
    exact ih hnext fun op' hop' => hops op' (List.mem_cons_of_mem _ hop')

theorem allReachable_new (basis : EgressBasis) : AllReachable (new basis : Egress κ) := by
  intro x b hb
  cases x with
  | peer key => cases hb
  | overflow =>
    cases hb
    exact ⟨_, [], ⟨basis, none, 0, Nat.zero_le _, rfl⟩, .nil _⟩

end Egress

/-- **Token-bucket arithmetic is exact.** The test of `EgressConfig::new` does not
underflow. A bucket that was reached from `Bucket::new` by admissions, configurations
and completions holds at most one burst; at every `Duration`, `allowance` and, for
every `u64` charge, `admit` compute what the unbounded integers do: no sum or product
saturates or overflows, no difference underflows, no cast loses anything, and neither
do the counter differences of `admit_at`. The drop counters stop at `u64::MAX`; as long
as they have not, they are exact too. The buckets of every table of `Egress` are such
buckets. -/
theorem token_bucket_exact {κ : Type} [DecidableEq κ] :
    (∀ basis rate burst reserve, EgressConfig.invalidExact rate burst reserve =
        some (EgressConfig.new basis rate burst reserve).toOption.isNone) ∧
      (∀ b, Bucket.runs.Reachable b → b.credit ≤ fullCredit b.stats.config ∧
        ∀ now ≤ Duration.MAX, b.allowanceExact now = some (b.allowance now) ∧
          ∀ bytes ≤ U64_MAX, ∀ control,
            b.admitExact countStopping bytes control now = some (b.admitOne bytes control now) ∧
            (b.stats.capDrops < U64_MAX → b.stats.pacingDrops < U64_MAX →
              b.admitExact countExact bytes control now = some (b.admitOne bytes control now)) ∧
            b.stats.pacingDrops ≤ (b.admitOne bytes control now).1.stats.pacingDrops ∧
            b.stats.capDrops ≤ (b.admitOne bytes control now).1.stats.capDrops) ∧
      ∀ (basis : EgressBasis) (ops : List (Egress.Op κ)), (∀ op ∈ ops, op.now ≤ Duration.MAX) →
        ((Egress.new basis).run ops).AllReachable := by
  refine ⟨EgressConfig.invalidExact_eq, fun b hb => ?_, fun basis ops hops =>
    (Egress.allReachable_new basis).run hops⟩
  have hinv := Bucket.inv_inductive.reachable b hb
  refine ⟨hinv.credit, fun now hnow => ⟨Bucket.allowanceExact_eq hinv.credit hnow, ?_⟩⟩
  intro bytes _ control
  refine ⟨Bucket.admitExact_eq hinv.credit hnow rfl rfl bytes control, fun hcap hpacing => ?_,
    (hinv.drops bytes control now).2.1, (hinv.drops bytes control now).1.1⟩
  have hcount : ∀ {n : Nat}, n < U64_MAX → countExact n = some (satAdd U64_MAX n 1) := by
    intro n hn
    have hsucc : n + 1 ≤ U64_MAX := hn
    unfold countExact satAdd
    rw [fits_add hsucc, Nat.min_eq_left hsucc]
  exact Bucket.admitExact_eq hinv.credit hnow (hcount hcap) (hcount hpacing) bytes control

/-! ## The longest wait, and the last drop -/

/-- The fastest refill of the largest burst. -/
def fastLane : EgressConfig where
  basis := .nativeUdpIp
  bytesPerSecond := 1000000000
  burstBytes := 67108864
  controlReserveBytes := 256
  rate_mem := by decide
  burst_mem := by decide
  reserve_mem := by decide

/-- Emptied at time zero and asked again at `Duration::MAX`. -/
def longIdle : Bucket := (Bucket.new .nativeUdpIp (some fastLane) 0).step (.admitOne 67108864 true 0)

theorem token_bucket_exact_longIdle :
    Bucket.runs.Reachable longIdle ∧
      longIdle.allowanceExact Duration.MAX = some (longIdle.allowance Duration.MAX) ∧
      longIdle.admitExact countExact 1200 false Duration.MAX =
        some (longIdle.admitOne 1200 false Duration.MAX) := by
  have hreach : Bucket.runs.Reachable longIdle :=
    ⟨_, [.admitOne 67108864 true 0], ⟨_, _, 0, Nat.zero_le _, rfl⟩,
      .cons ⟨⟨by decide, Nat.zero_le _⟩, rfl⟩ (.nil _)⟩
  obtain ⟨-, hbuckets, -⟩ := token_bucket_exact (κ := Nat)
  obtain ⟨-, hnow⟩ := hbuckets longIdle hreach
  obtain ⟨hallowance, hcharge⟩ := hnow Duration.MAX (Nat.le_refl _)
  exact ⟨hreach, hallowance, (hcharge 1200 (by decide) false).2.1 (by decide) (by decide)⟩

theorem Bucket.oversized_le (c : EgressConfig) : c.burstBytes + 1 ≤ U64_MAX :=
  Nat.le_trans (Nat.succ_le_succ c.burst_mem.2) (by decide)

/-- A charge of more than a burst is refused and counted. -/
theorem Bucket.admitOne_oversized {b : Bucket} {c : EgressConfig} (hc : b.stats.config = some c)
    (control : Bool) (now : Nat) :
    (b.admitOne (c.burstBytes + 1) control now).1.stats =
      { b.stats with capDrops := satAdd U64_MAX b.stats.capDrops 1 } := by
  have hover : c.burstBytes + 1 > c.burstBytes - c.reserveFor control := by omega
  simp only [admitOne, hc, spend, if_pos hover, refill]

/-- Any number of charges of more than a burst, up to `u64::MAX` of them. -/
theorem oversized_reachable (c : EgressConfig) (n : Nat) (hn : n ≤ U64_MAX) :
    ∃ b : Bucket, Bucket.runs.Reachable b ∧ b.stats.config = some c ∧ b.stats.capDrops = n := by
  induction n with
  | zero => exact ⟨_, ⟨_, [], ⟨c.basis, some c, 0, Nat.zero_le _, rfl⟩, .nil _⟩, rfl, rfl⟩
  | succ n ih =>
    obtain ⟨b, hb, hconfig, hdrops⟩ := ih (Nat.le_of_succ_le hn)
    refine ⟨_, Bucket.step_reachable hb (.admitOne (c.burstBytes + 1) true 0)
      ⟨Bucket.oversized_le c, Nat.zero_le _⟩, ?_, ?_⟩
    · exact (Egress.admit_stats b _ true 0).1.trans hconfig
    · simp only [Bucket.step, Bucket.admitOne_oversized hconfig, hdrops]
      exact Nat.min_eq_left hn

/-- After `u64::MAX` refused charges the next refusal is not counted: the saturating
sum saturates. -/
theorem drop_counter_stops : ∃ b : Bucket, Bucket.runs.Reachable b ∧ b.stats.capDrops = U64_MAX ∧
    (b.admitOne (fastLane.burstBytes + 1) true 0).1.stats.capDrops = U64_MAX ∧
    b.admitExact countExact (fastLane.burstBytes + 1) true 0 = none := by
  obtain ⟨b, hb, hconfig, hdrops⟩ := oversized_reachable fastLane U64_MAX (Nat.le_refl _)
  have hcredit := (Bucket.inv_inductive.reachable b hb).credit
  rw [hconfig] at hcredit
  refine ⟨b, hb, hdrops, ?_, ?_⟩
  · rw [Bucket.admitOne_oversized hconfig, hdrops]
    exact Nat.min_eq_right (Nat.le_add_right _ _)
  · have hover : fastLane.burstBytes + 1 > fastLane.burstBytes - fastLane.reserveFor true := by omega
    have hmost : fits U64_MAX ((fastLane.burstBytes : Int) - fastLane.reserveFor true) =
        some (fastLane.burstBytes - fastLane.reserveFor true) :=
      fits_sub (Nat.le_of_lt (Egress.reserveFor_lt fastLane true)) (Bucket.burst_le fastLane)
    have hfull : countExact U64_MAX = none := by
      unfold countExact
      rw [← Int.natCast_add]
      exact fits_of_lt (Nat.lt_add_one _)
    simp only [Bucket.admitExact, hconfig, Bucket.refilledExact_eq hcredit (Nat.zero_le _),
      Option.bind_eq_bind, Option.bind_some, Bucket.spendExact, hmost, if_pos hover, hdrops, hfull,
      Option.bind_none]

end RenetCross.L2
