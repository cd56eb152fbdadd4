import Mathlib.Algebra.BigOperators.Group.List.Basic
import Mathlib.Algebra.GroupWithZero.Nat
import RenetCross.L2Machine.EgressCalls

/-!
# The egress rate envelope

Over any run of `admit_at`, `complete` and `configure`, the bytes a bucket lets
through in a window are bounded by one burst plus the rate times the elapsed
time. The proof follows the credit as a potential: an admission pays for its
charge out of the credit, a refill adds at most `rate * elapsed`, and neither a
reconfiguration nor a `complete` adds anything.

Readings of the clock are non-decreasing in `rate_envelope`'s first and third
parts; its last part allows them to go backwards inside one config period.
-/
namespace RenetCross.L2

namespace Egress

variable {κ : Type} [DecidableEq κ]

/-- What a call charges to bucket `x` while a config is in force. -/
def charge (x : Slot κ) (e : Egress κ) : Op κ → Nat
  | .admitAt key payload overhead now =>
    if (e.track key now).slot key = x ∧ (e.admitAt key payload overhead now).2 = true ∧
        e.config.isSome = true then
      chargeOf payload overhead
    else 0
  | _ => 0

/-- Total charge accepted by bucket `x` over a window. -/
def charged (x : Slot κ) : Egress κ → List (Op κ) → Nat
  | _, [] => 0
  | e, op :: ops => charge x e op + charged x (e.step op) ops

def rate (config : Option EgressConfig) : Nat :=
  match config with
  | none => 0
  | some c => c.bytesPerSecond

def burst (config : Option EgressConfig) : Nat :=
  match config with
  | none => 0
  | some c => c.burstBytes

/-- `bytes_per_second` times elapsed time, summed over the config periods of a
window that opens at `t`, in byte-nanoseconds. The config changes only at a
reading, so the intervals between readings refine the config periods. -/
def earned : Egress κ → Nat → List (Op κ) → Nat
  | _, _, [] => 0
  | e, t, op :: ops => rate e.config * (op.now - t) + earned (e.step op) op.now ops

/-- The burst in force when the window opens, or when the bucket is created if
that happens inside the window. -/
def openingBurst (x : Slot κ) : Egress κ → List (Op κ) → Nat
  | e, [] => if (e.at? x).isSome then burst e.config else 0
  | e, op :: ops => if (e.at? x).isSome then burst e.config else openingBurst x (e.step op) ops

/-- Readings up to and including the window, in call order, with the window's
opening time between them. -/
def readings (pre : List (Op κ)) (t : Nat) (win : List (Op κ)) : List Nat :=
  pre.map Op.now ++ t :: win.map Op.now

/-! ## The credit as a potential -/

/-- Credit bucket `x` could spend at `t`, refill included. -/
def potential (e : Egress κ) (x : Slot κ) (t : Nat) : Nat :=
  match e.at? x with
  | none => 0
  | some b => min (b.credit + rate e.config * (t - b.at_)) (fullCredit e.config)

theorem potential_le (e : Egress κ) (x : Slot κ) (t : Nat) :
    potential e x t ≤ byteNanos (burst e.config) := by
  unfold potential
  split
  · exact Nat.zero_le _
  · cases e.config with
    | none => exact Nat.le_trans (Nat.min_le_right _ _) (Nat.zero_le _)
    | some c => exact Nat.min_le_right _ _

/-- Time alone earns at most `rate * elapsed`. -/
theorem potential_wait {e : Egress κ} {x : Slot κ} {b : Bucket} (hb : e.at? x = some b)
    {t now : Nat} (hat : b.at_ ≤ t) (hle : t ≤ now) :
    min (b.credit + rate e.config * (now - b.at_)) (fullCredit e.config) ≤
      potential e x t + rate e.config * (now - t) := by
  have hsplit : rate e.config * (now - b.at_) =
      rate e.config * (t - b.at_) + rate e.config * (now - t) := by
    rw [← Nat.mul_add]
    have hsum : now - b.at_ = t - b.at_ + (now - t) := by omega
    rw [hsum]
  unfold potential
  rw [hb, hsplit]
  dsimp only
  omega

theorem charge_other {e : Egress κ} {x : Slot κ} {key : κ} {payload : Bytes} {overhead : Nat}
    {now : Nat} (h : x ≠ (e.track key now).slot key) :
    charge x e (.admitAt key payload overhead now) = 0 := by
  simp only [charge]; rw [if_neg (fun hx => h hx.1.symm)]

/-- What an admission charges its own bucket comes out of the refilled credit. -/
theorem charge_own {e : Egress κ} (hs : Sane e) {key : κ} (payload : Bytes) (overhead : Nat)
    {now : Nat} {b : Bucket}
    (hb : (e.track key now).at? ((e.track key now).slot key) = some b) {c : EgressConfig}
    (hc : e.config = some c) :
    byteNanos (charge ((e.track key now).slot key) e (.admitAt key payload overhead now)) +
      (b.admitOne (chargeOf payload overhead) (isControl payload) now).1.credit = b.refilled c now := by
  obtain ⟨b', hb', hacc, -⟩ := admitAt_spec e key payload overhead now
  rw [hb] at hb'; cases hb'
  have hbc : b.stats.config = some c := by
    rw [(sane_track hs key now).config _ b hb, config_track, hc]
  have h := (admit_spec hbc (chargeOf payload overhead) (isControl payload) now).2
  simp only [charge, hacc, hc, Option.isSome_some, and_true, true_and]
  split at h
  · rename_i ha; rw [if_pos ha]; omega
  · rename_i ha; rw [if_neg ha]; simp only [byteNanos, Nat.mul_zero]; omega

/-- One call on a bucket that exists: the charge and what is left of the
potential fit in the potential before plus `rate * elapsed`. -/
theorem step_potential {e : Egress κ} (hs : Sane e) {t : Nat} (hbf : Before e t) (op : Op κ)
    (hle : t ≤ op.now) {x : Slot κ} {b : Bucket} (hb : e.at? x = some b) :
    byteNanos (charge x e op) + potential (e.step op) x op.now ≤
      potential e x t + rate e.config * (op.now - t) := by
  have hwait := potential_wait hb (hbf x b hb) hle
  have hfull := hs.credit x b hb
  have htrack := track_of_at? hb
  cases op with
  | admitAt k p o now =>
    obtain ⟨b0, hb0, -, hcfg, -, hat⟩ := admitAt_spec e k p o now
    by_cases hx : x = (e.track k now).slot k
    · subst hx
      rw [htrack k now] at hb0; cases hb0
      cases hc : e.config with
      | none =>
        have hbc : b.stats.config = none := by rw [hs.config _ b hb, hc]
        have hch : charge ((e.track k now).slot k) e (.admitAt k p o now) = 0 := by
          simp [charge, hc]
        have hpot : potential (e.step (.admitAt k p o now)) ((e.track k now).slot k) now = 0 := by
          simp only [potential, step, hat, if_true, hcfg, hc, fullCredit, Nat.min_zero]
        rw [hch]; simp only [Op.now, hpot, byteNanos]; omega
      | some c =>
        have hown := charge_own hs p o (htrack k now) hc
        have hrle := refilled_le b c now
        have hbc : b.stats.config = some c := by rw [hs.config _ b hb, hc]
        have hpot : potential (e.step (.admitAt k p o now)) ((e.track k now).slot k) now ≤
            (b.admitOne (chargeOf p o) (isControl p) now).1.credit := by
          simp only [potential, step, hat, if_true]
          rw [(admit_spec hbc _ _ _).1, Nat.sub_eq_zero_of_le (Nat.le_max_right _ _)]
          exact Nat.min_le_left _ _
        simp only [hc, rate, fullCredit, Op.now] at hwait
        simp only [Op.now, rate] at hle ⊢
        omega
    · rw [charge_other hx]
      have hpot : potential (e.step (.admitAt k p o now)) x now =
          min (b.credit + rate e.config * (now - b.at_)) (fullCredit e.config) := by
        simp only [potential, step, hat, if_neg hx, htrack k now, hcfg]
      simp only [Op.now, hpot, byteNanos, Nat.mul_zero, Nat.zero_add]
      exact hwait
  | complete k p o s now =>
    obtain ⟨hcfg, -, hat⟩ := complete_spec e k p o s now
    have hpot : potential (e.step (.complete k p o s now)) x now =
        min (b.credit + rate e.config * (now - b.at_)) (fullCredit e.config) := by
      simp only [potential, step, hat, htrack k now, hcfg]
      split
      · rename_i h; split at h <;> simp at h
      · rename_i b' h
        split at h <;> simp only [Option.map_some, Option.some.injEq] at h <;> subst h <;> rfl
    simp only [charge, Op.now, hpot, byteNanos, Nat.mul_zero, Nat.zero_add]
    exact hwait
  | configure config now =>
    simp only [charge, Op.now, byteNanos, Nat.mul_zero, Nat.zero_add, step]
    split
    · rename_i e' hc
      have hpot : potential e' x now ≤ b.credit := by
        simp only [potential, (configure_spec hc).2.2, hb, Option.map_some, reconfigured,
          Nat.sub_self, Nat.mul_zero, Nat.add_zero]
        omega
      have hnow : b.credit ≤ potential e x t := by
        unfold potential; rw [hb]; dsimp only; omega
      omega
    · have hpot : potential e x now =
          min (b.credit + rate e.config * (now - b.at_)) (fullCredit e.config) := by
        simp only [potential, hb]
      rw [hpot]; exact hwait

/-- One call on a bucket that does not exist yet: it charges nothing unless it
creates the bucket, and then the charge comes out of one full burst. -/
theorem step_potential_new {e : Egress κ} (hs : Sane e) (op : Op κ) {x : Slot κ}
    (hx : e.at? x = none) :
    byteNanos (charge x e op) + potential (e.step op) x op.now ≤
      if ((e.step op).at? x).isSome then byteNanos (burst (e.step op).config) else 0 := by
  cases op with
  | admitAt k p o now =>
    obtain ⟨b, hb, -, hcfg, -, hat⟩ := admitAt_spec e k p o now
    by_cases hsl : x = (e.track k now).slot k
    · have hsome : ((e.step (.admitAt k p o now)).at? x).isSome = true := by
        simp only [step, hat, if_pos hsl, Option.isSome_some]
      rw [if_pos hsome]
      have hpl := potential_le (e.step (.admitAt k p o now)) x now
      cases hc : e.config with
      | none =>
        have hch : charge x e (.admitAt k p o now) = 0 := by simp [charge, hc]
        rw [hch]; simpa [byteNanos] using hpl
      | some c =>
        subst hsl
        have hown := charge_own hs p o hb hc
        have hrle := (refilled_le b c now).2
        have hpot : potential (e.step (.admitAt k p o now)) ((e.track k now).slot k) now ≤
            (b.admitOne (chargeOf p o) (isControl p) now).1.credit := by
          have hbc : b.stats.config = some c := by
            rw [(sane_track hs k now).config _ b hb, config_track, hc]
          simp only [potential, step, hat, if_true]
          rw [(admit_spec hbc _ _ _).1, Nat.sub_eq_zero_of_le (Nat.le_max_right _ _)]
          exact Nat.min_le_left _ _
        simp only [step, hcfg, hc, burst, Op.now]
        simp only [step] at hpot
        omega
    · rw [charge_other hsl]
      have hpl := potential_le (e.step (.admitAt k p o now)) x now
      split
      · simpa [byteNanos] using hpl
      · rename_i hno
        have hno' : (e.step (.admitAt k p o now)).at? x = none := by simpa using hno
        simp [potential, hno', byteNanos]
  | complete k p o s now =>
    have hpl := potential_le (e.step (.complete k p o s now)) x now
    split
    · simpa [byteNanos, charge] using hpl
    · rename_i hno
      have hno' : (e.step (.complete k p o s now)).at? x = none := by simpa using hno
      simp [potential, hno', byteNanos, charge]
  | configure c now =>
    have hpl := potential_le (e.step (.configure c now)) x now
    split
    · simpa [byteNanos, charge] using hpl
    · rename_i hno
      have hno' : (e.step (.configure c now)).at? x = none := by simpa using hno
      simp [potential, hno', byteNanos, charge]

/-- A window on a bucket that exists when it opens. -/
theorem window_potential (x : Slot κ) :
    ∀ (ops : List (Op κ)) (e : Egress κ) (t : Nat), Sane e → Before e t →
      (t :: ops.map Op.now).Pairwise (· ≤ ·) → (e.at? x).isSome = true →
      byteNanos (charged x e ops) ≤ potential e x t + earned e t ops
  | [], _, _, _, _, _, _ => Nat.zero_le _
  | op :: ops, e, t, hs, hbf, hsort, hx => by
    obtain ⟨b, hb⟩ := Option.isSome_iff_exists.1 hx
    obtain ⟨hle, hsort'⟩ := List.pairwise_cons.1 hsort
    have hnow : t ≤ op.now := hle _ (List.mem_cons_self ..)
    have h1 := step_potential hs hbf op hnow hb
    have h2 := window_potential x ops (e.step op) op.now (sane_step hs op) (before_step hbf op hnow)
      hsort' (step_at?_isSome e op x hx)
    simp only [charged, earned, byteNanos_add]
    omega

/-- Any window: one opening burst, plus what the config periods earn. -/
theorem window_envelope (x : Slot κ) :
    ∀ (ops : List (Op κ)) (e : Egress κ) (t : Nat), Sane e → Before e t →
      (t :: ops.map Op.now).Pairwise (· ≤ ·) →
      byteNanos (charged x e ops) ≤ byteNanos (openingBurst x e ops) + earned e t ops
  | [], _, _, _, _, _ => Nat.zero_le _
  | op :: ops, e, t, hs, hbf, hsort => by
    by_cases hx : (e.at? x).isSome = true
    · have h := window_potential x (op :: ops) e t hs hbf hsort hx
      have := potential_le e x t
      simp only [openingBurst, if_pos hx]
      omega
    · obtain ⟨hle, hsort'⟩ := List.pairwise_cons.1 hsort
      have hnow : t ≤ op.now := hle _ (List.mem_cons_self ..)
      have hnone : e.at? x = none := by simpa using hx
      have h1 := step_potential_new hs op hnone
      have hs' := sane_step hs op
      have hbf' := before_step hbf op hnow
      simp only [charged, earned, openingBurst, if_neg hx, byteNanos_add]
      by_cases hx' : ((e.step op).at? x).isSome = true
      · have h2 := window_potential x ops (e.step op) op.now hs' hbf' hsort' hx'
        have hob : openingBurst x (e.step op) ops = burst (e.step op).config := by
          cases ops <;> simp only [openingBurst, if_pos hx']
        rw [if_pos hx'] at h1
        rw [hob]; omega
      · have h2 := window_envelope x ops (e.step op) op.now hs' hbf' hsort'
        rw [if_neg hx'] at h1
        omega

/-! ## Readings that go backwards -/

/-- The running maximum of the readings bucket `x` sees, after one more call:
its creation starts the maximum, an admission on it extends it. -/
def nextSeen (x : Slot κ) (e : Egress κ) : Option Nat → Op κ → Option Nat
  | none, op => if ((e.step op).at? x).isSome then some op.now else none
  | some t, .admitAt key _ _ now => if (e.track key now).slot key = x then some (max t now) else some t
  | some t, _ => some t

/-- The running maximum after a sequence of calls. -/
def seen (x : Slot κ) : Egress κ → Option Nat → List (Op κ) → Option Nat
  | _, m, [] => m
  | e, m, op :: ops => seen x (e.step op) (nextSeen x e m op) ops

/-- Elapsed time of a window as bucket `x` sees it: from the running maximum `m`
when the window opens, or from the bucket's creation inside the window, to the
running maximum when it closes. -/
def ownElapsed (x : Slot κ) : Egress κ → Option Nat → List (Op κ) → Nat
  | e, some t, ops => (seen x e (some t) ops).getD t - t
  | _, none, [] => 0
  | e, none, op :: ops => ownElapsed x (e.step op) (nextSeen x e none op) ops

/-- One call inside a config period, whatever its reading: the bucket's clock is
the running maximum, and the charge is paid by credit and by clock advance. -/
theorem step_own {e : Egress κ} (hs : Sane e) {c : EgressConfig} (hc : e.config = some c) {op : Op κ}
    (hop : op.isConfigure = false) {x : Slot κ} {b : Bucket} (hb : e.at? x = some b) :
    ∃ b', (e.step op).at? x = some b' ∧ nextSeen x e (some b.at_) op = some b'.at_ ∧
      b.at_ ≤ b'.at_ ∧
      byteNanos (charge x e op) + b'.credit ≤ b.credit + c.bytesPerSecond * (b'.at_ - b.at_) := by
  cases op with
  | admitAt k p o now =>
    have htrack := track_of_at? hb k now
    obtain ⟨b0, hb0, -, -, -, hat⟩ := admitAt_spec e k p o now
    by_cases hx : x = (e.track k now).slot k
    · subst hx
      rw [htrack] at hb0; cases hb0
      have hbc : b.stats.config = some c := by rw [hs.config _ b hb, hc]
      have hown := charge_own hs p o htrack hc
      have hrle := (refilled_le b c now).1
      have hclk := (admit_spec hbc (chargeOf p o) (isControl p) now).1
      refine ⟨(b.admitOne (chargeOf p o) (isControl p) now).1, ?_, ?_, ?_, ?_⟩
      · simp only [step, hat, if_true]
      · simp only [nextSeen, if_true, hclk]
      · rw [hclk]; exact Nat.le_max_left _ _
      · have hadv : (b.admitOne (chargeOf p o) (isControl p) now).1.at_ - b.at_ = now - b.at_ := by
          rw [hclk]; omega
        rw [hadv]; omega
    · refine ⟨b, by simp only [step, hat, if_neg hx, htrack], ?_, Nat.le_refl _, ?_⟩
      · simp only [nextSeen]; rw [if_neg (fun h => hx h.symm)]
      · rw [charge_other hx]; simp [byteNanos]
  | complete k p o s now =>
    have hat := (complete_spec e k p o s now).2.2 x
    rw [track_of_at? hb k now] at hat
    split at hat
    · exact ⟨_, hat, rfl, Nat.le_refl _, by simp [charge, byteNanos]⟩
    · exact ⟨b, hat, rfl, Nat.le_refl _, by simp [charge, byteNanos]⟩
  | configure c' now => cases hop

theorem window_own (x : Slot κ) {c : EgressConfig} :
    ∀ (ops : List (Op κ)) (e : Egress κ) (b : Bucket), Sane e → e.config = some c →
      (∀ op ∈ ops, op.isConfigure = false) → e.at? x = some b →
      ∃ b', (e.run ops).at? x = some b' ∧ seen x e (some b.at_) ops = some b'.at_ ∧ b.at_ ≤ b'.at_ ∧
        byteNanos (charged x e ops) ≤ b.credit + c.bytesPerSecond * (b'.at_ - b.at_)
  | [], _, b, _, _, _, hb => ⟨b, hb, rfl, Nat.le_refl _, Nat.zero_le _⟩
  | op :: ops, e, b, hs, hc, hops, hb => by
    have hop := hops op (List.mem_cons_self ..)
    obtain ⟨b1, hb1, hseen1, hle1, hch1⟩ := step_own hs hc hop hb
    obtain ⟨b', hb', hseen', hle', hch'⟩ := window_own x ops (e.step op) b1 (sane_step hs op)
      (by rw [step_config e op hop, hc]) (fun o ho => hops o (List.mem_cons_of_mem _ ho)) hb1
    refine ⟨b', hb', by simp only [seen, hseen1, hseen'], Nat.le_trans hle1 hle', ?_⟩
    have hsplit : c.bytesPerSecond * (b'.at_ - b.at_) =
        c.bytesPerSecond * (b1.at_ - b.at_) + c.bytesPerSecond * (b'.at_ - b1.at_) := by
      rw [← Nat.mul_add]
      have hsum : b'.at_ - b.at_ = b1.at_ - b.at_ + (b'.at_ - b1.at_) := by omega
      rw [hsum]
    rw [hsplit]
    simp only [charged, byteNanos_add]
    omega

/-- A bucket created by a call starts its clock at that call's reading. -/
theorem created_at {e : Egress κ} {op : Op κ} (hop : op.isConfigure = false) {x : Slot κ} {b : Bucket}
    (hx : e.at? x = none) (hb : (e.step op).at? x = some b) : b.at_ = op.now := by
  obtain ⟨b0, hfrom, htouch⟩ := step_touched hb
  have h0 : b0.at_ = op.now := by
    rcases hfrom with hold | rfl
    · rw [hx] at hold
      cases hold
    · rfl
  cases htouch with
  | left _ => exact h0
  | admitted key payload overhead now heq =>
    cases hc : b0.stats.config with
    | none =>
      rw [admit_unpaced hc]
      exact h0
    | some c =>
      rw [heq] at h0 ⊢
      rw [(admit_spec hc _ _ _).1, h0]
      exact Nat.max_self _
  | completed key payload overhead sent now _ => exact h0
  | configured config now heq _ =>
    rw [heq] at hop
    cases hop

/-- Inside a config period a bucket's clock is the running maximum of the
readings it has seen. -/
theorem seen_eq (x : Slot κ) {c : EgressConfig} :
    ∀ (ops : List (Op κ)) (e : Egress κ), Sane e → e.config = some c →
      (∀ op ∈ ops, op.isConfigure = false) →
      seen x e ((e.at? x).map Bucket.at_) ops = ((e.run ops).at? x).map Bucket.at_
  | [], _, _, _, _ => rfl
  | op :: ops, e, hs, hc, hops => by
    have hop := hops op (List.mem_cons_self ..)
    have hnext : nextSeen x e ((e.at? x).map Bucket.at_) op = ((e.step op).at? x).map Bucket.at_ := by
      cases hx : e.at? x with
      | some b =>
        obtain ⟨b', hb', hseen, -, -⟩ := step_own hs hc hop hx
        rw [hb']; exact hseen
      | none =>
        cases hx' : (e.step op).at? x with
        | none => simp [nextSeen, hx']
        | some b' => simp [nextSeen, hx', created_at hop hx hx']
    rw [seen, hnext]
    exact seen_eq x ops (e.step op) (sane_step hs op) (by rw [step_config e op hop, hc])
      (fun o ho => hops o (List.mem_cons_of_mem _ ho))

/-- Inside one config period no order of the readings is needed. -/
theorem window_own_envelope (x : Slot κ) {c : EgressConfig} :
    ∀ (ops : List (Op κ)) (e : Egress κ), Sane e → e.config = some c →
      (∀ op ∈ ops, op.isConfigure = false) →
      byteNanos (charged x e ops) ≤
        byteNanos c.burstBytes + c.bytesPerSecond * ownElapsed x e ((e.at? x).map Bucket.at_) ops
  | [], _, _, _, _ => Nat.zero_le _
  | op :: ops, e, hs, hc, hops => by
    cases hx : e.at? x with
    | some b =>
      obtain ⟨b', -, hseen, -, h⟩ := window_own x (op :: ops) e b hs hc hops hx
      have hfull := hs.credit x b hx
      rw [hc] at hfull
      simp only [Option.map_some, ownElapsed, hseen, Option.getD_some]
      simp only [fullCredit] at hfull
      omega
    | none =>
      have hop := hops op (List.mem_cons_self ..)
      have hs' := sane_step hs op
      have hc' : (e.step op).config = some c := by rw [step_config e op hop, hc]
      have hops' := fun o ho => hops o (List.mem_cons_of_mem op ho)
      have h1 := step_potential_new hs op hx
      simp only [charged, Option.map_none, ownElapsed, byteNanos_add]
      cases hx' : (e.step op).at? x with
      | none =>
        have ih := window_own_envelope x ops (e.step op) hs' hc' hops'
        simp only [hx', Option.isSome_none, Bool.false_eq_true, if_false] at h1
        simp only [nextSeen, hx', Option.isSome_none, Bool.false_eq_true, if_false]
        rw [hx', Option.map_none] at ih
        omega
      | some b' =>
        obtain ⟨b2, -, hseen, -, h2⟩ := window_own x ops (e.step op) b' hs' hc' hops' hx'
        have hat := created_at hop hx hx'
        have hpot : b'.credit ≤ potential (e.step op) x op.now := by
          have hfull := hs'.credit x b' hx'
          unfold potential; rw [hx']; dsimp only; omega
        simp only [hx', Option.isSome_some, if_true, hc', burst] at h1
        simp only [nextSeen, hx', Option.isSome_some, if_true, ← hat, ownElapsed, hseen,
          Option.getD_some]
        omega

/-! ## Bytes recorded as sent -/

/-- The counter the transport's basis reports. -/
def sentBytes (stats : EgressStats) : Nat :=
  match stats.basis with
  | .nativeUdpIp => stats.nativeUdpIpBytes
  | .encryptedLogical => stats.encryptedLogicalBytes

/-- What one successful send adds to it. -/
def sentCost (basis : EgressBasis) (payload : Bytes) (overhead : Nat) : Nat :=
  match basis with
  | .nativeUdpIp => chargeOf payload overhead
  | .encryptedLogical => payload.length

/-- Bytes accepted for `key` and not yet completed. -/
def owed (basis : EgressBasis) (key : κ) (out : List (κ × Bytes × Nat)) : Nat :=
  (out.map fun p => if p.1 = key then sentCost basis p.2.1 p.2.2 else 0).sum

theorem sentBytes_record (stats : EgressStats) (payload : Bytes) (overhead : Nat) (sent : Bool) :
    sentBytes (record stats payload overhead sent) ≤
      sentBytes stats + sentCost stats.basis payload overhead := by
  unfold sentBytes
  rw [(record_frame stats payload overhead sent).2]
  cases sent with
  | false => simp only [record, Bool.false_eq_true, if_false]; split <;> omega
  | true =>
    cases hb : stats.basis with
    | nativeUdpIp =>
      simp only [record, if_true, hb, sentCost]
      exact satAdd_le _ _ _
    | encryptedLogical =>
      simp only [record, if_true, sentCost]
      exact satAdd_le _ _ _

theorem owed_erase (basis : EgressBasis) (key : κ) {out : List (κ × Bytes × Nat)}
    {p : κ × Bytes × Nat} (h : p ∈ out) :
    owed basis key out =
      (if p.1 = key then sentCost basis p.2.1 p.2.2 else 0) + owed basis key (out.erase p) := by
  have hp := (List.perm_cons_erase h).map
    (fun p : κ × Bytes × Nat => if p.1 = key then sentCost basis p.2.1 p.2.2 else 0)
  unfold owed
  rw [hp.sum_eq, List.map_cons, List.sum_cons]

/-- The recorded bytes of a tracked key stay covered by the charges and by the
packets that were owed when the window opened. -/
theorem sent_covered (key : κ) {c : EgressConfig} :
    ∀ (ops : List (Op κ)) (e : Egress κ) (out : List (κ × Bytes × Nat)) (b : Bucket), Sane e →
      e.config = some c → (∀ op ∈ ops, op.isConfigure = false) → (∀ op ∈ ops, op.InRange) →
      Paired e out ops → e.at? (.peer key) = some b →
      ∃ b', (e.run ops).at? (.peer key) = some b' ∧
        sentBytes b'.stats ≤ sentBytes b.stats + owed e.basis key out + charged (.peer key) e ops
  | [], e, out, b, _, _, _, _, _, hb => ⟨b, hb, by omega⟩
  | op :: ops, e, out, b, hs, hc, hops, hin, hpair, hb => by
    have hop := hops op (List.mem_cons_self ..)
    have hmem : key ∈ e.buckets := mem_buckets_iff.2 (by rw [hb]; rfl)
    have hbas := hs.basis _ b hb
    have htrack := track_of_at? hb
    -- the step itself: recorded bytes plus what is owed grow by at most the charge
    obtain ⟨b1, hb1, hgrow⟩ : ∃ b1, (e.step op).at? (.peer key) = some b1 ∧
        sentBytes b1.stats + owed e.basis key (settle e out op) ≤
          sentBytes b.stats + owed e.basis key out + charge (.peer key) e op := by
      cases op with
      | admitAt k p o now =>
        obtain ⟨b0, hb0, -, -, -, hat⟩ := admitAt_spec e k p o now
        have howed : owed e.basis key (settle e out (.admitAt k p o now)) ≤
            owed e.basis key out + charge (.peer key) e (.admitAt k p o now) := by
          simp only [settle]
          split
          · rename_i hacc
            by_cases hk : k = key
            · subst hk
              have hcost : sentCost e.basis p o ≤ chargeOf p o := by
                have hr := hin _ (List.mem_cons_self ..)
                unfold sentCost; split
                · exact Nat.le_refl _
                · unfold chargeOf; rw [wrapU64_eq hr]; omega
              simp only [owed, List.map_cons, if_true, List.sum_cons, charge, slot_of_mem hmem, hacc,
                hc, Option.isSome_some, and_self]
              omega
            · simp [owed, hk]
          · omega
        by_cases hk : k = key
        · subst hk
          rw [slot_of_mem hmem, htrack] at hb0; cases hb0
          have hst := admit_stats b (chargeOf p o) (isControl p) now
          refine ⟨(b.admitOne (chargeOf p o) (isControl p) now).1,
            by simp only [step, hat, slot_of_mem hmem, if_true], ?_⟩
          have : sentBytes (b.admitOne (chargeOf p o) (isControl p) now).1.stats = sentBytes b.stats := by
            unfold sentBytes; rw [hst.2.1, hst.2.2.1, hst.2.2.2]
          omega
        · refine ⟨b, ?_, by omega⟩
          simp only [step, hat]
          rw [if_neg (fun h => slot_ne hk now h.symm), htrack]
      | complete k p o s now =>
        have hat := (complete_spec e k p o s now).2.2 (.peer key)
        have hpo : (k, p, o) ∈ out := hpair.1
        have her := owed_erase e.basis key hpo
        by_cases hk : k = key
        · subst hk
          rw [slot_of_mem hmem, if_pos rfl, htrack] at hat
          refine ⟨_, hat, ?_⟩
          have hrec := sentBytes_record b.stats p o s
          rw [hbas] at hrec
          simp only [if_true] at her
          simp only [settle, charge]
          omega
        · rw [if_neg (fun h => slot_ne hk now h.symm), htrack] at hat
          refine ⟨b, hat, ?_⟩
          simp only [if_neg hk] at her
          simp only [settle, charge]
          omega
      | configure c' now => cases hop
    obtain ⟨b', hb', hle⟩ := sent_covered key ops (e.step op) (settle e out op) b1 (sane_step hs op)
      (by rw [step_config e op hop, hc]) (fun o ho => hops o (List.mem_cons_of_mem _ ho))
      (fun o ho => hin o (List.mem_cons_of_mem _ ho)) hpair.2 hb1
    rw [step_basis] at hle
    exact ⟨b', hb', by simp only [charged]; omega⟩

/-! ## A key's first call -/

/-- Packets are owed only for tracked keys, or with the table full. -/
def OwesTracked (e : Egress κ) (out : List (κ × Bytes × Nat)) : Prop :=
  ∀ p ∈ out, p.1 ∈ e.buckets ∨ MAX_PEERS ≤ e.buckets.len

theorem owesTracked_step {e : Egress κ} {out : List (κ × Bytes × Nat)} (h : OwesTracked e out)
    (op : Op κ) : OwesTracked (e.step op) (settle e out op) := by
  cases op with
  | admitAt k p o now =>
    obtain ⟨hmono, hlen, hkey⟩ := buckets_track e k now
    obtain ⟨hmem, hl⟩ := buckets_admitAt e k p o now
    have hold : OwesTracked (e.step (.admitAt k p o now)) out := by
      intro q hq
      rcases h q hq with hq | hq
      · exact .inl ((hmem _).2 (hmono _ hq))
      · exact .inr (by simp only [step]; omega)
    simp only [settle]
    split
    · intro q hq
      rcases List.mem_cons.1 hq with rfl | hq
      · rcases hkey with hk | hk
        · exact .inl ((hmem _).2 hk)
        · exact .inr (by simp only [step]; omega)
      · exact hold q hq
    · exact hold
  | complete k p o s now =>
    obtain ⟨hmono, hlen, -⟩ := buckets_track e k now
    obtain ⟨hmem, hl⟩ := buckets_complete e k p o s now
    intro q hq
    rcases h q (List.mem_of_mem_erase hq) with hq | hq
    · exact .inl ((hmem _).2 (hmono _ hq))
    · exact .inr (by simp only [step]; omega)
  | configure c now =>
    simp only [settle, step]
    split
    · rename_i e' hc
      obtain ⟨hmem, hl⟩ := buckets_configure hc
      intro q hq
      rcases h q hq with hq | hq
      · exact .inl ((hmem _).2 hq)
      · exact .inr (by omega)
    · exact h

theorem owesTracked_run :
    ∀ (ops : List (Op κ)) {e : Egress κ} {out : List (κ × Bytes × Nat)}, OwesTracked e out →
      OwesTracked (e.run ops) (outstanding e out ops)
  | [], _, _, h => h
  | op :: ops, _, _, h => owesTracked_run ops (owesTracked_step h op)

/-- Last reading of a window that opens at `t`. -/
def closing : Nat → List (Op κ) → Nat
  | t, [] => t
  | _, op :: ops => closing op.now ops

/-- With one config the earned credit is the rate times the elapsed time. -/
theorem earned_const {c : EgressConfig} :
    ∀ (ops : List (Op κ)) (e : Egress κ) (t : Nat), e.config = some c →
      (∀ op ∈ ops, op.isConfigure = false) → (t :: ops.map Op.now).Pairwise (· ≤ ·) →
      t ≤ closing t ops ∧ earned e t ops = c.bytesPerSecond * (closing t ops - t)
  | [], _, t, _, _, _ => by simp [closing, earned]
  | op :: ops, e, t, hc, hops, hsort => by
    obtain ⟨hle, hsort'⟩ := List.pairwise_cons.1 hsort
    have hnow : t ≤ op.now := hle _ (List.mem_cons_self ..)
    have hop := hops op (List.mem_cons_self ..)
    obtain ⟨hcl, hea⟩ := earned_const ops (e.step op) op.now (by rw [step_config e op hop, hc])
      (fun o ho => hops o (List.mem_cons_of_mem _ ho)) hsort'
    rw [closing, earned, hea, hc]
    refine ⟨Nat.le_trans hnow hcl, ?_⟩
    have hsum : closing op.now ops - t = op.now - t + (closing op.now ops - op.now) := by omega
    rw [hsum, Nat.mul_add, rate]

/-- The call that starts tracking a key is an `admit` for it, and nothing was
owed for the key before. -/
theorem first_call {e : Egress κ} {out : List (κ × Bytes × Nat)} (ho : OwesTracked e out)
    {key : κ} {op : Op κ} {ops : List (Op κ)} (hpair : Paired e out (op :: ops))
    (hk : key ∉ e.buckets) (hk' : key ∈ (e.step op).buckets) :
    (∀ p ∈ out, p.1 ≠ key) ∧ e.buckets.len < MAX_PEERS ∧
      ∃ payload overhead, op = .admitAt key payload overhead op.now := by
  have hnew : ∀ k now, key ∈ (e.track k now).buckets → k = key ∧ e.buckets.len < MAX_PEERS := by
    intro k now h
    unfold track at h
    split at h
    · rename_i hlt
      rcases HashMap.mem_insert.1 h with h | h
      · exact ⟨h.symm, hlt.2⟩
      · exact absurd h hk
    · exact absurd h hk
  have hfree : e.buckets.len < MAX_PEERS → ∀ p ∈ out, p.1 ≠ key := by
    rintro hlt p hp rfl
    rcases ho p hp with h | h
    · exact hk h
    · omega
  cases op with
  | admitAt k p o now =>
    obtain ⟨rfl, hlt⟩ := hnew k now (((buckets_admitAt e k p o now).1 key).1 hk')
    exact ⟨hfree hlt, hlt, p, o, rfl⟩
  | complete k p o s now =>
    obtain ⟨rfl, hlt⟩ := hnew k now (((buckets_complete e k p o s now).1 key).1 hk')
    exact absurd rfl (hfree hlt _ hpair.1)
  | configure c now =>
    simp only [step] at hk'
    split at hk'
    · rename_i e' hc; exact absurd (((buckets_configure hc).1 key).1 hk') hk
    · exact absurd hk' hk

theorem owed_eq_zero (basis : EgressBasis) {key : κ} {out : List (κ × Bytes × Nat)}
    (h : ∀ p ∈ out, p.1 ≠ key) : owed basis key out = 0 := by
  unfold owed
  refine List.sum_eq_zero fun n hn => ?_
  obtain ⟨p, hp, rfl⟩ := List.mem_map.1 hn
  exact if_neg (h p hp)

/-- The first call of a key starts its bucket with nothing sent and owes at most
what it charges. -/
theorem sent_first {e : Egress κ} {c : EgressConfig} (hc : e.config = some c) {key : κ}
    {payload : Bytes} {overhead : Nat} {now : Nat}
    (hin : (Op.admitAt key payload overhead now).InRange) (hk : key ∉ e.buckets)
    (hlt : e.buckets.len < MAX_PEERS) {out : List (κ × Bytes × Nat)} (hfree : ∀ p ∈ out, p.1 ≠ key) :
    ∃ b, (e.step (.admitAt key payload overhead now)).at? (.peer key) = some b ∧
      sentBytes b.stats + owed e.basis key (settle e out (.admitAt key payload overhead now)) ≤
        charge (.peer key) e (.admitAt key payload overhead now) := by
  have htrack : (e.track key now).at? (.peer key) = some (Bucket.new e.basis e.config now) := by
    rw [at?_track, if_pos ⟨rfl, hk, hlt⟩]
  have hslot : (e.track key now).slot key = .peer key := by
    unfold slot; rw [if_pos (mem_buckets_iff.2 (by rw [htrack]; rfl))]
  obtain ⟨b0, hb0, hacc, -, -, hat⟩ := admitAt_spec e key payload overhead now
  rw [hslot, htrack] at hb0; cases hb0
  set b := Bucket.new e.basis e.config now with hb
  have hst := admit_stats b (chargeOf payload overhead) (isControl payload) now
  have hzero : sentBytes (b.admitOne (chargeOf payload overhead) (isControl payload) now).1.stats = 0 := by
    unfold sentBytes; rw [hst.2.1, hst.2.2.1, hst.2.2.2, hb]
    simp only [Bucket.new]; split <;> rfl
  refine ⟨(b.admitOne (chargeOf payload overhead) (isControl payload) now).1, ?_, ?_⟩
  · simp only [step, hat, hslot, if_true]
  · have hcost : sentCost e.basis payload overhead ≤ chargeOf payload overhead := by
      unfold sentCost; split
      · exact Nat.le_refl _
      · unfold chargeOf; rw [wrapU64_eq hin]; omega
    have hz := owed_eq_zero e.basis hfree
    rw [hzero]
    simp only [settle, charge, hslot, hc, Option.isSome_some, and_true, true_and]
    split
    · unfold owed at hz ⊢
      simp only [List.map_cons, if_true, List.sum_cons, hz]
      omega
    · rw [hz]

/-- With one config since a key is first tracked, the bytes its bucket records
as sent obey the envelope from that call on. -/
theorem sent_envelope {e : Egress κ} {out : List (κ × Bytes × Nat)} (hs : Sane e)
    (ho : OwesTracked e out) {c : EgressConfig} (hc : e.config = some c) {key : κ} {op : Op κ}
    {ops : List (Op κ)} (hbf : Before e op.now) (hpair : Paired e out (op :: ops))
    (hops : ∀ o ∈ ops, o.isConfigure = false) (hin : ∀ o ∈ op :: ops, o.InRange)
    (hk : key ∉ e.buckets) (hk' : key ∈ (e.step op).buckets)
    (hsort : ((op :: ops).map Op.now).Pairwise (· ≤ ·)) :
    ∃ b, (e.run (op :: ops)).at? (.peer key) = some b ∧
      byteNanos (sentBytes b.stats) ≤
        byteNanos c.burstBytes + c.bytesPerSecond * (closing op.now ops - op.now) := by
  obtain ⟨hfree, hlt, payload, overhead, hadm⟩ := first_call ho hpair hk hk'
  have hnone : e.at? (.peer key) = none := HashMap.not_mem_iff_get.1 hk
  have hopc : op.isConfigure = false := by rw [hadm]; rfl
  obtain ⟨b1, hb1, h1⟩ : ∃ b, (e.step op).at? (.peer key) = some b ∧
      sentBytes b.stats + owed e.basis key (settle e out op) ≤ charge (.peer key) e op := by
    have hin0 := hin op (List.mem_cons_self ..)
    rw [hadm] at hin0 ⊢
    exact sent_first hc hin0 hk hlt hfree
  have hc1 : (e.step op).config = some c := by rw [step_config e op hopc, hc]
  obtain ⟨b, hb, h2⟩ := sent_covered key ops (e.step op) (settle e out op) b1 (sane_step hs op) hc1 hops
    (fun o ho => hin o (List.mem_cons_of_mem _ ho)) hpair.2 hb1
  rw [step_basis] at h2
  have hwin := window_envelope (.peer key) (op :: ops) e op.now hs hbf
    (List.pairwise_cons.2 ⟨fun a ha => by
      rcases List.mem_cons.1 ha with rfl | ha
      · exact Nat.le_refl _
      · exact (List.pairwise_cons.1 hsort).1 a ha, hsort⟩)
  have hob : openingBurst (.peer key) e (op :: ops) = c.burstBytes := by
    have : openingBurst (.peer key) (e.step op) ops = burst (e.step op).config := by
      cases ops <;> simp only [openingBurst, hb1, Option.isSome_some, if_true]
    simp only [openingBurst, hnone, Option.isSome_none, Bool.false_eq_true, if_false, this, hc1, burst]
  have hea : earned e op.now (op :: ops) = c.bytesPerSecond * (closing op.now ops - op.now) := by
    rw [earned, Nat.sub_self, Nat.mul_zero, Nat.zero_add]
    exact (earned_const ops (e.step op) op.now hc1 hops hsort).2
  have hle : byteNanos (sentBytes b.stats) ≤ byteNanos (charged (.peer key) e (op :: ops)) :=
    byteNanos_le (by simp only [charged]; omega)
  rw [hob, hea] at hwin
  exact ⟨b, hb, Nat.le_trans hle hwin⟩

/-! ## The envelope -/

/-- The running maximum bucket `x` has seen when a config period opens at `t`:
`configure` restarts the clock of the buckets that exist. -/
def seenAtConfigure (x : Slot κ) (e : Egress κ) (t : Nat) : Option Nat :=
  if (e.at? x).isSome then some t else none

theorem seen_period (x : Slot κ) {e e' : Egress κ} {c : EgressConfig} {t : Nat}
    (h : e.configure (some c) t = .ok e') :
    seenAtConfigure x e' t = (e'.at? x).map Bucket.at_ := by
  unfold seenAtConfigure
  rw [(configure_spec h).2.2]
  cases e.at? x <;> rfl

/-- **The egress rate envelope.** Over every run from a fresh `Egress`:

* at non-decreasing readings, in every window, what a bucket accepts under a
  config is at most its opening burst plus what the config periods earn;
* no `configure` raises the credit of a bucket that exists;
* with one config since a key is first tracked and every `complete` following
  its accepted `admit`, the bytes recorded as sent obey the same bound;
* inside one config period the readings may go backwards: elapsed time is then
  the advance of the running maximum of the readings the bucket has seen. -/
theorem rate_envelope (basis : EgressBasis) (pre : List (Op κ)) :
    (∀ (t : Nat) (win : List (Op κ)) (x : Slot κ), (readings pre t win).Pairwise (· ≤ ·) →
      byteNanos (charged x ((new basis).run pre) win) ≤
        byteNanos (openingBurst x ((new basis).run pre) win) + earned ((new basis).run pre) t win) ∧
    (∀ (config : Option EgressConfig) (now : Nat) (e' : Egress κ),
      ((new basis).run pre).configure config now = .ok e' →
      ∀ x b, ((new basis).run pre).at? x = some b →
        ∃ b', e'.at? x = some b' ∧ b'.credit ≤ b.credit) ∧
    (∀ (c : EgressConfig) (key : κ) (op : Op κ) (post : List (Op κ)),
      ((new basis).run pre).config = some c → (∀ o ∈ post, o.isConfigure = false) →
      key ∉ ((new basis).run pre).buckets → key ∈ (((new basis).run pre).step op).buckets →
      Paired (new basis) [] (pre ++ op :: post) → (∀ o ∈ op :: post, o.InRange) →
      ((pre ++ op :: post).map Op.now).Pairwise (· ≤ ·) →
      ∃ b, (((new basis).run pre).run (op :: post)).at? (.peer key) = some b ∧
        byteNanos (sentBytes b.stats) ≤
          byteNanos c.burstBytes + c.bytesPerSecond * (closing op.now post - op.now)) ∧
    (∀ (c : EgressConfig) (now : Nat) (e' : Egress κ) (mid win : List (Op κ)) (x : Slot κ),
      ((new basis).run pre).configure (some c) now = .ok e' →
      (∀ o ∈ mid ++ win, o.isConfigure = false) →
      byteNanos (charged x (e'.run mid) win) ≤ byteNanos c.burstBytes +
        c.bytesPerSecond *
          ownElapsed x (e'.run mid) (seen x e' (seenAtConfigure x e' now) mid) win) := by
  have hsane : Sane ((new basis : Egress κ).run pre) := sane_run pre (sane_new basis)
  refine ⟨fun t win x hsort => ?_, fun config now e' hcf x b hb => ?_,
    fun c key op post hc hpost hk hk' hpair hin hsort => ?_, fun c now e' mid win x hcf hops => ?_⟩
  · have hbf : Before ((new basis : Egress κ).run pre) t :=
      before_run pre (before_new basis) (List.pairwise_cons.2 ⟨fun _ _ => Nat.zero_le _, hsort⟩)
    exact window_envelope x win _ t hsane hbf (List.pairwise_append.1 hsort).2.1
  · refine ⟨reconfigured config now b, ?_, Nat.min_le_left _ _⟩
    rw [(configure_spec hcf).2.2, hb]; rfl
  · have hsort' : (pre.map Op.now ++ op.now :: post.map Op.now).Pairwise (· ≤ ·) := by
      simpa only [List.map_append, List.map_cons] using hsort
    have hbf : Before ((new basis : Egress κ).run pre) op.now :=
      before_run pre (before_new basis) (List.pairwise_cons.2 ⟨fun _ _ => Nat.zero_le _, hsort'⟩)
    exact sent_envelope hsane (owesTracked_run pre (fun p hp => absurd hp List.not_mem_nil)) hc hbf
      (paired_append pre hpair) hpost hin hk hk' (List.pairwise_append.1 hsort').2.1
  · have hs' : Sane e' := by
      have := sane_step hsane (.configure (some c) now)
      simpa only [step, hcf] using this
    have hc' : e'.config = some c := (configure_spec hcf).1
    have hmid : ∀ o ∈ mid, o.isConfigure = false := fun o ho => hops o (List.mem_append_left _ ho)
    rw [seen_period x hcf, seen_eq x mid e' hs' hc' hmid]
    exact window_own_envelope x win (e'.run mid) (sane_run mid hs') (config_run mid hc' hmid)
      (fun o ho => hops o (List.mem_append_right _ ho))

/-- 1000 bytes per second with the smallest burst and reserve. -/
def slowLane : EgressConfig :=
  ⟨.nativeUdpIp, 1000, 2048, 256, by decide, by decide, by decide⟩

/-- One paced peer, whose first packet is admitted and sent. -/
theorem rate_envelope_slowLane :
    let pre : List (Op Nat) := [.configure (some slowLane) 0]
    let op : Op Nat := .admitAt 7 [5, 0] 28 10
    let post : List (Op Nat) := [.complete 7 [5, 0] 28 true 20]
    let e := (new .nativeUdpIp).run pre
    byteNanos (charged (.peer 7) e (op :: post)) ≤
        byteNanos (openingBurst (.peer 7) e (op :: post)) + earned e 5 (op :: post) ∧
      ∃ b, (e.run (op :: post)).at? (.peer 7) = some b ∧ sentBytes b.stats = 30 ∧
        byteNanos (sentBytes b.stats) ≤ byteNanos 2048 + 1000 * (20 - 10) := by
  obtain ⟨hwin, -, hsent, -⟩ := rate_envelope .nativeUdpIp [(.configure (some slowLane) 0 : Op Nat)]
  refine ⟨hwin 5 _ _ (by decide), ?_⟩
  obtain ⟨b, hb, hle⟩ := hsent slowLane 7 (.admitAt 7 [5, 0] 28 10) [.complete 7 [5, 0] 28 true 20]
    rfl (by simp [Op.isConfigure]) (by decide) (by decide)
    ⟨trivial, trivial, by decide +kernel, trivial⟩ (by simp [Op.InRange, U64_MAX]) (by decide)
  have hmap := congrArg (Option.map fun b => sentBytes b.stats) hb
  rw [show Option.map _ _ = some 30 by decide +kernel] at hmap
  exact ⟨b, hb, (Option.some.inj hmap).symm, hle⟩

/-- A `complete` need not follow an `admit`: two of them report twice 2028 bytes as sent
within ten nanoseconds, and no charge was ever made. -/
theorem sent_without_admission :
    let pre : List (Op Nat) := [.configure (some slowLane) 0]
    let op : Op Nat := .complete 7 (List.replicate 2000 0) 28 true 10
    let post : List (Op Nat) := [.complete 7 (List.replicate 2000 0) 28 true 20]
    let e := (new .nativeUdpIp).run pre
    e.config = some slowLane ∧ (∀ o ∈ post, o.isConfigure = false) ∧ 7 ∉ e.buckets ∧
      7 ∈ (e.step op).buckets ∧ ((pre ++ op :: post).map Op.now).Pairwise (· ≤ ·) ∧
      ∃ b, (e.run (op :: post)).at? (.peer 7) = some b ∧ sentBytes b.stats = 4056 ∧
        byteNanos 2048 + 1000 * (20 - 10) < byteNanos (sentBytes b.stats) := by
  dsimp only
  refine ⟨rfl, fun o ho => by rw [List.mem_singleton.1 ho]; rfl, by decide, by decide +kernel,
    by decide, ?_⟩
  have hsent : ((((new .nativeUdpIp : Egress Nat).run [.configure (some slowLane) 0]).run
      [.complete 7 (List.replicate 2000 0) 28 true 10, .complete 7 (List.replicate 2000 0) 28 true 20]).at?
        (.peer 7)).map (fun b => sentBytes b.stats) = some 4056 := by decide +kernel
  obtain ⟨b, hb, hbytes⟩ := Option.map_eq_some_iff.1 hsent
  exact ⟨b, hb, hbytes, by rw [hbytes]; decide⟩

end Egress
end RenetCross.L2
