import Mathlib.Algebra.BigOperators.Group.List.Basic
import RenetCross.L2Machine.Egress

/-!
# Calls on an egress table

The three calls that change an `Egress` (`admit_at`, `complete`, `configure`) as
one step function, its runs, and what each call does to each bucket. A bucket is
named by the reference `Egress::bucket` returns (`Slot`), so a lemma about "the
key's bucket" covers a tracked key and the shared overflow bucket alike.
-/
namespace RenetCross.L2

namespace Egress

variable {κ : Type} [DecidableEq κ]

inductive Op (κ : Type) where
  | admitAt (key : κ) (payload : Bytes) (overhead : Nat) (now : Nat)
  | complete (key : κ) (payload : Bytes) (overhead : Nat) (sent : Bool) (now : Nat)
  | configure (config : Option EgressConfig) (now : Nat)

@[simp] def Op.now : Op κ → Nat
  | .admitAt _ _ _ t => t
  | .complete _ _ _ _ t => t
  | .configure _ t => t

def Op.isConfigure : Op κ → Bool
  | .configure _ _ => true
  | _ => false

/-- One call. A refused `configure` leaves the state as it was. -/
def step (e : Egress κ) : Op κ → Egress κ
  | .admitAt key payload overhead now => (e.admitAt key payload overhead now).1
  | .complete key payload overhead sent now => e.complete key payload overhead sent now
  | .configure config now =>
    match e.configure config now with
    | .ok e' => e'
    | .error _ => e

def run (e : Egress κ) (ops : List (Op κ)) : Egress κ := ops.foldl step e

/-! ## References into the bucket table -/

theorem at?_track (e : Egress κ) (key : κ) (now : Nat) (x : Slot κ) :
    (e.track key now).at? x =
      if x = .peer key ∧ key ∉ e.buckets ∧ e.buckets.len < MAX_PEERS then
        some (Bucket.new e.basis e.config now)
      else e.at? x := by
  unfold track
  by_cases h : key ∉ e.buckets ∧ e.buckets.len < MAX_PEERS
  · rw [if_pos h]
    cases x with
    | peer k =>
      simp only [at?, HashMap.get_insert, Slot.peer.injEq, h, not_false_eq_true, and_true]
    | overflow => simp [at?]
  · rw [if_neg h, if_neg (fun hx => h hx.2)]

/-- Tracking a key leaves the buckets that exist alone. -/
theorem track_of_at? {e : Egress κ} {x : Slot κ} {b : Bucket} (hb : e.at? x = some b) (k : κ)
    (now : Nat) : (e.track k now).at? x = some b := by
  rw [at?_track, if_neg, hb]
  rintro ⟨rfl, hk, -⟩
  exact hk (HashMap.mem_iff_get.2 ⟨b, hb⟩)

/-- The bucket a key is charged to exists. -/
theorem at?_slot (e : Egress κ) (key : κ) : ∃ b, e.at? (e.slot key) = some b := by
  unfold slot
  split
  · rename_i h; exact HashMap.mem_iff_get.1 h
  · exact ⟨e.overflow, rfl⟩

/-- A charge changes one bucket. -/
theorem at?_modify (e : Egress κ) (x y : Slot κ) (f : Bucket → Bucket) :
    (e.modify x f).at? y = if y = x then (e.at? x).map f else e.at? y := by
  cases x with
  | overflow => cases y <;> simp [modify, at?]
  | peer k =>
    cases hb : e.buckets.get k with
    | none =>
      cases y with
      | overflow => simp [modify, at?, hb]
      | peer k' =>
        by_cases h : k' = k
        · subst h; simp [modify, at?, hb]
        · simp [modify, at?, hb, h]
    | some b =>
      cases y with
      | overflow => simp [modify, at?, hb]
      | peer k' => simp [modify, at?, hb, HashMap.get_insert]

@[simp] theorem config_track (e : Egress κ) (key : κ) (now : Nat) :
    (e.track key now).config = e.config := by unfold track; split <;> rfl

@[simp] theorem basis_track (e : Egress κ) (key : κ) (now : Nat) :
    (e.track key now).basis = e.basis := by unfold track; split <;> rfl

@[simp] theorem config_modify (e : Egress κ) (x : Slot κ) (f : Bucket → Bucket) :
    (e.modify x f).config = e.config := by
  unfold modify; split
  · split <;> rfl
  · rfl

@[simp] theorem basis_modify (e : Egress κ) (x : Slot κ) (f : Bucket → Bucket) :
    (e.modify x f).basis = e.basis := by
  unfold modify; split
  · split <;> rfl
  · rfl

@[simp] theorem total_track (e : Egress κ) (key : κ) (now : Nat) :
    (e.track key now).total = e.total := by unfold track; split <;> rfl

@[simp] theorem total_modify (e : Egress κ) (x : Slot κ) (f : Bucket → Bucket) :
    (e.modify x f).total = e.total := by
  unfold modify; split
  · split <;> rfl
  · rfl

/-! ## One bucket -/

theorem byteNanos_add (a b : Nat) : byteNanos (a + b) = byteNanos a + byteNanos b :=
  Nat.mul_add _ _ _

theorem byteNanos_le {a b : Nat} (h : a ≤ b) : byteNanos a ≤ byteNanos b := Nat.mul_le_mul_left _ h

theorem refilled_le (b : Bucket) (c : EgressConfig) (now : Nat) :
    b.refilled c now ≤ b.credit + c.bytesPerSecond * (now - b.at_) ∧
      b.refilled c now ≤ byteNanos c.burstBytes := by
  unfold Bucket.refilled
  have h1 := satAdd_le U128_MAX b.credit (satMul U128_MAX (now - b.at_) c.bytesPerSecond)
  have h2 := satMul_le U128_MAX (now - b.at_) c.bytesPerSecond
  rw [Nat.mul_comm] at h2
  exact ⟨by omega, Nat.min_le_right _ _⟩

/-- A valid burst is above the reserve, whatever the packet. -/
theorem reserveFor_lt (c : EgressConfig) (control : Bool) : c.reserveFor control < c.burstBytes := by
  have := c.reserve_mem; have := c.burst_mem
  unfold EgressConfig.reserveFor; split <;> omega

/-- A decision pays an accepted charge out of the credit and nothing else. -/
theorem spend_credit (b : Bucket) (c : EgressConfig) (bytes : Nat) (control : Bool) :
    (b.spend c bytes control).1.credit +
      (if (b.spend c bytes control).2 then byteNanos bytes else 0) = b.credit := by
  unfold Bucket.spend
  split
  · simp
  · rename_i hcap
    split
    · simp
    · rename_i hpace
      have hres := reserveFor_lt c control
      have hburst := c.burst_mem
      have hle : bytes + c.reserveFor control ≤ U64_MAX := by unfold U64_MAX; omega
      rw [wrapU64_eq hle, byteNanos_add] at hpace
      simp only [if_true]
      exact Nat.sub_add_cancel (by omega)

/-- A decision moves no clock and no counter but its own two drop counters. -/
theorem spend_frame (b : Bucket) (c : EgressConfig) (bytes : Nat) (control : Bool) :
    (b.spend c bytes control).1.at_ = b.at_ ∧
      (b.spend c bytes control).1.stats.config = b.stats.config ∧
      (b.spend c bytes control).1.stats.basis = b.stats.basis ∧
      (b.spend c bytes control).1.stats.nativeUdpIpBytes = b.stats.nativeUdpIpBytes ∧
      (b.spend c bytes control).1.stats.encryptedLogicalBytes = b.stats.encryptedLogicalBytes := by
  unfold Bucket.spend
  split
  · simp
  · split <;> simp

/-- An admission refills, then pays the charge out of the credit. -/
theorem admit_spec {b : Bucket} {c : EgressConfig} (hc : b.stats.config = some c) (bytes : Nat)
    (control : Bool) (now : Nat) :
    (b.admitOne bytes control now).1.at_ = max b.at_ now ∧
      (b.admitOne bytes control now).1.credit +
        (if (b.admitOne bytes control now).2 then byteNanos bytes else 0) = b.refilled c now := by
  have ha : b.admitOne bytes control now = (b.refill c now).spend c bytes control := by
    simp only [Bucket.admitOne, hc]
  rw [ha]
  exact ⟨(spend_frame _ c bytes control).1, spend_credit _ c bytes control⟩

/-- Without a config everything is admitted and nothing charged. -/
theorem admit_unpaced {b : Bucket} (hc : b.stats.config = none) (bytes : Nat) (control : Bool)
    (now : Nat) : b.admitOne bytes control now = (b, true) := by
  simp only [Bucket.admitOne, hc]

theorem admit_stats (b : Bucket) (bytes : Nat) (control : Bool) (now : Nat) :
    (b.admitOne bytes control now).1.stats.config = b.stats.config ∧
      (b.admitOne bytes control now).1.stats.basis = b.stats.basis ∧
      (b.admitOne bytes control now).1.stats.nativeUdpIpBytes = b.stats.nativeUdpIpBytes ∧
      (b.admitOne bytes control now).1.stats.encryptedLogicalBytes = b.stats.encryptedLogicalBytes := by
  unfold Bucket.admitOne
  split
  · exact ⟨rfl, rfl, rfl, rfl⟩
  · rename_i c _
    exact (spend_frame (b.refill c now) c bytes control).2

/-! ## What one call does to one bucket -/

@[simp] theorem at?_total (e : Egress κ) (s : EgressStats) (x : Slot κ) :
    ({ e with total := s } : Egress κ).at? x = e.at? x := by cases x <;> rfl

/-- An admission tracks the key and runs `Bucket::admit` on its bucket; every
other bucket is left alone. -/
theorem admitAt_spec (e : Egress κ) (key : κ) (payload : Bytes) (overhead : Nat) (now : Nat) :
    ∃ b, (e.track key now).at? ((e.track key now).slot key) = some b ∧
      (e.admitAt key payload overhead now).2 =
        (b.admitOne (chargeOf payload overhead) (isControl payload) now).2 ∧
      (e.admitAt key payload overhead now).1.config = e.config ∧
      (e.admitAt key payload overhead now).1.basis = e.basis ∧
      ∀ x, (e.admitAt key payload overhead now).1.at? x =
        if x = (e.track key now).slot key then
          some (b.admitOne (chargeOf payload overhead) (isControl payload) now).1
        else (e.track key now).at? x := by
  obtain ⟨b, hb⟩ := at?_slot (e.track key now) key
  refine ⟨b, hb, ?_⟩
  simp only [admitAt, hb]
  refine ⟨trivial, by simp, by simp, fun x => ?_⟩
  rw [at?_total, at?_modify, hb]
  rfl

/-- `complete` records in the bucket of its key and in the total. -/
theorem complete_spec (e : Egress κ) (key : κ) (payload : Bytes) (overhead : Nat) (sent : Bool)
    (now : Nat) :
    (e.complete key payload overhead sent now).config = e.config ∧
      (e.complete key payload overhead sent now).basis = e.basis ∧
      ∀ x, (e.complete key payload overhead sent now).at? x =
        if x = (e.track key now).slot key then
          ((e.track key now).at? x).map
            fun b => { b with stats := record b.stats payload overhead sent }
        else (e.track key now).at? x := by
  refine ⟨by simp [complete], by simp [complete], fun x => ?_⟩
  simp only [complete, at?_total, at?_modify]
  split
  · rename_i h; rw [h]
  · rfl

/-- An accepted `configure` restarts every bucket, and adds none. -/
theorem configure_spec {e e' : Egress κ} {config : Option EgressConfig} {now : Nat}
    (h : e.configure config now = .ok e') :
    e'.config = config ∧ e'.basis = e.basis ∧
      ∀ x, e'.at? x = (e.at? x).map (reconfigured config now) := by
  unfold configure at h
  split at h
  · cases h
  · cases h
    refine ⟨rfl, rfl, fun x => ?_⟩
    cases x with
    | peer k => simp [at?, HashMap.get_mapVal]
    | overflow => rfl

theorem step_basis (e : Egress κ) (op : Op κ) : (e.step op).basis = e.basis := by
  cases op with
  | admitAt k p o t => obtain ⟨b, -, -, -, hb, -⟩ := admitAt_spec e k p o t; exact hb
  | complete k p o s t => exact (complete_spec e k p o s t).2.1
  | configure c t =>
    simp only [step]
    split
    · rename_i h; exact (configure_spec h).2.1
    · rfl

theorem step_config (e : Egress κ) (op : Op κ) (h : op.isConfigure = false) :
    (e.step op).config = e.config := by
  cases op with
  | admitAt k p o t => obtain ⟨b, -, -, hc, -, -⟩ := admitAt_spec e k p o t; exact hc
  | complete k p o s t => exact (complete_spec e k p o s t).1
  | configure c t => cases h

/-- A bucket never goes away. -/
theorem step_at?_isSome (e : Egress κ) (op : Op κ) (x : Slot κ) (h : (e.at? x).isSome = true) :
    ((e.step op).at? x).isSome = true := by
  have htrack : ∀ k t, ((e.track k t).at? x).isSome = true := by
    intro k t; rw [at?_track]; split
    · rfl
    · exact h
  cases op with
  | admitAt k p o t =>
    obtain ⟨b, -, -, -, -, hat⟩ := admitAt_spec e k p o t
    simp only [step, hat]
    split
    · rfl
    · exact htrack k t
  | complete k p o s t =>
    simp only [step, (complete_spec e k p o s t).2.2]
    split
    · simpa using htrack k t
    · exact htrack k t
  | configure c t =>
    simp only [step]
    split
    · rename_i hc; simpa [(configure_spec hc).2.2] using h
    · exact h

/-- What a call makes of one bucket. -/
inductive Touched (e : Egress κ) (op : Op κ) (b : Bucket) : Bucket → Prop
  | left : (e.step op).config = e.config → Touched e op b b
  | admitted (key : κ) (payload : Bytes) (overhead now : Nat) : op = .admitAt key payload overhead now →
      Touched e op b (b.admitOne (chargeOf payload overhead) (isControl payload) now).1
  | completed (key : κ) (payload : Bytes) (overhead : Nat) (sent : Bool) (now : Nat) :
      op = .complete key payload overhead sent now →
      Touched e op b { b with stats := record b.stats payload overhead sent }
  | configured (config : Option EgressConfig) (now : Nat) : op = .configure config now →
      (e.step op).config = config → Touched e op b (reconfigured config now b)

/-- A bucket after a call is one from before it, or a new one, and what the call made
of it. -/
theorem step_touched {e : Egress κ} {op : Op κ} {x : Slot κ} {b' : Bucket}
    (h : (e.step op).at? x = some b') :
    ∃ b, (e.at? x = some b ∨ b = Bucket.new e.basis e.config op.now) ∧ Touched e op b b' := by
  have htrack : ∀ {key : κ} {b : Bucket}, (e.track key op.now).at? x = some b →
      e.at? x = some b ∨ b = Bucket.new e.basis e.config op.now := by
    intro key b hb
    rw [at?_track] at hb
    split at hb
    · exact .inr (Option.some.inj hb).symm
    · exact .inl hb
  cases op with
  | admitAt key payload overhead now =>
    obtain ⟨b, hb, -, hcfg, -, hat⟩ := admitAt_spec e key payload overhead now
    simp only [step, hat] at h
    split at h
    · rename_i hx
      cases h
      exact ⟨b, htrack (hx ▸ hb), .admitted key payload overhead now rfl⟩
    · exact ⟨b', htrack h, .left hcfg⟩
  | complete key payload overhead sent now =>
    obtain ⟨hcfg, -, hat⟩ := complete_spec e key payload overhead sent now
    simp only [step, hat] at h
    split at h
    · obtain ⟨b, hb, rfl⟩ := Option.map_eq_some_iff.1 h
      exact ⟨b, htrack hb, .completed key payload overhead sent now rfl⟩
    · exact ⟨b', htrack h, .left hcfg⟩
  | configure config now =>
    cases hc : e.configure config now with
    | ok e' =>
      obtain ⟨hcfg, -, hat⟩ := configure_spec hc
      have hstep : e.step (.configure config now) = e' := by simp only [step, hc]
      rw [hstep, hat] at h
      obtain ⟨b, hb, rfl⟩ := Option.map_eq_some_iff.1 h
      exact ⟨b, .inl hb, .configured config now rfl (hstep ▸ hcfg)⟩
    | error err =>
      have hstep : e.step (.configure config now) = e := by simp only [step, hc]
      rw [hstep] at h
      exact ⟨b', .inl h, .left (by rw [hstep])⟩

/-! ## Invariants of a run -/

/-- Every bucket carries the config in force, the transport's basis and at most
one burst of credit. -/
structure Sane (e : Egress κ) : Prop where
  config : ∀ x b, e.at? x = some b → b.stats.config = e.config
  basis : ∀ x b, e.at? x = some b → b.stats.basis = e.basis
  credit : ∀ x b, e.at? x = some b → b.credit ≤ fullCredit e.config

/-- No bucket was used after `t`. -/
def Before (e : Egress κ) (t : Nat) : Prop := ∀ x b, e.at? x = some b → b.at_ ≤ t

theorem sane_new (basis : EgressBasis) : Sane (new basis : Egress κ) := by
  have h : ∀ x b, (new basis : Egress κ).at? x = some b → b = Bucket.new basis none 0 := by
    intro x b hb
    cases x with
    | peer k => simp [new, at?] at hb
    | overflow => simpa [new, at?] using hb.symm
  refine ⟨fun x b hb => ?_, fun x b hb => ?_, fun x b hb => ?_⟩ <;> rw [h x b hb] <;>
    simp [Bucket.new, new]

theorem before_new (basis : EgressBasis) : Before (new basis : Egress κ) 0 := by
  intro x b hb
  cases x with
  | peer k => simp [new, at?] at hb
  | overflow =>
    simp only [new, at?, Option.some.injEq] at hb
    subst hb; exact Nat.le_refl _

theorem sane_track {e : Egress κ} (h : Sane e) (key : κ) (now : Nat) : Sane (e.track key now) := by
  refine ⟨fun x b hb => ?_, fun x b hb => ?_, fun x b hb => ?_⟩ <;> rw [at?_track] at hb <;>
    split at hb
  · cases hb; simp [Bucket.new]
  · simpa using h.config x b hb
  · cases hb; simp [Bucket.new]
  · simpa using h.basis x b hb
  · cases hb; simp [Bucket.new]
  · simpa using h.credit x b hb

/-- The refill cap keeps the credit of an admitting bucket below one burst. -/
theorem admit_credit_le {b : Bucket} (bytes : Nat) (control : Bool) (now : Nat)
    (h : b.credit ≤ fullCredit b.stats.config) :
    (b.admitOne bytes control now).1.credit ≤ fullCredit b.stats.config := by
  cases hc : b.stats.config with
  | none => rw [admit_unpaced hc]; rwa [hc] at h
  | some c =>
    have h1 := (admit_spec hc bytes control now).2
    have h2 := (refilled_le b c now).2
    simp only [fullCredit]
    omega

theorem record_frame (stats : EgressStats) (payload : Bytes) (overhead : Nat) (sent : Bool) :
    (record stats payload overhead sent).config = stats.config ∧
      (record stats payload overhead sent).basis = stats.basis := by
  unfold record; split <;> exact ⟨rfl, rfl⟩

/-- Every call keeps the buckets sane. -/
theorem sane_step {e : Egress κ} (h : Sane e) (op : Op κ) : Sane (e.step op) := by
  have hall : ∀ x b', (e.step op).at? x = some b' → b'.stats.config = (e.step op).config ∧
      b'.stats.basis = e.basis ∧ b'.credit ≤ fullCredit (e.step op).config := by
    intro x b' hb'
    obtain ⟨b, hfrom, htouch⟩ := step_touched hb'
    obtain ⟨hcfg, hbas, hcredit⟩ : b.stats.config = e.config ∧ b.stats.basis = e.basis ∧
        b.credit ≤ fullCredit e.config := by
      rcases hfrom with hb | rfl
      · exact ⟨h.config x b hb, h.basis x b hb, h.credit x b hb⟩
      · exact ⟨rfl, rfl, Nat.le_refl _⟩
    cases htouch with
    | left hsame =>
      rw [hsame]
      exact ⟨hcfg, hbas, hcredit⟩
    | admitted key payload overhead now hop =>
      obtain ⟨hc, hb, -⟩ := admit_stats b (chargeOf payload overhead) (isControl payload) now
      have hle := admit_credit_le (chargeOf payload overhead) (isControl payload) now
        (hcfg.symm ▸ hcredit)
      rw [step_config e op (by rw [hop]; rfl), ← hcfg]
      exact ⟨hc, hb.trans hbas, hle⟩
    | completed key payload overhead sent now hop =>
      obtain ⟨hc, hb⟩ := record_frame b.stats payload overhead sent
      rw [step_config e op (by rw [hop]; rfl)]
      exact ⟨hc.trans hcfg, hb.trans hbas, hcredit⟩
    | configured config now hop hnew =>
      rw [hnew]
      exact ⟨rfl, hbas, Nat.min_le_right _ _⟩
  exact ⟨fun x b hb => (hall x b hb).1, fun x b hb => (hall x b hb).2.1.trans (step_basis e op).symm,
    fun x b hb => (hall x b hb).2.2⟩

/-- A call at `t` or later leaves no bucket ahead of its own reading. -/
theorem before_step {e : Egress κ} {t : Nat} (h : Before e t) (op : Op κ) (hle : t ≤ op.now) :
    Before (e.step op) op.now := by
  intro x b' hb'
  obtain ⟨b, hfrom, htouch⟩ := step_touched hb'
  have hb : b.at_ ≤ op.now := by
    rcases hfrom with hb | rfl
    · exact Nat.le_trans (h x b hb) hle
    · exact Nat.le_refl _
  cases htouch with
  | left _ => exact hb
  | admitted key payload overhead now hop =>
    cases hc : b.stats.config with
    | none =>
      rw [admit_unpaced hc]
      exact hb
    | some c =>
      rw [(admit_spec hc _ _ _).1]
      rw [hop] at hb ⊢
      exact max_le hb (Nat.le_refl _)
  | completed key payload overhead sent now hop => exact hb
  | configured config now hop _ =>
    rw [hop]
    exact Nat.le_refl _

/-! ## The keys of the table -/

theorem slot_of_mem {e : Egress κ} {key : κ} (h : key ∈ e.buckets) (now : Nat) :
    (e.track key now).slot key = .peer key := by
  have : e.track key now = e := by unfold track; rw [if_neg (fun hk => hk.1 h)]
  rw [this]; unfold slot; rw [if_pos h]

theorem slot_ne {e : Egress κ} {key key' : κ} (h : key' ≠ key) (now : Nat) :
    (e.track key' now).slot key' ≠ .peer key := by
  unfold slot; split
  · simpa using h
  · simp

theorem mem_buckets_iff {e : Egress κ} {key : κ} :
    key ∈ e.buckets ↔ (e.at? (.peer key)).isSome = true := by
  rw [HashMap.mem_iff_get, Option.isSome_iff_exists]; rfl

theorem buckets_track (e : Egress κ) (key : κ) (now : Nat) :
    (∀ k, k ∈ e.buckets → k ∈ (e.track key now).buckets) ∧
      e.buckets.len ≤ (e.track key now).buckets.len ∧
      (key ∈ (e.track key now).buckets ∨ MAX_PEERS ≤ (e.track key now).buckets.len) := by
  unfold track
  split
  · refine ⟨fun k hk => HashMap.mem_insert.2 (.inr hk), ?_, .inl (HashMap.mem_insert.2 (.inl rfl))⟩
    rw [HashMap.len_insert]; split <;> omega
  · rename_i h
    refine ⟨fun k hk => hk, Nat.le_refl _, ?_⟩
    by_cases hk : key ∈ e.buckets
    · exact .inl hk
    · exact .inr (Nat.le_of_not_lt fun hlt => h ⟨hk, hlt⟩)

theorem buckets_modify (e : Egress κ) (x : Slot κ) (f : Bucket → Bucket) :
    (∀ k, k ∈ (e.modify x f).buckets ↔ k ∈ e.buckets) ∧
      (e.modify x f).buckets.len = e.buckets.len := by
  cases x with
  | overflow => exact ⟨fun _ => Iff.rfl, rfl⟩
  | peer key =>
    cases hb : e.buckets.get key with
    | none => simp only [modify, hb, implies_true, and_self]
    | some b =>
      have hmem : key ∈ e.buckets := HashMap.mem_iff_get.2 ⟨b, hb⟩
      simp only [modify, hb]
      refine ⟨fun k => ?_, by rw [HashMap.len_insert, if_pos hmem]⟩
      rw [HashMap.mem_insert]
      exact ⟨fun h => h.elim (fun hk => hk ▸ hmem) id, .inr⟩

theorem buckets_admitAt (e : Egress κ) (key : κ) (payload : Bytes) (overhead : Nat) (now : Nat) :
    (∀ k, k ∈ (e.admitAt key payload overhead now).1.buckets ↔ k ∈ (e.track key now).buckets) ∧
      (e.admitAt key payload overhead now).1.buckets.len = (e.track key now).buckets.len := by
  obtain ⟨b, hb⟩ := at?_slot (e.track key now) key
  simp only [admitAt, hb]
  exact buckets_modify _ _ _

theorem buckets_complete (e : Egress κ) (key : κ) (payload : Bytes) (overhead : Nat) (sent : Bool)
    (now : Nat) :
    (∀ k, k ∈ (e.complete key payload overhead sent now).buckets ↔ k ∈ (e.track key now).buckets) ∧
      (e.complete key payload overhead sent now).buckets.len = (e.track key now).buckets.len :=
  buckets_modify _ _ _

omit [DecidableEq κ] in
theorem buckets_configure {e e' : Egress κ} {config : Option EgressConfig} {now : Nat}
    (h : e.configure config now = .ok e') :
    (∀ k, k ∈ e'.buckets ↔ k ∈ e.buckets) ∧ e'.buckets.len = e.buckets.len := by
  unfold configure at h
  split at h
  · cases h
  · cases h
    exact ⟨fun k => HashMap.mem_mapVal, HashMap.len_mapVal _ _⟩

/-! ## Runs -/

theorem sane_run : ∀ (ops : List (Op κ)) {e : Egress κ}, Sane e → Sane (e.run ops)
  | [], _, h => h
  | op :: ops, _, h => sane_run ops (sane_step h op)

theorem before_run :
    ∀ (ops : List (Op κ)) {e : Egress κ} {s t : Nat} {later : List Nat}, Before e s →
      (s :: ops.map Op.now ++ t :: later).Pairwise (· ≤ ·) → Before (e.run ops) t
  | [], _, _, _, _, h, hsort => by
    have hle := (List.pairwise_cons.1 hsort).1 _ (List.mem_cons_self ..)
    exact fun x b hb => Nat.le_trans (h x b hb) hle
  | op :: ops, _, _, _, _, h, hsort => by
    obtain ⟨hle, hsort'⟩ := List.pairwise_cons.1 hsort
    exact before_run ops (before_step h op (hle _ (List.mem_cons_self ..))) hsort'

theorem config_run {c : EgressConfig} :
    ∀ (ops : List (Op κ)) {e : Egress κ}, e.config = some c → (∀ o ∈ ops, o.isConfigure = false) →
      (e.run ops).config = some c
  | [], _, h, _ => h
  | op :: ops, e, h, hops =>
    config_run ops ((step_config e op (hops op (List.mem_cons_self ..))).trans h)
      (fun o ho => hops o (List.mem_cons_of_mem _ ho))

theorem basis_run : ∀ (ops : List (Op κ)) (e : Egress κ), (e.run ops).basis = e.basis
  | [], _ => rfl
  | op :: ops, e => (basis_run ops (e.step op)).trans (step_basis e op)

/-! ## Admissions and their completions -/

/-- The `u64` sum of length and overhead does not wrap, as for every packet and
the overheads 0, 28 and 48 the transports pass. -/
def Op.InRange : Op κ → Prop
  | .admitAt _ payload overhead _ => payload.length + overhead ≤ U64_MAX
  | _ => True

/-- Accepted packets whose `complete` is still to come. -/
def settle (e : Egress κ) (out : List (κ × Bytes × Nat)) : Op κ → List (κ × Bytes × Nat)
  | .admitAt key payload overhead now =>
    if (e.admitAt key payload overhead now).2 then (key, payload, overhead) :: out else out
  | .complete key payload overhead _ _ => out.erase (key, payload, overhead)
  | .configure _ _ => out

/-- Every `complete` follows its own accepted `admit`, as in `send_datagram` and
`send_to_peer_unconditioned`. -/
def Paired : Egress κ → List (κ × Bytes × Nat) → List (Op κ) → Prop
  | _, _, [] => True
  | e, out, op :: ops =>
    (match op with
      | .complete key payload overhead _ _ => (key, payload, overhead) ∈ out
      | _ => True) ∧ Paired (e.step op) (settle e out op) ops

/-- The packets accepted by a run and not completed, from `out` on. -/
def outstanding (e : Egress κ) (out : List (κ × Bytes × Nat)) : List (Op κ) → List (κ × Bytes × Nat)
  | [] => out
  | op :: ops => outstanding (e.step op) (settle e out op) ops

theorem paired_append :
    ∀ (ops : List (Op κ)) {e : Egress κ} {out : List (κ × Bytes × Nat)} {ops' : List (Op κ)},
      Paired e out (ops ++ ops') → Paired (e.run ops) (outstanding e out ops) ops'
  | [], _, _, _, h => h
  | _ :: ops, _, _, _, h => paired_append ops h.2

end Egress
end RenetCross.L2
