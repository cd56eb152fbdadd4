import RenetCross.L2Machine.EgressCalls

/-!
# Egress accounting

The total and the buckets of an `Egress` are counted apart: `admit_at` adds the
difference of a bucket's drop counters to the total, `complete` looks the key up
a second time and records the packet in the bucket it finds and in the total.
Over any run of `admit_at`, `complete` and `configure` in which every completion
follows its own admission, and until a counter saturates:

* `accounting_adds_up`: the admissions are the sent, failed and dropped packets
  of the total (plus those not completed yet), every counter of the total is the
  sum of that counter over the tracked buckets and the overflow bucket, and the
  native bytes are the logical bytes plus the overheads of the packets sent.

The seven counters are one function of a `Counter`, so that each call has one
lemma for all of them.
-/
namespace RenetCross.L2

inductive Counter where
  | sentPackets
  | encryptedLogicalBytes
  | nativeUdpIpBytes
  | controlPackets
  | pacingDrops
  | capDrops
  | backendDrops
  deriving DecidableEq, Repr

def EgressStats.counter (s : EgressStats) : Counter → Nat
  | .sentPackets => s.sentPackets
  | .encryptedLogicalBytes => s.encryptedLogicalBytes
  | .nativeUdpIpBytes => s.nativeUdpIpBytes
  | .controlPackets => s.controlPackets
  | .pacingDrops => s.pacingDrops
  | .capDrops => s.capDrops
  | .backendDrops => s.backendDrops

/-- No counter has reached `u64::MAX`. -/
def EgressStats.Unsaturated (s : EgressStats) : Prop := ∀ k, s.counter k < U64_MAX

/-! ## What one call adds to one record -/

/-- What `record` adds to each counter. -/
def recorded (basis : EgressBasis) (payload : Bytes) (overhead : Nat) (sent : Bool) : Counter → Nat
  | .sentPackets => if sent then 1 else 0
  | .encryptedLogicalBytes => if sent then payload.length else 0
  | .nativeUdpIpBytes =>
    if sent ∧ basis = .nativeUdpIp then chargeOf payload overhead else 0
  | .controlPackets => if sent ∧ isControl payload = true then 1 else 0
  | .pacingDrops => 0
  | .capDrops => 0
  | .backendDrops => if sent then 0 else 1

/-- A counter that `record` leaves below the top was increased exactly. -/
theorem record_counter {s : EgressStats} {payload : Bytes} {overhead : Nat} {sent : Bool} {k : Counter}
    (h : (record s payload overhead sent).counter k < U64_MAX) :
    (record s payload overhead sent).counter k =
      s.counter k + recorded s.basis payload overhead sent k := by
  cases sent with
  | false =>
    cases k <;> simp only [record, EgressStats.counter, recorded, Bool.false_eq_true, false_and,
      if_false, Nat.add_zero] at h ⊢
    exact satAdd_eq_of_lt h
  | true =>
    cases k <;> simp only [record, EgressStats.counter, recorded, true_and, if_true, Nat.add_zero] at h ⊢
    case sentPackets => exact satAdd_eq_of_lt h
    case encryptedLogicalBytes => exact satAdd_eq_of_lt h
    case nativeUdpIpBytes =>
      split at h <;> rename_i hb
      · rw [if_pos hb, if_pos hb]; exact satAdd_eq_of_lt h
      · rw [if_neg hb, if_neg hb]; rfl
    case controlPackets =>
      split at h <;> rename_i hctl
      · rw [if_pos hctl, if_pos hctl]; exact satAdd_eq_of_lt h
      · rw [if_neg hctl, if_neg hctl]; rfl

/-- A counter whose exact new value is below the top is increased exactly. -/
theorem record_counter_of_lt {s : EgressStats} {payload : Bytes} {overhead : Nat} {sent : Bool}
    {k : Counter} (h : s.counter k + recorded s.basis payload overhead sent k < U64_MAX) :
    (record s payload overhead sent).counter k =
      s.counter k + recorded s.basis payload overhead sent k := by
  refine record_counter (Nat.lt_of_le_of_lt ?_ h)
  cases sent with
  | false =>
    cases k <;> simp only [record, EgressStats.counter, recorded, Bool.false_eq_true, false_and,
      if_false] <;> first | exact satAdd_le _ _ _ | exact Nat.le_add_right _ _
  | true =>
    cases k <;> simp only [record, EgressStats.counter, recorded, true_and, if_true]
    case nativeUdpIpBytes => split <;> first | exact satAdd_le _ _ _ | exact Nat.le_add_right _ _
    case controlPackets => split <;> first | exact satAdd_le _ _ _ | exact Nat.le_add_right _ _
    all_goals first | exact satAdd_le _ _ _ | exact Nat.le_add_right _ _

/-- `Bucket::admit` counts one drop exactly when it refuses, and nothing else. -/
theorem admit_counter (b : Bucket) (bytes : Nat) (control : Bool) (now : Nat) :
    ∃ δ : Counter → Nat,
      (∀ k, b.stats.counter k < U64_MAX →
        (b.admitOne bytes control now).1.stats.counter k = b.stats.counter k + δ k) ∧
      (∀ k, k ≠ .pacingDrops → k ≠ .capDrops → δ k = 0) ∧
      δ .pacingDrops + δ .capDrops = if (b.admitOne bytes control now).2 then 0 else 1 := by
  have hsat : ∀ n, n < U64_MAX → satAdd U64_MAX n 1 = n + 1 := by
    intro n hn; unfold satAdd; omega
  cases hc : b.stats.config with
  | none =>
    rw [Egress.admit_unpaced hc]
    exact ⟨fun _ => 0, fun k _ => rfl, fun _ _ _ => rfl, rfl⟩
  | some c =>
    have ha : b.admitOne bytes control now = (b.refill c now).spend c bytes control := by
      simp only [Bucket.admitOne, hc]
    rw [ha]
    unfold Bucket.spend
    split
    · refine ⟨fun k => if k = .capDrops then 1 else 0, fun k hk => ?_, fun k _ h => if_neg h, rfl⟩
      cases k <;> simp only [EgressStats.counter, Bucket.refill, reduceCtorEq, if_false, if_true,
        Nat.add_zero] at hk ⊢
      exact hsat _ hk
    · split
      · refine ⟨fun k => if k = .pacingDrops then 1 else 0, fun k hk => ?_, fun k h _ => if_neg h, rfl⟩
        cases k <;> simp only [EgressStats.counter, Bucket.refill, reduceCtorEq, if_false, if_true,
          Nat.add_zero] at hk ⊢
        exact hsat _ hk
      · exact ⟨fun _ => 0, fun k _ => rfl, fun _ _ _ => rfl, rfl⟩

namespace Egress

variable {κ : Type} [DecidableEq κ]

/-! ## The sum over the buckets -/

/-- One counter summed over the tracked buckets and the overflow bucket. -/
def sumOver (e : Egress κ) (k : Counter) : Nat :=
  e.buckets.sumBy (fun _ b => b.stats.counter k) + e.overflow.stats.counter k

theorem counter_le_sumOver {e : Egress κ} {x : Slot κ} {b : Bucket} (hb : e.at? x = some b)
    (k : Counter) : b.stats.counter k ≤ e.sumOver k := by
  cases x with
  | peer key =>
    unfold sumOver
    rw [HashMap.sumBy_remove hb]
    omega
  | overflow =>
    cases hb
    exact Nat.le_add_left _ _

/-- A new bucket has counted nothing. -/
theorem sumOver_track (e : Egress κ) (key : κ) (now : Nat) (k : Counter) :
    (e.track key now).sumOver k = e.sumOver k := by
  unfold track
  split
  · rename_i h
    have hzero : (Bucket.new e.basis e.config now).stats.counter k = 0 := by cases k <;> rfl
    simp only [sumOver]
    rw [HashMap.sumBy_insert, hzero, HashMap.sumBy_remove_of_none (HashMap.not_mem_iff_get.1 h.1)]
    omega
  · rfl

/-- A write through a reference moves the sum by what it moves its bucket. -/
theorem sumOver_modify {e : Egress κ} {x : Slot κ} {b : Bucket} (hb : e.at? x = some b)
    (f : Bucket → Bucket) (k : Counter) :
    (e.modify x f).sumOver k + b.stats.counter k = e.sumOver k + (f b).stats.counter k := by
  cases x with
  | peer key =>
    have hget : e.buckets.get key = some b := hb
    simp only [modify, hget, sumOver]
    rw [HashMap.sumBy_insert, HashMap.sumBy_remove hget]
    omega
  | overflow =>
    cases hb
    simp only [modify, sumOver]
    omega

omit [DecidableEq κ] in
@[simp] theorem sumOver_total (e : Egress κ) (s : EgressStats) (k : Counter) :
    ({ e with total := s } : Egress κ).sumOver k = e.sumOver k := rfl

/-! ## One call, total and buckets together -/

/-- What one call counts, the same in the total and in the sum over the buckets. -/
structure Posted (e e' : Egress κ) (δ : Counter → Nat) : Prop where
  total : ∀ k, e'.total.counter k = e.total.counter k + δ k
  buckets : ∀ k, e'.sumOver k = e.sumOver k + δ k

theorem countCapacity_counter (e : Egress κ) (key : κ) (k : Counter) :
    (e.countCapacity key).counter k = e.total.counter k := by
  unfold countCapacity; split
  · cases k <;> rfl
  · rfl

/-- The total of an admission, from its bucket's drop counters before and after. -/
theorem admitAt_total (e : Egress κ) (key : κ) (payload : Bytes) (overhead : Nat) (now : Nat) :
    ∃ b, (e.track key now).at? ((e.track key now).slot key) = some b ∧
      (e.admitAt key payload overhead now).2 =
        (b.admitOne (chargeOf payload overhead) (isControl payload) now).2 ∧
      (∀ k, (e.admitAt key payload overhead now).1.sumOver k + b.stats.counter k = e.sumOver k +
        (b.admitOne (chargeOf payload overhead) (isControl payload) now).1.stats.counter k) ∧
      (∀ k, (e.admitAt key payload overhead now).1.total.counter k =
        if k = .pacingDrops ∨ k = .capDrops then
          satAdd U64_MAX (e.total.counter k)
            ((b.admitOne (chargeOf payload overhead) (isControl payload) now).1.stats.counter k -
              b.stats.counter k)
        else e.total.counter k) ∧
      (e.admitAt key payload overhead now).1.total.basis = e.total.basis := by
  obtain ⟨b, hb⟩ := at?_slot (e.track key now) key
  have hsum := sumOver_modify hb
    (fun _ => (b.admitOne (chargeOf payload overhead) (isControl payload) now).1)
  have htot := countCapacity_counter e key
  refine ⟨b, hb, ?_⟩
  simp only [admitAt, hb]
  refine ⟨trivial, fun k => ?_, fun k => ?_, ?_⟩
  · rw [sumOver_total, hsum, sumOver_track]
  · cases k with
    | pacingDrops => exact congrArg (satAdd U64_MAX · _) (htot .pacingDrops)
    | capDrops => exact congrArg (satAdd U64_MAX · _) (htot .capDrops)
    | sentPackets => exact htot .sentPackets
    | encryptedLogicalBytes => exact htot .encryptedLogicalBytes
    | nativeUdpIpBytes => exact htot .nativeUdpIpBytes
    | controlPackets => exact htot .controlPackets
    | backendDrops => exact htot .backendDrops
  · unfold countCapacity; split <;> rfl

/-- An admission posts one drop when it refuses and nothing when it accepts. The
counters of its bucket are below the top since the total is their sum. -/
theorem admitAt_posted {e : Egress κ} {key : κ} {payload : Bytes} {overhead now : Nat}
    (hsum : ∀ k, e.total.counter k = e.sumOver k) (hlt : e.total.Unsaturated)
    (hafter : (e.admitAt key payload overhead now).1.total.Unsaturated) :
    ∃ δ : Counter → Nat, Posted e (e.admitAt key payload overhead now).1 δ ∧
      (∀ k, k ≠ .pacingDrops → k ≠ .capDrops → δ k = 0) ∧
      δ .pacingDrops + δ .capDrops =
        if (e.admitAt key payload overhead now).2 then 0 else 1 := by
  obtain ⟨b, hb, hacc, hbuckets, htotal, -⟩ := admitAt_total e key payload overhead now
  obtain ⟨δ, hδ, hother, hone⟩ := admit_counter b (chargeOf payload overhead) (isControl payload) now
  have hb' : ∀ k, b.stats.counter k < U64_MAX := by
    intro k
    have hle := counter_le_sumOver hb k
    have := hlt k
    rw [sumOver_track, ← hsum] at hle
    omega
  refine ⟨δ, ⟨fun k => ?_, fun k => ?_⟩, hother, by rw [hacc]; exact hone⟩
  · have hk := htotal k
    rw [hδ k (hb' k), Nat.add_sub_cancel_left] at hk
    split at hk
    · rw [hk]
      exact satAdd_eq_of_lt (hk ▸ hafter k)
    · rename_i hne
      rw [hk, hother k (fun h => hne (.inl h)) (fun h => hne (.inr h)), Nat.add_zero]
  · have hk := hbuckets k
    rw [hδ k (hb' k)] at hk
    omega

/-- A completion posts its packet in the total and in whichever bucket the
second lookup of the key finds. -/
theorem complete_posted {e : Egress κ} (hs : Sane e) (hbasis : e.total.basis = e.basis) {key : κ}
    {payload : Bytes} {overhead : Nat} {sent : Bool} {now : Nat}
    (hsum : ∀ k, e.total.counter k = e.sumOver k)
    (hafter : (e.complete key payload overhead sent now).total.Unsaturated) :
    Posted e (e.complete key payload overhead sent now) (recorded e.basis payload overhead sent) := by
  obtain ⟨b, hb⟩ := at?_slot (e.track key now) key
  have htotal : ∀ k, (e.complete key payload overhead sent now).total.counter k =
      e.total.counter k + recorded e.basis payload overhead sent k := by
    intro k
    have hk := hafter k
    simp only [complete, total_modify, total_track] at hk ⊢
    rw [record_counter hk, hbasis]
  refine ⟨htotal, fun k => ?_⟩
  have hbb : b.stats.basis = e.basis := by
    rw [(sane_track hs key now).basis _ b hb, basis_track]
  have hle := counter_le_sumOver hb k
  rw [sumOver_track, ← hsum] at hle
  have hrec : (record b.stats payload overhead sent).counter k =
      b.stats.counter k + recorded e.basis payload overhead sent k := by
    rw [← hbb]
    refine record_counter_of_lt ?_
    have hk := hafter k
    rw [htotal k] at hk
    rw [hbb]
    omega
  have hmod := sumOver_modify hb
    (fun b => { b with stats := record b.stats payload overhead sent }) k
  rw [sumOver_track] at hmod
  have hgoal : (e.complete key payload overhead sent now).sumOver k =
      ((e.track key now).modify ((e.track key now).slot key)
        fun b => { b with stats := record b.stats payload overhead sent }).sumOver k := rfl
  rw [hgoal]
  simp only [hrec] at hmod
  omega

omit [DecidableEq κ] in
/-- A reconfiguration counts nothing. -/
theorem configure_posted {e e' : Egress κ} {config : Option EgressConfig} {now : Nat}
    (h : e.configure config now = .ok e') :
    Posted e e' (fun _ => 0) ∧ e'.total.basis = e.total.basis := by
  unfold configure at h
  split at h
  · cases h
  · cases h
    refine ⟨⟨fun k => by cases k <;> rfl, fun k => ?_⟩, rfl⟩
    simp only [sumOver, HashMap.sumBy_mapVal]
    have hsame : ∀ b, (reconfigured config now b).stats.counter k = b.stats.counter k := by
      intro b; cases k <;> rfl
    simp only [hsame, Nat.add_zero]

/-! ## Whole runs -/

def Op.attempts : Op κ → Nat
  | .admitAt _ _ _ _ => 1
  | _ => 0

/-- Overhead of a successful send. -/
def Op.sentOverhead : Op κ → Nat
  | .complete _ _ overhead sent _ => if sent then overhead else 0
  | _ => 0

/-- Admissions tried in a run. -/
def attempts (ops : List (Op κ)) : Nat := (ops.map Op.attempts).sum

/-- Overheads of the successful sends of a run. -/
def sentOverheads (ops : List (Op κ)) : Nat := (ops.map Op.sentOverhead).sum

/-- The books after `tried` admissions, with the packets in `out` not completed
and `overheads` sent so far. -/
structure Balanced (e : Egress κ) (out : List (κ × Bytes × Nat)) (tried overheads : Nat) : Prop where
  sane : Sane e
  basis : e.total.basis = e.basis
  sums : ∀ k, e.total.counter k = e.sumOver k
  tried : tried = e.total.sentPackets + e.total.backendDrops + e.total.pacingDrops +
    e.total.capDrops + out.length
  native : e.total.nativeUdpIpBytes =
    if e.basis = .nativeUdpIp then e.total.encryptedLogicalBytes + overheads else 0
  inRange : ∀ p ∈ out, p.2.1.length + p.2.2 ≤ U64_MAX

theorem balanced_new (basis : EgressBasis) : Balanced (new basis : Egress κ) [] 0 0 := by
  refine ⟨sane_new basis, rfl, fun k => ?_, rfl, ?_, fun p hp => absurd hp List.not_mem_nil⟩
  · cases k <;> rfl
  · cases basis <;> rfl

/-- A counter that is below the top after a call was below it before. -/
theorem unsaturated_of_step {e : Egress κ} {op : Op κ} (h : (e.step op).total.Unsaturated) :
    e.total.Unsaturated := by
  intro k
  have hk := h k
  cases op with
  | admitAt key p o now =>
    obtain ⟨b, -, -, -, htotal, -⟩ := admitAt_total e key p o now
    simp only [step, htotal k] at hk
    split at hk
    · rw [satAdd_eq_of_lt hk] at hk; omega
    · exact hk
  | complete key p o sent now =>
    simp only [step, complete, total_modify, total_track] at hk
    rw [record_counter hk] at hk
    omega
  | configure c now =>
    simp only [step] at hk
    split at hk
    · rename_i e' hc
      rw [(configure_posted hc).1.total k] at hk
      exact hk
    · exact hk

theorem unsaturated_of_run {ops : List (Op κ)} :
    ∀ {e : Egress κ}, (e.run ops).total.Unsaturated → e.total.Unsaturated := by
  induction ops with
  | nil => intro e h; exact h
  | cons op ops ih => intro e h; exact unsaturated_of_step (ih h)

theorem balanced_admitAt {e : Egress κ} {out : List (κ × Bytes × Nat)} {tried overheads : Nat}
    (h : Balanced e out tried overheads) {key : κ} {payload : Bytes} {overhead now : Nat}
    (hrange : payload.length + overhead ≤ U64_MAX)
    (hafter : (e.step (.admitAt key payload overhead now)).total.Unsaturated) :
    Balanced (e.step (.admitAt key payload overhead now))
      (settle e out (.admitAt key payload overhead now)) (tried + 1) overheads := by
  obtain ⟨δ, hpost, hother, hdrop⟩ := admitAt_posted h.sums (unsaturated_of_step hafter) hafter
  obtain ⟨b, -, -, -, -, htb⟩ := admitAt_total e key payload overhead now
  obtain ⟨-, -, -, -, hbas, -⟩ := admitAt_spec e key payload overhead now
  have hsent := hpost.total .sentPackets
  have hback := hpost.total .backendDrops
  have hpace := hpost.total .pacingDrops
  have hcap := hpost.total .capDrops
  have hlog := hpost.total .encryptedLogicalBytes
  have hnat := hpost.total .nativeUdpIpBytes
  rw [hother _ (by decide) (by decide), Nat.add_zero] at hsent hback hlog hnat
  simp only [EgressStats.counter] at hsent hback hpace hcap hlog hnat
  refine ⟨sane_step h.sane _, ?_, fun k => ?_, ?_, ?_, ?_⟩
  · exact htb.trans (h.basis.trans hbas.symm)
  · simp only [step]; rw [hpost.total k, hpost.buckets k, h.sums k]
  · have htried := h.tried
    simp only [step, settle, hsent, hback, hpace, hcap]
    split at hdrop <;> rename_i hacc
    · simp only [hacc, if_true, List.length_cons]; omega
    · simp only [hacc, Bool.false_eq_true, if_false]; omega
  · simp only [step, hnat, hlog, hbas]; exact h.native
  · intro p hp
    simp only [settle] at hp
    split at hp
    · rcases List.mem_cons.1 hp with rfl | hp
      · exact hrange
      · exact h.inRange p hp
    · exact h.inRange p hp

theorem balanced_complete {e : Egress κ} {out : List (κ × Bytes × Nat)} {tried overheads : Nat}
    (h : Balanced e out tried overheads) {key : κ} {payload : Bytes} {overhead now : Nat} {sent : Bool}
    (hmem : (key, payload, overhead) ∈ out)
    (hafter : (e.step (.complete key payload overhead sent now)).total.Unsaturated) :
    Balanced (e.step (.complete key payload overhead sent now))
      (settle e out (.complete key payload overhead sent now)) tried
      (overheads + if sent then overhead else 0) := by
  have hpost := complete_posted h.sane h.basis h.sums hafter
  obtain ⟨-, hbas, -⟩ := complete_spec e key payload overhead sent now
  have hsent := hpost.total .sentPackets
  have hback := hpost.total .backendDrops
  have hpace := hpost.total .pacingDrops
  have hcap := hpost.total .capDrops
  have hlog := hpost.total .encryptedLogicalBytes
  have hnat := hpost.total .nativeUdpIpBytes
  have hcharge : chargeOf payload overhead = payload.length + overhead :=
    wrapU64_eq (h.inRange _ hmem)
  simp only [EgressStats.counter, recorded] at hsent hback hpace hcap hlog hnat
  have hlen := List.length_erase_of_mem hmem
  have hpos := List.length_pos_of_mem hmem
  refine ⟨sane_step h.sane _, ?_, fun k => ?_, ?_, ?_, ?_⟩
  · simp only [step]
    rw [hbas, ← h.basis]
    simp only [complete, total_modify, total_track]
    exact (record_frame e.total payload overhead sent).2
  · simp only [step]; rw [hpost.total k, hpost.buckets k, h.sums k]
  · have htried := h.tried
    simp only [step, settle, hsent, hback, hpace, hcap, hlen]
    cases sent <;> simp only [Bool.false_eq_true, if_false, if_true] <;> omega
  · have hnative := h.native
    simp only [step, hnat, hlog, hbas]
    cases sent with
    | false => simpa using hnative
    | true =>
      cases hb : e.basis with
      | nativeUdpIp =>
        simp only [hb, if_true] at hnative
        simp only [and_self, if_true, hcharge]
        omega
      | encryptedLogical =>
        simp only [hb, reduceCtorEq, if_false] at hnative
        simpa using hnative
  · exact fun p hp => h.inRange p (List.mem_of_mem_erase hp)

theorem balanced_configure {e : Egress κ} {out : List (κ × Bytes × Nat)} {tried overheads : Nat}
    (h : Balanced e out tried overheads) (config : Option EgressConfig) (now : Nat) :
    Balanced (e.step (.configure config now)) out tried overheads := by
  have hsane := sane_step h.sane (.configure config now)
  simp only [step] at hsane ⊢
  split at hsane
  · rename_i e' hc
    obtain ⟨hpost, htb⟩ := configure_posted hc
    have hbas := (configure_spec hc).2.1
    have hkeep : ∀ k, e'.total.counter k = e.total.counter k := hpost.total
    have hsent := hkeep .sentPackets
    have hback := hkeep .backendDrops
    have hpace := hkeep .pacingDrops
    have hcap := hkeep .capDrops
    have hlog := hkeep .encryptedLogicalBytes
    have hnat := hkeep .nativeUdpIpBytes
    simp only [EgressStats.counter] at hsent hback hpace hcap hlog hnat
    refine ⟨hsane, htb.trans (h.basis.trans hbas.symm), fun k => ?_, ?_, ?_, h.inRange⟩
    · exact (hkeep k).trans ((h.sums k).trans (hpost.buckets k).symm)
    · rw [hsent, hback, hpace, hcap]; exact h.tried
    · rw [hnat, hlog, hbas]; exact h.native
  · exact h

/-- The books stay balanced over a run whose completions follow their admissions
and in which nothing has saturated by its end. -/
theorem balanced_run :
    ∀ (ops : List (Op κ)) {e : Egress κ} {out : List (κ × Bytes × Nat)} {tried overheads : Nat},
      Balanced e out tried overheads → Paired e out ops → (∀ op ∈ ops, op.InRange) →
      (e.run ops).total.Unsaturated →
      Balanced (e.run ops) (outstanding e out ops) (tried + attempts ops)
        (overheads + sentOverheads ops) := by
  intro ops
  induction ops with
  | nil => intro e out tried overheads h _ _ _; exact h
  | cons op ops ih =>
    intro e out tried overheads h hpair hrange hend
    have hafter : (e.step op).total.Unsaturated := unsaturated_of_run hend
    have hstep : Balanced (e.step op) (settle e out op) (tried + op.attempts)
        (overheads + op.sentOverhead) := by
      cases op with
      | admitAt k p o now =>
        exact balanced_admitAt h (hrange _ (List.mem_cons_self ..)) hafter
      | complete k p o s now => exact balanced_complete h hpair.1 hafter
      | configure c now => exact balanced_configure h c now
    have hrun := ih hstep hpair.2 (fun op hop => hrange op (List.mem_cons_of_mem _ hop)) hend
    simp only [attempts, sentOverheads, List.map_cons, List.sum_cons, ← Nat.add_assoc] at hrun ⊢
    exact hrun

/-- Over a run of admissions, each accepted one completed once, and of any
reconfigurations, until a counter saturates: every admission is counted once as
sent, failed or dropped (`outstanding` is empty once the last one is completed),
every counter of the total is the sum over the buckets, and the native bytes are
the logical bytes plus the overheads sent. -/
theorem accounting_adds_up (basis : EgressBasis) (ops : List (Op κ))
    (hpaired : Paired (new basis) [] ops) (hrange : ∀ op ∈ ops, op.InRange)
    (hsat : ((new basis).run ops).total.Unsaturated) :
    let e := (new basis).run ops
    attempts ops = e.total.sentPackets + e.total.backendDrops + e.total.pacingDrops +
        e.total.capDrops + (outstanding (new basis) [] ops).length ∧
      (∀ k, e.total.counter k =
        e.buckets.sumBy (fun _ b => b.stats.counter k) + e.overflow.stats.counter k) ∧
      (basis = .nativeUdpIp →
        e.total.nativeUdpIpBytes = e.total.encryptedLogicalBytes + sentOverheads ops) ∧
      (basis = .encryptedLogical → e.total.nativeUdpIpBytes = 0) := by
  have h := balanced_run ops (balanced_new basis) hpaired hrange hsat
  have htried := h.tried
  have hnative := h.native
  rw [Nat.zero_add] at htried hnative
  rw [basis_run] at hnative
  refine ⟨htried, h.sums, fun hb => ?_, fun hb => ?_⟩
  · subst hb; exact hnative
  · subst hb; exact hnative

/-- A control packet is sent, a data packet fails in the backend. -/
theorem accounting_adds_up_twoPackets :
    let ops : List (Op Nat) := [.admitAt 1 [4] 28 0, .complete 1 [4] 28 true 0, .configure none 3,
      .admitAt 2 [5, 5] 48 7, .complete 2 [5, 5] 48 false 7]
    let e := (new .nativeUdpIp).run ops
    attempts ops = e.total.sentPackets + e.total.backendDrops + e.total.pacingDrops +
        e.total.capDrops + 0 ∧
      (∀ k, e.total.counter k =
        e.buckets.sumBy (fun _ b => b.stats.counter k) + e.overflow.stats.counter k) ∧
      e.total.nativeUdpIpBytes = e.total.encryptedLogicalBytes + sentOverheads ops := by
  have h := accounting_adds_up (κ := Nat) .nativeUdpIp [.admitAt 1 [4] 28 0,
    .complete 1 [4] 28 true 0, .configure none 3, .admitAt 2 [5, 5] 48 7,
    .complete 2 [5, 5] 48 false 7]
    ⟨trivial, by decide +kernel, trivial, trivial, by decide +kernel, trivial⟩
    (by simp [Op.InRange, U64_MAX]) (fun k => by cases k <;> decide +kernel)
  exact ⟨h.1, h.2.1, h.2.2.1 rfl⟩

end Egress
end RenetCross.L2
