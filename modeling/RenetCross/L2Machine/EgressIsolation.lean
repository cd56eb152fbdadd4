import RenetCross.L2Machine.EgressAllowance

/-!
# Peer churn

Any caller can offer packets for any key. `churn_is_contained` says what that
cannot do: track more than `MAX_PEERS` keys, touch the bucket of another tracked
key, or draw on anything but the one overflow bucket once the table is full.

The core is a projection: a tracked key's answers are those of its bucket run
alone (`Solo`) on the key's own calls and the accepted reconfigurations. Two
runs that agree on these agree on the key's answers, whatever the other keys do.
A reconfiguration counts even when it repeats the config in force: it moves the
bucket's clock and drops what was earned since its last use.
-/
namespace RenetCross.L2

namespace Egress

variable {κ : Type} [DecidableEq κ]

/-! ## One bucket alone -/

/-- The calls a tracked key's bucket takes part in. -/
def Op.concerns (basis : EgressBasis) (key : κ) : Op κ → Bool
  | .admitAt k _ _ _ => k = key
  | .complete k _ _ _ _ => k = key
  | .configure config _ => !config.any fun c => c.basis ≠ basis

/-- A packet offered or completed for `key`. -/
def Op.isFor (key : κ) : Op κ → Bool
  | .admitAt k _ _ _ => k = key
  | .complete k _ _ _ _ => k = key
  | .configure _ _ => false

namespace Solo

/-- A call on the bucket alone. -/
def step (basis : EgressBasis) (key : κ) (b : Bucket) : Op κ → Bucket
  | .admitAt k payload overhead now =>
    if k = key then (b.admitOne (chargeOf payload overhead) (isControl payload) now).1 else b
  | .complete k payload overhead sent _ =>
    if k = key then { b with stats := record b.stats payload overhead sent } else b
  | .configure config now =>
    if config.any fun c => c.basis ≠ basis then b else reconfigured config now b

/-- The answer of a call, if it is an admission of the key. -/
def answer (key : κ) (b : Bucket) : Op κ → List Bool
  | .admitAt k payload overhead now =>
    if k = key then [(b.admitOne (chargeOf payload overhead) (isControl payload) now).2] else []
  | _ => []

def answers (basis : EgressBasis) (key : κ) : Bucket → List (Op κ) → List Bool
  | _, [] => []
  | b, op :: ops => answer key b op ++ answers basis key (step basis key b op) ops

/-- Calls that do not concern the key change nothing and answer nothing. -/
theorem answers_filter (basis : EgressBasis) (key : κ) :
    ∀ (ops : List (Op κ)) (b : Bucket),
      answers basis key b (ops.filter (Op.concerns basis key)) = answers basis key b ops
  | [], _ => rfl
  | op :: ops, b => by
    by_cases hop : op.concerns basis key = true
    · rw [List.filter_cons_of_pos hop]
      simp only [answers, answers_filter basis key ops]
    · rw [List.filter_cons_of_neg hop, answers_filter basis key ops]
      have hstep : step basis key b op = b ∧ answer key b op = [] := by
        cases op with
        | admitAt k p o now => simp_all [Op.concerns, step, answer]
        | complete k p o s now => simp_all [Op.concerns, step, answer]
        | configure c now => simp_all [Op.concerns, step, answer]
      rw [answers, hstep.1, hstep.2, List.nil_append]

end Solo

/-! ## A tracked key follows its bucket alone -/

theorem answersFor_cons (key : κ) (e : Egress κ) (op : Op κ) (ops : List (Op κ)) :
    answersFor key e (op :: ops) = answersFor key e [op] ++ answersFor key (e.step op) ops := by
  cases op <;> simp [answersFor]

theorem bucketOf_tracked {e : Egress κ} {key : κ} {b : Bucket} (hb : e.at? (.peer key) = some b) :
    e.bucketOf key = .peer key :=
  if_pos (.inl (HashMap.mem_iff_get.2 ⟨b, hb⟩))

/-- One call, for a key whose bucket is `b` once the call has tracked its own key. -/
theorem step_tracked {e : Egress κ} {key : κ} {b : Bucket} {op : Op κ}
    (hroom : e.bucketOf key = .peer key)
    (hb : (if op.isFor key then (e.track key op.now).at? (.peer key) else e.at? (.peer key)) = some b) :
    (e.step op).at? (.peer key) = some (Solo.step e.basis key b op) ∧
      answersFor key e [op] = Solo.answer key b op := by
  cases op with
  | admitAt k p o now =>
    obtain ⟨b', hb', hacc, -, -, hat⟩ := admitAt_spec e k p o now
    simp only [step, hat, slot_track, answersFor, List.append_nil]
    by_cases hk : k = key
    · subst hk
      simp only [Op.isFor, decide_true, if_true, Op.now] at hb
      rw [slot_track, hroom, hb] at hb'
      cases hb'
      simp only [hroom, if_true, Solo.step, Solo.answer, hacc, and_self]
    · have hne : Slot.peer key ≠ e.bucketOf k := by
        unfold bucketOf; split
        · simpa using fun h => hk h.symm
        · simp
      simp only [Op.isFor, hk, decide_false, Bool.false_eq_true, if_false] at hb
      simp only [if_neg hne, Solo.step, Solo.answer, if_neg hk, and_true]
      exact track_of_at? hb k now
  | complete k p o s now =>
    simp only [step, (complete_spec e k p o s now).2.2, slot_track, answersFor]
    by_cases hk : k = key
    · subst hk
      simp only [Op.isFor, decide_true, if_true, Op.now] at hb
      simp only [hroom, if_true, hb, Option.map_some, Solo.step, Solo.answer, and_self]
    · have hne : Slot.peer key ≠ e.bucketOf k := by
        unfold bucketOf; split
        · simpa using fun h => hk h.symm
        · simp
      simp only [Op.isFor, hk, decide_false, Bool.false_eq_true, if_false] at hb
      simp only [if_neg hne, Solo.step, Solo.answer, if_neg hk, and_true]
      exact track_of_at? hb k now
  | configure config now =>
    simp only [Op.isFor, Bool.false_eq_true, if_false] at hb
    refine ⟨?_, rfl⟩
    simp only [step, Solo.step]
    by_cases hmis : config.any (fun c => c.basis ≠ e.basis) = true
    · simp only [configure, hmis, if_true, hb]
    · have hok : e.configure config now = .ok _ := if_neg hmis
      rw [hok, if_neg hmis]
      simp only
      rw [(configure_spec hok).2.2, hb]
      rfl

/-- A tracked key's answers are those of its bucket alone. -/
theorem answersFor_tracked (key : κ) :
    ∀ (ops : List (Op κ)) (e : Egress κ) (b : Bucket), e.at? (.peer key) = some b →
      answersFor key e ops = Solo.answers e.basis key b ops
  | [], _, _, _ => rfl
  | op :: ops, e, b, hb => by
    have hown : (if op.isFor key then (e.track key op.now).at? (.peer key)
        else e.at? (.peer key)) = some b := by
      split
      · exact track_of_at? hb key op.now
      · exact hb
    obtain ⟨hstep, hans⟩ := step_tracked (bucketOf_tracked hb) hown
    rw [answersFor_cons, hans, answersFor_tracked key ops _ _ hstep, step_basis]
    rfl

/-- A key whose first call finds room gets a full bucket under the config in
force, and its answers from then on are those of that bucket alone. -/
theorem answersFor_created {e : Egress κ} {key : κ} {first : Op κ} (hfor : first.isFor key = true)
    (hnew : key ∉ e.buckets) (hroom : e.buckets.len < MAX_PEERS) (rest : List (Op κ)) :
    answersFor key e (first :: rest) =
      Solo.answers e.basis key (Bucket.new e.basis e.config first.now) (first :: rest) := by
  have hcreated : (e.track key first.now).at? (.peer key) =
      some (Bucket.new e.basis e.config first.now) := by
    rw [at?_track, if_pos ⟨rfl, hnew, hroom⟩]
  have hown : (if first.isFor key then (e.track key first.now).at? (.peer key)
      else e.at? (.peer key)) = some (Bucket.new e.basis e.config first.now) := by
    rw [if_pos hfor]
    exact hcreated
  obtain ⟨hstep, hans⟩ := step_tracked (if_pos (.inr hroom)) hown
  rw [answersFor_cons, hans, answersFor_tracked key rest _ _ hstep, step_basis]
  rfl

/-- Calls for other keys do not track a key and answer nothing for it. -/
theorem unseen_run (key : κ) :
    ∀ (ops : List (Op κ)) (e : Egress κ), (∀ op ∈ ops, op.isFor key = false) → key ∉ e.buckets →
      key ∉ (e.run ops).buckets ∧
        ∀ rest, answersFor key e (ops ++ rest) = answersFor key (e.run ops) rest
  | [], _, _, h => ⟨h, fun _ => rfl⟩
  | op :: ops, e, hops, h => by
    have hop := hops op (List.mem_cons_self ..)
    have hstep : key ∉ (e.step op).buckets ∧ answersFor key e [op] = [] := by
      cases op with
      | admitAt k p o now =>
        have hk : key ≠ k := fun hk => by simp [Op.isFor, hk] at hop
        refine ⟨fun hmem => ?_, by simp [answersFor, Ne.symm hk]⟩
        have ht := ((buckets_admitAt e k p o now).1 key).1 hmem
        rw [mem_buckets_iff, at?_track, if_neg (by simp [hk]), ← mem_buckets_iff] at ht
        exact h ht
      | complete k p o s now =>
        have hk : key ≠ k := fun hk => by simp [Op.isFor, hk] at hop
        refine ⟨fun hmem => ?_, rfl⟩
        have ht := ((buckets_complete e k p o s now).1 key).1 hmem
        rw [mem_buckets_iff, at?_track, if_neg (by simp [hk]), ← mem_buckets_iff] at ht
        exact h ht
      | configure c now =>
        refine ⟨fun hmem => ?_, rfl⟩
        simp only [step] at hmem
        split at hmem
        · rename_i hc; exact h (((buckets_configure hc).1 key).1 hmem)
        · exact h hmem
    obtain ⟨hrun, hans⟩ := unseen_run key ops (e.step op)
      (fun op' hop' => hops op' (List.mem_cons_of_mem _ hop')) hstep.1
    refine ⟨hrun, fun rest => ?_⟩
    rw [List.cons_append, answersFor_cons, hstep.2, List.nil_append]
    exact hans rest

/-! ## The table and its overflow -/

theorem len_track {e : Egress κ} (h : e.buckets.len ≤ MAX_PEERS) (key : κ) (now : Nat) :
    (e.track key now).buckets.len ≤ MAX_PEERS := by
  unfold track
  split
  · rename_i hnew; exact HashMap.len_insert_le key _ hnew.2
  · exact h

theorem len_step {e : Egress κ} (h : e.buckets.len ≤ MAX_PEERS) (op : Op κ) :
    (e.step op).buckets.len ≤ MAX_PEERS := by
  cases op with
  | admitAt k p o now =>
    simp only [step, (buckets_admitAt e k p o now).2]
    exact len_track h k now
  | complete k p o s now =>
    simp only [step, (buckets_complete e k p o s now).2]
    exact len_track h k now
  | configure c now =>
    simp only [step]
    split
    · rename_i hc; rw [(buckets_configure hc).2]; exact h
    · exact h

theorem len_run : ∀ (ops : List (Op κ)) {e : Egress κ}, e.buckets.len ≤ MAX_PEERS →
    (e.run ops).buckets.len ≤ MAX_PEERS
  | [], _, h => h
  | op :: ops, _, h => len_run ops (len_step h op)

/-- A key without a bucket, in a full table, is decided by the overflow bucket
and charged to it; no tracked bucket moves. -/
theorem admitAt_overflow {e : Egress κ} {key : κ} (hnew : key ∉ e.buckets)
    (hfull : MAX_PEERS ≤ e.buckets.len) (payload : Bytes) (overhead now : Nat) :
    (e.admitAt key payload overhead now).2 =
        (e.overflow.admitOne (chargeOf payload overhead) (isControl payload) now).2 ∧
      (e.admitAt key payload overhead now).1.overflow =
        (e.overflow.admitOne (chargeOf payload overhead) (isControl payload) now).1 ∧
      ∀ k, (e.admitAt key payload overhead now).1.buckets.get k = e.buckets.get k := by
  have hover : e.bucketOf key = .overflow := if_neg fun h => h.elim hnew (Nat.not_lt_of_le hfull)
  have hsame : e.track key now = e := if_neg fun h => Nat.not_lt_of_le hfull h.2
  obtain ⟨b, hb, hacc, -, -, hat⟩ := admitAt_spec e key payload overhead now
  rw [slot_track, hover, hsame] at hb hat
  cases hb
  refine ⟨hacc, ?_, fun k => ?_⟩
  · have := hat .overflow
    rw [if_pos rfl] at this
    exact Option.some.inj this
  · exact (hat (.peer k)).trans (if_neg (by simp))

/-- A tracked key stays tracked, and only its own calls and reconfigurations
touch its bucket: what it has spent stays spent. -/
theorem tracked_step {e : Egress κ} {key : κ} {b : Bucket} (hb : e.at? (.peer key) = some b)
    (op : Op κ) :
    ∃ b', (e.step op).at? (.peer key) = some b' ∧
      (op.isFor key = false → op.isConfigure = false → b' = b) := by
  have hown : (if op.isFor key then (e.track key op.now).at? (.peer key)
      else e.at? (.peer key)) = some b := by
    split
    · exact track_of_at? hb key op.now
    · exact hb
  refine ⟨_, (step_tracked (bucketOf_tracked hb) hown).1, fun hfor hcfg => ?_⟩
  cases op with
  | admitAt k p o now => simp_all [Op.isFor, Solo.step]
  | complete k p o s now => simp_all [Op.isFor, Solo.step]
  | configure c now => cases hcfg

/-- The admissions of a run made for an untracked key while the table is full. -/
def capacityCalls : Egress κ → List (Op κ) → Nat
  | _, [] => 0
  | e, op :: ops =>
    (match op with
      | .admitAt key _ _ _ => if MAX_PEERS ≤ e.buckets.len ∧ key ∉ e.buckets then 1 else 0
      | _ => 0) + capacityCalls (e.step op) ops

/-- The counter is compared with `==` and the insertion with `<`; below the bound
they agree. -/
theorem peerCapacity_run :
    ∀ (ops : List (Op κ)) (e : Egress κ) (n : Nat), e.buckets.len ≤ MAX_PEERS →
      e.total.peerCapacityPackets = min n U64_MAX →
      (e.run ops).total.peerCapacityPackets = min (n + capacityCalls e ops) U64_MAX
  | [], _, _, _, hn => hn
  | op :: ops, e, n, hlen, hn => by
    have hnext : ∀ d, (e.step op).total.peerCapacityPackets = min (n + d) U64_MAX →
        ((e.step op).run ops).total.peerCapacityPackets =
          min (n + (d + capacityCalls (e.step op) ops)) U64_MAX := by
      intro d hd
      rw [← Nat.add_assoc]
      exact peerCapacity_run ops _ _ (len_step hlen op) hd
    refine hnext _ ?_
    cases op with
    | admitAt key p o now =>
      obtain ⟨b, hb⟩ := at?_slot (e.track key now) key
      simp only [step, admitAt, hb, countCapacity]
      by_cases hfull : MAX_PEERS ≤ e.buckets.len ∧ key ∉ e.buckets
      · rw [if_pos ⟨Nat.le_antisymm hlen hfull.1, hfull.2⟩, if_pos hfull]
        simp only [satAdd, hn]
        omega
      · rw [if_neg (fun h => hfull ⟨Nat.le_of_eq h.1.symm, h.2⟩), if_neg hfull]
        exact hn
    | complete key p o s now =>
      have hrec : ∀ s' : EgressStats, (record s' p o s).peerCapacityPackets = s'.peerCapacityPackets := by
        intro s'; unfold record; split <;> rfl
      simp only [step, complete, hrec, total_modify, total_track]
      exact hn
    | configure c now =>
      simp only [step]
      split
      · rename_i e' hc
        unfold configure at hc
        split at hc <;> cases hc
        exact hn
      · exact hn

/-- At most `MAX_PEERS` keys are tracked; a tracked key stays tracked and other
keys' calls leave its bucket alone; the rest share the overflow bucket and are
counted; and a key's answers are fixed by its own calls, the config at its
bucket's creation and the accepted reconfigurations after it. -/
theorem churn_is_contained (basis : EgressBasis) :
    (∀ ops : List (Op κ), ((new basis).run ops).buckets.len ≤ MAX_PEERS) ∧
      (∀ (ops : List (Op κ)) (key : κ) (b : Bucket), ((new basis).run ops).at? (.peer key) = some b →
        ∀ op, ∃ b', (((new basis).run ops).step op).at? (.peer key) = some b' ∧
          (op.isFor key = false → op.isConfigure = false → b' = b)) ∧
      (∀ (ops : List (Op κ)) (key : κ) (payload : Bytes) (overhead now : Nat),
        let e := (new basis).run ops
        key ∉ e.buckets → MAX_PEERS ≤ e.buckets.len →
        (e.admitAt key payload overhead now).2 =
            (e.overflow.admitOne (chargeOf payload overhead) (isControl payload) now).2 ∧
          (e.admitAt key payload overhead now).1.overflow =
            (e.overflow.admitOne (chargeOf payload overhead) (isControl payload) now).1 ∧
          ∀ k, (e.admitAt key payload overhead now).1.buckets.get k = e.buckets.get k) ∧
      (∀ ops : List (Op κ), ((new basis).run ops).total.peerCapacityPackets =
        min (capacityCalls (new basis) ops) U64_MAX) ∧
      ∀ (key : κ) (first : Op κ) (pre₁ pre₂ rest₁ rest₂ : List (Op κ)),
        first.isFor key = true →
        (∀ op ∈ pre₁, op.isFor key = false) → (∀ op ∈ pre₂, op.isFor key = false) →
        ((new basis).run pre₁).buckets.len < MAX_PEERS →
        ((new basis).run pre₂).buckets.len < MAX_PEERS →
        ((new basis).run pre₁).config = ((new basis).run pre₂).config →
        rest₁.filter (Op.concerns basis key) = rest₂.filter (Op.concerns basis key) →
        answersFor key (new basis) (pre₁ ++ first :: rest₁) =
          answersFor key (new basis) (pre₂ ++ first :: rest₂) := by
  have hzero : (new basis : Egress κ).buckets.len ≤ MAX_PEERS := Nat.zero_le _
  refine ⟨fun ops => len_run ops hzero, fun ops key b hb op => tracked_step hb op,
    fun ops key p o now hnew hfull => admitAt_overflow hnew hfull p o now, fun ops => ?_, ?_⟩
  · rw [peerCapacity_run ops (new basis) 0 hzero rfl, Nat.zero_add]
  · intro key first pre₁ pre₂ rest₁ rest₂ hfirst hpre₁ hpre₂ hroom₁ hroom₂ hcfg hview
    have hnone : key ∉ (new basis : Egress κ).buckets := AList.notMem_empty key
    -- each run's answers are those of the key's own bucket, alone
    have hsolo : ∀ pre rest : List (Op κ), (∀ op ∈ pre, op.isFor key = false) →
        ((new basis).run pre).buckets.len < MAX_PEERS →
        answersFor key (new basis) (pre ++ first :: rest) =
          Solo.answers basis key (Bucket.new basis ((new basis).run pre).config first.now)
            (first :: rest.filter (Op.concerns basis key)) := by
      intro pre rest hpre hroom
      obtain ⟨hnew, hans⟩ := unseen_run key pre (new basis) hpre hnone
      rw [hans, answersFor_created hfirst hnew hroom, basis_run]
      simp only [Solo.answers]
      rw [Solo.answers_filter]
      rfl
    rw [hsolo pre₁ rest₁ hpre₁ hroom₁, hsolo pre₂ rest₂ hpre₂ hroom₂, hcfg, hview]

/-- A newcomer beyond a full table; and key 1 beside key 2 in one run and alone in
the other. -/
theorem churn_is_contained_twoRuns :
    ((filled 4096).admitAt 5000 [5] 28 3).2 =
        ((filled 4096).overflow.admitOne (chargeOf [5] 28) (isControl [5]) 3).2 ∧
      answersFor 1 (new .nativeUdpIp) ([.configure (some policy) 0, .admitAt 2 [5] 28 1] ++
          .admitAt 1 [5] 28 2 :: [.admitAt 2 [5] 28 3, .admitAt 1 [5] 28 4]) =
        answersFor 1 (new .nativeUdpIp) ([.configure (some policy) 0] ++
          .admitAt 1 [5] 28 2 :: [.admitAt 1 [5] 28 4]) := by
  obtain ⟨-, -, hover, -, hiso⟩ := churn_is_contained (κ := Nat) .nativeUdpIp
  refine ⟨?_, hiso 1 _ _ _ _ _ rfl (by decide) (by decide) (by decide +kernel) (by decide +kernel)
    rfl rfl⟩
  have hn : 4096 ≤ MAX_PEERS := by decide
  obtain ⟨hlen, hmem, -, -⟩ := filled_spec hn
  have h5000 : 5000 ∉ (filled 4096).buckets := fun h => absurd ((hmem 5000).1 h) (by decide)
  rw [filled_eq] at hlen h5000 ⊢
  exact (hover _ 5000 [5] 28 3 h5000 (Nat.le_of_eq hlen.symm)).1

/-- 1000 bytes of data. -/
def kilobyte : Bytes := List.replicate 1000 5

/-- Key 1 spends its burst in both runs and tries again a second later. The
second run configures the same policy once more before that: the config in force
never differs, and the second that was earned is gone. -/
theorem repeated_configure_counts :
    let spend : List (Op Nat) := [.configure (some policy) 0, .admitAt 1 kilobyte 28 0,
      .admitAt 1 kilobyte 28 0, .admitAt 1 kilobyte 28 0]
    let again : Op Nat := .configure (some policy) 1000000000
    let later : Op Nat := .admitAt 1 kilobyte 28 1000000000
    (((new .nativeUdpIp).run spend).step again).config = ((new .nativeUdpIp).run spend).config ∧
      answersFor 1 (new .nativeUdpIp) (spend ++ [later]) = [true, true, true, true] ∧
      answersFor 1 (new .nativeUdpIp) (spend ++ [again, later]) = [true, true, true, false] := by
  decide +kernel

end Egress
end RenetCross.L2
