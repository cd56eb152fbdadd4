import RenetCross.L2Machine.EgressAccounting

/-!
# What became of the packets offered to an egress layer

Every transport takes the same way through its egress layer: `admit`, and when the
packet is accepted the backend, then `complete` with whether the backend took it.
`Ledger` is the table of a transport that has only ever done that, together with
the list of its packets and what became of each, newest first. Until a counter
saturates, the statistics of such a table are exactly the sums over that list.
-/
namespace RenetCross.L2

inductive Fate where
  /-- `admit` said no. -/
  | refused
  /-- The backend did not take the packet, or not all of it. -/
  | failed
  | sent
  deriving DecidableEq, Repr

/-- The fate of an accepted packet. -/
def Fate.ofSent (sent : Bool) : Fate := if sent then .sent else .failed

structure Posting (κ : Type) where
  key : κ
  payload : Bytes
  overhead : Nat
  fate : Fate
  deriving DecidableEq, Repr

/-- What one packet adds to each counter; a refusal adds to one of the two drop
counters, which depends on the bucket. -/
def Posting.adds {κ : Type} (basis : EgressBasis) (p : Posting κ) (k : Counter) : Nat :=
  match p.fate with
  | .refused => 0
  | .failed => recorded basis p.payload p.overhead false k
  | .sent => recorded basis p.payload p.overhead true k

namespace Egress

variable {κ : Type} [DecidableEq κ]

inductive Ledger (basis : EgressBasis) : List (Posting κ) → Egress κ → Prop
  | new : Ledger basis [] (new basis)
  | refused {log e} {key : κ} {payload : Bytes} {overhead now : Nat} : Ledger basis log e →
      (e.admitAt key payload overhead now).2 = false →
      Ledger basis (⟨key, payload, overhead, .refused⟩ :: log) (e.admitAt key payload overhead now).1
  | tried {log e} {key : κ} {payload : Bytes} {overhead now now' : Nat} (sent : Bool) :
      Ledger basis log e → (e.admitAt key payload overhead now).2 = true →
      Ledger basis (⟨key, payload, overhead, .ofSent sent⟩ :: log)
        ((e.admitAt key payload overhead now).1.complete key payload overhead sent now')
  | configure {log e e'} {config : Option EgressConfig} {now : Nat} : Ledger basis log e →
      e.configure config now = .ok e' → Ledger basis log e'

/-- The statistics are the sums over the packets in `log`. -/
structure Books (basis : EgressBasis) (log : List (Posting κ)) (e : Egress κ) : Prop where
  sane : Sane e
  ofBasis : e.basis = basis
  total : e.total.basis = e.basis
  sums : ∀ k, e.total.counter k = e.sumOver k
  counted : ∀ k, k ≠ .pacingDrops → k ≠ .capDrops →
    e.total.counter k = (log.map fun p => p.adds basis k).sum
  dropped : e.total.pacingDrops + e.total.capDrops = log.countP fun p => p.fate = .refused

variable {basis : EgressBasis} {log : List (Posting κ)} {e : Egress κ}

theorem books_new (basis : EgressBasis) : Books basis [] (new basis : Egress κ) := by
  refine ⟨sane_new basis, rfl, rfl, fun k => ?_, fun k _ _ => ?_, rfl⟩
  · cases k <;> rfl
  · cases k <;> rfl

/-- An admission leaves the books as they are up to the drop it may count. -/
theorem Books.admitted (h : Books basis log e) {key : κ} {payload : Bytes} {overhead now : Nat}
    (hafter : (e.admitAt key payload overhead now).1.total.Unsaturated) :
    let e' := (e.admitAt key payload overhead now).1
    Sane e' ∧ e'.basis = basis ∧ e'.total.basis = e'.basis ∧
      (∀ k, e'.total.counter k = e'.sumOver k) ∧
      (∀ k, k ≠ .pacingDrops → k ≠ .capDrops → e'.total.counter k = e.total.counter k) ∧
      e'.total.pacingDrops + e'.total.capDrops = e.total.pacingDrops + e.total.capDrops +
        if (e.admitAt key payload overhead now).2 then 0 else 1 := by
  have hbefore : e.total.Unsaturated := @unsaturated_of_step κ _ _ (.admitAt key payload overhead now) hafter
  obtain ⟨δ, hpost, hother, hdrop⟩ := admitAt_posted h.sums hbefore hafter
  obtain ⟨b, -, -, -, -, htb⟩ := admitAt_total e key payload overhead now
  obtain ⟨-, -, -, -, hbas, -⟩ := admitAt_spec e key payload overhead now
  have hpace := hpost.total .pacingDrops
  have hcap := hpost.total .capDrops
  simp only [EgressStats.counter] at hpace hcap
  refine ⟨sane_step h.sane (.admitAt key payload overhead now), hbas.trans h.ofBasis,
    htb.trans (h.total.trans hbas.symm), fun k => ?_, fun k hk hk' => ?_, ?_⟩
  · rw [hpost.total k, hpost.buckets k, h.sums k]
  · rw [hpost.total k, hother k hk hk', Nat.add_zero]
  · omega

theorem Books.refused (h : Books basis log e) {key : κ} {payload : Bytes} {overhead now : Nat}
    (hno : (e.admitAt key payload overhead now).2 = false)
    (hafter : (e.admitAt key payload overhead now).1.total.Unsaturated) :
    Books basis (⟨key, payload, overhead, .refused⟩ :: log)
      (e.admitAt key payload overhead now).1 := by
  obtain ⟨hsane, hbasis, htotal, hsums, hkeep, hdrop⟩ := h.admitted hafter
  refine ⟨hsane, hbasis, htotal, hsums, fun k hk hk' => ?_, ?_⟩
  · rw [hkeep k hk hk', h.counted k hk hk', List.map_cons, List.sum_cons]
    exact (Nat.zero_add _).symm
  · rw [hdrop, hno, h.dropped]
    exact (List.countP_cons_of_pos (by rfl)).symm

theorem Books.tried (h : Books basis log e) {key : κ} {payload : Bytes} {overhead now now' : Nat}
    (sent : Bool) (hyes : (e.admitAt key payload overhead now).2 = true)
    (hafter : ((e.admitAt key payload overhead now).1.complete key payload overhead sent
      now').total.Unsaturated) :
    Books basis (⟨key, payload, overhead, .ofSent sent⟩ :: log)
      ((e.admitAt key payload overhead now).1.complete key payload overhead sent now') := by
  have hmid : (e.admitAt key payload overhead now).1.total.Unsaturated :=
    @unsaturated_of_step κ _ _ (.complete key payload overhead sent now') hafter
  obtain ⟨hsane, hbasis, htotal, hsums, hkeep, hdrop⟩ := h.admitted hmid
  generalize (e.admitAt key payload overhead now).1 = m at hsane hbasis htotal hsums hkeep hdrop hafter ⊢
  have hpost := complete_posted hsane htotal hsums hafter
  obtain ⟨-, hbas, -⟩ := complete_spec m key payload overhead sent now'
  have hpace := hpost.total .pacingDrops
  have hcap := hpost.total .capDrops
  simp only [EgressStats.counter, recorded, Nat.add_zero] at hpace hcap
  refine ⟨sane_step hsane (.complete key payload overhead sent now'), hbas.trans hbasis, ?_,
    fun k => ?_, fun k hk hk' => ?_, ?_⟩
  · rw [hbas, ← htotal]
    simp only [complete, total_modify, total_track]
    exact (record_frame m.total payload overhead sent).2
  · rw [hpost.total k, hpost.buckets k, hsums k]
  · rw [hpost.total k, hkeep k hk hk', h.counted k hk hk', hbasis, List.map_cons, List.sum_cons,
      Nat.add_comm]
    congr 1
    cases sent <;> rfl
  · rw [hpace, hcap, hdrop, hyes, h.dropped, List.countP_cons_of_neg]
    · rfl
    · cases sent <;> simp [Fate.ofSent]

theorem Books.configured (h : Books basis log e) {e' : Egress κ} {config : Option EgressConfig}
    {now : Nat} (hc : e.configure config now = .ok e') : Books basis log e' := by
  obtain ⟨hpost, htb⟩ := configure_posted hc
  have hbas := (configure_spec hc).2.1
  have hsane := sane_step h.sane (.configure config now)
  simp only [step, hc] at hsane
  have hkeep : ∀ k, e'.total.counter k = e.total.counter k := hpost.total
  refine ⟨hsane, hbas.trans h.ofBasis, htb.trans (h.total.trans hbas.symm), fun k => ?_,
    fun k hk hk' => (hkeep k).trans (h.counted k hk hk'), ?_⟩
  · exact (hkeep k).trans ((h.sums k).trans (hpost.buckets k).symm)
  · exact (congrArg₂ (· + ·) (hkeep .pacingDrops) (hkeep .capDrops)).trans h.dropped

/-- Until a counter saturates, the books of a ledger are right. -/
theorem Ledger.books (h : Ledger basis log e) (hsat : e.total.Unsaturated) : Books basis log e := by
  induction h with
  | new => exact books_new basis
  | @refused log e key payload overhead now _ hno ih =>
    exact (ih (@unsaturated_of_step κ _ _ (.admitAt key payload overhead now) hsat)).refused hno hsat
  | @tried log e key payload overhead now now' sent _ hyes ih =>
    have hmid : (e.admitAt key payload overhead now).1.total.Unsaturated :=
      @unsaturated_of_step κ _ _ (.complete key payload overhead sent now') hsat
    exact (ih (@unsaturated_of_step κ _ _ (.admitAt key payload overhead now) hmid)).tried sent hyes hsat
  | @configure log e e' config now _ hc ih =>
    have hbefore : e.total.Unsaturated := by
      intro k
      rw [← Nat.add_zero (e.total.counter k), ← (configure_posted hc).1.total k]
      exact hsat k
    exact (ih hbefore).configured hc

/-! ## The statistics, read off the packets -/

/-- The packets the backend took. -/
def sentPostings (log : List (Posting κ)) : List (Posting κ) := log.filter fun p => p.fate = .sent

omit [DecidableEq κ] in
/-- A sum that only the packets sent contribute to. -/
theorem sum_sent {f : Posting κ → Nat} (hf : ∀ p, p.fate ≠ .sent → f p = 0)
    (log : List (Posting κ)) : (log.map f).sum = ((sentPostings log).map f).sum := by
  induction log with
  | nil => rfl
  | cons p log ih =>
    unfold sentPostings
    rw [List.map_cons, List.sum_cons, List.filter_cons]
    split
    · rw [List.map_cons, List.sum_cons, ih]
      rfl
    · rename_i hno
      rw [hf p (by simpa using hno), Nat.zero_add, ih]
      rfl

/-- What the statistics of a table say about the packets in `log`: every packet is
counted once, as sent, failed or dropped. -/
structure Reports (basis : EgressBasis) (log : List (Posting κ)) (stats : EgressStats) : Prop where
  sentPackets : stats.sentPackets = (sentPostings log).length
  backendDrops : stats.backendDrops = log.countP fun p => p.fate = .failed
  drops : stats.pacingDrops + stats.capDrops = log.countP fun p => p.fate = .refused
  controlPackets : stats.controlPackets = (sentPostings log).countP fun p => isControl p.payload
  encryptedLogicalBytes : stats.encryptedLogicalBytes =
    ((sentPostings log).map fun p => p.payload.length).sum
  nativeUdpIpBytes : stats.nativeUdpIpBytes =
    if basis = .nativeUdpIp then ((sentPostings log).map fun p => chargeOf p.payload p.overhead).sum
    else 0

/-- The sum over the packets sent, when each adds the same as `f` to a counter. -/
theorem Books.sum_eq (h : Books basis log e) {k : Counter} (hk : k ≠ .pacingDrops) (hk' : k ≠ .capDrops)
    (hb : k ≠ .backendDrops) {f : Posting κ → Nat}
    (hf : ∀ p : Posting κ, recorded basis p.payload p.overhead true k = f p) :
    e.total.counter k = ((sentPostings log).map f).sum := by
  rw [h.counted k hk hk', sum_sent]
  · refine congrArg List.sum (List.map_congr_left fun p hp => ?_)
    have hsent : p.fate = .sent := by simpa using (List.mem_filter.1 hp).2
    rw [Posting.adds, hsent]
    exact hf p
  · intro p hp
    cases hfate : p.fate with
    | sent => exact absurd hfate hp
    | refused => simp [Posting.adds, hfate]
    | failed => cases k <;> simp_all [Posting.adds, recorded]

theorem Books.reports (h : Books basis log e) : Reports basis log e.total := by
  refine ⟨?_, ?_, h.dropped, ?_, ?_, ?_⟩
  · refine (h.sum_eq (k := .sentPackets) (f := fun _ => 1) ?_ ?_ ?_ fun p => rfl).trans ?_
    all_goals simp
  · have hback := h.counted .backendDrops (by decide) (by decide)
    refine hback.trans ?_
    clear hback h
    induction log with
    | nil => rfl
    | cons p log ih =>
      rw [List.map_cons, List.sum_cons, List.countP_cons, ih, Nat.add_comm]
      cases hfate : p.fate <;> simp [Posting.adds, hfate, recorded]
  · refine (h.sum_eq (k := .controlPackets) (f := fun p => if isControl p.payload then 1 else 0)
      ?_ ?_ ?_ fun p => ?_).trans ?_
    · simp
    · simp
    · simp
    · simp [recorded]
    · induction sentPostings log with
      | nil => rfl
      | cons p log ih => rw [List.map_cons, List.sum_cons, List.countP_cons, ih, Nat.add_comm]
  · exact h.sum_eq (k := .encryptedLogicalBytes) (by decide) (by decide) (by decide) fun p => rfl
  · by_cases hb : basis = .nativeUdpIp
    · rw [if_pos hb]
      exact h.sum_eq (k := .nativeUdpIpBytes) (by decide) (by decide) (by decide)
        fun p => by simp [recorded, hb]
    · rw [if_neg hb]
      refine (h.sum_eq (k := .nativeUdpIpBytes) (f := fun _ => 0) (by decide) (by decide) (by decide)
        fun p => by simp [recorded, hb]).trans ?_
      simp

end Egress
end RenetCross.L2
