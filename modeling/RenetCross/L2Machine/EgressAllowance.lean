import RenetCross.L2Machine.EgressCalls

/-!
# What an allowance promises

`peer_allowance` previews a bucket without touching it; `reserve_queued` takes
the packets that wait in the conditioner off the preview. Three results:

* `allowance_agrees`: a data packet is admitted exactly when its charge is at
  most the preview at that reading, for every key and every state.
* `queued_released_in_full`: a data packet inside the reserved preview and the
  packets that wait are all admitted, in any order and at any later readings,
  as long as the key keeps the bucket that was previewed and nobody else is
  charged to it.
* `control_never_starved`: data leaves the control reserve alone, so control
  packets that fit into the reserve are accepted between any data packets.

All three read the decision of `Bucket::admit` as one comparison of scaled
credit, `admit_accepts_iff`.
-/
namespace RenetCross.L2

namespace Egress

variable {κ : Type} [DecidableEq κ]

/-! ## The decision as one comparison -/

theorem byteNanos_le_iff {a b : Nat} : byteNanos a ≤ byteNanos b ↔ a ≤ b :=
  Nat.mul_le_mul_left_iff (by decide)

/-- Whole bytes of credit, as the preview rounds them. -/
theorem le_div_iff {a credit : Nat} : a ≤ credit / NANOS_PER_SEC ↔ byteNanos a ≤ credit := by
  rw [Nat.le_div_iff_mul_le (by decide), byteNanos, Nat.mul_comm]

theorem reserveFor_le (c : EgressConfig) (control : Bool) :
    c.reserveFor control ≤ c.controlReserveBytes := by
  unfold EgressConfig.reserveFor; split <;> omega

/-- The cap test of `admit` never decides: a refilled bucket holds at most one
burst, so a charge beyond the cap is beyond the credit too. -/
theorem spend_accepts_iff {b : Bucket} {c : EgressConfig} (hcap : b.credit ≤ byteNanos c.burstBytes)
    (bytes : Nat) (control : Bool) :
    (b.spend c bytes control).2 = true ↔ byteNanos (bytes + c.reserveFor control) ≤ b.credit := by
  have hres := reserveFor_lt c control
  unfold Bucket.spend
  split
  · rename_i hbig
    have hnot : ¬ byteNanos (bytes + c.reserveFor control) ≤ b.credit := by
      intro h
      have := byteNanos_le_iff.1 (Nat.le_trans h hcap)
      omega
    simp [hnot]
  · rename_i hfit
    have hburst := c.burst_mem
    have hle : bytes + c.reserveFor control ≤ U64_MAX := by unfold U64_MAX; omega
    rw [wrapU64_eq hle]
    split
    · rename_i hlt; simp [Nat.not_le_of_lt hlt]
    · rename_i hge; simp [Nat.le_of_not_lt hge]

theorem admit_accepts_iff {b : Bucket} {c : EgressConfig} (hc : b.stats.config = some c)
    (bytes : Nat) (control : Bool) (now : Nat) :
    (b.admitOne bytes control now).2 = true ↔
      byteNanos (bytes + c.reserveFor control) ≤ b.refilled c now := by
  have ha : b.admitOne bytes control now = (b.refill c now).spend c bytes control := by
    simp only [Bucket.admitOne, hc]
  rw [ha]
  exact spend_accepts_iff (refilled_le b c now).2 bytes control

/-- A refill takes nothing away, up to one burst. -/
theorem le_refilled {b : Bucket} {c : EgressConfig} {bytes : Nat} (hcredit : byteNanos bytes ≤ b.credit)
    (hburst : bytes ≤ c.burstBytes) (now : Nat) : byteNanos bytes ≤ b.refilled c now := by
  have hcap : byteNanos bytes ≤ byteNanos c.burstBytes := byteNanos_le hburst
  have hmax : byteNanos c.burstBytes ≤ U128_MAX := by
    have := c.burst_mem
    unfold byteNanos NANOS_PER_SEC U128_MAX; omega
  unfold Bucket.refilled satAdd
  omega

theorem refilled_mono (b : Bucket) (c : EgressConfig) {t now : Nat} (h : t ≤ now) :
    b.refilled c t ≤ b.refilled c now := by
  have hmul : (t - b.at_) * c.bytesPerSecond ≤ (now - b.at_) * c.bytesPerSecond :=
    Nat.mul_le_mul_right _ (by omega)
  unfold Bucket.refilled satAdd satMul
  omega

/-! ## The preview -/

/-- The bucket the next packet for `key` is charged to. -/
def bucketOf (e : Egress κ) (key : κ) : Slot κ :=
  if key ∈ e.buckets ∨ e.buckets.len < MAX_PEERS then .peer key else .overflow

theorem slot_track (e : Egress κ) (key : κ) (now : Nat) :
    (e.track key now).slot key = e.bucketOf key := by
  unfold bucketOf
  by_cases hmem : key ∈ e.buckets
  · rw [slot_of_mem hmem, if_pos (.inl hmem)]
  · by_cases hlen : e.buckets.len < MAX_PEERS
    · have ht : e.track key now = { e with
          buckets := e.buckets.insert key (Bucket.new e.basis e.config now) } := if_pos ⟨hmem, hlen⟩
      rw [ht, if_pos (.inr hlen)]
      exact if_pos (HashMap.mem_insert.2 (.inl rfl))
    · have ht : e.track key now = e := if_neg fun h => hlen h.2
      rw [ht, if_neg (fun h => h.elim hmem hlen)]
      exact if_neg hmem

/-- The preview reads the bucket an admission at the same reading would use. -/
theorem peerAllowance_eq (e : Egress κ) (key : κ) (now : Nat) :
    ∃ b, (e.track key now).at? (e.bucketOf key) = some b ∧ e.peerAllowance key now = b.allowance now := by
  unfold peerAllowance bucketOf
  cases hget : e.buckets.get key with
  | some b =>
    have hmem : key ∈ e.buckets := HashMap.mem_iff_get.2 ⟨b, hget⟩
    refine ⟨b, ?_, rfl⟩
    have hat : e.at? (.peer key) = some b := hget
    rw [if_pos (.inl hmem)]
    exact track_of_at? hat key now
  | none =>
    have hmem : key ∉ e.buckets := HashMap.not_mem_iff_get.2 hget
    by_cases hlen : e.buckets.len < MAX_PEERS
    · refine ⟨Bucket.new e.basis e.config now, ?_, ?_⟩
      · rw [if_pos (.inr hlen), at?_track, if_pos ⟨rfl, hmem, hlen⟩]
      · simp only [ge_iff_le, Nat.not_le_of_lt hlen, if_false]
    · refine ⟨e.overflow, ?_, ?_⟩
      · rw [if_neg (fun h => h.elim hmem hlen), at?_track, if_neg (by simp)]
        rfl
      · simp only [ge_iff_le, Nat.le_of_not_lt hlen, if_true]

theorem allowance_unpaced {b : Bucket} (hc : b.stats.config = none) (now : Nat) :
    (b.allowance now).availableDataBytes = U64_MAX ∧
      (b.allowance now).maximumDataBytes = U64_MAX := by
  simp [Bucket.allowance, hc]

/-- With a config in force the preview is the whole bytes of refilled credit
above the reserve; the `as u64` cast loses nothing. -/
theorem allowance_paced {b : Bucket} {c : EgressConfig} (hc : b.stats.config = some c) (now : Nat) :
    (b.allowance now).availableDataBytes =
        b.refilled c now / NANOS_PER_SEC - c.controlReserveBytes ∧
      (b.allowance now).maximumDataBytes = c.burstBytes - c.controlReserveBytes ∧
      b.refilled c now / NANOS_PER_SEC ≤ c.burstBytes := by
  have hcap : b.refilled c now / NANOS_PER_SEC ≤ c.burstBytes :=
    (Nat.div_le_div_right (refilled_le b c now).2).trans
      (Nat.le_of_eq (Nat.mul_div_cancel_left _ (by decide)))
  have hburst := c.burst_mem
  have hcast : wrapU64 (b.refilled c now / NANOS_PER_SEC) = b.refilled c now / NANOS_PER_SEC :=
    wrapU64_eq (by unfold U64_MAX; omega)
  refine ⟨?_, ?_, hcap⟩
  · simp [Bucket.allowance, hc, hcast]
  · simp [Bucket.allowance, hc]

/-- Positive bytes fit the preview exactly when they fit the credit with the
reserve on top. -/
theorem le_available_iff {b : Bucket} {c : EgressConfig} (hc : b.stats.config = some c) {n : Nat}
    (hpos : 0 < n) (now : Nat) :
    n ≤ (b.allowance now).availableDataBytes ↔
      byteNanos (n + c.controlReserveBytes) ≤ b.refilled c now := by
  rw [(allowance_paced hc now).1, ← le_div_iff]
  omega

/-- A data packet is admitted exactly when the preview at the same reading covers
its charge, and the preview never exceeds the maximum it reports. The charge is
the `u64` sum of length and overhead, as `admit_at` computes it. -/
theorem allowance_agrees (e : Egress κ) (key : κ) (now : Nat) :
    (∀ (payload : Bytes) (overhead : Nat), isControl payload = false → 0 < chargeOf payload overhead →
        ((e.admitAt key payload overhead now).2 = true ↔
          chargeOf payload overhead ≤ (e.peerAllowance key now).availableDataBytes)) ∧
      (e.peerAllowance key now).availableDataBytes ≤ (e.peerAllowance key now).maximumDataBytes := by
  obtain ⟨b, hb, hpre⟩ := peerAllowance_eq e key now
  rw [hpre]
  refine ⟨?_, ?_⟩
  · intro payload overhead hdata hpos
    obtain ⟨b', hb', hacc, -⟩ := admitAt_spec e key payload overhead now
    rw [slot_track, hb] at hb'
    cases hb'
    rw [hacc, hdata]
    cases hc : b.stats.config with
    | none =>
      rw [admit_unpaced hc, (allowance_unpaced hc now).1]
      exact iff_of_true rfl (wrapU64_le _)
    | some c =>
      rw [admit_accepts_iff hc, le_available_iff hc hpos]
      rfl
  · cases hc : b.stats.config with
    | none => rw [(allowance_unpaced hc now).1, (allowance_unpaced hc now).2]
    | some c =>
      obtain ⟨havail, hmax, hcap⟩ := allowance_paced hc now
      omega

/-- The policy of the crate's own tests. -/
def policy : EgressConfig :=
  ⟨.nativeUdpIp, 2000, 4096, 512, by decide, by decide, by decide⟩

/-- A fresh table with `policy` in force from reading 0 on. -/
def paced : Egress Nat := (new .nativeUdpIp).step (.configure (some policy) 0)

theorem allowance_agrees_paced :
    ((paced.admitAt 1 [5] 28 7).2 = true ↔ 29 ≤ (paced.peerAllowance 1 7).availableDataBytes) ∧
      (paced.peerAllowance 1 7).availableDataBytes ≤ (paced.peerAllowance 1 7).maximumDataBytes :=
  ⟨(allowance_agrees paced 1 7).1 [5] 28 (by decide) (by decide), (allowance_agrees paced 1 7).2⟩

end Egress

/-! ## Data and control on one bucket -/

/-- One packet offered to a bucket at one reading. -/
structure Offer where
  payload : Bytes
  overhead : Nat
  now : Nat

namespace Offer

def control (o : Offer) : Bool := isControl o.payload

def charge (o : Offer) : Nat := chargeOf o.payload o.overhead

end Offer

/-- The packets' answers, each offered to the bucket the ones before it left. -/
def Bucket.answers : Bucket → List Offer → List Bool
  | _, [] => []
  | b, o :: offers =>
    (b.admitOne o.charge o.control o.now).2 ::
      Bucket.answers (b.admitOne o.charge o.control o.now).1 offers

/-- Total charge of the control packets among `offers`. -/
def controlBytes (offers : List Offer) : Nat := ((offers.filter Offer.control).map Offer.charge).sum

theorem controlBytes_cons (o : Offer) (offers : List Offer) :
    controlBytes (o :: offers) = (if o.control then o.charge else 0) + controlBytes offers := by
  unfold controlBytes
  by_cases h : o.control <;> simp [h]

open Egress in
/-- One packet, with credit for `kept ≤ control_reserve_bytes` bytes of control
traffic in the bucket: a control packet of at most `kept` bytes is accepted, and
what is kept for the control packets after it is still there. -/
theorem offer_keeps_reserve {b : Bucket} {c : EgressConfig} (hc : b.stats.config = some c) (o : Offer)
    {kept : Nat} (hres : (if o.control then o.charge else 0) + kept ≤ c.controlReserveBytes)
    (hcredit : byteNanos ((if o.control then o.charge else 0) + kept) ≤ b.credit) :
    (o.control = true → (b.admitOne o.charge o.control o.now).2 = true) ∧
      byteNanos kept ≤ (b.admitOne o.charge o.control o.now).1.credit := by
  have hburst : c.controlReserveBytes ≤ c.burstBytes := by have := c.reserve_mem; omega
  have hfull := le_refilled hcredit (Nat.le_trans hres hburst) o.now
  have hspend := (admit_spec hc o.charge o.control o.now).2
  rw [byteNanos_add] at hfull
  cases hctl : o.control with
  | true =>
    rw [hctl] at hspend
    simp only [hctl, if_true] at hfull
    have hacc : (b.admitOne o.charge true o.now).2 = true := by
      rw [admit_accepts_iff hc]
      simpa [EgressConfig.reserveFor] using Nat.le_trans (Nat.le_add_right _ _) hfull
    rw [hacc, if_pos rfl] at hspend
    exact ⟨fun _ => hacc, by omega⟩
  | false =>
    rw [hctl] at hspend
    simp only [hctl, Bool.false_eq_true, if_false, Nat.zero_add] at hfull hres
    refine ⟨fun h => absurd h (by simp), ?_⟩
    by_cases hacc : (b.admitOne o.charge false o.now).2 = true
    · -- an accepted data packet has left the whole reserve behind
      have hdata := (admit_accepts_iff hc o.charge false o.now).1 hacc
      have hkept : byteNanos kept ≤ byteNanos c.controlReserveBytes := byteNanos_le hres
      rw [hacc, if_pos rfl] at hspend
      rw [byteNanos_add, show c.reserveFor false = c.controlReserveBytes from rfl] at hdata
      omega
    · rw [if_neg hacc] at hspend
      have hzero : byteNanos 0 = 0 := rfl
      omega

open Egress in
/-- Whatever data is offered or accepted in between, and whatever the clock
reads, control packets whose charges add up to at most the reserve are all
accepted by a bucket that holds the reserve. -/
theorem control_never_starved {c : EgressConfig} :
    ∀ (offers : List Offer) (b : Bucket), b.stats.config = some c →
      byteNanos c.controlReserveBytes ≤ b.credit → controlBytes offers ≤ c.controlReserveBytes →
      ∀ x ∈ offers.zip (b.answers offers), x.1.control = true → x.2 = true := by
  -- the credit covers what the control packets still to come will spend
  suffices hrun : ∀ (offers : List Offer) (b : Bucket), b.stats.config = some c →
      controlBytes offers ≤ c.controlReserveBytes → byteNanos (controlBytes offers) ≤ b.credit →
      ∀ x ∈ offers.zip (b.answers offers), x.1.control = true → x.2 = true by
    intro offers b hc hcredit hsum
    exact hrun offers b hc hsum (Nat.le_trans (byteNanos_le hsum) hcredit)
  intro offers
  induction offers with
  | nil => intro b _ _ _ x hx; cases hx
  | cons o offers ih =>
    intro b hc hsum hcredit x hx hctl
    rw [controlBytes_cons] at hsum hcredit
    obtain ⟨hacc, hleft⟩ := offer_keeps_reserve hc o hsum hcredit
    rw [Bucket.answers, List.zip_cons_cons, List.mem_cons] at hx
    rcases hx with rfl | hx
    · exact hacc hctl
    · refine ih _ ?_ (by omega) hleft x hx hctl
      rw [(admit_stats b o.charge o.control o.now).1, hc]

/-- A bucket with exactly the reserve of `Egress.policy` left. -/
def atReserve : Bucket :=
  { Bucket.new .nativeUdpIp (some Egress.policy) 0 with credit := byteNanos 512 }

/-- Data and control by turns, at readings that go back. -/
def mixed : List Offer := [⟨[5], 28, 9⟩, ⟨[4], 200, 3⟩, ⟨[5], 28, 0⟩, ⟨[4, 4], 300, 1⟩]

theorem control_never_starved_mixed :
    atReserve.answers mixed = [false, true, false, true] ∧
      ∀ x ∈ mixed.zip (atReserve.answers mixed), x.1.control = true → x.2 = true :=
  ⟨by decide +kernel, control_never_starved mixed atReserve rfl (by decide) (by decide)⟩

/-! ## Releasing what waits in the conditioner -/

namespace Egress

variable {κ : Type} [DecidableEq κ]

/-- The preview for a client, less the packets that wait for it; `overhead` is
`ip_overhead` of its address.
mirrors src/udp_server.rs:72-80 -/
def peerEgressAllowance (e : Egress κ) (key : κ) (overhead : Nat) (waiting : List Bytes) (now : Nat) :
    EgressAllowance :=
  { e.peerAllowance key now with ipUdpOverhead := overhead }.reserveQueued
    (waiting.map List.length).sum waiting.length

/-- The answers to the admissions of `key` in a run. -/
def answersFor (key : κ) : Egress κ → List (Op κ) → List Bool
  | _, [] => []
  | e, .admitAt k payload overhead now :: ops =>
    (if k = key then [(e.admitAt k payload overhead now).2] else []) ++
      answersFor key (e.step (.admitAt k payload overhead now)) ops
  | e, op :: ops => answersFor key (e.step op) ops

/-- The packets offered for `key` in a run, in order. -/
def offeredFor (key : κ) (ops : List (Op κ)) : List Bytes :=
  ops.filterMap fun
    | .admitAt k payload _ _ => if k = key then some payload else none
    | _ => none

/-- From `t` on, `key` sends with its own overhead, no other key is charged to
bucket `x`, and nothing is reconfigured. -/
def ChargedAlone (key : κ) (overhead t : Nat) (x : Slot κ) : Egress κ → List (Op κ) → Prop
  | _, [] => True
  | e, op :: ops =>
    (match op with
      | .admitAt k _ o now => if k = key then o = overhead ∧ t ≤ now else e.bucketOf k ≠ x
      | .complete _ _ _ _ _ => True
      | .configure _ _ => False) ∧ ChargedAlone key overhead t x (e.step op) ops

/-- Bucket `x` is still the key's own whenever one of its packets is sent. A
tracked key and a key of a full table keep their bucket; a key without one loses
its place when others fill the table first. -/
def KeepsBucket (key : κ) (x : Slot κ) : Egress κ → List (Op κ) → Prop
  | _, [] => True
  | e, op :: ops =>
    (match op with
      | .admitAt k _ _ _ => k = key → e.bucketOf key = x
      | _ => True) ∧ KeepsBucket key x (e.step op) ops

/-- From `t` on the bucket can pay for `need` bytes and the control reserve. -/
def Covers (b : Bucket) (t need : Nat) : Prop :=
  ∀ c, b.stats.config = some c → ∀ now, t ≤ now →
    byteNanos (need + c.controlReserveBytes) ≤ b.refilled c now

/-- Bucket `x` covers `need` from `t` on; while it does not exist yet, a full
bucket would. -/
structure Funded (x : Slot κ) (t need : Nat) (e : Egress κ) : Prop where
  covers : ∀ b, e.at? x = some b → Covers b t need
  fresh : e.at? x = none → ∀ c, e.config = some c → need + c.controlReserveBytes ≤ c.burstBytes

theorem covers_of_credit {b : Bucket} {t need : Nat}
    (h : ∀ c, b.stats.config = some c → need + c.controlReserveBytes ≤ c.burstBytes ∧
      byteNanos (need + c.controlReserveBytes) ≤ b.credit) : Covers b t need :=
  fun c hc now _ => le_refilled (h c hc).2 (h c hc).1 now

theorem covers_new (basis : EgressBasis) {config : Option EgressConfig} {t need : Nat} (now : Nat)
    (h : ∀ c, config = some c → need + c.controlReserveBytes ≤ c.burstBytes) :
    Covers (Bucket.new basis config now) t need := by
  refine covers_of_credit fun c hc => ?_
  have hcfg : config = some c := hc
  refine ⟨h c hcfg, ?_⟩
  subst hcfg
  exact byteNanos_le (h c rfl)

/-- A bucket that covers `need` fits it into one burst. -/
theorem Covers.le_burst {b : Bucket} {t need : Nat} (h : Covers b t need) {c : EgressConfig}
    (hc : b.stats.config = some c) : need + c.controlReserveBytes ≤ c.burstBytes :=
  byteNanos_le_iff.1 (Nat.le_trans (h c hc t (Nat.le_refl t)) (refilled_le b c t).2)

theorem Covers.recorded {b : Bucket} {t need : Nat} (h : Covers b t need) (payload : Bytes)
    (overhead : Nat) (sent : Bool) :
    Covers { b with stats := record b.stats payload overhead sent } t need := by
  intro c hc
  rw [(record_frame b.stats payload overhead sent).1] at hc
  exact h c hc

/-- A covered packet is accepted and leaves the rest covered: data takes its
charge from above the reserve, control may not need to. -/
theorem Covers.admits {b : Bucket} {t need bytes : Nat} (h : Covers b t (bytes + need)) (control : Bool)
    {now : Nat} (hle : t ≤ now) :
    (b.admitOne bytes control now).2 = true ∧ Covers (b.admitOne bytes control now).1 t need := by
  cases hc : b.stats.config with
  | none =>
    rw [admit_unpaced hc]
    exact ⟨rfl, fun c hc' => absurd (hc.symm.trans hc') (by simp)⟩
  | some c =>
    have hcov := h c hc now hle
    have hburst := h.le_burst hc
    have hspend := (admit_spec hc bytes control now).2
    have hres := reserveFor_le c control
    have hacc : (b.admitOne bytes control now).2 = true := by
      rw [admit_accepts_iff hc]
      exact Nat.le_trans (byteNanos_le (by omega)) hcov
    refine ⟨hacc, covers_of_credit fun c' hc' => ?_⟩
    rw [(admit_stats b bytes control now).1, hc] at hc'
    cases hc'
    rw [hacc, if_pos rfl] at hspend
    rw [Nat.add_assoc, byteNanos_add] at hcov
    exact ⟨by omega, by omega⟩

/-- Tracking any key, at any reading, keeps bucket `x` funded. -/
theorem Funded.covers_track {x : Slot κ} {t need : Nat} {e : Egress κ} (h : Funded x t need e) (k : κ)
    (now : Nat) {b : Bucket} (hb : (e.track k now).at? x = some b) : Covers b t need := by
  cases hx : e.at? x with
  | some b₀ =>
    rw [track_of_at? hx] at hb
    exact h.covers b (hx.trans hb)
  | none =>
    rw [at?_track] at hb
    split at hb
    · cases hb
      exact covers_new e.basis now (h.fresh hx)
    · rw [hx] at hb; cases hb

/-- A call that charges nothing to `x` and is no `configure` keeps it funded. -/
theorem Funded.step_other {x : Slot κ} {t need : Nat} {e : Egress κ} (h : Funded x t need e) (op : Op κ)
    (hcfg : op.isConfigure = false)
    (hop : ∀ k p o now, op = .admitAt k p o now → e.bucketOf k ≠ x) :
    Funded x t need (e.step op) := by
  refine ⟨fun b hb => ?_, fun hnone c hc => ?_⟩
  · cases op with
    | admitAt k p o now =>
      obtain ⟨b₁, -, -, -, -, hat⟩ := admitAt_spec e k p o now
      have hne : x ≠ (e.track k now).slot k := by
        rw [slot_track]; exact (hop k p o now rfl).symm
      simp only [step, hat, if_neg hne] at hb
      exact h.covers_track k now hb
    | complete k p o s now =>
      simp only [step, (complete_spec e k p o s now).2.2] at hb
      split at hb
      · obtain ⟨b₁, hb₁, rfl⟩ := Option.map_eq_some_iff.1 hb
        exact (h.covers_track k now hb₁).recorded p o s
      · exact h.covers_track k now hb
    | configure c now => cases hcfg
  · have hnone₀ : e.at? x = none := by
      cases hx : e.at? x with
      | none => rfl
      | some b =>
        have := step_at?_isSome e op x (by rw [hx]; rfl)
        rw [hnone] at this; cases this
    rw [step_config e op hcfg] at hc
    exact h.fresh hnone₀ c hc

/-- An admission of the key on bucket `x` is accepted and pays its own share. -/
theorem Funded.step_own {x : Slot κ} {t need : Nat} {e : Egress κ} {key : κ} {payload : Bytes}
    {overhead now : Nat} (h : Funded x t (chargeOf payload overhead + need) e) (hle : t ≤ now)
    (hx : e.bucketOf key = x) :
    (e.admitAt key payload overhead now).2 = true ∧
      Funded x t need (e.step (.admitAt key payload overhead now)) := by
  obtain ⟨b, hb, hacc, -, -, hat⟩ := admitAt_spec e key payload overhead now
  rw [slot_track, hx] at hb hat
  obtain ⟨hyes, hcov⟩ := (h.covers_track key now hb).admits (isControl payload) hle
  have hown := hat x
  rw [if_pos rfl] at hown
  refine ⟨hacc.trans hyes, fun b' hb' => ?_, fun hnone => ?_⟩
  · simp only [step] at hb'
    rw [hown] at hb'
    cases hb'
    exact hcov
  · simp only [step] at hnone
    rw [hown] at hnone
    cases hnone

theorem offeredFor_cons_own (key : κ) (payload : Bytes) (overhead now : Nat) (ops : List (Op κ)) :
    offeredFor key (.admitAt key payload overhead now :: ops) = payload :: offeredFor key ops := by
  simp [offeredFor]

theorem offeredFor_cons_other {key k : κ} (h : k ≠ key) (payload : Bytes) (overhead now : Nat)
    (ops : List (Op κ)) :
    offeredFor key (.admitAt k payload overhead now :: ops) = offeredFor key ops := by
  simp [offeredFor, h]

/-- Induction over the run: bucket `x` stays funded for the packets of the key
that are still to come. -/
theorem answers_of_funded (key : κ) (overhead t : Nat) (x : Slot κ) :
    ∀ (ops : List (Op κ)) (e : Egress κ), ChargedAlone key overhead t x e ops →
      KeepsBucket key x e ops →
      Funded x t ((offeredFor key ops).map (chargeOf · overhead)).sum e →
      ∀ a ∈ answersFor key e ops, a = true := by
  intro ops
  induction ops with
  | nil => intro e _ _ _ a ha; cases ha
  | cons op ops ih =>
    intro e halone hkeep hfund a ha
    obtain ⟨hop, halone⟩ := halone
    obtain ⟨hx, hkeep⟩ := hkeep
    cases op with
    | admitAt k p o now =>
      by_cases hk : k = key
      · subst hk
        simp only [if_true] at hop
        obtain ⟨rfl, hle⟩ := hop
        rw [offeredFor_cons_own, List.map_cons, List.sum_cons] at hfund
        obtain ⟨hacc, hrest⟩ := hfund.step_own hle (hx rfl)
        simp only [answersFor, if_true, List.mem_append, List.mem_singleton] at ha
        rcases ha with rfl | ha
        · exact hacc
        · exact ih _ halone hkeep hrest a ha
      · simp only [if_neg hk] at hop
        rw [offeredFor_cons_other hk] at hfund
        simp only [answersFor, if_neg hk, List.nil_append] at ha
        refine ih _ halone hkeep (hfund.step_other _ rfl ?_) a ha
        intro k' p' o' now' heq
        cases heq
        exact hop
    | complete k p o s now =>
      simp only [answersFor] at ha
      exact ih _ halone hkeep (hfund.step_other _ rfl (fun _ _ _ _ h => by cases h)) a ha
    | configure c now => exact hop.elim

theorem sum_chargeOf_le (overhead : Nat) (waiting : List Bytes) :
    (waiting.map (chargeOf · overhead)).sum ≤
      (waiting.map List.length).sum + waiting.length * overhead := by
  induction waiting with
  | nil => simp
  | cons p waiting ih =>
    have hp : chargeOf p overhead ≤ p.length + overhead := Nat.mod_le _ _
    simp only [List.map_cons, List.sum_cons, List.length_cons, Nat.succ_mul]
    omega

/-- Positive bytes inside the reserved preview fit the plain preview together
with everything that waits: below `u64::MAX` nothing has saturated. -/
theorem le_reserveQueued {a : EgressAllowance} {n bytes packets : Nat} (hpos : 0 < n)
    (hmax : a.availableDataBytes < U64_MAX)
    (h : n ≤ (a.reserveQueued bytes packets).availableDataBytes) :
    n + (bytes + packets * a.ipUdpOverhead) ≤ a.availableDataBytes := by
  simp only [EgressAllowance.reserveQueued, satAdd, satMul] at h
  omega

/-- The reserved preview funds the key's bucket for the new packet and for all
that wait. -/
theorem funded_of_preview {e : Egress κ} {key : κ} {overhead t n : Nat} {waiting : List Bytes}
    (hpos : 0 < n) (h : n ≤ (e.peerEgressAllowance key overhead waiting t).availableDataBytes) :
    Funded (e.bucketOf key) t (n + (waiting.map (chargeOf · overhead)).sum) e := by
  obtain ⟨b, hb, hpre⟩ := peerAllowance_eq e key t
  have hcov : Covers b t (n + (waiting.map (chargeOf · overhead)).sum) := by
    intro c hc now hle
    obtain ⟨havail, -, hcap⟩ := allowance_paced hc t
    have hburst := c.burst_mem
    have hsmall : (b.allowance t).availableDataBytes < U64_MAX := by unfold U64_MAX; omega
    rw [← hpre] at hsmall
    have hsum := le_reserveQueued (a := { e.peerAllowance key t with ipUdpOverhead := overhead })
      hpos hsmall h
    have hwait := sum_chargeOf_le overhead waiting
    have hfit : n + (waiting.map (chargeOf · overhead)).sum ≤ (b.allowance t).availableDataBytes := by
      rw [← hpre]
      simp only at hsum
      omega
    exact Nat.le_trans ((le_available_iff hc (by omega) t).1 hfit) (refilled_mono b c hle)
  refine ⟨fun b' hb' => ?_, fun hnone c hc => ?_⟩
  · rw [track_of_at? hb'] at hb
    cases hb
    exact hcov
  · rw [at?_track] at hb
    split at hb
    · cases hb
      exact hcov.le_burst hc
    · rw [hnone] at hb; cases hb

/-- A packet within the reserved preview is admitted together with all the
packets that wait, in any order and at any readings from the preview on, as long
as the key keeps its bucket, nothing else is charged to it and it is not
reconfigured. -/
theorem queued_released_in_full (e : Egress κ) (key : κ) (overhead t : Nat) (waiting : List Bytes)
    (data : Bytes) (ops : List (Op κ)) (hpos : 0 < chargeOf data overhead)
    (hfit : chargeOf data overhead ≤
      (e.peerEgressAllowance key overhead waiting t).availableDataBytes)
    (hperm : (offeredFor key ops).Perm (data :: waiting))
    (halone : ChargedAlone key overhead t (e.bucketOf key) e ops)
    (hkeep : KeepsBucket key (e.bucketOf key) e ops) :
    ∀ a ∈ answersFor key e ops, a = true := by
  refine answers_of_funded key overhead t (e.bucketOf key) ops e halone hkeep ?_
  rw [(hperm.map (chargeOf · overhead)).sum_eq]
  exact funded_of_preview hpos hfit

/-- Two packets wait, and a third is sent first and last, later than the preview. -/
theorem queued_released_in_full_paced :
    (answersFor 1 paced [.admitAt 1 [4, 4] 28 9, .admitAt 2 [5] 28 3, .admitAt 1 [5, 0] 28 11,
      .admitAt 1 [5] 28 12]).all id = true :=
  List.all_eq_true.2 (queued_released_in_full paced 1 28 7 [[5], [4, 4]] [5, 0] _ (by decide)
    (by decide +kernel) (by decide) ⟨by decide, by decide +kernel, by decide, by decide, trivial⟩
    ⟨fun _ => rfl, fun h => absurd h (by decide), fun _ => by decide +kernel,
      fun _ => by decide +kernel, trivial⟩)

/-! ## A key that loses its place -/

/-- `n` keys have sent one packet each. -/
def filled (n : Nat) : Egress Nat := paced.run ((List.range n).map fun k => .admitAt k [5] 28 0)

theorem filled_eq (n : Nat) : filled n = (new .nativeUdpIp).run
    (.configure (some policy) 0 :: (List.range n).map fun k => .admitAt k [5] 28 0) := rfl

theorem filled_succ (n : Nat) : filled (n + 1) = (filled n).step (.admitAt n [5] 28 0) := by
  simp only [filled, run, List.range_succ, List.map_append, List.foldl_append]
  rfl

theorem overflow_admitAt_tracked {e : Egress κ} {key : κ} {payload : Bytes} {overhead now : Nat}
    (h : e.bucketOf key ≠ .overflow) :
    (e.admitAt key payload overhead now).1.overflow = e.overflow := by
  obtain ⟨b, -, -, -, -, hat⟩ := admitAt_spec e key payload overhead now
  have hover := hat .overflow
  rw [slot_track, if_neg h.symm, at?_track, if_neg (by simp)] at hover
  exact Option.some.inj hover

theorem filled_spec : ∀ {n : Nat}, n ≤ MAX_PEERS →
    (filled n).buckets.len = n ∧ (∀ k, k ∈ (filled n).buckets ↔ k < n) ∧
      (filled n).overflow = paced.overflow ∧ (filled n).config = some policy
  | 0, _ => ⟨rfl, fun k => ⟨fun h => absurd h (AList.notMem_empty k), fun h => absurd h (by omega)⟩,
      rfl, rfl⟩
  | n + 1, hn => by
    obtain ⟨hlen, hmem, hover, hcfg⟩ := filled_spec (Nat.le_of_succ_le hn)
    have hnew : n ∉ (filled n).buckets := fun h => Nat.lt_irrefl n ((hmem n).1 h)
    have hroom : (filled n).buckets.len < MAX_PEERS := by omega
    have htrack : (filled n).track n 0 = { filled n with
        buckets := (filled n).buckets.insert n (Bucket.new (filled n).basis (filled n).config 0) } :=
      if_pos ⟨hnew, hroom⟩
    obtain ⟨hbuckets, hcount⟩ := buckets_admitAt (filled n) n [5] 28 0
    rw [htrack] at hbuckets hcount
    rw [filled_succ]
    refine ⟨?_, fun k => ?_, ?_, ?_⟩
    · refine hcount.trans ?_
      rw [HashMap.len_insert, if_neg hnew, hlen]
    · refine (hbuckets k).trans ?_
      rw [HashMap.mem_insert, hmem]
      omega
    · refine (overflow_admitAt_tracked ?_).trans hover
      simp [bucketOf, hroom]
    · exact (step_config (filled n) (.admitAt n [5] 28 0) rfl).trans hcfg

/-- With one place left, a newcomer takes it and the table is full. -/
theorem last_place {e : Egress κ} {k key : κ} (payload : Bytes) (overhead now : Nat)
    (hlen : e.buckets.len + 1 = MAX_PEERS) (hk : k ∉ e.buckets) (hkey : key ∉ e.buckets)
    (hne : key ≠ k) :
    e.bucketOf k = .peer k ∧ e.bucketOf key = .peer key ∧
      (e.step (.admitAt k payload overhead now)).bucketOf key = .overflow ∧
      (e.step (.admitAt k payload overhead now)).overflow = e.overflow := by
  have hroom : e.buckets.len < MAX_PEERS := by omega
  have hown : e.bucketOf k = .peer k := by simp [bucketOf, hroom]
  have htrack : e.track k now = { e with
      buckets := e.buckets.insert k (Bucket.new e.basis e.config now) } := if_pos ⟨hk, hroom⟩
  obtain ⟨hmem, hcount⟩ := buckets_admitAt e k payload overhead now
  rw [htrack] at hmem hcount
  refine ⟨hown, by simp [bucketOf, hroom], if_neg ?_, overflow_admitAt_tracked (by simp [hown])⟩
  intro h
  rcases h with h | h
  · rcases HashMap.mem_insert.1 ((hmem key).1 h) with h | h
    · exact hne h
    · exact hkey h
  · have hfull := hcount
    rw [HashMap.len_insert, if_neg hk] at hfull
    simp only [step] at h
    omega

/-- In every such state the preview for 6000 promises a whole burst; 5000 takes
the place, in a bucket of its own; 6000 falls to the overflow bucket, which
nobody has used and which holds nothing yet. -/
theorem refused_without_place (e : Egress Nat) (hlen : e.buckets.len = 4095) (h5000 : 5000 ∉ e.buckets)
    (h6000 : 6000 ∉ e.buckets) (hover : e.overflow = paced.overflow) (hcfg : e.config = some policy) :
    chargeOf [5] 28 ≤ (e.peerEgressAllowance 6000 28 [] 0).availableDataBytes ∧
      ChargedAlone 6000 28 0 (e.bucketOf 6000) e
        [.admitAt 5000 [5] 28 0, .admitAt 6000 [5] 28 0] ∧
      answersFor 6000 e [.admitAt 5000 [5] 28 0, .admitAt 6000 [5] 28 0] = [false] := by
  obtain ⟨hown, hplace, hfull, hsame⟩ := last_place [5] 28 0 (by rw [hlen]; rfl) h5000 h6000 (by decide)
  refine ⟨?_, ⟨?_, ⟨rfl, Nat.le_refl 0⟩, trivial⟩, ?_⟩
  · have hpre : e.peerAllowance 6000 0 = (Bucket.new e.basis (some policy) 0).allowance 0 := by
      simp only [peerAllowance, HashMap.not_mem_iff_get.1 h6000, hlen, hcfg]
      rfl
    rw [peerEgressAllowance, hpre]
    cases e.basis <;> decide +kernel
  · show e.bucketOf 5000 ≠ e.bucketOf 6000
    rw [hown, hplace]
    decide
  · obtain ⟨b, hb, hacc, -⟩ := admitAt_spec (e.step (.admitAt 5000 [5] 28 0)) 6000 [5] 28 0
    rw [slot_track, hfull, at?_track, if_neg (by simp)] at hb
    have hbucket : b = paced.overflow := by
      rw [← hover, ← hsame]; exact (Option.some.inj hb).symm
    have hno : (paced.overflow.admitOne (chargeOf [5] 28) (isControl [5]) 0).2 = false := by
      decide +kernel
    simp only [answersFor]
    rw [hacc, hbucket, hno]
    rfl

/-- A data packet inside the preview, released with nothing else charged to the
key's bucket, and refused: 4095 keys were tracked at the preview. -/
theorem newcomer_refused :
    0 < chargeOf [5] 28 ∧ isControl [5] = false ∧
      chargeOf [5] 28 ≤ ((filled 4095).peerEgressAllowance 6000 28 [] 0).availableDataBytes ∧
      (offeredFor 6000 [.admitAt 5000 [5] 28 0, .admitAt 6000 [5] 28 0]).Perm ([5] :: []) ∧
      ChargedAlone 6000 28 0 ((filled 4095).bucketOf 6000) (filled 4095)
        [.admitAt 5000 [5] 28 0, .admitAt 6000 [5] 28 0] ∧
      answersFor 6000 (filled 4095) [.admitAt 5000 [5] 28 0, .admitAt 6000 [5] 28 0] = [false] := by
  have hn : 4095 ≤ MAX_PEERS := by decide
  obtain ⟨hlen, hmem, hover, hcfg⟩ := filled_spec hn
  have h5000 : 5000 ∉ (filled 4095).buckets := fun h => absurd ((hmem 5000).1 h) (by decide)
  have h6000 : 6000 ∉ (filled 4095).buckets := fun h => absurd ((hmem 6000).1 h) (by decide)
  obtain ⟨hfit, halone, hanswer⟩ := refused_without_place (filled 4095) hlen h5000 h6000 hover hcfg
  exact ⟨by decide, by decide, hfit, by decide, halone, hanswer⟩

end Egress
end RenetCross.L2
