import RenetCross.L4App.MixedEntries

/-!
# Queued payloads and the entries they find

Netcode returns a payload for a client it has; by the time the payload is handled
the client may have been disconnected, or turned away as a duplicate. `Paid` says of
every queued payload that its client will be in `connected_client_ids` when its turn
comes, or else why the entry it finds is nobody else's: the client was disconnected
within the same operation, in which the other backend does nothing. The exception is
a client that is turned away while its payload is in the vector being handled, which
a `clean` trace rules out.
-/
namespace RenetCross.L4

open RenetCross.L2 Relation

variable {N R S W : Type} [NetcodeServer N] [Rtc R] [RenetServer S]

/-! ## Queued payloads -/

/-- No result of the list connects or disconnects `c`. -/
def Silent (c : ClientId) (queue : List Outcome) : Prop :=
  ∀ o ∈ queue, o.result.connects ≠ some c ∧ o.result.disconnects ≠ some c

theorem Silent.tail {c : ClientId} {o : Outcome} {queue : List Outcome} (h : Silent c (o :: queue)) :
    Silent c queue := fun o' ho' => h o' (List.mem_cons_of_mem _ ho')

/-- Once a result connects or disconnects `c`, what was before does not matter. -/
theorem settles_or_silent (c : ClientId) : ∀ (queue : List Outcome),
    Silent c queue ∨ ∀ was was', settles c was queue = settles c was' queue
  | [] => .inl fun o ho => absurd ho List.not_mem_nil
  | o :: queue => by
    by_cases h1 : o.result.connects = some c
    · exact .inr fun was was' => by simp [OwnedServerResult.leaves, h1]
    · by_cases h2 : o.result.disconnects = some c
      · exact .inr fun was was' => by simp [OwnedServerResult.leaves, h1, h2]
      · rcases settles_or_silent c queue with h | h
        · refine .inl fun o' ho' => ?_
          rcases List.mem_cons.1 ho' with rfl | ho'
          · exact ⟨h1, h2⟩
          · exact h o' ho'
        · exact .inr fun was was' => by
            rw [settles_cons, settles_cons]
            exact h _ _

/-- The results not handled yet, without those of a drain that failed. -/
def Cfg.line (a : Cfg N R S W) : List Outcome :=
  a.frame.current.toList ++ a.st.applying ++ a.st.pendingServerResults ++
    if a.drive.failed then [] else a.drive.gathered

/-- How many of them are in hand or in the vector being handled. -/
def Cfg.taken (a : Cfg N R S W) : Nat := a.frame.current.toList.length + a.st.applying.length

/-- A payload of `c` behind the results `before`: `c` will be in
`connected_client_ids` when its turn comes; or `c` was turned away while the payload
was in the vector being handled; or, inside an operation, the entry it will find is
not the UDP half's. -/
def Entitled (inside : Prop) (a : Cfg N R S W) (c : ClientId) (before : List Outcome) : Prop :=
  settles c (a.st.connectedClientIds.has c) before = true ∨
  Silent c before ∧ (a.frame.ejected = some c ∨
    dismissed c a.st.trace = true ∧ before.length < a.taken) ∨
  inside ∧ creator a.st.trace c ≠ some .udp

def Paid (inside : Prop) (a : Cfg N R S W) : Prop :=
  ∀ before o behind c bytes, a.line = before ++ o :: behind → o.result = .payload c bytes →
    Entitled inside a c before

section
variable {inside : Prop} {a b : Cfg N R S W}

section

omit [NetcodeServer N] [Rtc R] [RenetServer S]

theorem Entitled.of_eq {c : ClientId} {before : List Outcome} (h : Entitled inside a c before)
    (hconn : b.st.connectedClientIds.has c = a.st.connectedClientIds.has c)
    (hej : a.frame.ejected = some c → b.frame.ejected = some c)
    (hdis : dismissed c a.st.trace = true → dismissed c b.st.trace = true)
    (htaken : a.taken ≤ b.taken)
    (hudp : creator b.st.trace c = some .udp → creator a.st.trace c = some .udp) :
    Entitled inside b c before := by
  rcases h with h | ⟨h1, h2⟩ | ⟨h1, h2⟩
  · exact .inl (hconn ▸ h)
  · exact .inr (.inl ⟨h1, h2.imp hej fun h => ⟨hdis h.1, h.2.trans_le htaken⟩⟩)
  · exact .inr (.inr ⟨h1, fun hc => h2 (hudp hc)⟩)

/-- The result in front of the payload is handled: what becomes of its client's
membership is said by the caller. -/
theorem Entitled.handled {c : ClientId} {o₀ : Outcome} {before : List Outcome}
    (h : Entitled inside a c (o₀ :: before)) (htaken : a.taken = b.taken + 1)
    (hconn : settles c (a.st.connectedClientIds.has c) (o₀ :: before) = true →
      Entitled inside b c before)
    (hej : a.frame.ejected = some c → b.frame.ejected = some c)
    (hdis : o₀.result.connects ≠ some c → dismissed c a.st.trace = true →
      dismissed c b.st.trace = true)
    (hudp : creator b.st.trace c = some .udp → creator a.st.trace c = some .udp) :
    Entitled inside b c before := by
  rcases h with h | ⟨hs, h⟩ | ⟨hin, h⟩
  · exact hconn h
  · refine .inr (.inl ⟨hs.tail, h.imp hej fun hd => ⟨hdis (hs o₀ List.mem_cons_self).1 hd.1, ?_⟩⟩)
    have hlt := hd.2
    rw [List.length_cons] at hlt
    omega
  · exact .inr (.inr ⟨hin, fun hc => h (hudp hc)⟩)

theorem Paid.of_eq (h : Paid inside a) (hline : b.line <+: a.line)
    (hconn : b.st.connectedClientIds = a.st.connectedClientIds)
    (hej : b.frame.ejected = a.frame.ejected)
    (hdis : ∀ c, dismissed c b.st.trace = dismissed c a.st.trace) (htaken : a.taken ≤ b.taken)
    (hudp : ∀ c, creator b.st.trace c = some .udp → creator a.st.trace c = some .udp) :
    Paid inside b := by
  intro before o behind c bytes heq ho
  obtain ⟨rest, hrest⟩ := hline
  rw [heq, List.append_assoc, List.cons_append] at hrest
  exact (h before o _ c bytes hrest.symm ho).of_eq (by rw [hconn]) (fun he => hej.trans he)
    (fun hd => (hdis c).trans hd) htaken (hudp c)

/-- The result in hand is handled. -/
theorem Paid.handled (h : Paid inside a) {o₀ : Outcome} (hline : a.line = o₀ :: b.line)
    (hb : ∀ c before, Entitled inside a c (o₀ :: before) → Entitled inside b c before) :
    Paid inside b := by
  intro before o behind c bytes heq ho
  refine hb c before (h (o₀ :: before) o behind c bytes ?_ ho)
  rw [hline, heq]
  rfl

/-- The result in hand says nothing about anybody's connection. -/
theorem Paid.passed (h : Paid inside a) {o₀ : Outcome} (hline : a.line = o₀ :: b.line)
    (hmute : ∀ c, o₀.result.connects ≠ some c ∧ o₀.result.disconnects ≠ some c)
    (hconn : b.st.connectedClientIds = a.st.connectedClientIds)
    (hej : b.frame.ejected = a.frame.ejected)
    (hdis : ∀ c, dismissed c b.st.trace = dismissed c a.st.trace) (htaken : a.taken = b.taken + 1)
    (hudp : ∀ c, creator b.st.trace c = creator a.st.trace c) : Paid inside b := by
  refine h.handled hline fun c before hb => hb.handled htaken (fun hc => .inl ?_)
    (fun he => hej.trans he) (fun _ hd => (hdis c).trans hd) fun hu => (hudp c).symm.trans hu
  rw [settles_cons, leaves_of_ne _ (hmute c).1 (hmute c).2] at hc
  exact hconn ▸ hc

/-- A result joins the end of the line. -/
theorem Paid.appended (h : Paid inside a) {x : Outcome} (hline : b.line = a.line ++ [x])
    (hconn : b.st.connectedClientIds = a.st.connectedClientIds)
    (hej : b.frame.ejected = a.frame.ejected)
    (hdis : ∀ c, dismissed c b.st.trace = dismissed c a.st.trace) (htaken : a.taken ≤ b.taken)
    (hudp : ∀ c, creator b.st.trace c = creator a.st.trace c)
    (hnew : ∀ c bytes, x.result = .payload c bytes → Entitled inside b c a.line) : Paid inside b := by
  intro before o behind c bytes heq ho
  rw [hline] at heq
  rcases List.eq_nil_or_concat behind with rfl | ⟨behind', last, rfl⟩
  · cases List.append_inj_right' heq rfl
    rw [← List.append_inj_left' heq rfl]
    exact hnew c bytes ho
  · have hfront : a.line = before ++ o :: behind' := by
      have : a.line ++ [x] = (before ++ o :: behind') ++ [last] := by
        rw [heq]
        simp
      exact List.append_inj_left' this rfl
    exact (h before o behind' c bytes hfront ho).of_eq (by rw [hconn]) (fun he => hej.trans he)
      (fun hd => (hdis c).trans hd) htaken fun hc => (hudp c).symm.trans hc

end

end

omit [NetcodeServer N] [Rtc R] [RenetServer S] in
/-- Nothing of a drain that did not fail is left out of the line. -/
theorem Cfg.line_eq_queue {a : Cfg N R S W} (h : a.drive.failed = false) : a.line = a.queue := by
  unfold line queue
  rw [h]
  rfl

omit [Rtc R] in
/-- A netcode call outside a drain, made with no vector being handled. A client it
disconnects leaves with an entry of this half. -/
theorem paid_severed {inside : Prop} {s : WebRtcState N R S W} {d : Drive R} {f : Frame} (f' : Frame)
    {c₁ : ClientId} {r : N × ServerResult} (hown : OwnInv ⟨s, d, f⟩) (h : Paid inside ⟨s, d, f⟩)
    (hspec : ClientSpec s.netcodeServer r.1 c₁ r.2) (happ : s.applying = []) (hcur : f.current = none)
    (hej : f.ejected = none) (hcur' : f'.current = some (s.severedOutcome c₁ r)) (hin : inside) :
    Paid inside ⟨s.severed r, d, f'⟩ := by
  have hline : Cfg.line ⟨s.severed r, d, f'⟩ = s.severedOutcome c₁ r :: Cfg.line ⟨s, d, f⟩ := by
    rw [WebRtcState.severed_frame]
    simp only [Cfg.line, hcur, hcur']
    rfl
  have hquiet : (s.severedOutcome c₁ r).result.connects = none := hspec.quiet
  intro before o behind c bytes heq ho
  rw [hline] at heq
  cases before with
  | nil =>
    cases heq
    have hr : toOwnedServerResult r.2 = .payload c bytes := ho
    obtain ⟨n, result⟩ := r
    cases result with
    | payload id payload => exact hspec.elim
    | _ => cases hr
  | cons x before =>
    rw [List.cons_append, List.cons.injEq] at heq
    obtain ⟨rfl, heq⟩ := heq
    have hconn : (s.severed r).connectedClientIds = s.connectedClientIds := by
      rw [WebRtcState.severed_frame]
    rcases h before o behind c bytes heq ho with hb | ⟨_, he | ⟨_, hlt⟩⟩ | ⟨_, hb⟩
    · by_cases hc : (s.severedOutcome c₁ r).result.disconnects = some c
      · cases hhas : s.connectedClientIds.has c with
        | true =>
          -- the entry is this half's, and stays so until the payload's turn
          refine .inr (.inr ⟨hin, ?_⟩)
          rw [creator_severed, hown.connected c (HashMap.has_iff.1 hhas)]
          exact fun heq => by cases heq
        | false =>
          refine .inl ?_
          have hleave : (s.severedOutcome c₁ r).result.leaves c false = false := by
            simp [OwnedServerResult.leaves, hc, hquiet]
          rw [hconn, hhas, settles_cons, hleave]
          simpa only [hhas] using hb
      · refine .inl ?_
        rw [hconn, settles_cons, leaves_of_ne _ (by simp [hquiet]) hc]
        exact hb
    · rw [show f.ejected = none from hej] at he
      cases he
    · simp [Cfg.taken, hcur, happ] at hlt
    · exact .inr (.inr ⟨hin, by rw [creator_severed]; exact hb⟩)

theorem concerns_payload {r : OwnedServerResult} {c : ClientId} {bytes : Bytes}
    (h : r = .payload c bytes) : r.concerns c = true := by
  rw [h]
  exact decide_eq_true rfl

/-- The results `remove_peer(c₁)` leaves, in front of one of another client. -/
theorem filter_split {keep : Outcome → Bool} {o : Outcome} :
    ∀ {xs before behind : List Outcome}, xs.filter keep = before ++ o :: behind →
      ∃ front rest, xs = front ++ o :: rest ∧ before = front.filter keep
  | [], before, behind, h => by
    cases before <;> cases h
  | x :: xs, before, behind, h => by
    rw [List.filter_cons] at h
    split at h
    · cases before with
      | nil =>
        cases h
        exact ⟨[], xs, rfl, rfl⟩
      | cons y before =>
        rw [List.cons_append, List.cons.injEq] at h
        obtain ⟨rfl, h⟩ := h
        obtain ⟨front, rest, rfl, rfl⟩ := filter_split h
        rename_i hk
        exact ⟨x :: front, rest, rfl, by rw [List.filter_cons, if_pos hk]⟩
    · rename_i hk
      obtain ⟨front, rest, rfl, rfl⟩ := filter_split h
      exact ⟨x :: front, rest, rfl, by rw [List.filter_cons, if_neg hk]⟩

omit [Rtc R] [RenetServer S] in
/-- `remove_peer(c₁)`. A payload of `c₁` that stays behind is in the vector being
handled. -/
theorem paid_expel {inside : Prop} {s : WebRtcState N R S W} {d : Drive R} {f : Frame} {c₁ : ClientId}
    (h : Paid inside ⟨s, d, f⟩) (hej : f.ejected = some c₁ ∨ f.ejected = none ∧ s.applying = [])
    (hg : d.gathered = []) (hcur : f.current = none) :
    Paid inside ⟨s.expelled c₁, d, { f with ejected := none }⟩ := by
  have hgath : (if d.failed then ([] : List Outcome) else d.gathered) = [] := by
    rw [hg]
    exact ite_self _
  have hline : Cfg.line ⟨s, d, f⟩ = s.applying ++ s.pendingServerResults := by
    simp only [Cfg.line, hcur, hgath, Option.toList_none, List.nil_append, List.append_nil]
  have hcreator : ∀ c, creator (s.expelled c₁).trace c = creator s.trace c := fun c => by
    rw [WebRtcState.expelled_toShared]
    rfl
  have hdis : ∀ c, dismissed c (s.expelled c₁).trace = (decide (c₁ = c) || dismissed c s.trace) :=
    fun c => by
      rw [WebRtcState.expelled_toShared]
      rfl
  have hhas : ∀ c, c ≠ c₁ →
      (s.expelled c₁).connectedClientIds.has c = s.connectedClientIds.has c := fun c hc => by
    rw [Bool.eq_iff_iff]
    simp [WebRtcState.mem_connected_expelled, hc]
  have hnot : ∀ c, c ≠ c₁ → f.ejected ≠ some c := by
    intro c hc he
    rcases hej with hej | ⟨hej, _⟩
    · exact hc (Option.some.inj (he.symm.trans hej))
    · rw [hej] at he
      cases he
  -- a payload in the filtered part belongs to another client
  have hbehind : ∀ xs o behind c bytes,
      (s.pendingServerResults.filter fun o => !o.result.concerns c₁) = xs ++ o :: behind →
      o.result = .payload c bytes →
      Entitled inside ⟨s.expelled c₁, d, { f with ejected := none }⟩ c (s.applying ++ xs) := by
    intro xs o behind c bytes heq ho
    have hkeep : o ∈ s.pendingServerResults.filter fun o => !o.result.concerns c₁ := by
      rw [heq]
      exact List.mem_append_right _ List.mem_cons_self
    have hcc : c ≠ c₁ := by
      rintro rfl
      have hk := (List.mem_filter.1 hkeep).2
      rw [concerns_payload ho] at hk
      cases hk
    obtain ⟨front, rest, hfront, rfl⟩ := filter_split heq
    rcases h (s.applying ++ front) o rest c bytes (by rw [hline, hfront, List.append_assoc]) ho with
      hb | ⟨_, he | ⟨_, hlt⟩⟩ | ⟨hin, hb⟩
    · refine .inl ?_
      rw [hhas c hcc, settles_append, settles_filter hcc, ← settles_append]
      exact hb
    · exact absurd he (hnot c hcc)
    · simp only [Cfg.taken, hcur, Option.toList_none, List.length_nil, List.length_append] at hlt
      omega
    · exact .inr (.inr ⟨hin, by rw [hcreator]; exact hb⟩)
  intro before o behind c bytes heq ho
  have heq' : s.applying ++ (s.pendingServerResults.filter fun o => !o.result.concerns c₁) =
      before ++ o :: behind := by
    rw [← heq]
    simp only [Cfg.line, hcur, hgath, Option.toList_none, List.nil_append, List.append_nil,
      WebRtcState.expelled_applying, WebRtcState.expelled_pending]
  rcases List.append_eq_append_iff.1 heq' with ⟨xs, rfl, hxs⟩ | ⟨xs, happ, hxs⟩
  · exact hbehind xs o behind c bytes hxs ho
  · cases xs with
    | nil =>
      rw [List.append_nil] at happ
      rw [← happ, ← List.append_nil s.applying]
      exact hbehind [] o behind c bytes hxs.symm ho
    | cons x xs =>
      rw [List.cons_append, List.cons.injEq] at hxs
      obtain ⟨rfl, _⟩ := hxs
      have hb := h before o (xs ++ s.pendingServerResults) c bytes
        (by rw [hline, happ, List.append_assoc, List.cons_append]) ho
      have hlen : before.length < s.applying.length := by
        rw [happ, List.length_append, List.length_cons]
        omega
      have htaken : before.length <
          Cfg.taken (⟨s.expelled c₁, d, { f with ejected := none }⟩ : Cfg N R S W) := by
        simpa only [Cfg.taken, hcur, Option.toList_none, List.length_nil,
          WebRtcState.expelled_applying, Nat.zero_add] using hlen
      by_cases hcc : c = c₁
      · have hgone : dismissed c (s.expelled c₁).trace = true := by
          rw [hdis, hcc]
          simp
        rcases hb with hb | ⟨hs, _⟩ | ⟨hin, hb⟩
        · rcases settles_or_silent c before with hs | hs
          · exact .inr (.inl ⟨hs, .inr ⟨hgone, htaken⟩⟩)
          · exact .inl ((hs _ _).trans hb)
        · exact .inr (.inl ⟨hs, .inr ⟨hgone, htaken⟩⟩)
        · exact .inr (.inr ⟨hin, by rw [hcreator]; exact hb⟩)
      · rcases hb with hb | ⟨hs, he | ⟨hd, _⟩⟩ | ⟨hin, hb⟩
        · exact .inl (by rw [hhas c hcc]; exact hb)
        · exact absurd he (hnot c hcc)
        · exact .inr (.inl ⟨hs, .inr ⟨by rw [hdis, hd, Bool.or_true], htaken⟩⟩)
        · exact .inr (.inr ⟨hin, by rw [hcreator]; exact hb⟩)

omit [NetcodeServer N] [Rtc R] [RenetServer S] in
theorem line_handled {s s' : WebRtcState N R S W} {d : Drive R} {f g : Frame} {o : Outcome}
    (hcur : f.current = some o) (hcur' : g.current = none) (happ : s'.applying = s.applying)
    (hpend : s'.pendingServerResults = s.pendingServerResults) :
    Cfg.line ⟨s, d, f⟩ = o :: Cfg.line ⟨s', d, g⟩ := by
  simp only [Cfg.line, hcur, hcur', happ, hpend, Option.toList_some, Option.toList_none,
    List.nil_append, List.cons_append]

omit [NetcodeServer N] [Rtc R] [RenetServer S] in
theorem taken_handled {s s' : WebRtcState N R S W} {d : Drive R} {f g : Frame} {o : Outcome}
    (hcur : f.current = some o) (hcur' : g.current = none) (happ : s'.applying = s.applying) :
    Cfg.taken ⟨s, d, f⟩ = Cfg.taken ⟨s', d, g⟩ + 1 := by
  simp only [Cfg.taken, hcur, hcur', happ, Option.toList_some, Option.toList_none, List.length_nil,
    List.length_singleton]
  omega

theorem paid_act [LawfulNetcode N] {inside : Prop} {a b : Cfg N R S W} (hown : OwnInv a)
    (hupheld : ∀ c, Upheld a c) (h : Paid inside a) (hact : Act a b)
    (hin : inside ∨ b.frame.current = none) : Paid inside b := by
  cases hact with
  | @gate s d f g sh hg =>
    exact h.of_eq List.prefix_rfl rfl rfl (fun c => by rw [hg.trace]) (Nat.le_refl _)
      fun c => by rw [hg.trace]; exact fun hc => hc
  | @stockIn s d f c packet sh hp hg =>
    exact h.of_eq List.prefix_rfl rfl rfl (fun c => by rw [hg.trace]) (Nat.le_refl _)
      fun c => by rw [hg.trace]; exact fun hc => hc
  | @stockOut s d f c packet sh hp hg =>
    exact h.of_eq List.prefix_rfl rfl rfl (fun c => by rw [hg.trace]) (Nat.le_refl _)
      fun c => by rw [hg.trace]; exact fun hc => hc
  | @process s d f c c' p packet r hhand hparcel hc hr hid =>
    have hs := LawfulNetcode.processPacket s.netcodeServer p.virtualAddr packet.bytes
    rw [← hr] at hs
    cases hf : d.failed with
    | true =>
      refine h.of_eq ?_ rfl rfl (fun _ => rfl) (Nat.le_refl _) fun _ hc => hc
      simp only [Cfg.line, hf, if_true, WebRtcState.log]
      exact List.prefix_rfl
    | false =>
      refine h.appended (x := ⟨toOwnedServerResult r.2, packet.tag⟩) ?_ rfl rfl (fun _ => rfl)
        (Nat.le_refl _) (fun _ => rfl) fun id bytes hpay => .inl ?_
      · simp [Cfg.line, hf, WebRtcState.log]
      · -- netcode has the client whose payload it returns
        have hheld : Held s.netcodeServer id := by
          obtain ⟨n, result⟩ := r
          cases result with
          | payload id' payload =>
            cases hpay
            intro hnone
            rw [hs.1] at hnone
            cases hnone
          | _ => cases hpay
        rw [Cfg.line_eq_queue hf]
        refine (hupheld id).resolve_left (fun hd => ?_) hheld
        rw [hd.1] at hf
        cases hf
  | @commit s d f hf =>
    refine h.of_eq ?_ rfl rfl (fun _ => rfl) (Nat.le_refl _) fun _ hc => hc
    simp only [Cfg.line, hf, List.append_assoc, List.append_nil, Bool.false_eq_true, if_false]
    exact List.prefix_rfl
  | @lose s d f c p hhand =>
    refine h.of_eq ?_ rfl rfl (fun _ => rfl) (Nat.le_refl _) fun _ hc => hc
    simp only [Cfg.line, if_true, WebRtcState.log, List.append_nil]
    exact List.prefix_append _ _
  | @tearDown s d f c p hhand hg hd =>
    have hspec := LawfulNetcode.disconnect s.netcodeServer c
    refine h.appended (x := ⟨toOwnedServerResult (NetcodeServer.disconnect s.netcodeServer c).2,
      s.tagNow c⟩) ?_ rfl rfl (fun _ => rfl) (Nat.le_refl _) (fun _ => rfl) fun id bytes hpay => ?_
    · simp [Cfg.line, hg, WebRtcState.tornDown, WebRtcState.dropRoutes, WebRtcState.tagNow]
    · set r := NetcodeServer.disconnect s.netcodeServer c
      obtain ⟨n, result⟩ := r
      cases result with
      | payload id' payload => exact hspec.elim
      | _ => cases hpay
  | @takePending s d f happ hbet hg =>
    refine h.of_eq ?_ rfl rfl (fun _ => rfl) ?_ fun _ hc => hc
    · simp only [Cfg.line, happ, List.append_nil, List.append_assoc]
      exact List.prefix_rfl
    · simp [Cfg.taken, happ]
  | @take s d f o rest happ hbet =>
    refine h.of_eq ?_ rfl rfl (fun _ => rfl) ?_ fun _ hc => hc
    · simp only [Cfg.line, happ, hbet.current, Option.toList_none, Option.toList_some,
        List.nil_append, List.cons_append]
      exact List.prefix_rfl
    · simp only [Cfg.taken, happ, hbet.current, Option.toList_none, Option.toList_some,
        List.length_nil, List.length_cons]
      omega
  | @dismiss s d f o hcur h1 h2 =>
    exact h.passed (line_handled hcur rfl rfl rfl) (fun c => by simp [h1, h2]) rfl rfl (fun _ => rfl)
      (taken_handled hcur rfl rfl) fun _ => rfl
  | @route s d f o addr payload hcur ho hhand =>
    have hmute : ∀ c, o.result.connects ≠ some c ∧ o.result.disconnects ≠ some c := fun c => by
      simp [ho, OwnedServerResult.connects, OwnedServerResult.disconnects]
    exact h.passed (line_handled hcur rfl rfl rfl) hmute rfl rfl (fun _ => rfl)
      (taken_handled hcur rfl rfl) fun _ => rfl
  | @deliver s d f o c payload hcur ho =>
    have hmute : ∀ c, o.result.connects ≠ some c ∧ o.result.disconnects ≠ some c := fun c => by
      simp [ho, OwnedServerResult.connects, OwnedServerResult.disconnects]
    exact h.passed (line_handled hcur rfl rfl rfl) hmute rfl rfl (fun _ => rfl)
      (taken_handled hcur rfl rfl) fun _ => rfl
  | @connect s d f o c₁ addr payload hcur ho hconn =>
    have happ : (s.admitClient c₁ addr o.tag).applying = s.applying := rfl
    refine h.handled (line_handled hcur rfl happ rfl) fun c before hb =>
      hb.handled (taken_handled (d := d) hcur rfl happ) (fun hc => .inl ?_) (fun he => he)
        (fun hne hd => ?_) fun hu => ?_
    · rw [settles_cons, ho, ← leaves_connected s c c₁ addr payload o.tag] at hc
      exact hc
    · have hcc : c₁ ≠ c := fun heq => hne (by rw [ho, heq]; rfl)
      show (!decide (c₁ = c) && dismissed c s.trace) = true
      rw [hd]
      simp [hcc]
    · have hu' : creator (.addConnection .webRtc c₁ _ _ _ :: s.trace) c = some .udp := hu
      simp only [creator] at hu'
      split at hu'
      · cases hu'
      · exact hu'
  | @reject s d f o c₁ addr payload hcur ho hconn hej =>
    have happ : (s.disconnectDuplicate c₁).applying = s.applying := rfl
    refine h.handled (line_handled hcur rfl happ rfl) fun c before hb =>
      hb.handled (taken_handled (d := d) hcur rfl happ) (fun hc => ?_) (fun he => ?_)
        (fun _ hd => hd) fun hu => hu
    · by_cases hcc : c₁ = c
      · -- what is left to connect or disconnect the client decides, or nothing does
        rcases settles_or_silent c before with hs | hs
        · exact .inr (.inl ⟨hs, .inl (congrArg some hcc)⟩)
        · exact .inl ((hs _ _).trans hc)
      · have h1 : o.result.connects ≠ some c := by
          rw [ho]
          exact fun heq => hcc (Option.some.inj heq)
        have h2 : o.result.disconnects ≠ some c := by
          rw [ho]
          exact fun heq => by cases heq
        rw [settles_cons, leaves_of_ne _ h1 h2] at hc
        exact .inl hc
    · rw [show f.ejected = none from hej] at he
      cases he
  | @expel s d f c₁ hej hhand hg hd hcur => exact paid_expel h hej hg hcur
  | @register s d f c₁ rtc hp hfree hconn hw happ hhand hg hcur =>
    intro before o behind c bytes heq ho
    rcases h before o behind c bytes heq ho with hb | ⟨hs, he | ⟨_, hlt⟩⟩ | hb
    · exact .inl hb
    · exact .inr (.inl ⟨hs, .inl he⟩)
    · simp [Cfg.taken, hcur, happ] at hlt
    · exact .inr (.inr hb)
  | @release s d f o c₁ addr payload hcur ho =>
    have happ : (s.releaseClient c₁ addr).applying = s.applying := by
      rw [WebRtcState.releaseClient_frame]
    have hpend : (s.releaseClient c₁ addr).pendingServerResults = s.pendingServerResults := by
      rw [WebRtcState.releaseClient_frame]
    refine h.handled (line_handled hcur rfl happ hpend) fun c before hb =>
      hb.handled (taken_handled (d := d) hcur rfl happ) (fun hc => .inl ?_) (fun he => he)
        (fun _ hd => ?_) fun hu => ?_
    · rw [settles_cons, ho, leaves_disconnected] at hc
      exact hc
    · rcases s.releaseClient_cases c₁ addr with ⟨_, _, ht⟩ | ⟨_, _, ht⟩
      · rw [ht]
        exact hd
      · rw [ht]
        exact hd
    · rcases s.releaseClient_cases c₁ addr with ⟨_, _, ht⟩ | ⟨_, _, ht⟩
      · rw [ht, creator_removeConnection] at hu
        split at hu
        · cases hu
        · exact hu
      · rw [ht] at hu
        exact hu
  | @settle s d f c₁ r hspec happ hbet hg =>
    exact paid_severed { f with current := some (s.severedOutcome c₁ r) } hown h hspec happ hbet.current
      hbet.ejected rfl (hin.resolve_right fun hnone => by cases hnone)
  | @rollNext s d f c₁ rest r hspec happ hcur hdoom hej hroll hg =>
    exact paid_severed { f with current := some (s.severedOutcome c₁ r), roll := some rest } hown h
      hspec.clientSpec happ hcur hej rfl (hin.resolve_right fun hnone => by cases hnone)
  | @removeNext s d f c₁ rest hrest =>
    refine h.of_eq List.prefix_rfl rfl rfl (fun _ => rfl) (Nat.le_refl _) fun c hc => ?_
    have hc' : creator (.removeConnection .webRtc c₁ _ :: s.trace) c = some .udp := hc
    rw [creator_removeConnection] at hc'
    split at hc'
    · cases hc'
    · exact hc'
  | _ => exact h.of_eq List.prefix_rfl rfl rfl (fun _ => rfl) (Nat.le_refl _) fun _ hc => hc

end RenetCross.L4
