import RenetCross.L4App.WebRtcIdentity

/-!
# A replaced peer inherits nothing

When `remove_peer` or `add_peer` takes a client's peer away, traces of the old
session may be left in netcode's slot, in `connected_client_ids`, in the vector
of results, in the conditioner's queues of both directions and in the
`RenetServer`. `replaced_peer_inherits_nothing`: from the moment the call
returns, whatever happens next, nothing that came in on the old `Rtc` and
nothing netcode made for it is passed on; the slot is free; and the old entry of
the `RenetServer` is removed before the transport adds one for that client
again. What belongs to other clients is as it was.

Tags are dated with the length of the trace, so what was made before a call and
what is made after it can be told apart (`Dated`).
-/
namespace RenetCross.L4

open RenetCross.L2

variable {N R S W : Type} [NetcodeServer N] [Rtc R] [RenetServer S]

/-! ## Dates -/

/-- No tag is from the future. -/
structure Dated (a : Cfg N R S W) : Prop where
  carried : ∀ c p, Carried a c p → p.tag.at_ ≤ a.st.trace.length
  posted : ∀ c p, Posted a c p → p.tag.at_ ≤ a.st.trace.length
  queue : ∀ o ∈ a.queue, o.tag.at_ ≤ a.st.trace.length
  arrived : ∀ p, .arrived p ∈ a.st.trace → p.tag.at_ < a.st.trace.length

theorem dated_act [LawfulNetcode N] {a b : Cfg N R S W} (ok : GateOk a.st.packetGate a.st.conds)
    (h : Dated a) (hact : Act a b) : Dated b := by
  have hle := (trace_suffix hact).length_le
  refine ⟨fun c p hp => ?_, fun c p hp => ?_, fun o ho => ?_, fun p hp => ?_⟩
  · rcases carried_act ok hact hp with hp | ⟨_, htag, _⟩
    · exact (h.carried c p hp).trans hle
    · rw [htag]
      exact hle
  · rcases posted_act ok hact hp with hp | htag | ⟨o, hcur, _, htag⟩
    · exact (h.posted c p hp).trans hle
    · rw [htag]
      exact hle
    · rw [htag]
      exact (h.queue o (Cfg.mem_queue.2 (.inl hcur))).trans hle
  · rcases queue_act hact ho with ho | ho
    · exact (h.queue o ho).trans hle
    · cases ho with
      | packet k c peer p r hhand hparcel hc hr hid ho =>
        rw [ho]
        exact (h.carried c p (.inl hparcel)).trans hle
      | call c r hspec hr htag _ hat => exact hat
  · rcases event_act hact with ht | ⟨e, ht, hcause⟩
    · rw [ht] at hp ⊢
      exact h.arrived p hp
    · rw [ht] at hp ⊢
      rcases List.mem_cons.1 hp with rfl | hp
      · obtain ⟨c, peer, _, htag⟩ := hcause
        rw [htag]
        exact Nat.lt_succ_self _
      · exact Nat.lt_succ_of_lt (h.arrived p hp)

/-! ## The old session's packets -/

/-- Made for `id` when the trace was shorter than `g`. -/
def Stale (id : ClientId) (g : Nat) (tag : Tag) : Prop := tag.peer = .webRtc id ∧ tag.at_ < g

/-- The call hands on what `tag` marks: to netcode, to the `RenetServer`, or to
the channel of `id`. -/
def Event.passes (id : ClientId) (tag : Tag) : Event → Prop
  | .processed p => p.tag = tag
  | .wrote c p => c = id ∧ p.tag = tag
  | .addConnection _ _ _ _ tag' => tag' = tag
  | .processPacketFrom _ _ _ _ p => p.tag = tag
  | _ => False

/-- Nothing of `id`'s session before `g` is in flight, or was passed on since. -/
structure ReplacedInv (id : ClientId) (g : Nat) (a : Cfg N R S W) : Prop where
  gate : GateOk a.st.packetGate a.st.conds
  length : g ≤ a.st.trace.length
  carried : ∀ c p, Carried a c p → ¬ Stale id g p.tag
  posted : ∀ p, Posted a id p → ¬ Stale id g p.tag
  queue : ∀ o ∈ a.queue, o.result ≠ .none → ¬ Stale id g o.tag
  trace : ∀ later e earlier tag, a.st.trace = later ++ e :: earlier → g ≤ earlier.length →
    Stale id g tag → ¬ e.passes id tag

omit [NetcodeServer N] [Rtc R] [RenetServer S] in
theorem ReplacedInv.fresh {id : ClientId} {g : Nat} {a : Cfg N R S W} (h : ReplacedInv id g a)
    {tag : Tag} (ht : a.st.trace.length ≤ tag.at_) : ¬ Stale id g tag :=
  fun hs => absurd hs.2 (Nat.not_lt.2 (h.length.trans ht))

omit [NetcodeServer N] [Rtc R] in
theorem ReplacedInv.cause {id : ClientId} {g : Nat} {a : Cfg N R S W} (h : ReplacedInv id g a)
    {e : Event} (hc : Cause a e) {tag : Tag} (hs : Stale id g tag) : ¬ e.passes id tag := by
  cases e with
  | processed p =>
    obtain ⟨c, hparcel⟩ := hc
    rintro rfl
    exact h.carried c p (.inl hparcel) hs
  | wrote c p =>
    rintro ⟨rfl, rfl⟩
    exact h.posted p (.inl hc) hs
  | addConnection b c entry registered tag' =>
    obtain ⟨_, _, _, _, _, o, addr, payload, hcur, hotag, ho⟩ := hc
    rintro rfl
    rw [← hotag] at hs
    exact h.queue o (Cfg.mem_queue.2 (.inl hcur)) (by simp [ho]) hs
  | processPacketFrom b c entry own p =>
    obtain ⟨_, _, _, o, hcur, hotag, ho⟩ := hc
    rintro rfl
    rw [← hotag] at hs
    exact h.queue o (Cfg.mem_queue.2 (.inl hcur)) (by simp [ho]) hs
  | _ => exact fun hp => hp

theorem replacedInv_act [LawfulNetcode N] {id : ClientId} {g : Nat} {a b : Cfg N R S W}
    (h : ReplacedInv id g a) (hact : Act a b) : ReplacedInv id g b := by
  refine ⟨gateOk_act h.gate hact, h.length.trans (trace_suffix hact).length_le, ?_, ?_, ?_, ?_⟩
  · intro c p hp
    rcases carried_act h.gate hact hp with hp | ⟨_, htag, _⟩
    · exact h.carried c p hp
    · exact h.fresh (by rw [htag]; exact Nat.le_refl _)
  · intro p hp
    rcases posted_act h.gate hact hp with hp | htag | ⟨o, hcur, hne, htag⟩
    · exact h.posted p hp
    · exact h.fresh (by rw [htag]; exact Nat.le_refl _)
    · rw [htag]
      exact h.queue o (Cfg.mem_queue.2 (.inl hcur)) hne
  · intro o ho hne
    rcases queue_act hact ho with ho | ho
    · exact h.queue o ho hne
    · cases ho with
      | packet k c peer p r hhand hparcel hc hr hid ho =>
        rw [ho]
        exact h.carried c p (.inl hparcel)
      | call c r hspec hr htag hat _ => exact h.fresh hat
  · intro later e earlier tag heq hg hs
    rcases event_act hact with ht | ⟨e', ht, hcause⟩
    · exact h.trace later e earlier tag (ht.symm.trans heq) hg hs
    · rw [ht] at heq
      cases later with
      | nil =>
        cases heq
        exact h.cause hcause hs
      | cons x later =>
        rw [List.cons_append, List.cons.injEq] at heq
        exact h.trace later e earlier tag heq.2 hg hs

/-! ## The entry of the `RenetServer` -/

/-- `e` happened when the trace had length `g` or more. -/
def Since (g : Nat) (trace : List Event) (e : Event) : Prop :=
  ∃ later earlier, trace = later ++ e :: earlier ∧ g ≤ earlier.length

theorem Since.mono {g : Nat} {trace trace' : List Event} {e : Event} (h : Since g trace e)
    (hs : trace <:+ trace') : Since g trace' e := by
  obtain ⟨later, earlier, rfl, hg⟩ := h
  obtain ⟨more, rfl⟩ := hs
  exact ⟨more ++ later, earlier, (List.append_assoc _ _ _).symm, hg⟩

def RemovedSince (id : ClientId) (g : Nat) (trace : List Event) : Prop :=
  ∃ entry, Since g trace (.removeConnection .webRtc id entry)

/-- The removal of `id`'s entry was made since, or comes before any result is
handled. -/
def Owed (id : ClientId) (g : Nat) (a : Cfg N R S W) : Prop :=
  RemovedSince id g a.st.trace ∨ id ∈ a.frame.removing ∨
    id ∈ a.st.pendingRenetRemovals ∧ a.frame.swept = false

structure RemovalInv (id : ClientId) (g : Nat) (a : Cfg N R S W) : Prop where
  length : g ≤ a.st.trace.length
  owed : Owed id g a
  trace : ∀ later earlier entry registered tag,
    a.st.trace = later ++ .addConnection .webRtc id entry registered tag :: earlier →
    g ≤ earlier.length → RemovedSince id g earlier

theorem owed_act {id : ClientId} {g : Nat} {a b : Cfg N R S W} (hg : g ≤ a.st.trace.length)
    (h : Owed id g a) (hact : Act a b) : Owed id g b := by
  rcases h with ⟨entry, h⟩ | h
  · exact .inl ⟨entry, h.mono (trace_suffix hact)⟩
  cases hact with
  | @sweep s d f ids hids hrem =>
    rcases h with h | ⟨h, _⟩
    · rw [hrem] at h
      exact absurd h List.not_mem_nil
    · exact .inr (.inl ((hids id).2 h))
  | @removeNext s d f c rest hrest =>
    rcases h with h | h
    · rw [hrest] at h
      rcases List.mem_cons.1 h with rfl | h
      · exact .inl ⟨_, [], s.trace, rfl, hg⟩
      · exact .inr (.inl h)
    · exact .inr (.inr h)
  | @expel s d f c =>
    refine .inr (h.imp_right fun h => ⟨?_, h.2⟩)
    rw [WebRtcState.mem_removals_expelled]
    exact .inl h.1
  | @release s d f o c addr payload hcur ho => rw [WebRtcState.releaseClient_frame]; exact .inr h
  | @settle s d f c r hspec happ hbet hgath => rw [WebRtcState.severed_frame]; exact .inr h
  | @rollNext s d f c rest r hspec happ hcur hdoom hej hroll hgath =>
    rw [WebRtcState.severed_frame]; exact .inr h
  | @finish s d f =>
    rcases h with h | h
    · exact .inr (.inl h)
    · exact .inr (.inr ⟨h.1, rfl⟩)
  | _ => exact .inr h

theorem removalInv_act {id : ClientId} {g : Nat} {a b : Cfg N R S W} (h : RemovalInv id g a)
    (hact : Act a b) : RemovalInv id g b := by
  refine ⟨h.length.trans (trace_suffix hact).length_le, owed_act h.length h.owed hact, ?_⟩
  intro later earlier entry registered tag heq hg
  rcases event_act hact with ht | ⟨e, ht, hcause⟩
  · exact h.trace later earlier entry registered tag (ht.symm.trans heq) hg
  · rw [ht] at heq
    cases later with
    | nil =>
      rw [List.nil_append, List.cons.injEq] at heq
      obtain ⟨rfl, rfl⟩ := heq
      obtain ⟨_, _, _, hswept, hrem, _⟩ := hcause
      rcases h.owed with hr | hr | ⟨_, hr⟩
      · exact hr
      · rw [hrem] at hr
        exact absurd hr List.not_mem_nil
      · rw [hswept] at hr
        cases hr
    | cons x later =>
      rw [List.cons_append, List.cons.injEq] at heq
      exact h.trace later earlier entry registered tag heq.2 hg

/-! ## Removal -/

/-- Marks what belongs to `c`'s session in `s`: what came in on its `Rtc`, and
what waits in `pending_server_results` or in a queue of the conditioner. -/
def Earlier (s : WebRtcState N R S W) (c : ClientId) (tag : Tag) : Prop :=
  tag.peer = .webRtc c ∧
    ((∃ p, .arrived p ∈ s.trace ∧ p.tag = tag) ∨ (∃ o ∈ s.pendingServerResults, o.tag = tag) ∨
      ∃ d k p, Stock s.packetGate s.conds d (.webRtc k) p ∧ p.tag = tag)

omit [NetcodeServer N] [Rtc R] [RenetServer S] in
theorem Dated.earlier {s : WebRtcState N R S W} (h : Dated ⟨s, {}, {}⟩) {c : ClientId} {tag : Tag}
    (ht : Earlier s c tag) : tag.at_ ≤ s.trace.length := by
  rcases ht.2 with ⟨p, hp, rfl⟩ | ⟨o, ho, rfl⟩ | ⟨d, k, p, hp, rfl⟩
  · exact (h.arrived p hp).le
  · exact h.queue o (Cfg.mem_queue.2 (.inr (.inr (.inl ho))))
  · cases d with
    | incoming => exact h.carried k p (.inr (.inr hp))
    | outgoing => exact h.posted k p (.inr hp)

/-- A result made for `c` is one `remove_peer(c)` throws away. -/
theorem Outcome.Honest.concerns {trace : List Event} {o : Outcome} {c : ClientId} (h : o.Honest trace)
    (hne : o.result ≠ .none) (htag : o.tag.peer = .webRtc c) : o.result.concerns c = true := by
  obtain ⟨result, tag⟩ := o
  have hinj : ∀ c', tag.peer = .webRtc c' → c' = c := fun c' hc' => by
    have := hc'.symm.trans htag
    cases this
    rfl
  cases result with
  | none => exact absurd rfl hne
  | packetToSend addr payload =>
    obtain ⟨c', hc', rfl⟩ := h
    rw [hinj c' hc']
    exact decide_eq_true rfl
  | payload id payload => exact decide_eq_true (hinj id h.1)
  | clientConnected id addr payload => exact decide_eq_true (hinj id h.1.1)
  | clientDisconnected id addr payload => exact decide_eq_true (hinj id h.1)

variable [World W]

omit [Rtc R] [RenetServer S] in
/-- The state after a call that removed `c`: its queues are empty, its results
are gone, and the rest of both is as `remove_peer` leaves it. -/
theorem replacedInv_removed {s t : WebRtcState N R S W} {c : ClientId} (h : IdentityInv ⟨s, {}, {}⟩)
    (happ : t.applying = []) (hgate : t.packetGate = s.packetGate)
    (hconds : t.conds = (s.removePeer c).conds)
    (hpend : t.pendingServerResults = (s.removePeer c).pendingServerResults) :
    ReplacedInv c t.trace.length ⟨t, {}, {}⟩ := by
  have hremove := ServerPacketGate.remove_shrinks s.packetGate (.webRtc c) s.toShared
  have hcond : t.conds = (s.packetGate.remove (.webRtc c) s.toShared).conds := by
    rw [hconds, WebRtcState.removePeer_eq, WebRtcState.expelled_toShared]
    rfl
  refine ⟨?_, Nat.le_refl _, ?_, ?_, ?_, ?_⟩
  · simp only [hgate, hcond]
    exact hremove.ok h.gate
  · rintro k p (hp | hp | hp) hstale
    · cases hp
    · exact absurd hp List.not_mem_nil
    · simp only [hgate, hcond] at hp
      have hbefore := (hremove.stock h.gate _ _ _ hp).elim (fun hp => hp) False.elim
      have hk := (h.carried k p (.inr (.inr hbefore))).1.symm.trans hstale.1
      cases hk
      exact ServerPacketGate.remove_empty _ _ _ hp
  · rintro p (hp | hp) hstale
    · exact absurd hp List.not_mem_nil
    · simp only [hgate, hcond] at hp
      exact ServerPacketGate.remove_empty _ _ _ hp
  · intro o ho hne hstale
    rw [Cfg.mem_queue] at ho
    simp only [happ, hpend, WebRtcState.removePeer_pending] at ho
    rcases ho with ho | ho | ho | ho
    · cases ho
    · exact absurd ho List.not_mem_nil
    · obtain ⟨hmem, hkeep⟩ := List.mem_filter.1 ho
      have hhonest := h.queue o (Cfg.mem_queue.2 (.inr (.inr (.inl hmem))))
      rw [hhonest.concerns hne hstale.1] at hkeep
      cases hkeep
    · exact absurd ho List.not_mem_nil
  · intro later e earlier tag heq hg
    have hlen := congrArg List.length heq
    simp only [List.length_append, List.length_cons] at hlen
    omega

variable [LawfulRtc R] [LawfulNetcode N] [LawfulWorld W]

theorem dated_reachable {s : WebRtcState N R S W} (h : (WebRtcState.runs N R S W).Reachable s) :
    Dated ⟨s, {}, {}⟩ := by
  refine (WebRtcState.reachable_invariant
    (I := fun a : Cfg N R S W => GateOk a.st.packetGate a.st.conds ∧ Dated a) (fun s hs => ?_)
    (fun a b hi hact => ⟨gateOk_act hi.1 hact, dated_act hi.1 hi.2 hact⟩)
    (fun s server hi => ⟨hi.1, hi.2.carried, hi.2.posted, hi.2.queue, hi.2.arrived⟩) h).1.2
  have hid := identityInv_fresh hs
  obtain ⟨n, addr, shared, rfl, htrace, _⟩ := hs
  refine ⟨hid.gate, ?_, ?_, fun o ho => absurd ho List.not_mem_nil, fun p hp => ?_⟩
  · rintro c p (hp | hp | hp)
    · cases hp
    · exact absurd hp List.not_mem_nil
    · exact absurd hp stock_none
  · rintro c p (hp | hp)
    · exact absurd hp List.not_mem_nil
    · exact absurd hp stock_none
  · have hp' : .arrived p ∈ shared.trace := hp
    rw [htrace] at hp'
    exact absurd hp' List.not_mem_nil

/-- The conditioners when a call takes its gate's lock: other holders may have
made calls of theirs. -/
def WebRtcState.condsAtLock (s : WebRtcState N R S W) : Nat → ServerConditioner Packet :=
  match s.packetGate with
  | none => s.conds
  | some _ => (s.lock s.packetGate).1.conds

/-- What belongs to other clients than `c` is as it was. -/
structure OthersKept (s s' : WebRtcState N R S W) (c : ClientId) : Prop where
  results : s'.pendingServerResults = s.pendingServerResults.filter fun o => !o.result.concerns c
  netcode : ∀ c', c' ≠ c →
    NetcodeServer.clientAddr s'.netcodeServer c' = NetcodeServer.clientAddr s.netcodeServer c'
  peers : ∀ c', c' ≠ c → s'.peers.get c' = s.peers.get c'
  connected : ∀ c', c' ≠ c → (c' ∈ s'.connectedClientIds ↔ c' ∈ s.connectedClientIds)
  queues : ∀ handle id, id ≠ .webRtc c →
    (s'.conds handle).peers.get id = (s.condsAtLock handle).peers.get id

omit [Rtc R] [RenetServer S] [LawfulRtc R] [LawfulWorld W] in
theorem othersKept_removePeer (s : WebRtcState N R S W) (c : ClientId) :
    OthersKept s (s.removePeer c) c := by
  refine ⟨s.removePeer_pending c, fun c' hc => ?_, fun c' hc => ?_, fun c' hc => ?_,
    fun handle id hid => ?_⟩
  · rw [WebRtcState.removePeer_eq, WebRtcState.expelled_netcodeServer]
    exact (setsClient_disconnect s.netcodeServer c c').trans (if_neg hc)
  · rw [WebRtcState.removePeer_eq, WebRtcState.expelled_peers, HashMap.get_remove, if_neg hc]
    rfl
  · rw [WebRtcState.removePeer_eq, WebRtcState.mem_connected_expelled]
    exact and_iff_right hc
  · rw [WebRtcState.removePeer_eq, WebRtcState.expelled_toShared]
    simp only [WebRtcState.gateRemove, ServerPacketGate.remove, WebRtcState.condsAtLock]
    cases s.packetGate with
    | none => rfl
    | some gate =>
      simp only [Shared.setCond, Function.update_apply]
      split
      · rename_i h
        rw [h]
        exact ServerConditioner.get_removePeer_ne _ _ hid
      · rfl

/-- What is known of the state a removal of `c` leaves. -/
structure Removal (s t : WebRtcState N R S W) (c : ClientId) : Prop where
  others : OthersKept s t c
  free : NetcodeServer.clientAddr t.netcodeServer c = none
  applying : t.applying = []
  dated : s.trace.length < t.trace.length
  replaced : ReplacedInv c t.trace.length ⟨t, {}, {}⟩
  removal : c ∈ s.connectedClientIds → c ∈ t.pendingRenetRemovals

omit [LawfulRtc R] [LawfulWorld W] [Rtc R] [RenetServer S] in
theorem removal_removePeer {s : WebRtcState N R S W} (h : IdentityInv ⟨s, {}, {}⟩)
    (hs : s.applying = []) (c : ClientId) : Removal s (s.removePeer c) c := by
  have happ : (s.removePeer c).applying = [] := by
    rw [WebRtcState.removePeer_eq, WebRtcState.expelled_applying]
    exact hs
  have htrace : (s.removePeer c).trace = .removed c :: s.trace := by
    rw [WebRtcState.removePeer_eq, WebRtcState.expelled_toShared]
    exact congrArg (.removed c :: ·)
      (ServerPacketGate.remove_shrinks s.packetGate (.webRtc c) s.toShared).trace
  refine ⟨othersKept_removePeer s c, s.removePeer_free c, happ, ?_, ?_, fun hc => ?_⟩
  · rw [htrace]
    exact Nat.lt_succ_self _
  · refine replacedInv_removed h happ ?_ rfl rfl
    rw [WebRtcState.removePeer_eq, WebRtcState.expelled_packetGate]
    rfl
  · rw [WebRtcState.removePeer_eq, WebRtcState.mem_removals_expelled]
    exact .inr ⟨rfl, hc⟩

omit [LawfulRtc R] [LawfulWorld W] [Rtc R] [RenetServer S] in
theorem removal_addPeer {s : WebRtcState N R S W} (h : IdentityInv ⟨s, {}, {}⟩)
    (hs : s.applying = []) (c : ClientId) (rtc : R) : Removal s (s.addPeer c rtc) c := by
  have hr := removal_removePeer h hs c
  have hpeers : ∀ c', c' ≠ c → (s.addPeer c rtc).peers.get c' = s.peers.get c' := by
    intro c' hc
    refine Eq.trans ?_ (hr.others.peers c' hc)
    exact (HashMap.get_insert _ c c' _).trans (if_neg hc)
  refine ⟨⟨hr.others.results, hr.others.netcode, hpeers, hr.others.connected, hr.others.queues⟩,
    hr.free, hr.applying, Nat.lt_succ_of_lt hr.dated, ?_, hr.removal⟩
  refine replacedInv_removed h hr.applying ?_ rfl rfl
  have hgate : (s.removePeer c).packetGate = s.packetGate := by
    rw [WebRtcState.removePeer_eq, WebRtcState.expelled_packetGate]
    rfl
  exact hgate

/-- After `remove_peer(c)` or `add_peer(c, _)` returns in `s₁`, in every
continuation: nothing of the earlier session is passed on; `c`'s netcode slot was
freed; the entry of an earlier peer that was connected is removed from the
`RenetServer` before `add_connection(c)`; and other clients keep what they had. -/
theorem replaced_peer_inherits_nothing {s s₁ s₂ : WebRtcState N R S W} {c : ClientId}
    {op : WebRtcState.Op R S} {ops : List (WebRtcState.Op R S)}
    (h : (WebRtcState.runs N R S W).Reachable s)
    (hop : op = .removePeer c ∨ ∃ rtc, op = .addPeer c rtc) (hstep : s.step op = some s₁)
    (hrun : (WebRtcState.runs N R S W).Run s₁ ops s₂) :
    (∀ tag, Earlier s c tag → ∀ later e earlier, s₂.trace = later ++ e :: earlier →
      s₁.trace.length ≤ earlier.length → ¬ e.passes c tag) ∧
    NetcodeServer.clientAddr s₁.netcodeServer c = none ∧
    (c ∈ s.connectedClientIds → ∀ later earlier entry registered tag,
      s₂.trace = later ++ .addConnection .webRtc c entry registered tag :: earlier →
      s₁.trace.length ≤ earlier.length → RemovedSince c s₁.trace.length earlier) ∧
    OthersKept s s₁ c := by
  obtain ⟨hid, hs⟩ := identityInv_reachable h
  have hr : Removal s s₁ c := by
    rcases hop with rfl | ⟨rtc, rfl⟩
    · cases hstep
      exact removal_removePeer hid hs c
    · cases hstep
      exact removal_addPeer hid hs c rtc
  refine ⟨fun tag htag => ?_, hr.free, fun hc => ?_, hr.others⟩
  · have hinv := (WebRtcState.run_invariant (I := fun a => ReplacedInv c s₁.trace.length a)
      (fun _ _ hi hact => replacedInv_act hi hact)
      (fun _ _ hi => ⟨hi.gate, hi.length, hi.carried, hi.posted, hi.queue, hi.trace⟩)
      hrun hr.applying hr.replaced).1
    have hold := (dated_reachable h).earlier htag
    exact fun later e earlier heq hg =>
      hinv.trace later e earlier tag heq hg ⟨htag.1, Nat.lt_of_le_of_lt hold hr.dated⟩
  · have hinv := (WebRtcState.run_invariant (I := fun a => RemovalInv c s₁.trace.length a)
      (fun _ _ hi hact => removalInv_act hi hact)
      (fun _ _ hi => ⟨hi.length, hi.owed, hi.trace⟩) hrun hr.applying
      ⟨Nat.le_refl _, .inr (.inr ⟨hr.removal hc, rfl⟩), fun later earlier _ _ _ heq hg => ?_⟩).1
    · exact hinv.trace
    · have hlen := congrArg List.length heq
      simp only [List.length_append, List.length_cons] at hlen
      omega

/-- A connected client's peer is replaced and the transport goes on. -/
theorem replaced_peer_inherits_nothing_rejoin : ∃ s s₁ s₂ : Demo,
    (WebRtcState.runs Table Script Connections Sockets).Reachable s ∧ 1 ∈ s.connectedClientIds ∧
    s.step (.addPeer 1 { name := 1 }) = some s₁ ∧
    (WebRtcState.runs Table Script Connections Sockets).Run s₁ [.update 9 0 0] s₂ ∧
    (∀ tag, Earlier s 1 tag → ∀ later e earlier, s₂.trace = later ++ e :: earlier →
      s₁.trace.length ≤ earlier.length → ¬ e.passes 1 tag) ∧
    NetcodeServer.clientAddr s₁.netcodeServer 1 = none ∧ OthersKept s s₁ 1 := by
  obtain ⟨s, hs, hp⟩ := demo_any { webRtc := [([1], lan 11)] }
    [.addPeer 1 { name := 1, onInput := [[opens, brings [1, 1], brings [3, 9]]] },
      .update 9 0 0]
    (P := fun s => s.connectedClientIds.has 1 &&
      ((s.addPeer 1 { name := 1 }).step (.update 9 0 0)).isSome) (by decide +kernel)
  rw [Bool.and_eq_true, HashMap.has_iff, Option.isSome_iff_exists] at hp
  obtain ⟨hc, s₂, hs₂⟩ := hp
  have hrun : (WebRtcState.runs Table Script Connections Sockets).Run (s.addPeer 1 { name := 1 })
      [.update 9 0 0] s₂ := .cons hs₂ (.nil s₂)
  obtain ⟨h1, h2, _, h4⟩ :=
    replaced_peer_inherits_nothing (demo_reachable hs) (.inr ⟨_, rfl⟩) rfl hrun
  exact ⟨s, _, s₂, demo_reachable hs, hc, rfl, hrun, h1, h2, h4⟩

end RenetCross.L4
