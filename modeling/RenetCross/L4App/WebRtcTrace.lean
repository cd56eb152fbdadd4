import RenetCross.L4App.WebRtcSteps

/-!
# What one step adds to the trace, the queues and the packets in flight

One inversion lemma per aspect of a configuration, so that an invariant about
that aspect does not go through the steps again: `event_act` for the trace,
`carried_act` and `posted_act` for packets on their way in and out, `queue_act`
for netcode results, `netcode_act` for the table of connected clients.
-/
namespace RenetCross.L4

open RenetCross.L2

variable {N R S W : Type} [NetcodeServer N] [Rtc R] [RenetServer S]

/-! ## The trace -/

/-- What the state was when the transport made a call. -/
def Cause (a : Cfg N R S W) : Event → Prop
  | .arrived p => ∃ c peer, a.drive.hand = some (c, peer) ∧ p.tag = a.st.tagNow peer.clientId
  | .processed p => ∃ c, a.drive.parcel = some (c, p)
  | .wrote c p => (c, p) ∈ a.frame.outbox
  | .addConnection b c entry registered tag =>
    b = .webRtc ∧ entry = RenetServer.hasConnection a.st.server c ∧
      registered = decide (c ∈ a.st.peers) ∧ a.frame.swept = true ∧ a.frame.removing = [] ∧
      ∃ o addr payload, a.frame.current = some o ∧ o.tag = tag ∧
        o.result = .clientConnected c addr payload
  | .processPacketFrom b c entry own p =>
    b = .webRtc ∧ entry = RenetServer.hasConnection a.st.server c ∧
      own = decide (c ∈ a.st.connectedClientIds) ∧
      ∃ o, a.frame.current = some o ∧ o.tag = p.tag ∧ o.result = .payload c p.bytes
  | .routed addr route registered p =>
    a.frame.current = some ⟨.packetToSend addr p.bytes, p.tag⟩ ∧
      route = a.st.addrToClientId.get addr ∧ registered = a.st.peers.keys ∧ a.drive.hand = none
  | .removeConnection b c entry =>
    b = .webRtc ∧ entry = RenetServer.hasConnection a.st.server c ∧
      (c ∈ a.frame.removing ∨ c ∈ a.st.connectedClientIds)
  | _ => True

/-- A step makes at most one call that is on the trace. -/
theorem event_act {a b : Cfg N R S W} (hact : Act a b) :
    b.st.trace = a.st.trace ∨ ∃ e, b.st.trace = e :: a.st.trace ∧ Cause a e := by
  cases hact with
  | @gate s d f g sh hg => exact .inl hg.trace
  | @stockIn s d f c packet sh hp hg => exact .inl hg.trace
  | @stockOut s d f c packet sh hp hg => exact .inl hg.trace
  | @polled s d f c p rtc hhand hnone => exact .inr ⟨_, rfl, trivial⟩
  | @polledTimeout s d f c p rtc deadline hhand hnone => exact .inr ⟨_, rfl, trivial⟩
  | @arrive s d f c p data hhand hparcel => exact .inr ⟨_, rfl, c, p, hhand, rfl⟩
  | @process s d f c c' p packet r hhand hparcel hc hr hid => exact .inr ⟨_, rfl, c', hparcel⟩
  | @processForeign s d f c c' id p packet r hhand hparcel hc hr hid hne =>
    exact .inr ⟨_, rfl, c', hparcel⟩
  | @lose s d f c p hhand => exact .inr ⟨_, rfl, trivial⟩
  | @feed s d f c p source input hp hnone hd hhand => exact .inr ⟨_, rfl, trivial⟩
  | @timeout s d f c p rtc hp hnone hd hhand => exact .inr ⟨_, rfl, trivial⟩
  | @write s d f c p rtc packet hp hnone hd hhand hout => exact .inr ⟨_, rfl, hout⟩
  | @route s d f o addr payload hcur ho hhand =>
    refine .inr ⟨_, rfl, ?_, rfl, rfl, hhand⟩
    rw [hcur, ← ho]
  | @deliver s d f o c payload hcur ho => exact .inr ⟨_, rfl, rfl, rfl, rfl, o, hcur, rfl, ho⟩
  | @connect s d f o c addr payload hcur ho hconn hsw hrem =>
    exact .inr ⟨_, rfl, rfl, rfl, rfl, hsw, hrem, o, addr, payload, hcur, rfl, ho⟩
  | @reject s d f o c addr payload hcur ho hconn => exact .inr ⟨_, rfl, trivial⟩
  | @expel s d f c =>
    refine .inr ⟨.removed c, ?_, trivial⟩
    rw [WebRtcState.expelled_toShared]
  | @register s d f c rtc hp => exact .inr ⟨_, rfl, trivial⟩
  | @release s d f o c addr payload hcur ho =>
    rcases s.releaseClient_cases c addr with ⟨hc, _, ht⟩ | ⟨_, _, ht⟩
    · exact .inr ⟨_, ht, rfl, rfl, .inr hc⟩
    · exact .inl ht
  | @settle s d f c r hspec happ hbet hg =>
    rw [WebRtcState.severed_trace]
    cases (toOwnedServerResult r.2).disconnects with
    | none => exact .inl rfl
    | some id => exact .inr ⟨_, rfl, trivial⟩
  | @rollNext s d f c rest r hspec happ hcur hdoom hej hroll hg =>
    rw [WebRtcState.severed_trace]
    cases (toOwnedServerResult r.2).disconnects with
    | none => exact .inl rfl
    | some id => exact .inr ⟨_, rfl, trivial⟩
  | @removeNext s d f c rest hrest =>
    refine .inr ⟨_, rfl, rfl, rfl, .inl ?_⟩
    rw [hrest]
    exact List.mem_cons_self
  | _ => exact .inl rfl

theorem trace_suffix {a b : Cfg N R S W} (hact : Act a b) : a.st.trace <:+ b.st.trace := by
  rcases event_act hact with h | ⟨e, h, _⟩
  · rw [h]
  · rw [h]
    exact List.suffix_cons _ _

/-! ## Packets on their way in -/

/-- The packet arrived on `c`'s data channel and did not reach netcode yet. -/
def Carried (a : Cfg N R S W) (c : ClientId) (p : Packet) : Prop :=
  a.drive.parcel = some (c, p) ∨ (.webRtc c, p) ∈ a.frame.inbox ∨
    Stock a.st.packetGate a.st.conds .incoming (.webRtc c) p

theorem gateOk_act {a b : Cfg N R S W} (h : GateOk a.st.packetGate a.st.conds) (hact : Act a b) :
    GateOk b.st.packetGate b.st.conds := by
  cases hact with
  | @gate s d f g sh hg => exact hg.ok h
  | @stockIn s d f c packet sh hp hg => exact hg.ok h
  | @stockOut s d f c packet sh hp hg => exact hg.ok h
  | @expel s d f c =>
    rw [WebRtcState.expelled_toShared, WebRtcState.expelled_packetGate]
    exact h
  | @release s d f o c addr payload hcur ho => rw [WebRtcState.releaseClient_frame]; exact h
  | @settle s d f c r hspec happ hbet hg => rw [WebRtcState.severed_frame]; exact h
  | @rollNext s d f c rest r hspec happ hcur hdoom hej hroll hg =>
    rw [WebRtcState.severed_frame]; exact h
  | _ => exact h

/-- A packet in flight was in flight before, or arrived in this step. -/
theorem carried_act {a b : Cfg N R S W} (ok : GateOk a.st.packetGate a.st.conds) (hact : Act a b)
    {c : ClientId} {p : Packet} (h : Carried b c p) :
    Carried a c p ∨ (∃ k peer, a.drive.hand = some (k, peer) ∧ c = peer.clientId) ∧
      p.tag = a.st.tagNow c ∧ b.st.trace = .arrived p :: a.st.trace := by
  cases hact with
  | @gate s d f g sh hg =>
    rcases h with h | h | h
    · exact .inl (.inl h)
    · exact .inl (.inr (.inl h))
    · exact .inl (.inr (.inr ((hg.stock ok _ _ _ h).elim (fun h => h) False.elim)))
  | @inbox s d f xs hxs =>
    rcases h with h | h | h
    · exact .inl (.inl h)
    · exact .inl (.inr (hxs ok _ h))
    · exact .inl (.inr (.inr h))
  | @arrive s d f c' peer data hhand hparcel =>
    rcases h with h | h | h
    · cases h
      exact .inr ⟨⟨c', peer, hhand, rfl⟩, rfl, rfl⟩
    · exact .inl (.inr (.inl h))
    · exact .inl (.inr (.inr h))
  | @unpack s d f c' packet hin hparcel =>
    rcases h with h | h | h
    · cases h
      exact .inl (.inr (.inl hin))
    · exact .inl (.inr (.inl h))
    · exact .inl (.inr (.inr h))
  | @discard s d f =>
    rcases h with h | h
    · cases h
    · exact .inl (.inr h)
  | @stockIn s d f c' packet sh hp hg =>
    rcases h with h | h | h
    · exact .inl (.inl h)
    · exact .inl (.inr (.inl h))
    · rcases hg.stock ok _ _ _ h with h | ⟨_, hid, rfl⟩
      · exact .inl (.inr (.inr h))
      · cases hid
        exact .inl (.inl hp)
  | @stockOut s d f c' packet sh hp hg =>
    rcases h with h | h | h
    · exact .inl (.inl h)
    · exact .inl (.inr (.inl h))
    · rcases hg.stock ok _ _ _ h with h | ⟨hdir, _⟩
      · exact .inl (.inr (.inr h))
      · cases hdir
  | @process s d f c' c'' peer packet r hhand hparcel hc hr hid =>
    rcases h with h | h
    · cases h
    · exact .inl (.inr h)
  | @processForeign s d f c' c'' id peer packet r hhand hparcel hc hr hid hne =>
    rcases h with h | h
    · cases h
    · exact .inl (.inr h)
  | @expel s d f c' =>
    refine .inl (h.imp_right (Or.imp_right fun h => ?_))
    rw [WebRtcState.expelled_toShared, WebRtcState.expelled_packetGate] at h
    exact h
  | @release s d f o c' addr payload hcur ho =>
    refine .inl (h.imp_right (Or.imp_right fun h => ?_))
    rw [WebRtcState.releaseClient_frame] at h
    exact h
  | @settle s d f c' r hspec happ hbet hg =>
    refine .inl (h.imp_right (Or.imp_right fun h => ?_))
    rw [WebRtcState.severed_frame] at h
    exact h
  | @rollNext s d f c' rest r hspec happ hcur hdoom hej hroll hg =>
    refine .inl (h.imp_right (Or.imp_right fun h => ?_))
    rw [WebRtcState.severed_frame] at h
    exact h
  | _ => exact .inl h

/-! ## Packets on their way out -/

/-- The packet is about to be sent to `c`, or waits for it behind the gate. -/
def Posted (a : Cfg N R S W) (c : ClientId) (p : Packet) : Prop :=
  (c, p) ∈ a.frame.outbox ∨ Stock a.st.packetGate a.st.conds .outgoing (.webRtc c) p

/-- A packet to send was there before, was made just now, or is what the result
at hand carries. -/
theorem posted_act {a b : Cfg N R S W} (ok : GateOk a.st.packetGate a.st.conds) (hact : Act a b)
    {c : ClientId} {p : Packet} (h : Posted b c p) :
    Posted a c p ∨ p.tag = a.st.tagNow c ∨
      ∃ o, a.frame.current = some o ∧ o.result ≠ .none ∧ p.tag = o.tag := by
  cases hact with
  | @gate s d f g sh hg =>
    refine .inl (h.imp_right fun h => ?_)
    exact (hg.stock ok _ _ _ h).elim (fun h => h) False.elim
  | @outbox s d f xs hxs =>
    rcases h with h | h
    · rcases hxs ok _ h with h | h | h
      · exact .inl (.inl h)
      · exact .inl (.inr h)
      · exact .inr (.inl h)
    · exact .inl (.inr h)
  | @stockIn s d f c' packet sh hp hg =>
    refine .inl (h.imp_right fun h => ?_)
    rcases hg.stock ok _ _ _ h with h | ⟨hdir, _⟩
    · exact h
    · cases hdir
  | @stockOut s d f c' packet sh hp hg =>
    rcases h with h | h
    · exact .inl (.inl h)
    · rcases hg.stock ok _ _ _ h with h | ⟨_, hid, rfl⟩
      · exact .inl (.inr h)
      · cases hid
        exact .inl (.inl hp)
  | @route s d f o addr payload hcur ho hhand =>
    rcases h with h | h
    · simp only [Option.mem_toList, Option.map_eq_some_iff] at h
      obtain ⟨c', _, heq⟩ := h
      cases heq
      exact .inr (.inr ⟨o, hcur, by simp [ho], rfl⟩)
    · exact .inl (.inr h)
  | @connect s d f o c' addr payload hcur ho hconn =>
    rcases h with h | h
    · cases List.mem_singleton.1 h
      exact .inr (.inr ⟨o, hcur, by simp [ho], rfl⟩)
    · exact .inl (.inr h)
  | @expel s d f c' =>
    refine .inl (h.imp_right fun h => ?_)
    rw [WebRtcState.expelled_toShared, WebRtcState.expelled_packetGate] at h
    exact h
  | @release s d f o c' addr payload hcur ho =>
    rcases h with h | h
    · simp only [Option.mem_toList, Option.map_eq_some_iff] at h
      obtain ⟨bytes, _, heq⟩ := h
      cases heq
      exact .inr (.inr ⟨o, hcur, by simp [ho], rfl⟩)
    · rw [WebRtcState.releaseClient_frame] at h
      exact .inl (.inr h)
  | @settle s d f c' r hspec happ hbet hg =>
    refine .inl (h.imp_right fun h => ?_)
    rw [WebRtcState.severed_frame] at h
    exact h
  | @rollNext s d f c' rest r hspec happ hcur hdoom hej hroll hg =>
    refine .inl (h.imp_right fun h => ?_)
    rw [WebRtcState.severed_frame] at h
    exact h
  | _ => exact .inl h

/-! ## Netcode results -/

/-- The results that were made and not handled yet, in the order in which they
will be handled. -/
def Cfg.queue (a : Cfg N R S W) : List Outcome :=
  a.frame.current.toList ++ a.st.applying ++ a.st.pendingServerResults ++ a.drive.gathered

omit [NetcodeServer N] [Rtc R] [RenetServer S] in
theorem Cfg.mem_queue {a : Cfg N R S W} {o : Outcome} :
    o ∈ a.queue ↔ a.frame.current = some o ∨ o ∈ a.st.applying ∨ o ∈ a.st.pendingServerResults ∨
      o ∈ a.drive.gathered := by
  simp only [queue, List.mem_append, Option.mem_toList, or_assoc]

/-- Where a new result of a step from `a` to `b` comes from: a packet of the peer
in hand, or a netcode call for one client. -/
inductive Born (a b : Cfg N R S W) (o : Outcome) : Prop
  | packet (k c : ClientId) (peer : ServerPeer R) (p : Packet) (r : N × ServerResult) :
      a.drive.hand = some (k, peer) → a.drive.parcel = some (c, p) → (c = k ∨ c = peer.clientId) →
      r = NetcodeServer.processPacket a.st.netcodeServer peer.virtualAddr p.bytes →
      (∀ id, (toOwnedServerResult r.2).connects = some id → id = peer.clientId) →
      o = ⟨toOwnedServerResult r.2, p.tag⟩ → Born a b o
  | call (c : ClientId) (r : N × ServerResult) : ClientSpec a.st.netcodeServer r.1 c r.2 →
      o.result = toOwnedServerResult r.2 → o.tag.peer = .webRtc c →
      a.st.trace.length ≤ o.tag.at_ → o.tag.at_ ≤ b.st.trace.length → Born a b o

omit [Rtc R] [RenetServer S] in
theorem severedOutcome_born {s : WebRtcState N R S W} {d : Drive R} {f f' : Frame} {c : ClientId}
    {r : N × ServerResult} (h : ClientSpec s.netcodeServer r.1 c r.2) :
    Born ⟨s, d, f⟩ ⟨s.severed r, d, f'⟩ (s.severedOutcome c r) := by
  refine .call c r h rfl rfl ?_ (Nat.le_refl _)
  simp only [WebRtcState.severedOutcome, WebRtcState.tagNow, WebRtcState.severed_trace]
  split
  · exact Nat.le_succ _
  · exact Nat.le_refl _

theorem queue_act [LawfulNetcode N] {a b : Cfg N R S W} (hact : Act a b) {o : Outcome}
    (h : o ∈ b.queue) : o ∈ a.queue ∨ Born a b o := by
  rw [Cfg.mem_queue] at h ⊢
  cases hact with
  | @process s d f c c' p packet r hhand hparcel hc hr hid =>
    rcases h with h | h | h | h
    · exact .inl (.inl h)
    · exact .inl (.inr (.inl h))
    · exact .inl (.inr (.inr (.inl h)))
    · rcases List.mem_append.1 h with h | h
      · exact .inl (.inr (.inr (.inr h)))
      · exact .inr (.packet c c' p packet r hhand hparcel hc hr hid (List.mem_singleton.1 h))
  | @commit s d f hf =>
    rcases h with h | h | h | h
    · exact .inl (.inl h)
    · exact .inl (.inr (.inl h))
    · exact .inl (.inr (.inr (List.mem_append.1 h)))
    · exact absurd h List.not_mem_nil
  | @lose s d f c p hhand =>
    rcases h with h | h | h | h
    · exact .inl (.inl h)
    · exact .inl (.inr (.inl h))
    · exact .inl (.inr (.inr (.inl h)))
    · exact absurd h List.not_mem_nil
  | @tearDown s d f c p hhand hg hd =>
    rcases h with h | h | h | h
    · exact .inl (.inl h)
    · exact .inl (.inr (.inl h))
    · rcases List.mem_append.1 h with h | h
      · exact .inl (.inr (.inr (.inl h)))
      · rw [List.mem_singleton.1 h]
        exact .inr (.call c _ (LawfulNetcode.disconnect s.netcodeServer c).clientSpec rfl rfl
          (Nat.le_refl _) (Nat.le_refl _))
    · exact .inl (.inr (.inr (.inr h)))
  | @takePending s d f happ hbet hg =>
    rcases h with h | h | h | h
    · exact .inl (.inl h)
    · exact .inl (.inr (.inr (.inl h)))
    · exact absurd h List.not_mem_nil
    · exact .inl (.inr (.inr (.inr h)))
  | @take s d f o' rest happ hbet =>
    refine .inl ?_
    rcases h with h | h | h
    · cases h
      exact .inr (.inl (happ ▸ List.mem_cons_self))
    · exact .inr (.inl (happ ▸ List.mem_cons_of_mem _ h))
    · exact .inr (.inr h)
  | @dismiss s d f o' hcur => exact .inl (.inr (h.resolve_left (by simp)))
  | @route s d f o' addr payload hcur => exact .inl (.inr (h.resolve_left (by simp)))
  | @deliver s d f o' c payload hcur => exact .inl (.inr (h.resolve_left (by simp)))
  | @connect s d f o' c addr payload hcur => exact .inl (.inr (h.resolve_left (by simp)))
  | @reject s d f o' c addr payload hcur => exact .inl (.inr (h.resolve_left (by simp)))
  | @expel s d f c =>
    rw [WebRtcState.expelled_applying, WebRtcState.expelled_pending] at h
    rcases h with h | h | h | h
    · exact .inl (.inl h)
    · exact .inl (.inr (.inl h))
    · exact .inl (.inr (.inr (.inl (List.mem_filter.1 h).1)))
    · exact .inl (.inr (.inr (.inr h)))
  | @release s d f o' c addr payload hcur ho =>
    rw [WebRtcState.releaseClient_frame] at h
    exact .inl (.inr (h.resolve_left (by simp)))
  | @settle s d f c r hspec happ hbet hg =>
    rcases h with h | h
    · cases h
      exact .inr (severedOutcome_born hspec)
    · rw [WebRtcState.severed_frame] at h
      exact .inl (.inr h)
  | @rollNext s d f c rest r hspec happ hcur hdoom hej hroll hg =>
    rcases h with h | h
    · cases h
      exact .inr (severedOutcome_born hspec.clientSpec)
    · rw [WebRtcState.severed_frame] at h
      exact .inl (.inr h)
  | _ => exact .inl h

end RenetCross.L4
