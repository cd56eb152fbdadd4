import RenetCross.L4App.WebClient

/-!
# What a browser client lets through

`Kept` is what every operation of `WebRtcNetcodeClientTransport` keeps, and every
message event between them: the log is a run of two lossy links whose packets in
flight are those behind the gate and in the inbox, the egress layer's table is the
ledger of the packets offered, and the inbox is never over its capacity. `P` is
anything about the browser that waiting and sending a packet that fits keep; taking
the bound on its buffer for it gives `buffered_bounded`.
-/
namespace RenetCross.L4

open RenetCross.L2

namespace PacketInbox

/-- The packets in the inbox. -/
def held (inbox : PacketInbox) : Multiset (Unit × Bytes) := inbox.packets.map fun p => ((), p)

/-- The newest packet always gets in, unless there is no room at all. -/
theorem push_cases (inbox : PacketInbox) (packet : Bytes) :
    inbox.capacity = 0 ∧ inbox.push packet = inbox.countOverflow ∨
      inbox.capacity ≠ 0 ∧ inbox.packets.length = inbox.capacity ∧ inbox.push packet =
        { inbox.countOverflow with packets := inbox.packets.tail ++ [packet] } ∨
      inbox.packets.length ≠ inbox.capacity ∧ inbox.push packet =
        { inbox with packets := inbox.packets ++ [packet] } := by
  unfold push
  split
  · rename_i hzero
    exact .inl ⟨hzero, rfl⟩
  · rename_i hpos
    dsimp only
    split
    · rename_i hfull
      exact .inr (.inl ⟨hpos, hfull, rfl⟩)
    · rename_i hroom
      exact .inr (.inr ⟨hroom, rfl⟩)

/-- A full inbox drops its oldest message; none is made up. -/
theorem held_push (inbox : PacketInbox) (packet : Bytes) :
    (inbox.push packet).held ≤ ((), packet) ::ₘ inbox.held := by
  have hkeep : ∀ packets : List Bytes, packets.Sublist inbox.packets →
      (((packets ++ [packet]).map fun p => ((), p) : List (Unit × Bytes)) : Multiset (Unit × Bytes)) ≤
        ((), packet) ::ₘ (inbox.packets.map fun p => ((), p)) := by
    intro packets hsub
    rw [List.map_append, Multiset.cons_coe]
    refine Multiset.coe_le.2 (List.perm_append_comm.subperm.trans ?_)
    exact ((hsub.map _).cons_cons _).subperm
  obtain ⟨-, h⟩ | ⟨-, -, h⟩ | ⟨-, h⟩ := inbox.push_cases packet <;> rw [h]
  · exact Multiset.le_cons_self _ _
  · exact hkeep _ (List.tail_sublist _)
  · exact hkeep _ (List.Sublist.refl _)

/-- The inbox does not outgrow its capacity. -/
theorem length_push {inbox : PacketInbox} (h : inbox.packets.length ≤ inbox.capacity) (packet : Bytes) :
    (inbox.push packet).packets.length ≤ (inbox.push packet).capacity := by
  obtain ⟨-, hp⟩ | ⟨hpos, hfull, hp⟩ | ⟨hroom, hp⟩ := inbox.push_cases packet <;> rw [hp]
  · exact h
  · simp only [countOverflow, List.length_append, List.length_tail, List.length_singleton]
    omega
  · simp only [List.length_append, List.length_singleton]
    omega

theorem push_invalid (inbox : PacketInbox) (packet : Bytes) :
    (inbox.push packet).stats.receiveInvalidSizeDrops = inbox.stats.receiveInvalidSizeDrops := by
  obtain ⟨-, h⟩ | ⟨-, -, h⟩ | ⟨-, h⟩ := inbox.push_cases packet <;> rw [h] <;> rfl

/-- A valid size counts nothing. -/
theorem acceptsSize_valid (inbox : PacketInbox) {limit len : Nat} (h : ¬ len = 0 ∧ len ≤ limit) :
    inbox.acceptsSize limit len = (inbox, true) := by
  unfold acceptsSize
  rw [if_neg]
  omega

theorem acceptsSize_invalid (inbox : PacketInbox) {limit len : Nat} (h : len = 0 ∨ limit < len) :
    inbox.acceptsSize limit len = ({ inbox with
      stats.receiveInvalidSizeDrops := wrapU64 (inbox.stats.receiveInvalidSizeDrops + 1) }, false) := by
  unfold acceptsSize
  rw [if_pos h]

end PacketInbox

namespace WebClientState

variable {N C W : Type} [DataChannel W] [NetcodeClient N]

/-- Waiting keeps `P`, and so does sending a packet that fits the budget. -/
structure Preserved (P : W → Nat → Prop) : Prop where
  lock : ∀ {w limit} c, P w limit → P (GateWorld.lock w c).1 limit
  egressNow : ∀ {w limit}, P w limit → P (DataChannel.egressNow w).1 limit
  elapse : ∀ {w limit} k, P w limit → P (DataChannel.elapse w k) limit
  send : ∀ {w limit} bytes, P w limit →
    fitsSendBudget (DataChannel.bufferedAmount w) bytes.length limit = true →
      P (DataChannel.send w bytes).1 limit

/-- A message the size check turned away. -/
def turnedAway (N : Type) [NetcodeClient N] : ClientEvent Unit → Bool
  | .received source server bytes => !eligible N source server bytes
  | _ => false

/-- The invariant of a run: `hin` and `hout` are packets in hand, taken from the gate or the
inbox or about to enter them, and `P` is what is known of the browser. -/
structure Kept (P : W → Nat → Prop) (s : WebClientState N C W) (hin hout : Multiset (Unit × Bytes)) :
    Prop where
  flow : Flow (eligible N) s.trace (s.packets.waiting .incoming + s.inbox.held + hin)
    (s.packets.waiting .outgoing + hout)
  ledger : Egress.Ledger .encryptedLogical (s.trace.filterMap (ClientEvent.posting fun _ => 0)) s.egress
  room : s.inbox.packets.length ≤ s.inbox.capacity
  sizes : s.inbox.stats.receiveInvalidSizeDrops = wrapU64 (s.trace.countP (turnedAway N))
  browser : P s.world s.maxBufferedAmount

variable {P : W → Nat → Prop} {s : WebClientState N C W} {hin hout : Multiset (Unit × Bytes)}
  {bytes : Bytes}

namespace Kept

omit [DataChannel W] in
theorem drop (h : Kept P s hin hout) {hin' hout' : Multiset (Unit × Bytes)} (hi : hin' ≤ hin)
    (ho : hout' ≤ hout) : Kept P s hin' hout' :=
  ⟨h.flow.lose (add_le_add_right hi _) (add_le_add_right ho _), h.ledger, h.room, h.sizes, h.browser⟩

/-! ## The gate -/

/-- The lock of the conditioner may let time pass in the browser. -/
theorem lockDefer (hP : Preserved P) (h : Kept P s hin hout) (d : ConditionerDirection)
    (bytes : Bytes) : P (s.gateDefer d bytes).1.world s.maxBufferedAmount := by
  simp only [gateDefer, PacketGate.defer]
  split
  · exact h.browser
  · exact hP.lock _ h.browser

theorem lockDrain (hP : Preserved P) (h : Kept P s hin hout) (d : ConditionerDirection) :
    P (s.gateDrain d).1.world s.maxBufferedAmount := by
  simp only [gateDrain, PacketGate.drain]
  split
  · exact h.browser
  · exact hP.lock _ h.browser

/-- A packet to send enters the gate, or stays in hand. -/
theorem deferOut (hP : Preserved P) (h : Kept P s hin (((), bytes) ::ₘ hout)) :
    Kept P (s.gateDefer .outgoing bytes).1 hin
      (if (s.gateDefer .outgoing bytes).2 then hout else ((), bytes) ::ₘ hout) := by
  obtain ⟨hother, hself⟩ := PacketGate.waiting_defer s.packets .outgoing () bytes s.world
  have hin' := hother .incoming (.inl (by decide))
  refine ⟨h.flow.lose (add_le_add_left (add_le_add_left hin' _) _) ?_, h.ledger, h.room, h.sizes,
    h.lockDefer hP _ _⟩
  split
  · rw [Multiset.add_cons, ← Multiset.cons_add]
    exact add_le_add_left hself hout
  · rename_i hno
    exact add_le_add_left (hother .outgoing (.inr (Bool.eq_false_iff.2 hno))) _

/-- A message that arrived enters the gate, or stays in hand. -/
theorem deferIn (hP : Preserved P) (h : Kept P s (((), bytes) ::ₘ hin) hout) :
    Kept P (s.gateDefer .incoming bytes).1
      (if (s.gateDefer .incoming bytes).2 then hin else ((), bytes) ::ₘ hin) hout := by
  obtain ⟨hother, hself⟩ := PacketGate.waiting_defer s.packets .incoming () bytes s.world
  have hout' := hother .outgoing (.inl (by decide))
  refine ⟨h.flow.lose ?_ (add_le_add_left hout' _), h.ledger, h.room, h.sizes, h.lockDefer hP _ _⟩
  split
  · rw [Multiset.add_cons, ← Multiset.cons_add, ← Multiset.cons_add]
    exact add_le_add_left (add_le_add_left hself _) hin
  · rename_i hno
    exact add_le_add_left (add_le_add_left (hother .incoming (.inr (Bool.eq_false_iff.2 hno))) _) _

theorem drainOut (hP : Preserved P) (h : Kept P s hin hout) :
    Kept P (s.gateDrain .outgoing).1 hin ((s.gateDrain .outgoing).2 + hout) := by
  obtain ⟨hother, hself⟩ := PacketGate.waiting_drain s.packets .outgoing s.world
  refine ⟨h.flow.lose (add_le_add_left (add_le_add_left (hother .incoming (by decide)) _) _) ?_,
    h.ledger, h.room, h.sizes, h.lockDrain hP _⟩
  rw [add_left_comm, ← add_assoc]
  exact add_le_add_left hself hout

theorem drainIn (hP : Preserved P) (h : Kept P s hin hout) :
    Kept P (s.gateDrain .incoming).1 ((s.gateDrain .incoming).2 + hin) hout := by
  obtain ⟨hother, hself⟩ := PacketGate.waiting_drain s.packets .incoming s.world
  refine ⟨h.flow.lose ?_ (add_le_add_left (hother .outgoing (by decide)) _), h.ledger, h.room, h.sizes,
    h.lockDrain hP _⟩
  rw [add_left_comm, ← add_assoc, ← add_assoc]
  exact add_le_add_left (add_le_add_left hself _) hin

omit [DataChannel W] in
/-- Packets that are thrown away leave the balance. -/
theorem clearPendingPackets (h : Kept P s hin hout) : Kept P s.clearPendingPackets hin hout := by
  have hreset : ∀ d, s.packets.reset.waiting d ≤ s.packets.waiting d := by
    intro d
    rw [PacketGate.waiting_reset]
    exact Multiset.zero_le _
  have hempty : s.inbox.clear.held ≤ s.inbox.held := Multiset.zero_le _
  refine ⟨(h.flow.lose ?_ (add_le_add_left (hreset _) _)).clear _, h.ledger, Nat.zero_le _, h.sizes,
    h.browser⟩
  exact add_le_add_left (add_le_add (hreset _) hempty) _

/-! ## The message callback -/

/-- A message in hand waits behind the gate or in the inbox. -/
theorem keepMessage (hP : Preserved P) (h : Kept P s (((), bytes) ::ₘ hin) hout) :
    Kept P (s.keepMessage bytes) hin hout := by
  have hdefer := h.deferIn hP
  unfold WebClientState.keepMessage
  dsimp only
  split
  · rename_i hyes
    rw [if_pos hyes] at hdefer
    exact hdefer
  · rename_i hno
    rw [if_neg hno] at hdefer
    generalize (s.gateDefer .incoming bytes).1 = t at hdefer ⊢
    refine ⟨hdefer.flow.lose ?_ (le_refl _), hdefer.ledger, PacketInbox.length_push hdefer.room bytes,
      ?_, hdefer.browser⟩
    · rw [Multiset.add_cons, ← Multiset.cons_add, ← Multiset.add_cons]
      exact add_le_add_left (add_le_add_right (PacketInbox.held_push t.inbox bytes) _) hin
    · rw [PacketInbox.push_invalid]
      exact hdefer.sizes

/-- A message of a bad size is counted and goes no further. -/
theorem receive (hP : Preserved P) (h : Kept P s hin hout) (bytes : Bytes) :
    Kept P (s.receive bytes) hin hout := by
  unfold WebClientState.receive
  dsimp only
  by_cases hok : eligible N () (NetcodeClient.serverAddr s.netcodeClient) bytes = true
  · have hsize := @PacketInbox.acceptsSize_valid s.inbox (NetcodeClient.maxPacketBytes N)
      bytes.length (by simpa [eligible] using hok)
    simp only [log, hsize, if_true]
    have hread : Kept P (s.log (.received () (NetcodeClient.serverAddr s.netcodeClient) bytes))
        (((), bytes) ::ₘ hin) hout := by
      refine ⟨by rw [Multiset.add_cons]; exact h.flow.readValid hok, h.ledger, h.room, ?_, h.browser⟩
      refine h.sizes.trans (congrArg wrapU64 (List.countP_cons_of_neg ?_).symm)
      simp only [turnedAway, hok, Bool.not_true, Bool.false_eq_true, not_false_eq_true]
    exact hread.keepMessage hP
  · rw [Bool.not_eq_true] at hok
    have hsize := @PacketInbox.acceptsSize_invalid s.inbox (NetcodeClient.maxPacketBytes N)
      bytes.length (by simpa [eligible, ← Decidable.or_iff_not_imp_left] using hok)
    simp only [log, hsize, Bool.false_eq_true, if_false]
    refine ⟨h.flow.readInvalid hok, h.ledger, h.room, ?_, h.browser⟩
    rw [List.countP_cons_of_pos (by simp only [turnedAway, hok, Bool.not_false]), h.sizes]
    exact wrapU64_wrapU64_add _ 1

theorem onMessage (hP : Preserved P) (h : Kept P s hin hout) (data : MessageData) :
    Kept P (s.onMessage data) hin hout := by
  cases data with
  | arrayBuffer bytes => exact h.receive hP bytes
  | uint8Array bytes => exact h.receive hP bytes
  | other => exact h

/-! ## Sending -/

end Kept

/-- The channel changes the browser and counts its own drops, and nothing else. -/
structure ChannelOnly (s t : WebClientState N C W) : Prop where
  egress : t.egress = s.egress
  netcodeClient : t.netcodeClient = s.netcodeClient
  packets : t.packets = s.packets
  inbox : t.inbox.packets = s.inbox.packets
  capacity : t.inbox.capacity = s.inbox.capacity
  overflow : t.inbox.stats.receiveOverflowDrops = s.inbox.stats.receiveOverflowDrops
  sizes : t.inbox.stats.receiveInvalidSizeDrops = s.inbox.stats.receiveInvalidSizeDrops
  limit : t.maxBufferedAmount = s.maxBufferedAmount
  trace : t.trace = s.trace

omit [DataChannel W] [NetcodeClient N] in
theorem ChannelOnly.refl (s : WebClientState N C W) : ChannelOnly s s :=
  ⟨rfl, rfl, rfl, rfl, rfl, rfl, rfl, rfl, rfl⟩

omit [NetcodeClient N] in
/-- Handing a packet to the channel has no other trace than a counted drop. -/
theorem handToChannel_only (s : WebClientState N C W) (payload : Bytes) :
    ChannelOnly s (s.handToChannel payload).1 := by
  unfold handToChannel
  split
  · split
    · dsimp only
      split <;> exact ⟨rfl, rfl, rfl, rfl, rfl, rfl, rfl, rfl, rfl⟩
    · exact ⟨rfl, rfl, rfl, rfl, rfl, rfl, rfl, rfl, rfl⟩
  · exact .refl s
  · exact .refl s

omit [NetcodeClient N] in
/-- `send` is called with packets that fit the budget, and with no others. -/
theorem handToChannel_browser (hP : Preserved P) (payload : Bytes)
    (h : P s.world s.maxBufferedAmount) : P (s.handToChannel payload).1.world s.maxBufferedAmount := by
  unfold handToChannel
  split
  · split
    · rename_i hfits
      have hsent := hP.send payload h hfits
      dsimp only
      split
      · exact hsent
      · exact hsent
    · exact h
  · exact h
  · exact h

namespace Kept

/-- The packet in hand is offered to the channel, and the egress layer told of its fate. -/
theorem sendUnconditioned (hP : Preserved P) (h : Kept P s hin (((), bytes) ::ₘ hout)) :
    Kept P (s.sendUnconditioned bytes).1 hin hout := by
  have hflow := h.flow
  rw [Multiset.add_cons] at hflow
  unfold WebClientState.sendUnconditioned
  dsimp only
  split
  · rename_i hyes
    generalize hm : ({ s with
      world := (DataChannel.egressNow s.world).1
      egress := (s.egress.admitAt () bytes 0 (DataChannel.egressNow s.world).2).1 } :
        WebClientState N C W) = m
    have honly := handToChannel_only m bytes
    have hworld : P (m.handToChannel bytes).1.world m.maxBufferedAmount :=
      handToChannel_browser hP bytes (by rw [← hm]; exact hP.egressNow h.browser)
    generalize m.handToChannel bytes = r at honly hworld ⊢
    have htrace : r.1.trace = s.trace := honly.trace.trans (by rw [← hm])
    have hinbox : r.1.inbox.held = s.inbox.held := by
      unfold PacketInbox.held
      rw [honly.inbox, ← hm]
    refine ⟨?_, ?_, ?_, ?_, ?_⟩
    · simp only [log, honly.packets, hinbox, htrace, ← hm]
      exact hflow.offer _ _
    · simp only [log, honly.egress, htrace, ← hm]
      exact .tried _ h.ledger hyes
    · simp only [log, honly.inbox, honly.capacity, ← hm]
      exact h.room
    · simp only [log, honly.sizes, htrace, ← hm]
      exact h.sizes
    · simp only [log, honly.limit]
      exact hP.egressNow hworld
  · rename_i hno
    exact ⟨hflow.offer _ _, .refused h.ledger (Bool.eq_false_iff.2 hno), h.room, h.sizes,
      hP.egressNow h.browser⟩

theorem sendReleased (hP : Preserved P) : ∀ (released : List (Unit × Bytes)) {s : WebClientState N C W},
    Kept P s hin (released + hout) → Kept P (WebClientState.sendReleased released s).1 hin hout
  | [], _, h => h.drop (le_refl _) (Multiset.le_add_left _ _)
  | ((), bytes) :: rest, s, h => by
    rw [← Multiset.cons_coe, Multiset.cons_add] at h
    have hsent := h.sendUnconditioned hP
    unfold WebClientState.sendReleased
    dsimp only
    split
    · exact hsent.drop (le_refl _) (Multiset.le_add_left _ _)
    · exact sendReleased hP rest hsent

theorem flushPendingSends (hP : Preserved P) (h : Kept P s hin hout) :
    Kept P s.flushPendingSends.1 hin hout :=
  (h.drainOut hP).sendReleased hP _

theorem deferOrSend (hP : Preserved P) (h : Kept P s hin (((), bytes) ::ₘ hout)) :
    Kept P (s.deferOrSend bytes).1 hin hout := by
  have hdefer := h.deferOut hP
  unfold WebClientState.deferOrSend
  dsimp only
  split
  · rename_i hyes
    rw [if_pos hyes] at hdefer
    exact hdefer
  · rename_i hno
    rw [if_neg hno] at hdefer
    exact hdefer.sendUnconditioned hP

omit [DataChannel W] in
theorem orError {r : WebClientState N C W × Except WebRtcClientError Unit}
    {next : WebClientState N C W → WebClientState N C W × Except WebRtcClientError Unit}
    (h : Kept P r.1 hin hout) (hnext : ∀ t, Kept P t hin hout → Kept P (next t).1 hin hout) :
    Kept P (WebClientState.orError r next).1 hin hout := by
  unfold WebClientState.orError
  split
  · exact h
  · exact hnext _ h

theorem sendMade (hP : Preserved P) (h : Kept P s hin hout) (bytes : Bytes) :
    Kept P (s.sendMade bytes).1 hin hout := by
  have hmade : Kept P (s.log (.made () bytes)) hin (((), bytes) ::ₘ hout) :=
    ⟨by rw [Multiset.add_cons]; exact h.flow.make () bytes, h.ledger, h.room, h.sizes, h.browser⟩
  exact orError (hmade.deferOrSend hP) fun t ht => ht.flushPendingSends hP

end Kept

/-! ## Receiving -/

variable [RenetClient C]

namespace Kept

omit [DataChannel W] in
/-- The message in hand goes to netcode, and its payload to renet. -/
theorem processPacket (h : Kept P s (((), bytes) ::ₘ hin) hout) :
    Kept P (s.processPacket bytes) hin hout := by
  have hflow := h.flow
  rw [Multiset.add_cons] at hflow
  have hnext := hflow.process (NetcodeClient.serverAddr s.netcodeClient)
    (NetcodeClient.processPacket s.netcodeClient bytes).2
  unfold WebClientState.processPacket
  dsimp only
  split
  · rename_i payload hp
    rw [hp] at hnext ⊢
    exact ⟨hnext, h.ledger, h.room, h.sizes, h.browser⟩
  · rename_i hp
    rw [hp] at hnext ⊢
    exact ⟨hnext, h.ledger, h.room, h.sizes, h.browser⟩

theorem deliverPendingPackets (hP : Preserved P) (h : Kept P s hin hout) :
    Kept P s.deliverPendingPackets.1 hin hout := by
  have hdrain := h.drainIn hP
  unfold WebClientState.deliverPendingPackets
  dsimp only
  refine flushPendingSends hP ?_
  generalize (s.gateDrain .incoming).2 = released at hdrain ⊢
  generalize (s.gateDrain .incoming).1 = t at hdrain ⊢
  induction released generalizing t with
  | nil => exact hdrain.drop (Multiset.le_add_left _ _) (le_refl _)
  | cons x rest ih =>
    rw [← Multiset.cons_coe, Multiset.cons_add] at hdrain
    exact ih _ hdrain.processPacket

omit [DataChannel W] in
/-- Induction on the messages of the inbox, which `pop` takes one by one. -/
theorem deliverInbox : ∀ (packets : List Bytes) {s : WebClientState N C W}, s.inbox.packets = packets →
    Kept P s hin hout → Kept P (WebClientState.deliverInbox packets s) hin hout
  | [], _, _, h => h
  | packet :: rest, s, hp, h => by
    have hpop : s.inbox.pop.1 = { s.inbox with packets := rest } := by
      unfold PacketInbox.pop
      rw [hp]
    have hroom := h.room
    rw [hp, List.length_cons] at hroom
    have hheld : s.inbox.held = ((), packet) ::ₘ ({ s.inbox with packets := rest } : PacketInbox).held := by
      unfold PacketInbox.held
      rw [hp]
      rfl
    have htaken : Kept P { s with inbox := s.inbox.pop.1 } (((), packet) ::ₘ hin) hout := by
      have hflow := h.flow
      rw [hheld, Multiset.add_cons, Multiset.cons_add, ← Multiset.add_cons] at hflow
      rw [hpop]
      exact ⟨hflow, h.ledger, Nat.le_of_succ_le hroom, h.sizes, h.browser⟩
    unfold WebClientState.deliverInbox
    refine deliverInbox rest ?_ htaken.processPacket
    unfold WebClientState.processPacket
    dsimp only
    split <;> simp only [log, hpop]

/-! ## The public operations -/

omit [DataChannel W] in
theorem giveUp (h : Kept P s hin hout) : Kept P s.giveUp hin hout :=
  ⟨h.clearPendingPackets.flow.disconnect, h.clearPendingPackets.ledger, h.clearPendingPackets.room,
    h.clearPendingPackets.sizes, h.clearPendingPackets.browser⟩

theorem sayGoodbye (hP : Preserved P) (h : Kept P s hin hout) : Kept P s.sayGoodbye hin hout := by
  unfold WebClientState.sayGoodbye
  dsimp only
  split
  · have hleft : Kept P { s with netcodeClient := (NetcodeClient.disconnect s.netcodeClient).1 }
        hin hout := ⟨h.flow, h.ledger, h.room, h.sizes, h.browser⟩
    split
    · exact (hleft.sendMade hP _).clearPendingPackets
    · exact hleft
  · exact h

omit [RenetClient C] in
theorem advance (hP : Preserved P) (h : Kept P s hin hout) (duration : Nat) :
    Kept P (s.advance duration).1 hin hout := by
  unfold WebClientState.advance
  dsimp only
  have hnext : Kept P { s with netcodeClient := (NetcodeClient.update s.netcodeClient duration).1 }
      hin hout := ⟨h.flow, h.ledger, h.room, h.sizes, h.browser⟩
  split
  · exact hnext.sendMade hP _
  · exact hnext

omit [DataChannel W] in
theorem settle (h : Kept P s hin hout) : Kept P s.settle.1 hin hout := by
  unfold WebClientState.settle
  split
  · exact h.giveUp
  · split
    · exact ⟨h.flow, h.ledger, h.room, h.sizes, h.browser⟩
    · split
      · exact ⟨h.flow, h.ledger, h.room, h.sizes, h.browser⟩
      · exact h

/-- `update` keeps the invariant on each of its paths. -/
theorem update (hP : Preserved P) (h : Kept P s hin hout) (duration : Nat) :
    Kept P (s.update duration).1 hin hout := by
  unfold WebClientState.update
  split
  · exact h.giveUp
  · dsimp only
    split
    · exact (h.sayGoodbye hP).giveUp
    · refine orError ((h.sayGoodbye hP).deliverPendingPackets hP) fun t ht => ?_
      exact orError ((ht.deliverInbox _ rfl).advance hP duration) fun t ht => ht.settle

omit [RenetClient C] in
theorem sendPayloads (hP : Preserved P) : ∀ (packets : List Bytes) {s : WebClientState N C W},
    Kept P s hin hout → Kept P (WebClientState.sendPayloads packets s).1 hin hout
  | [], _, h => h
  | packet :: rest, s, h => by
    unfold WebClientState.sendPayloads
    dsimp only
    have hmade : Kept P { s with
        netcodeClient := (NetcodeClient.generatePayloadPacket s.netcodeClient packet).1 } hin hout :=
      ⟨h.flow, h.ledger, h.room, h.sizes, h.browser⟩
    split
    · exact hmade
    · exact orError (hmade.sendMade hP _) fun t ht => sendPayloads hP rest ht

theorem sendPackets (hP : Preserved P) (h : Kept P s hin hout) : Kept P s.sendPackets.1 hin hout := by
  unfold WebClientState.sendPackets
  split
  · exact h.clearPendingPackets
  · exact orError (h.flushPendingSends hP) fun t ht =>
      sendPayloads hP _ ⟨ht.flow, ht.ledger, ht.room, ht.sizes, ht.browser⟩

omit [DataChannel W] [RenetClient C] in
/-- A gate that was emptied and then replaced. -/
theorem replaceGate (h : Kept P s hin hout) {packets : PacketGate Unit}
    (hempty : ∀ d, packets.waiting d = 0) : Kept P { s with packets := packets } hin hout := by
  have hle : ∀ d, packets.waiting d ≤ s.packets.waiting d := by
    intro d
    rw [hempty]
    exact Multiset.zero_le _
  exact ⟨h.flow.lose (add_le_add_left (add_le_add_left (hle _) _) _) (add_le_add_left (hle _) _),
    h.ledger, h.room, h.sizes, h.browser⟩

/-- So does every call and every message event. -/
theorem step (hP : Preserved P) (h : Kept P s hin hout) (op : Op C) : Kept P (s.step op) hin hout := by
  cases op with
  | update duration => exact h.update hP duration
  | sendPackets => exact h.sendPackets hP
  | setEgressLimit config =>
    simp only [WebClientState.step, setEgressLimit]
    split
    · rename_i egress hc
      exact ⟨h.flow, .configure h.ledger hc, h.room, h.sizes, hP.egressNow h.browser⟩
    · exact ⟨h.flow, h.ledger, h.room, h.sizes, hP.egressNow h.browser⟩
  | setConditioner handle => exact h.clearPendingPackets.replaceGate fun d => rfl
  | clearConditioner => exact h.clearPendingPackets.replaceGate fun d => rfl
  | message data => exact h.onMessage hP data
  | elapse k => exact ⟨h.flow, h.ledger, h.room, h.sizes, hP.elapse k h.browser⟩
  | game f => exact ⟨h.flow, h.ledger, h.room, h.sizes, h.browser⟩

/-- Over a whole run: induction on the calls and events. -/
theorem run (hP : Preserved P) (h : Kept P s hin hout) : ∀ ops : List (Op C),
    Kept P (s.run ops) hin hout := by
  intro ops
  induction ops generalizing s with
  | nil => exact h
  | cons op ops ih => exact ih (h.step hP op)

end Kept

omit [DataChannel W] [RenetClient C] in
/-- A new transport has done nothing and holds nothing. -/
theorem kept_new (options : WebRtcConnectOptions) (conditioner : Option Control) (netcodeClient : N)
    (client : C) (world : W) (h : P world options.maxBufferedAmount) :
    Kept P (new options conditioner netcodeClient client world) 0 0 := by
  cases conditioner <;> exact ⟨.idle, .new, Nat.zero_le _, rfl, h⟩

/-! ## Whole runs -/

theorem preserved_true : Preserved (fun (_ : W) (_ : Nat) => True) :=
  ⟨fun _ _ => trivial, fun _ => trivial, fun _ _ => trivial, fun _ _ _ => trivial⟩

/-- From the data channel to renet and back, whatever order message events, calls and
browser delays come in. At every moment the packets netcode has processed are, one for
one, messages of a valid size that arrived before; those behind the gate and in the
inbox are others of them, and the inbox is never over its capacity. Renet has got the
payloads netcode found, in that order. The messages given to the channel are, one for
one, packets netcode made before. -/
theorem channel_to_renet (options : WebRtcConnectOptions) (conditioner : Option Control)
    (netcodeClient : N) (client : C) (world : W) (ops : List (Op C)) :
    let s := (new options conditioner netcodeClient client world).run ops
    (∀ newer older, s.trace = newer ++ older →
        (older.filterMap ClientEvent.processedPacket : Multiset (Unit × Bytes)) ≤
            older.filterMap (ClientEvent.accepted (eligible N)) ∧
          (older.filterMap ClientEvent.handedPacket : Multiset (Unit × Bytes)) ≤
            older.filterMap ClientEvent.madePacket) ∧
      (s.trace.filterMap ClientEvent.processedPacket : Multiset (Unit × Bytes)) +
          (s.packets.waiting .incoming + s.inbox.held) ≤
        s.trace.filterMap (ClientEvent.accepted (eligible N)) ∧
      (s.trace.filterMap ClientEvent.handedPacket : Multiset (Unit × Bytes)) +
          s.packets.waiting .outgoing ≤ s.trace.filterMap ClientEvent.madePacket ∧
      s.trace.filterMap ClientEvent.payloadDelivered = s.trace.filterMap ClientEvent.payloadFound ∧
      s.inbox.packets.length ≤ s.inbox.capacity ∧
      s.inbox.stats.receiveInvalidSizeDrops = wrapU64 (s.trace.countP (turnedAway N)) := by
  have h := (kept_new (P := fun _ _ => True) options conditioner netcodeClient client world trivial).run
    preserved_true ops
  have hflow := h.flow
  rw [add_zero, add_zero] at hflow
  exact ⟨fun newer older ht => ⟨hflow.inbound_past ht, hflow.outbound_past ht⟩, hflow.inbound,
    hflow.outbound, hflow.payloads, h.room, h.sizes⟩

/-- Until a counter saturates, `egress_stats` is an exact report on the messages
offered. -/
theorem channel_egress_report (options : WebRtcConnectOptions) (conditioner : Option Control)
    (netcodeClient : N) (client : C) (world : W) (ops : List (Op C))
    (hsat : ((new options conditioner netcodeClient client world).run ops).egress.total.Unsaturated) :
    let s := (new options conditioner netcodeClient client world).run ops
    Egress.Reports .encryptedLogical (s.trace.filterMap (ClientEvent.posting fun _ => 0))
      s.egress.total := by
  have h := (kept_new (P := fun _ _ => True) options conditioner netcodeClient client world trivial).run
    preserved_true ops
  exact (h.ledger.books hsat).reports

theorem fits_le {buffered len limit : Nat} (h : fitsSendBudget buffered len limit = true) :
    buffered + len ≤ limit := by
  simp only [fitsSendBudget, Bool.and_eq_true, decide_eq_true_eq] at h
  omega

/-- A lawful channel that is only given what fits keeps within the limit. -/
theorem preserved_buffered [LawfulChannel W] (limit : Nat) :
    Preserved fun (w : W) (l : Nat) => l = limit ∧ DataChannel.bufferedAmount w ≤ l where
  lock c h := ⟨h.1, (LawfulChannel.lock _ c).trans h.2⟩
  egressNow h := ⟨h.1, (LawfulChannel.egressNow _).trans h.2⟩
  elapse k h := ⟨h.1, (LawfulChannel.elapse _ k).trans h.2⟩
  send bytes h hfits := ⟨h.1, (LawfulChannel.send _ bytes).trans (fits_le hfits)⟩

/-- A packet netcode may make fits an empty buffer, under options that passed
`validate`. -/
theorem fits_empty (options : WebRtcConnectOptions) {limit len : Nat}
    (h : options.validate limit = .ok ()) (hlen : len ≤ limit) :
    fitsSendBudget 0 len options.maxBufferedAmount = true := by
  unfold WebRtcConnectOptions.validate at h
  split at h
  · cases h
  · rename_i hlt
    simp only [fitsSendBudget, Bool.and_eq_true, decide_eq_true_eq]
    omega

/-- With options that passed `validate`, the transport never has more than
`max_buffered_amount` bytes in the browser's buffer; and once the browser has sent
them all, a packet of netcode is never turned away for want of room. -/
theorem buffered_bounded [LawfulChannel W] (options : WebRtcConnectOptions)
    (conditioner : Option Control) (netcodeClient : N) (client : C) (world : W) (ops : List (Op C))
    (hvalid : options.validate (NetcodeClient.maxPacketBytes N) = .ok ())
    (hstart : DataChannel.bufferedAmount world ≤ options.maxBufferedAmount) :
    let s := (new options conditioner netcodeClient client world).run ops
    DataChannel.bufferedAmount s.world ≤ options.maxBufferedAmount ∧
      ∀ payload : Bytes, payload.length ≤ NetcodeClient.maxPacketBytes N →
        DataChannel.bufferedAmount s.world = 0 →
        (s.handToChannel payload).1.inbox.stats.sendBackpressureDrops =
          s.inbox.stats.sendBackpressureDrops := by
  have h := (kept_new (P := fun w l => l = options.maxBufferedAmount ∧
    DataChannel.bufferedAmount w ≤ l) options conditioner netcodeClient client world
    ⟨rfl, hstart⟩).run (preserved_buffered _) ops
  obtain ⟨hlimit, hbound⟩ := h.browser
  refine ⟨hlimit ▸ hbound, fun payload hlen hempty => ?_⟩
  unfold handToChannel
  split
  · rw [if_pos (by rw [hempty, hlimit]; exact fits_empty options hvalid hlen)]
    dsimp only
    split <;> rfl
  · rfl
  · rfl

/-! ## A run -/

/-- A browser whose channel is open and whose buffer empties when time passes. -/
structure ScriptedBrowser where
  buffered : Nat := 0
  now : Nat := 0

instance : DataChannel ScriptedBrowser where
  lock w control := ({ w with now := w.now + 1 }, w.now, control)
  delay _ latency _ _ := latency
  readyState _ := .isOpen
  bufferedAmount := ScriptedBrowser.buffered
  send w bytes := ({ w with buffered := w.buffered + bytes.length }, .ok ())
  egressNow w := ({ w with now := w.now + 1 }, w.now)
  elapse w k := { w with buffered := w.buffered - k }

instance : LawfulChannel ScriptedBrowser where
  send _ _ := Nat.le_refl _
  egressNow _ := Nat.le_refl _
  lock _ _ := Nat.le_refl _
  elapse w k := Nat.sub_le w.buffered k

def hostOnly : WebRtcConnectOptions := ⟨[], 1400, 2⟩

/-- Three messages for an inbox of two, then a frame, then a packet of the game. -/
def tabRun : WebClientState TaggedNetcode MailboxRenet ScriptedBrowser :=
  (new hostOnly none ⟨.v4 ⟨10, 0, 0, 1⟩ 5001, none⟩ { outbox := [[3]] } {}).run
    [.message (.arrayBuffer [5, 1]), .message (.uint8Array [5, 2]), .message .other,
      .message (.arrayBuffer []), .message (.arrayBuffer [5, 3]), .update 16, .sendPackets, .elapse 2]

theorem channel_egress_report_tabRun :
    tabRun.egress.total.sentPackets = 2 ∧
      Egress.Reports .encryptedLogical (tabRun.trace.filterMap (ClientEvent.posting fun _ => 0))
        tabRun.egress.total :=
  ⟨by decide +kernel, channel_egress_report _ _ _ _ _ _ fun k => by cases k <;> decide +kernel⟩

theorem buffered_bounded_tabRun :
    tabRun.world.buffered = 1 ∧
      DataChannel.bufferedAmount tabRun.world ≤ hostOnly.maxBufferedAmount :=
  ⟨by decide +kernel, (buffered_bounded _ _ _ _ _ _ (by decide +kernel) (Nat.zero_le _)).1⟩

end WebClientState
end RenetCross.L4
