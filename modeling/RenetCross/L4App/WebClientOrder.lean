import RenetCross.L4App.WebClientRuns

/-!
# The inbox of a browser client, and the end of its connection

While no conditioner is attached, every message of a valid size goes through the
inbox. `InOrder`: netcode sees messages in the order they arrived, the inbox holds
the newest of them, and each one is processed, waits, was pushed out by newer ones
and counted, or was thrown away with the rest of the inbox.

`channel_update_outcome` says what each result of `update` means.
-/
namespace RenetCross.L4

open RenetCross.L2

namespace WebClientState

variable {N C W : Type} [DataChannel W] [NetcodeClient N]

/-- The messages of a valid size, newest first. -/
def arrived (s : WebClientState N C W) : List (Unit × Bytes) :=
  s.trace.filterMap (ClientEvent.accepted (eligible N))

/-- The packets netcode has processed, newest first. -/
def seen (s : WebClientState N C W) : List (Unit × Bytes) :=
  s.trace.filterMap ClientEvent.processedPacket

/-- The packets in the inbox, newest first. -/
def pending (s : WebClientState N C W) : List (Unit × Bytes) :=
  s.inbox.packets.reverse.map fun p => ((), p)

/-- How many packets were in the inbox when it was emptied unread. -/
def clearedPackets : ClientEvent Unit → Nat
  | .cleared n => n
  | _ => 0

/-- How many messages were thrown away unread. -/
def thrownAway (s : WebClientState N C W) : Nat := (s.trace.map clearedPackets).sum

/-- The invariant of a run without a conditioner: what is seen and pending are messages that
arrived, in that order, the pending ones the newest, and every other one is counted. -/
structure InOrder (s : WebClientState N C W) : Prop where
  gate : s.packets = none
  room : s.inbox.packets.length ≤ s.inbox.capacity
  order : (s.pending ++ s.seen).Sublist s.arrived
  newest : s.pending <+: s.arrived
  count : ∃ n, s.inbox.stats.receiveOverflowDrops = wrapU64 n ∧
    s.arrived.length = s.seen.length + s.pending.length + n + s.thrownAway

/-! ## What sending leaves alone -/

/-- Nothing happens on the way in. -/
structure Untouched (s t : WebClientState N C W) : Prop where
  gate : s.packets = none → t.packets = none
  inbox : t.inbox.packets = s.inbox.packets
  capacity : t.inbox.capacity = s.inbox.capacity
  overflow : t.inbox.stats.receiveOverflowDrops = s.inbox.stats.receiveOverflowDrops
  arrived : t.arrived = s.arrived
  seen : t.seen = s.seen
  thrownAway : t.thrownAway = s.thrownAway

variable {s t : WebClientState N C W} {bytes : Bytes}

namespace Untouched

section

omit [DataChannel W]

theorem refl (s : WebClientState N C W) : Untouched s s := ⟨id, rfl, rfl, rfl, rfl, rfl, rfl⟩

theorem trans {u : WebClientState N C W} (h : Untouched s t) (h' : Untouched t u) : Untouched s u :=
  ⟨fun hs => h'.gate (h.gate hs), h'.inbox.trans h.inbox, h'.capacity.trans h.capacity,
    h'.overflow.trans h.overflow, h'.arrived.trans h.arrived, h'.seen.trans h.seen,
    h'.thrownAway.trans h.thrownAway⟩

/-- The channel is on the way out. -/
theorem ofChannel (h : ChannelOnly s t) : Untouched s t := by
  refine ⟨fun hs => h.packets.trans hs, h.inbox, h.capacity, h.overflow, ?_, ?_, ?_⟩
  · unfold WebClientState.arrived; rw [h.trace]
  · unfold WebClientState.seen; rw [h.trace]
  · unfold WebClientState.thrownAway; rw [h.trace]

end

end Untouched

theorem gateDefer_untouched (d : ConditionerDirection) (bytes : Bytes) :
    Untouched s (s.gateDefer d bytes).1 := by
  refine ⟨fun hs => ?_, rfl, rfl, rfl, rfl, rfl, rfl⟩
  simp only [gateDefer, hs, PacketGate.defer]

theorem gateDrain_untouched (d : ConditionerDirection) : Untouched s (s.gateDrain d).1 := by
  refine ⟨fun hs => ?_, rfl, rfl, rfl, rfl, rfl, rfl⟩
  simp only [gateDrain, hs, PacketGate.drain]

/-- Sending logs how it went, which is nothing that arrived. -/
theorem sendUnconditioned_untouched (s : WebClientState N C W) (payload : Bytes) :
    Untouched s (s.sendUnconditioned payload).1 := by
  unfold sendUnconditioned
  dsimp only
  split
  · refine Untouched.trans (t := { s with
      world := (DataChannel.egressNow s.world).1
      egress := (s.egress.admitAt () payload 0 (DataChannel.egressNow s.world).2).1 })
      ⟨id, rfl, rfl, rfl, rfl, rfl, rfl⟩ ?_
    refine (Untouched.ofChannel (handToChannel_only _ payload)).trans ?_
    exact ⟨id, rfl, rfl, rfl, rfl, rfl, by simp [thrownAway, log, clearedPackets]⟩
  · exact ⟨id, rfl, rfl, rfl, rfl, rfl, by simp [thrownAway, log, clearedPackets]⟩

theorem sendReleased_untouched : ∀ (released : List (Unit × Bytes)) (s : WebClientState N C W),
    Untouched s (sendReleased released s).1
  | [], s => .refl s
  | (_, packet) :: rest, s => by
    unfold sendReleased
    dsimp only
    split
    · exact sendUnconditioned_untouched s packet
    · exact (sendUnconditioned_untouched s packet).trans (sendReleased_untouched rest _)

theorem flushPendingSends_untouched (s : WebClientState N C W) : Untouched s s.flushPendingSends.1 :=
  (gateDrain_untouched .outgoing).trans (sendReleased_untouched _ _)

omit [DataChannel W] in
/-- An error ends the call where it is, and nothing has happened on the way in until then.
-/
theorem orError_untouched {r : WebClientState N C W × Except WebRtcClientError Unit}
    {next : WebClientState N C W → WebClientState N C W × Except WebRtcClientError Unit}
    (h : Untouched s r.1) (hnext : ∀ t, Untouched t (next t).1) : Untouched s (orError r next).1 := by
  unfold orError
  split
  · exact h
  · exact h.trans (hnext _)

theorem sendMade_untouched (s : WebClientState N C W) (bytes : Bytes) :
    Untouched s (s.sendMade bytes).1 := by
  have hmade : Untouched s (s.log (.made () bytes)) :=
    ⟨id, rfl, rfl, rfl, rfl, rfl, by simp [thrownAway, log, clearedPackets]⟩
  refine hmade.trans (orError_untouched ?_ flushPendingSends_untouched)
  unfold deferOrSend
  dsimp only
  split
  · exact gateDefer_untouched .outgoing bytes
  · exact (gateDefer_untouched .outgoing bytes).trans (sendUnconditioned_untouched _ bytes)

theorem sendPayloads_untouched : ∀ (packets : List Bytes) (s : WebClientState N C W),
    Untouched s (sendPayloads packets s).1
  | [], s => .refl s
  | packet :: rest, s => by
    unfold sendPayloads
    dsimp only
    have hmade : Untouched s { s with
        netcodeClient := (NetcodeClient.generatePayloadPacket s.netcodeClient packet).1 } :=
      ⟨id, rfl, rfl, rfl, rfl, rfl, rfl⟩
    split
    · exact hmade
    · exact hmade.trans (orError_untouched (sendMade_untouched _ _) (sendPayloads_untouched rest))

/-- Netcode's own packets are on the way out too. -/
theorem advance_untouched (duration : Nat) (s : WebClientState N C W) :
    Untouched s (s.advance duration).1 := by
  unfold advance
  dsimp only
  have hnext : Untouched s { s with
      netcodeClient := (NetcodeClient.update s.netcodeClient duration).1 } :=
    ⟨id, rfl, rfl, rfl, rfl, rfl, rfl⟩
  split
  · exact hnext.trans (sendMade_untouched _ _)
  · exact hnext

/-! ## The way in -/

namespace InOrder

omit [DataChannel W] in
/-- What only concerns the way out keeps the order. -/
theorem untouched (h : InOrder s) (hu : Untouched s t) : InOrder t := by
  have hpending : t.pending = s.pending := by unfold pending; rw [hu.inbox]
  obtain ⟨n, hover, hcount⟩ := h.count
  refine ⟨hu.gate h.gate, ?_, ?_, ?_, n, hu.overflow.trans hover, ?_⟩
  · rw [hu.inbox, hu.capacity]; exact h.room
  · rw [hpending, hu.seen, hu.arrived]; exact h.order
  · rw [hpending, hu.arrived]; exact h.newest
  · rw [hpending, hu.seen, hu.arrived, hu.thrownAway]; exact hcount

omit [DataChannel W] in
theorem clearPendingPackets (h : InOrder s) : InOrder s.clearPendingPackets := by
  obtain ⟨n, hover, hcount⟩ := h.count
  refine ⟨by simp only [WebClientState.clearPendingPackets, log, h.gate]; rfl, Nat.zero_le _, ?_,
    List.nil_prefix, n, hover, ?_⟩
  · exact (List.sublist_append_right _ _).trans h.order
  · have hlen : s.pending.length = s.inbox.packets.length := by simp [pending]
    have hthrown : s.clearPendingPackets.thrownAway = s.inbox.packets.length + s.thrownAway := rfl
    have hseen : s.clearPendingPackets.seen = s.seen := rfl
    have harrived : s.clearPendingPackets.arrived = s.arrived := rfl
    have hpending : s.clearPendingPackets.pending = [] := rfl
    rw [hthrown, hseen, harrived, hpending, List.length_nil]
    omega

end InOrder

omit [NetcodeClient N] in
/-- Without a gate a message goes straight to the inbox. -/
theorem keepMessage_unattached (h : s.packets = none) (bytes : Bytes) :
    (s.keepMessage bytes).packets = none ∧ (s.keepMessage bytes).inbox = s.inbox.push bytes ∧
      (s.keepMessage bytes).trace = s.trace := by
  simp [keepMessage, gateDefer, PacketGate.defer, h]

namespace InOrder

/-- A message of a valid size joins the inbox, pushing out the oldest if it must. -/
theorem keepMessage {server : SocketAddr} (h : InOrder s) (hok : eligible N () server bytes = true) :
    InOrder ((s.log (.received () server bytes)).keepMessage bytes) := by
  obtain ⟨hgate, hinbox, htrace⟩ :=
    keepMessage_unattached (s := s.log (.received () server bytes)) h.gate bytes
  generalize (s.log (.received () server bytes)).keepMessage bytes = t at hgate hinbox htrace ⊢
  replace hinbox : t.inbox = s.inbox.push bytes := hinbox
  have harrived : t.arrived = ((), bytes) :: s.arrived := by
    simp [arrived, htrace, log, ClientEvent.accepted, hok]
  have hseen : t.seen = s.seen := by
    rw [seen, htrace]
    rfl
  have hthrown : t.thrownAway = s.thrownAway := by simp [thrownAway, htrace, log, clearedPackets]
  have hroom : t.inbox.packets.length ≤ t.inbox.capacity := by
    rw [hinbox]
    exact PacketInbox.length_push h.room bytes
  obtain ⟨n, hover, hcount⟩ := h.count
  have hlen : s.pending.length = s.inbox.packets.length := by simp [pending]
  have hdrop : wrapU64 (s.inbox.stats.receiveOverflowDrops + 1) = wrapU64 (n + 1) := by
    rw [hover, wrapU64_wrapU64_add]
  obtain ⟨hzero, hp⟩ | ⟨hpos, hfull, hp⟩ | ⟨-, hp⟩ := PacketInbox.push_cases s.inbox bytes
  · have hnone : s.inbox.packets = [] := List.length_eq_zero_iff.1 (by have := h.room; omega)
    have hpending : t.pending = [] := by
      rw [pending, hinbox]
      exact congrArg (fun packets => (List.reverse packets).map fun p => ((), p))
        ((congrArg PacketInbox.packets hp).trans hnone)
    refine ⟨hgate, hroom, ?_, ?_, n + 1, ?_, ?_⟩
    · rw [hpending, hseen, harrived]
      exact ((List.sublist_append_right _ _).trans h.order).cons _
    · rw [hpending]; exact List.nil_prefix
    · rw [hinbox]; exact (congrArg (·.stats.receiveOverflowDrops) hp).trans hdrop
    · rw [hpending, hseen, harrived, hthrown, List.length_cons, List.length_nil, hcount, hlen, hnone]
      simp only [List.length_nil]
      omega
  · have hpending : t.pending = ((), bytes) :: s.pending.dropLast := by
      rw [pending, hinbox, hp]
      simp [pending, List.dropLast_reverse]
    refine ⟨hgate, hroom, ?_, ?_, n + 1, ?_, ?_⟩
    · rw [hpending, hseen, harrived, List.cons_append]
      exact (((List.dropLast_sublist _).append (List.Sublist.refl _)).trans h.order).cons_cons _
    · rw [hpending, harrived]
      exact List.cons_prefix_cons.2 ⟨rfl, ( List.dropLast_prefix _).trans h.newest⟩
    · rw [hinbox]; exact (congrArg (·.stats.receiveOverflowDrops) hp).trans hdrop
    · rw [hpending, hseen, harrived, hthrown, List.length_cons, List.length_cons, List.length_dropLast,
        hcount]
      omega
  · have hpending : t.pending = ((), bytes) :: s.pending := by
      rw [pending, hinbox, hp]
      simp [pending]
    refine ⟨hgate, hroom, ?_, ?_, n, ?_, ?_⟩
    · rw [hpending, hseen, harrived, List.cons_append]
      exact h.order.cons_cons _
    · rw [hpending, harrived]
      exact List.cons_prefix_cons.2 ⟨rfl, h.newest⟩
    · rw [hinbox]; exact (congrArg (·.stats.receiveOverflowDrops) hp).trans hover
    · rw [hpending, hseen, harrived, hthrown, List.length_cons, List.length_cons, hcount]
      omega

theorem receive (h : InOrder s) (bytes : Bytes) : InOrder (s.receive bytes) := by
  unfold WebClientState.receive
  dsimp only
  by_cases hok : eligible N () (NetcodeClient.serverAddr s.netcodeClient) bytes = true
  · have hsize := @PacketInbox.acceptsSize_valid s.inbox (NetcodeClient.maxPacketBytes N)
      bytes.length (by simpa [eligible] using hok)
    simp only [log, hsize, if_true]
    exact h.keepMessage hok
  · rw [Bool.not_eq_true] at hok
    have hsize := @PacketInbox.acceptsSize_invalid s.inbox (NetcodeClient.maxPacketBytes N)
      bytes.length (by simpa [eligible, ← Decidable.or_iff_not_imp_left] using hok)
    simp only [log, hsize, Bool.false_eq_true, if_false]
    refine h.untouched ⟨id, rfl, rfl, rfl, ?_, rfl, ?_⟩
    · exact List.filterMap_cons_none (by simp [ClientEvent.accepted, hok])
    · simp [thrownAway, clearedPackets]

theorem onMessage (h : InOrder s) (data : MessageData) : InOrder (s.onMessage data) := by
  cases data with
  | arrayBuffer bytes => exact h.receive bytes
  | uint8Array bytes => exact h.receive bytes
  | other => exact h

end InOrder

variable [RenetClient C]

omit [DataChannel W] in
/-- Processing a message moves it from one side of the balance to the other. -/
theorem processPacket_frame (s : WebClientState N C W) (bytes : Bytes) :
    (s.processPacket bytes).packets = s.packets ∧ (s.processPacket bytes).inbox = s.inbox ∧
      (s.processPacket bytes).arrived = s.arrived ∧
      (s.processPacket bytes).seen = ((), bytes) :: s.seen ∧
      (s.processPacket bytes).thrownAway = s.thrownAway := by
  unfold processPacket
  dsimp only
  split
  · exact ⟨rfl, rfl, rfl, rfl, by simp [thrownAway, log, clearedPackets]⟩
  · exact ⟨rfl, rfl, rfl, rfl, by simp [thrownAway, log, clearedPackets]⟩

namespace InOrder

omit [DataChannel W] in
/-- The oldest packet of the inbox is the next one netcode sees. -/
theorem popped {packet : Bytes} {rest : List Bytes} (h : InOrder s)
    (hp : s.inbox.packets = packet :: rest) :
    InOrder ({ s with inbox := s.inbox.pop.1 }.processPacket packet) ∧
      ({ s with inbox := s.inbox.pop.1 }.processPacket packet).inbox.packets = rest := by
  have hpop : s.inbox.pop.1 = { s.inbox with packets := rest } := by
    unfold PacketInbox.pop
    rw [hp]
  obtain ⟨hgate, hinbox, harrived, hseen, hthrown⟩ :=
    processPacket_frame { s with inbox := s.inbox.pop.1 } packet
  generalize { s with inbox := s.inbox.pop.1 }.processPacket packet = t at *
  replace hinbox : t.inbox = { s.inbox with packets := rest } := hinbox.trans hpop
  replace harrived : t.arrived = s.arrived := harrived
  replace hseen : t.seen = ((), packet) :: s.seen := hseen
  replace hthrown : t.thrownAway = s.thrownAway := hthrown
  have hpending : s.pending = (rest.reverse.map fun p => ((), p)) ++ [((), packet)] := by
    simp [pending, hp]
  have hpend : t.pending = rest.reverse.map fun p => ((), p) := by rw [pending, hinbox]
  have hroom := h.room
  rw [hp, List.length_cons] at hroom
  obtain ⟨n, hover, hcount⟩ := h.count
  refine ⟨⟨hgate.trans h.gate, by rw [hinbox]; exact Nat.le_of_succ_le hroom, ?_, ?_, n, ?_, ?_⟩,
    by rw [hinbox]⟩
  · rw [hpend, hseen, harrived, ← List.singleton_append, ← List.append_assoc, ← hpending]
    exact h.order
  · rw [hpend, harrived]
    exact (List.prefix_append _ _).trans (hpending ▸ h.newest)
  · rw [hinbox]; exact hover
  · rw [hpending, List.length_append, List.length_singleton] at hcount
    rw [hpend, hseen, harrived, hthrown, List.length_cons]
    omega

omit [DataChannel W] in
/-- Induction on the inbox: its oldest message is the next one netcode sees. -/
theorem deliverInbox : ∀ (packets : List Bytes) {s : WebClientState N C W}, s.inbox.packets = packets →
    InOrder s → InOrder (WebClientState.deliverInbox packets s)
  | [], _, _, h => h
  | _ :: rest, _, hp, h => by
    obtain ⟨hnext, hrest⟩ := h.popped hp
    exact deliverInbox rest hrest hnext

/-! ## The public operations -/

omit [DataChannel W] in
theorem giveUp (h : InOrder s) : InOrder s.giveUp :=
  h.clearPendingPackets.untouched
    ⟨id, rfl, rfl, rfl, rfl, rfl, by simp [WebClientState.giveUp, thrownAway, log, clearedPackets]⟩

theorem sayGoodbye (h : InOrder s) : InOrder s.sayGoodbye := by
  unfold WebClientState.sayGoodbye
  dsimp only
  split
  · have hleft : InOrder { s with netcodeClient := (NetcodeClient.disconnect s.netcodeClient).1 } :=
      h.untouched ⟨id, rfl, rfl, rfl, rfl, rfl, rfl⟩
    split
    · exact (hleft.untouched (sendMade_untouched _ _)).clearPendingPackets
    · exact hleft
  · exact h

omit [DataChannel W] in
theorem settle (h : InOrder s) : InOrder s.settle.1 := by
  unfold WebClientState.settle
  split
  · exact h.giveUp
  · split
    · exact h.untouched ⟨id, rfl, rfl, rfl, rfl, rfl, rfl⟩
    · split
      · exact h.untouched ⟨id, rfl, rfl, rfl, rfl, rfl, rfl⟩
      · exact h

omit [DataChannel W] [RenetClient C] in
theorem orError {r : WebClientState N C W × Except WebRtcClientError Unit}
    {next : WebClientState N C W → WebClientState N C W × Except WebRtcClientError Unit}
    (h : InOrder r.1) (hnext : ∀ t, InOrder t → InOrder (next t).1) :
    InOrder (WebClientState.orError r next).1 := by
  unfold WebClientState.orError
  split
  · exact h
  · exact hnext _ h

/-- Without a gate nothing was deferred. -/
theorem deliverPendingPackets (h : InOrder s) : InOrder s.deliverPendingPackets.1 := by
  have hnone : (s.gateDrain .incoming).2 = [] := by simp only [gateDrain, PacketGate.drain, h.gate]
  unfold WebClientState.deliverPendingPackets
  dsimp only
  rw [hnone, List.foldl_nil]
  exact h.untouched ((gateDrain_untouched .incoming).trans (flushPendingSends_untouched _))

theorem update (h : InOrder s) (duration : Nat) : InOrder (s.update duration).1 := by
  unfold WebClientState.update
  split
  · exact h.giveUp
  · dsimp only
    split
    · exact h.sayGoodbye.giveUp
    · refine orError h.sayGoodbye.deliverPendingPackets fun t ht => ?_
      exact orError ((ht.deliverInbox _ rfl).untouched (advance_untouched duration _))
        fun t ht => ht.settle

theorem sendPackets (h : InOrder s) : InOrder s.sendPackets.1 := by
  unfold WebClientState.sendPackets
  split
  · exact h.clearPendingPackets
  · refine orError (h.untouched (flushPendingSends_untouched s)) fun t ht => ?_
    refine ht.untouched (Untouched.trans (t := { t with client := (RenetClient.getPacketsToSend t.client).1 })
      ⟨id, rfl, rfl, rfl, rfl, rfl, rfl⟩ (sendPayloads_untouched _ _))

/-- Every call and event keeps the order, unless a conditioner is attached. -/
theorem step (h : InOrder s) {op : Op C} (hop : ∀ handle, op ≠ .setConditioner handle) :
    InOrder (s.step op) := by
  cases op with
  | update duration => exact h.update duration
  | sendPackets => exact h.sendPackets
  | setEgressLimit config =>
    simp only [WebClientState.step, setEgressLimit]
    split <;> exact h.untouched ⟨id, rfl, rfl, rfl, rfl, rfl, rfl⟩
  | setConditioner handle => exact absurd rfl (hop handle)
  | clearConditioner =>
    exact h.clearPendingPackets.untouched ⟨fun _ => rfl, rfl, rfl, rfl, rfl, rfl, rfl⟩
  | message data => exact h.onMessage data
  | elapse k => exact h.untouched ⟨id, rfl, rfl, rfl, rfl, rfl, rfl⟩
  | game f => exact h.untouched ⟨id, rfl, rfl, rfl, rfl, rfl, rfl⟩

/-- Over a whole run: induction on the calls and events. -/
theorem run (h : InOrder s) : ∀ {ops : List (Op C)},
    (∀ op ∈ ops, ∀ handle, op ≠ .setConditioner handle) → InOrder (s.run ops) := by
  intro ops hops
  induction ops generalizing s with
  | nil => exact h
  | cons op ops ih =>
    obtain ⟨hop, hrest⟩ := List.forall_mem_cons.1 hops
    exact ih (h.step hop) hrest

end InOrder

omit [DataChannel W] [RenetClient C] in
theorem inOrder_new (options : WebRtcConnectOptions) (netcodeClient : N) (client : C) (world : W) :
    InOrder (new options none netcodeClient client world) :=
  ⟨rfl, Nat.zero_le _, List.Sublist.refl _, List.nil_prefix, 0, rfl, rfl⟩

/-- Without a conditioner, in every run: netcode has seen messages in the order they
arrived and those in the inbox come after them, the inbox holds the newest messages,
and every message of a valid size was seen, waits, is counted as pushed out, or was
thrown away when the connection ended or the pending packets were cleared. -/
theorem unconditioned_in_order (options : WebRtcConnectOptions) (netcodeClient : N) (client : C)
    (world : W) (ops : List (Op C)) (hops : ∀ op ∈ ops, ∀ handle, op ≠ .setConditioner handle) :
    let s := (new options none netcodeClient client world).run ops
    (s.pending ++ s.seen).Sublist s.arrived ∧ s.pending <+: s.arrived ∧
      ∃ dropped, s.inbox.stats.receiveOverflowDrops = wrapU64 dropped ∧
        s.arrived.length = s.seen.length + s.pending.length + dropped + s.thrownAway := by
  have h := (inOrder_new options netcodeClient client world).run hops
  exact ⟨h.order, h.newest, h.count⟩

theorem unconditioned_in_order_tabRun :
    tabRun.seen = [((), [5, 3]), ((), [5, 2])] ∧
      tabRun.arrived = [((), [5, 3]), ((), [5, 2]), ((), [5, 1])] ∧
      (tabRun.pending ++ tabRun.seen).Sublist tabRun.arrived := by
  refine ⟨by decide +kernel, by decide +kernel, (unconditioned_in_order _ _ _ _ _ ?_).1⟩
  simp

/-! ## The end of a connection -/

/-- Nothing reaches netcode, renet or the channel. -/
def quiet : ClientEvent Unit → Bool
  | .received _ _ _ => true
  | .cleared _ => true
  | .disconnected => true
  | _ => false

/-- Messages may still arrive, but from here on the transport passes nothing on. -/
def Silent (s t : WebClientState N C W) : Prop :=
  t.netcodeClient = s.netcodeClient ∧
    ∃ newer, t.trace = newer ++ s.trace ∧ ∀ e ∈ newer, quiet e = true

section

omit [DataChannel W] [NetcodeClient N] [RenetClient C]

theorem Silent.refl (s : WebClientState N C W) : Silent s s := ⟨rfl, [], rfl, List.forall_mem_nil _⟩

theorem Silent.trans {u : WebClientState N C W} (h : Silent s t) (h' : Silent t u) : Silent s u := by
  obtain ⟨hn, newer, ht, hq⟩ := h
  obtain ⟨hn', newer', ht', hq'⟩ := h'
  refine ⟨hn'.trans hn, newer' ++ newer, by rw [ht', ht, List.append_assoc], fun e he => ?_⟩
  exact (List.mem_append.1 he).elim (hq' e) (hq e)

/-- One event more. -/
theorem Silent.log {e : ClientEvent Unit} (hn : t.netcodeClient = s.netcodeClient)
    (ht : t.trace = e :: s.trace) (he : quiet e = true) : Silent s t :=
  ⟨hn, [e], ht, fun e' he' => by rw [List.mem_singleton.1 he']; exact he⟩

theorem Silent.same (hn : t.netcodeClient = s.netcodeClient) (ht : t.trace = s.trace) : Silent s t :=
  ⟨hn, [], ht, List.forall_mem_nil _⟩

end

omit [RenetClient C] in
/-- A message that still arrives is kept or counted, and not looked at. -/
theorem receive_silent (s : WebClientState N C W) (bytes : Bytes) : Silent s (s.receive bytes) := by
  have hkeep : ∀ u : WebClientState N C W, (u.keepMessage bytes).netcodeClient = u.netcodeClient ∧
      (u.keepMessage bytes).trace = u.trace := by
    intro u
    unfold keepMessage
    dsimp only
    split <;> exact ⟨rfl, rfl⟩
  unfold receive
  dsimp only
  split
  · exact .log (hkeep _).1 (hkeep _).2 rfl
  · exact .log rfl rfl rfl

omit [RenetClient C] in
theorem onMessage_silent (s : WebClientState N C W) (data : MessageData) :
    Silent s (s.onMessage data) := by
  cases data with
  | arrayBuffer bytes => exact receive_silent s bytes
  | uint8Array bytes => exact receive_silent s bytes
  | other => exact .refl s

omit [DataChannel W] [NetcodeClient N] [RenetClient C] in
theorem clearPendingPackets_silent (s : WebClientState N C W) : Silent s s.clearPendingPackets :=
  .log rfl rfl rfl

omit [DataChannel W] [NetcodeClient N] in
theorem giveUp_silent (s : WebClientState N C W) : Silent s s.giveUp :=
  (clearPendingPackets_silent s).trans (.log rfl rfl rfl)

variable {reason : DisconnectReason}

/-- When netcode has given up, `update` does nothing but say so. -/
theorem update_disconnected (h : NetcodeClient.disconnectReason s.netcodeClient = some reason)
    (duration : Nat) :
    s.update duration = (s.giveUp, .error (.netcode (.disconnected reason))) := by
  unfold update
  rw [h]

/-- And no call or event does more. -/
theorem step_silent (h : NetcodeClient.disconnectReason s.netcodeClient = some reason) (op : Op C) :
    Silent s (s.step op) := by
  cases op with
  | update duration =>
    rw [step, update_disconnected h]
    exact giveUp_silent s
  | sendPackets =>
    have hsend : s.sendPackets = (s.clearPendingPackets, .error (.netcode (.disconnected reason))) := by
      unfold sendPackets
      rw [h]
    rw [step, hsend]
    exact clearPendingPackets_silent s
  | setEgressLimit config =>
    simp only [step, setEgressLimit]
    split <;> exact .same rfl rfl
  | setConditioner handle => exact (clearPendingPackets_silent s).trans (.same rfl rfl)
  | clearConditioner => exact (clearPendingPackets_silent s).trans (.same rfl rfl)
  | message data => exact onMessage_silent s data
  | elapse k => exact .same rfl rfl
  | game f => exact .same rfl rfl

theorem run_silent (h : NetcodeClient.disconnectReason s.netcodeClient = some reason) :
    ∀ ops : List (Op C), Silent s (s.run ops) := by
  intro ops
  induction ops generalizing s with
  | nil => exact .refl s
  | cons op ops ih =>
    have hstep := step_silent h op
    exact hstep.trans (ih (by rw [hstep.1]; exact h))

/-- Why a channel does not take `payload`: it is neither open nor about to be, or `send`
throws. -/
def TurnedAway (payload : Bytes) (before after : W) : WebRtcClientError → Prop
  | .dataChannelState label => after = before ∧
      label = dataChannelStateLabel (DataChannel.readyState before) ∧
      DataChannel.readyState before ≠ .isOpen ∧ DataChannel.readyState before ≠ .connecting
  | .javascript detail => DataChannel.readyState before = .isOpen ∧
      DataChannel.send before payload = (after, .error detail)
  | .netcode _ => False

/-- The last thing that happened is a packet that was turned away, with this error. -/
def SendError (t : WebClientState N C W) (error : WebRtcClientError) : Prop :=
  ∃ payload before after, TurnedAway payload before after error ∧
    t.world = (DataChannel.egressNow after).1 ∧
    t.trace.head? = some (.offered () (NetcodeClient.serverAddr t.netcodeClient) payload (.ofSent false))

omit [NetcodeClient N] [RenetClient C] in
/-- An error of the channel says what its state was, or what `send` threw. -/
theorem handToChannel_error {payload : Bytes} {error : WebRtcClientError}
    (h : (s.handToChannel payload).2.2 = .error error) :
    TurnedAway payload s.world (s.handToChannel payload).1.world error ∧
      (s.handToChannel payload).2.1 = false ∧
      (s.handToChannel payload).1.netcodeClient = s.netcodeClient := by
  unfold handToChannel at h ⊢
  split at h
  · rename_i hopen
    split at h
    · rename_i hfits
      rcases hsend : DataChannel.send s.world payload with ⟨w, _ | ⟨⟩⟩
      · simp only [hsend] at h
        cases h
        rw [if_pos hfits]
        exact ⟨⟨hopen, hsend⟩, rfl, rfl⟩
      · simp only [hsend] at h
        cases h
    · cases h
  · cases h
  · rename_i hopen hconn
    cases h
    exact ⟨⟨rfl, rfl, hopen, hconn⟩, rfl, rfl⟩

omit [RenetClient C] in
theorem sendUnconditioned_error {payload : Bytes} {error : WebRtcClientError}
    (h : (s.sendUnconditioned payload).2 = .error error) :
    SendError (s.sendUnconditioned payload).1 error := by
  unfold sendUnconditioned at h ⊢
  dsimp only at h ⊢
  split at h
  · rename_i hadmit
    rw [if_pos hadmit]
    obtain ⟨hturned, hunsent, hnetcode⟩ := handToChannel_error h
    refine ⟨payload, _, _, hturned, rfl, ?_⟩
    simp only [log, List.head?_cons, hunsent, hnetcode]
  · cases h

omit [RenetClient C] in
theorem sendReleased_error {error : WebRtcClientError} :
    ∀ (released : List (Unit × Bytes)) {s : WebClientState N C W},
      (sendReleased released s).2 = .error error → SendError (sendReleased released s).1 error
  | [], _, h => by cases h
  | (_, packet) :: rest, s, h => by
    unfold sendReleased at h ⊢
    dsimp only at h ⊢
    split at h
    · rename_i hsent
      cases h
      exact sendUnconditioned_error hsent
    · exact sendReleased_error rest h

omit [DataChannel W] [NetcodeClient N] [RenetClient C] in
/-- An error of the first part is the last thing that happened; any other is the second
part's. -/
theorem orError_error {r : WebClientState N C W × Except WebRtcClientError Unit}
    {next : WebClientState N C W → WebClientState N C W × Except WebRtcClientError Unit}
    {error : WebRtcClientError} (h : (orError r next).2 = .error error) :
    (orError r next) = (r.1, .error error) ∧ r.2 = .error error ∨
      orError r next = next r.1 ∧ r.2 = .ok () := by
  unfold orError at h ⊢
  split at h
  · rename_i hr
    cases h
    exact .inl ⟨rfl, hr⟩
  · rename_i hr
    exact .inr ⟨rfl, hr⟩

omit [RenetClient C] in
theorem sendMade_error {error : WebRtcClientError} (h : (s.sendMade bytes).2 = .error error) :
    SendError (s.sendMade bytes).1 error := by
  unfold sendMade sendDataChannelPacket at h ⊢
  rcases orError_error h with ⟨hr, hsent⟩ | ⟨hr, -⟩
  · rw [hr]
    unfold deferOrSend at hsent ⊢
    dsimp only at hsent ⊢
    split at hsent
    · cases hsent
    · rename_i hdefer
      rw [if_neg hdefer]
      exact sendUnconditioned_error hsent
  · rw [hr] at h ⊢
    exact sendReleased_error _ h

omit [RenetClient C] in
theorem advance_error {duration : Nat} {error : WebRtcClientError}
    (h : (s.advance duration).2 = .error error) : SendError (s.advance duration).1 error := by
  unfold advance at h ⊢
  dsimp only at h ⊢
  split at h
  · exact sendMade_error h
  · cases h

/-- The channel's part in a failed `update`: it is closing or closed, and renet has been
told; or it turned a packet away. -/
def ChannelError (t : WebClientState N C W) (error : WebRtcClientError) : Prop :=
  (ChannelGone t.world = true ∧
      error = .dataChannelState (dataChannelStateLabel (DataChannel.readyState t.world)) ∧
      (∀ d, t.packets.waiting d = 0) ∧ t.inbox.packets = [] ∧ t.trace.head? = some .disconnected) ∨
    SendError t error

/-- What `update` may return, and what holds then. -/
def Ended (t : WebClientState N C W) : Except WebRtcClientError Unit → Prop
  | .ok () => NetcodeClient.disconnectReason t.netcodeClient = none
  | .error (.netcode error) => ∃ reason, error = .disconnected reason ∧
      NetcodeClient.disconnectReason t.netcodeClient = some reason ∧
      (∀ d, t.packets.waiting d = 0) ∧ t.inbox.packets = [] ∧ t.trace.head? = some .disconnected ∧
      ∀ ops : List (Op C), Silent t (t.run ops) ∧
        ∀ duration, ((t.run ops).update duration).2 = .error (.netcode (.disconnected reason))
  | .error error => ChannelError t error

theorem ended_of_channelError {error : WebRtcClientError} (h : ChannelError t error) :
    Ended t (.error error) := by
  cases error with
  | dataChannelState label => exact h
  | javascript detail => exact h
  | netcode error =>
    rcases h with ⟨-, he, -⟩ | ⟨_, _, _, hturned, -⟩
    · cases he
    · exact hturned.elim

theorem giveUp_ended (h : NetcodeClient.disconnectReason s.netcodeClient = some reason) :
    Ended s.giveUp (.error (.netcode (.disconnected reason))) := by
  refine ⟨reason, rfl, h, fun d => PacketGate.waiting_reset s.packets d, rfl, rfl, fun ops => ?_⟩
  have hsilent := run_silent (s := s.giveUp) h ops
  refine ⟨hsilent, fun duration => ?_⟩
  rw [update_disconnected (hsilent.1 ▸ h)]

theorem settle_ended (s : WebClientState N C W) : Ended s.settle.1 s.settle.2 := by
  unfold settle
  split
  · rename_i reason h
    exact giveUp_ended h
  · rename_i h
    split
    · exact h
    · split <;> exact h

theorem orError_ended {r : WebClientState N C W × Except WebRtcClientError Unit}
    {next : WebClientState N C W → WebClientState N C W × Except WebRtcClientError Unit}
    (h : ∀ error, r.2 = .error error → SendError r.1 error)
    (hnext : ∀ t, Ended (next t).1 (next t).2) : Ended (orError r next).1 (orError r next).2 := by
  unfold orError
  split
  · rename_i error hr
    exact ended_of_channelError (.inr (h error hr))
  · exact hnext _

/-- `update` returns `Ok` only while netcode is not disconnected. When it reports a
disconnect, renet has been told, nothing is pending in either direction, and in every
continuation, whatever messages still arrive, the transport processes, delivers, makes
and sends nothing and says the same again. Any other error is the browser's: the
channel is closing or closed, which renet has been told; or the last thing that
happened is a packet offered to a channel that is neither open nor connecting, or to
one whose `send` threw, and the error says which. -/
theorem channel_update_outcome (s : WebClientState N C W) (duration : Nat) :
    Ended (s.update duration).1 (s.update duration).2 := by
  unfold update
  split
  · rename_i reason h
    exact giveUp_ended h
  · dsimp only
    split
    · rename_i hgone
      exact ended_of_channelError (.inl ⟨hgone, rfl, fun d => PacketGate.waiting_reset _ d, rfl, rfl⟩)
    · refine orError_ended (fun error h => sendReleased_error _ h) fun t => ?_
      exact orError_ended (fun error h => advance_error h) settle_ended

end WebClientState
end RenetCross.L4
