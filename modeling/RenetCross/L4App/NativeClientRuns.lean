import RenetCross.L4App.NativeClient

/-!
# What a native client lets through

`Kept` is what every operation of `UdpNetcodeClientTransport` keeps, whatever the
socket, netcode, renet and the other holders of the conditioner's handle do: the
log is a run of two lossy links whose packets in flight are those behind the gate,
the egress layer's table is the ledger of the packets offered, and netcode only
ever sees its server. Inside an operation a few packets are in hand, drained from
the gate or just made, on neither side of it: `hin` and `hout`.
-/
namespace RenetCross.L4

open RenetCross.L2

/-- A property of netcode's state that its operations keep. -/
structure NetcodeInvariant (N : Type) [NetcodeClient N] where
  holds : N → Prop
  processPacket : ∀ n bytes, holds n → holds (NetcodeClient.processPacket n bytes).1
  update : ∀ n d, holds n → holds (NetcodeClient.update n d).1
  disconnect : ∀ n, holds n → holds (NetcodeClient.disconnect n).1
  generatePayloadPacket : ∀ n p, holds n → holds (NetcodeClient.generatePayloadPacket n p).1

/-- Nothing is asked of netcode. -/
def NetcodeInvariant.trivial {N : Type} [NetcodeClient N] : NetcodeInvariant N :=
  ⟨fun _ => True, fun _ _ h => h, fun _ _ h => h, fun _ h => h, fun _ _ h => h⟩

/-- Processed from, or offered to, the server netcode had then, in a state of `P`. -/
def ClientEvent.Addressed {N : Type} [NetcodeClient N] (P : NetcodeInvariant N) :
    ClientEvent SocketAddr → Prop
  | .processed source server _ _ =>
    source = server ∧ ∃ n, P.holds n ∧ NetcodeClient.serverAddr n = server
  | .offered dest server _ _ => dest = server ∧ ∃ n, P.holds n ∧ NetcodeClient.serverAddr n = server
  | _ => True

namespace UdpClientState

variable {N C W : Type} [ClientSocket W] [NetcodeClient N]

/-- The invariant of a run: `hin` and `hout` are packets that are in hand, taken from the
gate or about to enter it. -/
structure Kept (P : NetcodeInvariant N) (s : UdpClientState N C W)
    (hin hout : Multiset (SocketAddr × Bytes)) : Prop where
  flow : Flow (eligible N) s.trace (s.packets.waiting .incoming + hin)
    (s.packets.waiting .outgoing + hout)
  ledger : Egress.Ledger .nativeUdpIp (s.trace.filterMap (ClientEvent.posting ipOverhead)) s.egress
  addressed : ∀ e ∈ s.trace, e.Addressed P
  lived : P.holds s.netcodeClient

variable {P : NetcodeInvariant N} {s : UdpClientState N C W}
  {hin hout : Multiset (SocketAddr × Bytes)} {addr : SocketAddr} {bytes : Bytes}

namespace Kept

omit [ClientSocket W] in
/-- Packets in hand may be dropped. -/
theorem drop (h : Kept P s hin hout) {hin' hout' : Multiset (SocketAddr × Bytes)} (hi : hin' ≤ hin)
    (ho : hout' ≤ hout) : Kept P s hin' hout' :=
  ⟨h.flow.lose (add_le_add_right hi _) (add_le_add_right ho _), h.ledger, h.addressed, h.lived⟩

omit [ClientSocket W] in
/-- The gate may lose packets. -/
theorem shrink (h : Kept P s hin hout) {packets : PacketGate SocketAddr} {world : W}
    (hp : ∀ d, packets.waiting d ≤ s.packets.waiting d) :
    Kept P { s with packets := packets, world := world } hin hout :=
  ⟨h.flow.lose (add_le_add_left (hp _) _) (add_le_add_left (hp _) _), h.ledger, h.addressed, h.lived⟩

/-! ## The gate -/

/-- A packet to send enters the gate, or stays in hand. -/
theorem deferOut (h : Kept P s hin ((addr, bytes) ::ₘ hout)) :
    Kept P (s.gateDefer .outgoing addr bytes).1 hin
      (if (s.gateDefer .outgoing addr bytes).2 then hout else (addr, bytes) ::ₘ hout) := by
  obtain ⟨hother, hself⟩ := PacketGate.waiting_defer s.packets .outgoing addr bytes s.world
  have hin' := hother .incoming (.inl (by decide))
  refine ⟨h.flow.lose (add_le_add_left hin' _) ?_, h.ledger, h.addressed, h.lived⟩
  split
  · rw [Multiset.add_cons, ← Multiset.cons_add]
    exact add_le_add_left hself hout
  · rename_i hno
    exact add_le_add_left (hother .outgoing (.inr (Bool.eq_false_iff.2 hno))) _

/-- A datagram that was read enters the gate, or stays in hand. -/
theorem deferIn (h : Kept P s ((addr, bytes) ::ₘ hin) hout) :
    Kept P (s.gateDefer .incoming addr bytes).1
      (if (s.gateDefer .incoming addr bytes).2 then hin else (addr, bytes) ::ₘ hin) hout := by
  obtain ⟨hother, hself⟩ := PacketGate.waiting_defer s.packets .incoming addr bytes s.world
  have hout' := hother .outgoing (.inl (by decide))
  refine ⟨h.flow.lose ?_ (add_le_add_left hout' _), h.ledger, h.addressed, h.lived⟩
  split
  · rw [Multiset.add_cons, ← Multiset.cons_add]
    exact add_le_add_left hself hin
  · rename_i hno
    exact add_le_add_left (hother .incoming (.inr (Bool.eq_false_iff.2 hno))) _

/-- What the gate releases is in hand. -/
theorem drainOut (h : Kept P s hin hout) :
    Kept P (s.gateDrain .outgoing).1 hin ((s.gateDrain .outgoing).2 + hout) := by
  obtain ⟨hother, hself⟩ := PacketGate.waiting_drain s.packets .outgoing s.world
  refine ⟨h.flow.lose (add_le_add_left (hother .incoming (by decide)) _) ?_,
    h.ledger, h.addressed, h.lived⟩
  rw [add_left_comm, ← add_assoc]
  exact add_le_add_left hself hout

theorem drainIn (h : Kept P s hin hout) :
    Kept P (s.gateDrain .incoming).1 ((s.gateDrain .incoming).2 + hin) hout := by
  obtain ⟨hother, hself⟩ := PacketGate.waiting_drain s.packets .incoming s.world
  refine ⟨h.flow.lose ?_ (add_le_add_left (hother .outgoing (by decide)) _),
    h.ledger, h.addressed, h.lived⟩
  rw [add_left_comm, ← add_assoc]
  exact add_le_add_left hself hin

/-! ## Sending -/

/-- The packet in hand is offered to the socket, and the egress layer told of its fate. -/
theorem sendDatagram (h : Kept P s hin ((addr, bytes) ::ₘ hout))
    (haddr : addr = NetcodeClient.serverAddr s.netcodeClient) :
    Kept P (s.sendDatagram bytes addr).1 hin hout := by
  have hflow := h.flow
  rw [Multiset.add_cons] at hflow
  unfold UdpClientState.sendDatagram
  dsimp only
  split
  · rename_i hyes
    exact ⟨hflow.offer _ _, .tried _ h.ledger hyes,
      List.forall_mem_cons.2 ⟨⟨haddr, _, h.lived, rfl⟩, h.addressed⟩, h.lived⟩
  · rename_i hno
    exact ⟨hflow.offer _ _, .refused h.ledger (Bool.eq_false_iff.2 hno),
      List.forall_mem_cons.2 ⟨⟨haddr, _, h.lived, rfl⟩, h.addressed⟩, h.lived⟩

end Kept

@[simp] theorem sendDatagram_netcodeClient (s : UdpClientState N C W) (bytes : Bytes)
    (addr : SocketAddr) : (s.sendDatagram bytes addr).1.netcodeClient = s.netcodeClient := by
  unfold sendDatagram
  dsimp only
  split <;> rfl

namespace Kept

/-- Released packets for another address are dropped; the first failure leaves the rest in
hand, to be forgotten. -/
theorem sendReleased : ∀ (released : List (SocketAddr × Bytes)) {s : UdpClientState N C W},
    Kept P s hin (released + hout) → addr = NetcodeClient.serverAddr s.netcodeClient →
      Kept P (UdpClientState.sendReleased addr released s).1 hin hout
  | [], _, h, _ => h.drop (le_refl _) (Multiset.le_add_left _ _)
  | (dest, bytes) :: rest, s, h, haddr => by
    rw [← Multiset.cons_coe, Multiset.cons_add] at h
    unfold UdpClientState.sendReleased
    dsimp only
    split
    · rename_i hdest
      have hsent := h.sendDatagram (hdest.trans haddr)
      split
      · exact hsent.drop (le_refl _) (Multiset.le_add_left _ _)
      · exact sendReleased rest hsent (by rw [sendDatagram_netcodeClient]; exact haddr)
    · exact sendReleased rest (h.drop (le_refl _) (Multiset.le_cons_self _ _)) haddr

theorem flushOutgoing (h : Kept P s hin hout) : Kept P s.flushOutgoing.1 hin hout :=
  h.drainOut.sendReleased _ rfl

theorem deferOrSend (h : Kept P s hin ((addr, bytes) ::ₘ hout))
    (haddr : addr = NetcodeClient.serverAddr s.netcodeClient) :
    Kept P (s.deferOrSend bytes addr).1 hin hout := by
  have hdefer := h.deferOut
  unfold UdpClientState.deferOrSend
  dsimp only
  split
  · rename_i hyes
    rw [if_pos hyes] at hdefer
    exact hdefer
  · rename_i hno
    rw [if_neg hno] at hdefer
    exact hdefer.sendDatagram haddr

end Kept

@[simp] theorem deferOrSend_netcodeClient (s : UdpClientState N C W) (bytes : Bytes)
    (addr : SocketAddr) : (s.deferOrSend bytes addr).1.netcodeClient = s.netcodeClient := by
  unfold deferOrSend
  dsimp only
  split
  · rfl
  · exact sendDatagram_netcodeClient _ _ _

namespace Kept

theorem sendPacket (h : Kept P s hin ((addr, bytes) ::ₘ hout))
    (haddr : addr = NetcodeClient.serverAddr s.netcodeClient) :
    Kept P (s.sendPacket bytes addr).1 hin hout := by
  have hsent := h.deferOrSend haddr
  unfold UdpClientState.sendPacket
  dsimp only
  split
  · exact hsent
  · refine hsent.drainOut.sendReleased _ (haddr.trans ?_)
    exact congrArg NetcodeClient.serverAddr (deferOrSend_netcodeClient s bytes addr).symm

theorem sendMade (h : Kept P s hin hout) (haddr : addr = NetcodeClient.serverAddr s.netcodeClient) :
    Kept P (s.sendMade addr bytes).1 hin hout := by
  have hmade : Kept P (s.log (.made addr bytes)) hin ((addr, bytes) ::ₘ hout) :=
    ⟨by rw [Multiset.add_cons]; exact h.flow.make addr bytes, h.ledger,
      List.forall_mem_cons.2 ⟨trivial, h.addressed⟩, h.lived⟩
  exact hmade.sendPacket haddr

end Kept

/-! ## Receiving -/

variable [RenetClient C]

namespace Kept

omit [ClientSocket W] in
/-- The datagram in hand goes to netcode, and its payload to renet. -/
theorem processPacket (h : Kept P s ((addr, bytes) ::ₘ hin) hout)
    (haddr : addr = NetcodeClient.serverAddr s.netcodeClient) :
    Kept P (s.processPacket addr bytes) hin hout := by
  have hflow := h.flow
  rw [Multiset.add_cons] at hflow
  have hnext := hflow.process (NetcodeClient.serverAddr s.netcodeClient)
    (NetcodeClient.processPacket s.netcodeClient bytes).2
  unfold UdpClientState.processPacket
  dsimp only
  split
  · rename_i payload hp
    rw [hp] at hnext ⊢
    exact ⟨hnext, h.ledger, List.forall_mem_cons.2
      ⟨trivial, List.forall_mem_cons.2 ⟨⟨haddr, _, h.lived, rfl⟩, h.addressed⟩⟩,
      P.processPacket _ _ h.lived⟩
  · rename_i hp
    rw [hp] at hnext ⊢
    exact ⟨hnext, h.ledger, List.forall_mem_cons.2 ⟨⟨haddr, _, h.lived, rfl⟩, h.addressed⟩,
      P.processPacket _ _ h.lived⟩

/-- Induction on what the gate released; netcode may change its server meanwhile. -/
theorem deliverIncoming (h : Kept P s hin hout) : Kept P s.deliverIncoming hin hout := by
  have hdrain := h.drainIn
  unfold UdpClientState.deliverIncoming
  dsimp only
  generalize (s.gateDrain .incoming).2 = released at hdrain ⊢
  generalize (s.gateDrain .incoming).1 = t at hdrain ⊢
  induction released generalizing t with
  | nil => exact hdrain.drop (Multiset.le_add_left _ _) (le_refl _)
  | cons x rest ih =>
    rw [← Multiset.cons_coe, Multiset.cons_add] at hdrain
    rw [List.foldl_cons]
    refine ih _ ?_
    split
    · rename_i hsource
      exact hdrain.processPacket hsource
    · exact hdrain.drop (Multiset.le_cons_self _ _) (le_refl _)

theorem receive (h : Kept P s hin hout) (bytes : Bytes) (source : SocketAddr) :
    Kept P (s.receive bytes source) hin hout := by
  unfold UdpClientState.receive
  dsimp only
  split
  · rename_i hok
    have hread : Kept P (s.log (.received source (NetcodeClient.serverAddr s.netcodeClient) bytes))
        ((source, bytes) ::ₘ hin) hout :=
      ⟨by rw [Multiset.add_cons]; exact h.flow.readValid hok, h.ledger,
        List.forall_mem_cons.2 ⟨trivial, h.addressed⟩, h.lived⟩
    have hdefer := hread.deferIn
    split
    · rename_i hyes
      rw [if_pos hyes] at hdefer
      exact hdefer
    · rename_i hno
      rw [if_neg hno] at hdefer
      simp only [eligible, Bool.and_eq_true, decide_eq_true_eq] at hok
      exact hdefer.processPacket hok.1
  · rename_i hno
    exact ⟨h.flow.readInvalid (Bool.eq_false_iff.2 hno), h.ledger,
      List.forall_mem_cons.2 ⟨trivial, h.addressed⟩, h.lived⟩

/-- Induction on the datagrams that may still be read. -/
theorem receiveWithBudget : ∀ (n : Nat) {s : UdpClientState N C W}, Kept P s hin hout →
    Kept P (UdpClientState.receiveWithBudget n s).1 hin hout
  | 0, _, h => h
  | n + 1, s, h => by
    unfold UdpClientState.receiveWithBudget
    dsimp only
    have hread : Kept P { s with world := (ClientSocket.recvFrom s.world).1 } hin hout :=
      ⟨h.flow, h.ledger, h.addressed, h.lived⟩
    split
    · exact hread
    · exact receiveWithBudget n hread
    · exact receiveWithBudget n hread
    · exact hread
    · exact receiveWithBudget n (hread.receive _ _)

/-! ## The public operations -/

section

omit [ClientSocket W]

theorem giveUp (h : Kept P s hin hout) (reason : DisconnectReason) :
    Kept P (s.giveUp reason).1 hin hout := by
  have hreset : ∀ d, s.packets.reset.waiting d ≤ s.packets.waiting d := by
    intro d
    rw [PacketGate.waiting_reset]
    exact Multiset.zero_le _
  exact ⟨(h.flow.lose (add_le_add_left (hreset _) _) (add_le_add_left (hreset _) _)).disconnect,
    h.ledger, List.forall_mem_cons.2 ⟨trivial, h.addressed⟩, h.lived⟩

theorem reflectState (h : Kept P s hin hout) : Kept P s.reflectState hin hout := by
  unfold UdpClientState.reflectState
  split
  · exact ⟨h.flow, h.ledger, h.addressed, h.lived⟩
  · split
    · exact ⟨h.flow, h.ledger, h.addressed, h.lived⟩
    · exact h

theorem settle (h : Kept P s hin hout) : Kept P s.settle.1 hin hout := by
  unfold UdpClientState.settle
  split
  · exact h.giveUp _
  · split
    · exact ⟨h.flow, h.ledger, h.addressed, h.lived⟩
    · exact h

end

omit [ClientSocket W] [RenetClient C] in
/-- A socket error ends the operation, with everything in its place. -/
theorem orIoError {r : UdpClientState N C W × Except IoErrorKind Unit}
    {next : UdpClientState N C W → UdpClientState N C W × Except UdpClientError Unit}
    (h : Kept P r.1 hin hout) (hnext : ∀ t, Kept P t hin hout → Kept P (next t).1 hin hout) :
    Kept P (UdpClientState.orIoError r next).1 hin hout := by
  unfold UdpClientState.orIoError
  split
  · exact h
  · exact hnext _ h

variable [LawfulNetcodeClient N]

theorem sayGoodbye (h : Kept P s hin hout) : Kept P s.sayGoodbye hin hout := by
  unfold UdpClientState.sayGoodbye
  dsimp only
  split
  · have hleft : Kept P { s with netcodeClient := (NetcodeClient.disconnect s.netcodeClient).1 } hin hout :=
      ⟨h.flow, h.ledger, h.addressed, P.disconnect _ h.lived⟩
    split
    · rename_i addr packet hmade
      exact hleft.sendMade (LawfulNetcodeClient.disconnect s.netcodeClient addr packet hmade)
    · exact hleft
  · exact h

omit [RenetClient C] in
theorem advance (h : Kept P s hin hout) (duration : Nat) : Kept P (s.advance duration).1 hin hout := by
  unfold UdpClientState.advance
  dsimp only
  have hnext : Kept P { s with netcodeClient := (NetcodeClient.update s.netcodeClient duration).1 }
      hin hout := ⟨h.flow, h.ledger, h.addressed, P.update _ _ h.lived⟩
  split
  · rename_i packet addr hmade
    exact hnext.sendMade (LawfulNetcodeClient.update s.netcodeClient duration packet addr hmade)
  · exact hnext

/-- `update` keeps the invariant on each of its paths. -/
theorem update (h : Kept P s hin hout) (duration : Nat) : Kept P (s.update duration).1 hin hout := by
  unfold UdpClientState.update
  split
  · exact h.giveUp _
  · refine orIoError (h.sayGoodbye.reflectState.receiveWithBudget _) fun t ht => ?_
    refine orIoError ht.flushOutgoing fun t ht => ?_
    exact orIoError (ht.deliverIncoming.advance duration) fun t ht => ht.settle

omit [RenetClient C] in
theorem sendPayloads : ∀ (packets : List Bytes) {s : UdpClientState N C W}, Kept P s hin hout →
    Kept P (UdpClientState.sendPayloads packets s).1 hin hout
  | [], _, h => h
  | packet :: rest, s, h => by
    unfold UdpClientState.sendPayloads
    dsimp only
    have hmade : Kept P { s with
        netcodeClient := (NetcodeClient.generatePayloadPacket s.netcodeClient packet).1 } hin hout :=
      ⟨h.flow, h.ledger, h.addressed, P.generatePayloadPacket _ _ h.lived⟩
    split
    · exact hmade
    · rename_i addr payload hok
      exact orIoError (hmade.sendMade (LawfulNetcodeClient.generatePayloadPacket _ _ _ _ hok))
        fun t ht => sendPayloads rest ht

/-- So does `send_packets`. -/
theorem sendPackets (h : Kept P s hin hout) : Kept P s.sendPackets.1 hin hout := by
  unfold UdpClientState.sendPackets
  split
  · refine h.shrink fun d => ?_
    rw [PacketGate.waiting_reset]
    exact Multiset.zero_le _
  · exact orIoError h.flushOutgoing fun t ht =>
      sendPayloads _ ⟨ht.flow, ht.ledger, ht.addressed, ht.lived⟩

/-- So does every call of the owner. -/
theorem step (h : Kept P s hin hout) (op : Op C) : Kept P (s.step op) hin hout := by
  cases op with
  | update duration => exact h.update duration
  | sendPackets => exact h.sendPackets
  | setEgressLimit config =>
    simp only [UdpClientState.step, setEgressLimit]
    split
    · rename_i egress hc
      exact ⟨h.flow, .configure h.ledger hc, h.addressed, h.lived⟩
    · exact ⟨h.flow, h.ledger, h.addressed, h.lived⟩
  | setMaxDatagramsPerUpdate limit => exact ⟨h.flow, h.ledger, h.addressed, h.lived⟩
  | setConditioner handle => exact h.shrink fun d => Multiset.zero_le _
  | clearConditioner => exact h.shrink fun d => Multiset.zero_le _
  | game f => exact ⟨h.flow, h.ledger, h.addressed, h.lived⟩

/-- Over a whole run: induction on the calls. -/
theorem run (h : Kept P s hin hout) : ∀ ops : List (Op C), Kept P (s.run ops) hin hout := by
  intro ops
  induction ops generalizing s with
  | nil => exact h
  | cons op ops ih => exact ih (h.step op)

end Kept

omit [ClientSocket W] [RenetClient C] in
/-- A new transport has done nothing and holds nothing. -/
theorem kept_new {netcodeClient : N} (h : P.holds netcodeClient) (conditioner : Option Control)
    (client : C) (world : W) : Kept P (new netcodeClient conditioner client world) 0 0 := by
  cases conditioner <;> exact ⟨.idle, .new, List.forall_mem_nil _, h⟩

omit [ClientSocket W] [RenetClient C] in
theorem kept_trivial (netcodeClient : N) (conditioner : Option Control) (client : C) (world : W) :
    Kept NetcodeInvariant.trivial (new netcodeClient conditioner client world) 0 0 :=
  kept_new True.intro conditioner client world

/-! ## Whole runs -/

section
variable [LawfulNetcodeClient N]

/-- From the wire to renet. At every moment the packets netcode has processed are,
one for one, datagrams read before that came from its server and fit a netcode
packet; those still behind the gate are others of them. Netcode has processed only
packets of the server it then had, and renet has got the payloads netcode found, in
that order, and nothing else. -/
theorem wire_to_renet (netcodeClient : N) (conditioner : Option Control) (client : C)
    (world : W) (ops : List (Op C)) :
    let s := (new netcodeClient conditioner client world).run ops
    (∀ newer older, s.trace = newer ++ older →
        (older.filterMap ClientEvent.processedPacket : Multiset (SocketAddr × Bytes)) ≤
          older.filterMap (ClientEvent.accepted (eligible N))) ∧
      (s.trace.filterMap ClientEvent.processedPacket : Multiset (SocketAddr × Bytes)) +
          s.packets.waiting .incoming ≤ s.trace.filterMap (ClientEvent.accepted (eligible N)) ∧
      (∀ source server bytes payload, .processed source server bytes payload ∈ s.trace →
        source = server) ∧
      s.trace.filterMap ClientEvent.payloadDelivered = s.trace.filterMap ClientEvent.payloadFound := by
  have h := (kept_trivial netcodeClient conditioner client world).run ops
  have hflow := h.flow
  rw [add_zero, add_zero] at hflow
  exact ⟨fun newer older ht => hflow.inbound_past ht, hflow.inbound,
    fun source server bytes payload he => (h.addressed _ he).1, hflow.payloads⟩

/-- From netcode to the wire. At every moment the datagrams given to the socket are,
one for one, packets netcode made before; those still behind the gate are others of
them. Every datagram went to the server netcode then had. -/
theorem netcode_to_wire (netcodeClient : N) (conditioner : Option Control) (client : C)
    (world : W) (ops : List (Op C)) :
    let s := (new netcodeClient conditioner client world).run ops
    (∀ newer older, s.trace = newer ++ older →
        (older.filterMap ClientEvent.handedPacket : Multiset (SocketAddr × Bytes)) ≤
          older.filterMap ClientEvent.madePacket) ∧
      (s.trace.filterMap ClientEvent.handedPacket : Multiset (SocketAddr × Bytes)) +
          s.packets.waiting .outgoing ≤ s.trace.filterMap ClientEvent.madePacket ∧
      ∀ dest server bytes fate, .offered dest server bytes fate ∈ s.trace → dest = server := by
  have h := (kept_trivial netcodeClient conditioner client world).run ops
  have hflow := h.flow
  rw [add_zero, add_zero] at hflow
  exact ⟨fun newer older ht => hflow.outbound_past ht, hflow.outbound,
    fun dest server bytes fate he => (h.addressed _ he).1⟩

/-- Until a counter saturates, `egress_stats` is an exact report on the datagrams
offered: those the socket took whole, those it did not, and those never shown to it. -/
theorem egress_stats_report (netcodeClient : N) (conditioner : Option Control) (client : C)
    (world : W) (ops : List (Op C))
    (hsat : ((new netcodeClient conditioner client world).run ops).egress.total.Unsaturated) :
    let s := (new netcodeClient conditioner client world).run ops
    Egress.Reports .nativeUdpIp (s.trace.filterMap (ClientEvent.posting ipOverhead)) s.egress.total :=
  (((kept_trivial netcodeClient conditioner client world).run ops).ledger.books hsat).reports

end

/-! ## A run -/

/-- A socket with prepared datagrams that takes everything it is given. -/
structure ScriptedSocket where
  datagrams : List (Except IoErrorKind (Bytes × SocketAddr))
  now : Nat := 0

instance : ClientSocket ScriptedSocket where
  lock w control := ({ w with now := w.now + 1 }, w.now, control)
  delay _ latency _ _ := latency
  recvFrom w :=
    match w.datagrams with
    | [] => (w, .error .wouldBlock)
    | r :: rest => ({ w with datagrams := rest }, r)
  sendTo w bytes _ := (w, .ok bytes.length)
  egressNow w := ({ w with now := w.now + 1 }, w.now)

def homeAddr : SocketAddr := .v4 ⟨10, 0, 0, 1⟩ 5000
def strangerAddr : SocketAddr := .v4 ⟨10, 0, 0, 2⟩ 5000

/-- Every packet is delayed by eight readings of the clock. -/
def eightLate : Control := .ofValid ⟨{ enabled := true, latency := 8 }, by decide⟩

/-- A stranger's packet, then one of the server, and a packet of the game. At the end
these two have waited and gone through, and one packet waits each way. -/
def homeRun : UdpClientState TaggedNetcode MailboxRenet ScriptedSocket :=
  (new ⟨homeAddr, none⟩ (some eightLate) { outbox := [[3]] }
    ⟨[.ok ([5, 9], strangerAddr), .error .interrupted, .ok ([5, 7], homeAddr), .error .wouldBlock,
      .ok ([5, 8], homeAddr)], 0⟩).run
    [.update 16, .sendPackets, .update 16, .sendPackets]

theorem wire_to_renet_homeRun :
    homeRun.trace.filterMap ClientEvent.processedPacket = [(homeAddr, [5, 7])] ∧
      homeRun.packets.waiting .incoming = {(homeAddr, [5, 8])} ∧
      homeRun.trace.filterMap ClientEvent.payloadDelivered = [[7]] ∧
      (homeRun.trace.filterMap ClientEvent.processedPacket : Multiset (SocketAddr × Bytes)) +
          homeRun.packets.waiting .incoming ≤
        homeRun.trace.filterMap (ClientEvent.accepted (eligible TaggedNetcode)) :=
  ⟨by decide +kernel, by decide +kernel, by decide +kernel, (wire_to_renet _ _ _ _ _).2.1⟩

theorem netcode_to_wire_homeRun :
    homeRun.trace.filterMap ClientEvent.handedPacket = [(homeAddr, [5, 3]), (homeAddr, [1])] ∧
      homeRun.packets.waiting .outgoing = {(homeAddr, [1])} ∧
      (homeRun.trace.filterMap ClientEvent.handedPacket : Multiset (SocketAddr × Bytes)) +
        homeRun.packets.waiting .outgoing ≤ homeRun.trace.filterMap ClientEvent.madePacket :=
  ⟨by decide +kernel, by decide +kernel, (netcode_to_wire _ _ _ _ _).2.1⟩

theorem egress_stats_report_homeRun :
    homeRun.egress.total.sentPackets = 2 ∧
      Egress.Reports .nativeUdpIp (homeRun.trace.filterMap (ClientEvent.posting ipOverhead))
        homeRun.egress.total :=
  ⟨by decide +kernel, egress_stats_report _ _ _ _ _ fun k => by cases k <;> decide +kernel⟩

/-! ## The end of a connection -/

/-- Only `disconnect_due_to_transport` is called from here on. -/
def Silent (s t : UdpClientState N C W) : Prop :=
  t.netcodeClient = s.netcodeClient ∧ ∃ n, t.trace = List.replicate n .disconnected ++ s.trace

omit [ClientSocket W] [NetcodeClient N] [RenetClient C] in
theorem Silent.refl (s : UdpClientState N C W) : Silent s s := ⟨rfl, 0, rfl⟩

omit [ClientSocket W] [NetcodeClient N] [RenetClient C] in
theorem Silent.trans {s t u : UdpClientState N C W} (h : Silent s t) (h' : Silent t u) :
    Silent s u := by
  obtain ⟨hn, n, ht⟩ := h
  obtain ⟨hn', m, ht'⟩ := h'
  refine ⟨hn'.trans hn, m + n, ?_⟩
  rw [ht', ht, ← List.append_assoc, List.replicate_append_replicate]

variable {reason : DisconnectReason}

/-- When netcode has given up, `update` does nothing but say so. -/
theorem update_disconnected (h : NetcodeClient.disconnectReason s.netcodeClient = some reason)
    (duration : Nat) : s.update duration = s.giveUp reason := by
  unfold update
  rw [h]

theorem sendPackets_disconnected (h : NetcodeClient.disconnectReason s.netcodeClient = some reason) :
    s.sendPackets = ({ s with packets := s.packets.reset }, .error (.netcode (.disconnected reason))) := by
  unfold sendPackets
  rw [h]

/-- And no call does more. -/
theorem step_silent (h : NetcodeClient.disconnectReason s.netcodeClient = some reason) (op : Op C) :
    Silent s (s.step op) := by
  cases op with
  | update duration =>
    rw [step, update_disconnected h]
    exact ⟨rfl, 1, rfl⟩
  | sendPackets =>
    rw [step, sendPackets_disconnected h]
    exact ⟨rfl, 0, rfl⟩
  | setEgressLimit config =>
    simp only [step, setEgressLimit]
    split <;> exact ⟨rfl, 0, rfl⟩
  | setMaxDatagramsPerUpdate limit => exact ⟨rfl, 0, rfl⟩
  | setConditioner handle => exact ⟨rfl, 0, rfl⟩
  | clearConditioner => exact ⟨rfl, 0, rfl⟩
  | game f => exact ⟨rfl, 0, rfl⟩

/-- Nor any number of calls. -/
theorem run_silent (h : NetcodeClient.disconnectReason s.netcodeClient = some reason) :
    ∀ ops : List (Op C), Silent s (s.run ops) := by
  intro ops
  induction ops generalizing s with
  | nil => exact .refl s
  | cons op ops ih =>
    have hstep := step_silent h op
    exact hstep.trans (ih (by rw [hstep.1]; exact h))

/-- The kinds of error a saturated or interrupted socket reports. -/
def transient : IoErrorKind → Bool
  | .wouldBlock => true
  | .interrupted => true
  | _ => false

theorem transient_eq_false {kind : IoErrorKind} (hw : kind ≠ .wouldBlock) (hi : kind ≠ .interrupted) :
    transient kind = false := by
  cases kind with
  | wouldBlock => exact absurd rfl hw
  | interrupted => exact absurd rfl hi
  | _ => rfl

/-- A saturated socket is no error. -/
theorem sendResult_error {r : Except IoErrorKind Nat} {kind : IoErrorKind}
    (h : sendResult r = .error kind) : transient kind = false := by
  unfold sendResult at h
  split at h
  · cases h
  · cases h
  · cases h
  · rename_i hw hi
    cases h
    exact transient_eq_false hw hi

section

omit [RenetClient C]

theorem sendDatagram_error {kind : IoErrorKind} (h : (s.sendDatagram bytes addr).2 = .error kind) :
    transient kind = false := by
  unfold sendDatagram at h
  dsimp only at h
  split at h
  · exact sendResult_error h
  · cases h

theorem sendReleased_error {kind : IoErrorKind} :
    ∀ (released : List (SocketAddr × Bytes)) {s : UdpClientState N C W},
      (sendReleased addr released s).2 = .error kind → transient kind = false
  | [], _, h => by cases h
  | (dest, bytes) :: rest, s, h => by
    unfold sendReleased at h
    dsimp only at h
    split at h
    · split at h
      · rename_i kind' hsent
        cases h
        exact sendDatagram_error hsent
      · exact sendReleased_error rest h
    · exact sendReleased_error rest h

theorem sendPacket_error {kind : IoErrorKind} (h : (s.sendPacket bytes addr).2 = .error kind) :
    transient kind = false := by
  unfold sendPacket at h
  dsimp only at h
  split at h
  · rename_i kind' hsent
    cases h
    unfold deferOrSend at hsent
    dsimp only at hsent
    split at hsent
    · cases hsent
    · exact sendDatagram_error hsent
  · exact sendReleased_error _ h

theorem advance_error {duration : Nat} {kind : IoErrorKind}
    (h : (s.advance duration).2 = .error kind) : transient kind = false := by
  unfold advance at h
  dsimp only at h
  split at h
  · exact sendPacket_error h
  · cases h

end

/-- Nor is an empty one, an interrupted read or a reset. -/
theorem receiveWithBudget_error {kind : IoErrorKind} :
    ∀ (n : Nat) {s : UdpClientState N C W}, (receiveWithBudget n s).2 = .error kind →
      transient kind = false
  | 0, _, h => by cases h
  | n + 1, s, h => by
    unfold receiveWithBudget at h
    dsimp only at h
    split at h
    · cases h
    · exact receiveWithBudget_error n h
    · exact receiveWithBudget_error n h
    · rename_i hw hi _ _
      cases h
      exact transient_eq_false hw hi
    · exact receiveWithBudget_error n h

/-- What `update` may return, and what holds then. -/
def Ended (t : UdpClientState N C W) : Except UdpClientError Unit → Prop
  | .ok () => NetcodeClient.disconnectReason t.netcodeClient = none
  | .error (.io kind) => transient kind = false
  | .error (.netcode error) => ∃ reason, error = .disconnected reason ∧
      NetcodeClient.disconnectReason t.netcodeClient = some reason ∧
      (∀ d, t.packets.waiting d = 0) ∧ t.trace.head? = some .disconnected ∧
      ∀ ops : List (Op C), Silent t (t.run ops) ∧
        ∀ duration, ((t.run ops).update duration).2 = .error (.netcode (.disconnected reason))

theorem giveUp_ended (h : NetcodeClient.disconnectReason s.netcodeClient = some reason) :
    Ended (s.giveUp reason).1 (s.giveUp reason).2 := by
  refine ⟨reason, rfl, h, fun d => PacketGate.waiting_reset s.packets d, rfl, fun ops => ?_⟩
  have hsilent := run_silent (s := (s.giveUp reason).1) h ops
  refine ⟨hsilent, fun duration => ?_⟩
  rw [update_disconnected (hsilent.1 ▸ h)]
  rfl

theorem settle_ended (s : UdpClientState N C W) : Ended s.settle.1 s.settle.2 := by
  unfold settle
  split
  · rename_i reason h
    exact giveUp_ended h
  · rename_i h
    split
    · exact h
    · exact h

theorem orIoError_ended {r : UdpClientState N C W × Except IoErrorKind Unit}
    {next : UdpClientState N C W → UdpClientState N C W × Except UdpClientError Unit}
    (h : ∀ kind, r.2 = .error kind → transient kind = false)
    (hnext : ∀ t, Ended (next t).1 (next t).2) :
    Ended (orIoError r next).1 (orIoError r next).2 := by
  unfold orIoError
  split
  · rename_i kind hr
    exact h kind hr
  · exact hnext _

/-- `update` never reports that the socket is busy. It returns `Ok` only while
netcode is not disconnected, so a timeout or a kick shows in the call that noticed it;
and when it reports a disconnect, renet has been told, nothing waits behind the gate,
and in every continuation the transport processes, delivers, makes and sends nothing
and says the same again. -/
theorem update_outcome (s : UdpClientState N C W) (duration : Nat) :
    Ended (s.update duration).1 (s.update duration).2 := by
  unfold update
  split
  · rename_i reason h
    exact giveUp_ended h
  · refine orIoError_ended (fun kind h => receiveWithBudget_error _ h) fun t => ?_
    refine orIoError_ended (fun kind h => sendReleased_error _ h) fun t => ?_
    exact orIoError_ended (fun kind h => advance_error h) settle_ended

end UdpClientState
end RenetCross.L4
