import Mathlib.Logic.Relation
import RenetCross.L4App.WebRtcServer

/-!
# What the WebRTC transport can do, one step at a time

Every public operation of `WebRtcNetcodeServerTransport` is a sequence of the
small steps of `Act` (`WebRtcState.step_steps`). A step says what one call or one table
update changes and under which guard the code makes it; an invariant of the
transport is then proved by cases on `Act` and needs no look at the control
flow.

Between two steps some of the transport's state is in local variables. `Drive`
has the locals of the functions that drive one peer, `Frame` those of the
functions around them. Both are empty before and after every public operation.
-/
namespace RenetCross.L4

open RenetCross.L2 Relation

/-- `hand`: the peer taken out of the map while it is driven, with its key.
`failed`: its drain ended with an error. `gathered`: `pending_server_results` of
the drain. `parcel`: the packet being passed to netcode or to the gate. `dirty`:
the peer whose `Rtc` was just mutated and not drained since. -/
structure Drive (R : Type) where
  hand : Option (ClientId × ServerPeer R) := none
  failed : Bool := false
  gathered : List Outcome := []
  parcel : Option (ClientId × Packet) := none
  dirty : Option ClientId := none

/-- `current`: the result being handled. `doomed`: the client whose
`ClientDisconnected` is being handled. `ejected`: the duplicate being rejected.
`removing`: what `drain` of `pending_renet_removals` has not yielded yet.
`swept`: that set was drained in this operation. `roll`: the clients
`disconnect_all` has still to disconnect. `inbox`, `outbox`: packets drained from
the gate, or about to be sent. -/
structure Frame where
  current : Option Outcome := none
  doomed : Option ClientId := none
  ejected : Option ClientId := none
  removing : List ClientId := []
  swept : Bool := false
  roll : Option (List ClientId) := none
  inbox : List (ServerPeerId × Packet) := []
  outbox : List (ClientId × Packet) := []

/-- No result is being handled, and `disconnect_all` is not in its loop. -/
structure Frame.Between (f : Frame) : Prop where
  current : f.current = none
  doomed : f.doomed = none
  ejected : f.ejected = none
  roll : f.roll = none

/-- The transport, the peer that is being driven, and where the operation stands. -/
structure Cfg (N R S W : Type) where
  st : WebRtcState N R S W
  drive : Drive R := {}
  frame : Frame := {}

/-- `Rtc::disconnect` makes the instance not alive. -/
class LawfulRtc (R : Type) [Rtc R] : Prop where
  disconnect : ∀ r : R, Rtc.isAlive (Rtc.disconnect r) = false

/-- A change of a peer that leaves alone who it is, where it is and whether it
is drained. -/
structure ServerPeer.Retains {R : Type} (p p' : ServerPeer R) : Prop where
  clientId : p'.clientId = p.clientId
  virtualAddr : p'.virtualAddr = p.virtualAddr
  remoteAddr : p'.remoteAddr = p.remoteAddr
  nextTimeout : p'.nextTimeout = p.nextTimeout

variable {N R S W : Type}

section

variable [NetcodeServer N]

/-- What `remove_peer` does besides emptying the peer's queues. -/
def WebRtcState.expelled (s : WebRtcState N R S W) (c : ClientId) : WebRtcState N R S W :=
  let s := s.dropRoutes c
  let s := { s with netcodeServer := (NetcodeServer.disconnect s.netcodeServer c).1 }
  let s := s.deferRenetRemoval c
  { s with
    pendingServerResults := s.pendingServerResults.filter fun o => !o.result.concerns c
    peers := s.peers.remove c }.log (.removed c)

/-- What a failed or closed peer leaves behind, its queues apart. -/
def WebRtcState.tornDown (s : WebRtcState N R S W) (c : ClientId) : WebRtcState N R S W :=
  let s := s.dropRoutes c
  let r := NetcodeServer.disconnect s.netcodeServer c
  { s with
    netcodeServer := r.1
    pendingServerResults := s.pendingServerResults ++ [⟨toOwnedServerResult r.2, s.tagNow c⟩] }

/-- The end of a `ClientDisconnected`, the queues apart. -/
def WebRtcState.forgotten (s : WebRtcState N R S W) (c : ClientId) : WebRtcState N R S W :=
  let s := s.dropRoutes c
  { s with peers := s.peers.remove c }

/-- The end of `add_peer`. -/
def WebRtcState.registered (s : WebRtcState N R S W) (c : ClientId) (rtc : R) :
    WebRtcState N R S W :=
  { s with
    addrToClientId := s.addrToClientId.insert (ServerPeer.new c rtc).virtualAddr c
    peers := s.peers.insert c (ServerPeer.new c rtc) }.log (.added c)

/-- Netcode made `r` of a call outside a drain. -/
def WebRtcState.severed (s : WebRtcState N R S W) (r : N × ServerResult) : WebRtcState N R S W :=
  { s with netcodeServer := r.1 }.logSevered (toOwnedServerResult r.2)

def WebRtcState.severedOutcome (s : WebRtcState N R S W) (c : ClientId) (r : N × ServerResult) :
    Outcome :=
  ⟨toOwnedServerResult r.2, (s.severed r).tagNow c⟩

end

namespace WebRtcState

theorem connects_concerns {r : OwnedServerResult} {c : ClientId} (h : r.connects = some c) :
    r.concerns c = true := by
  cases r with
  | clientConnected id addr payload =>
    simp only [OwnedServerResult.connects, Option.some.injEq] at h
    simp [OwnedServerResult.concerns, h]
  | _ => cases h

/-- Once the results that concern a client are dropped, it does not wait to connect. -/
theorem waits_filter (c : ClientId) (results : List Outcome) :
    waits c (results.filter fun o => !o.result.concerns c) = false := by
  simp only [waits, List.any_eq_false, List.mem_filter, decide_eq_true_eq]
  rintro o ⟨_, ho⟩ hc
  rw [connects_concerns hc] at ho
  cases ho

theorem deferRenetRemoval_frame (s : WebRtcState N R S W) (c : ClientId) :
    s.deferRenetRemoval c = { s with
      connectedClientIds := (s.deferRenetRemoval c).connectedClientIds
      pendingRenetRemovals := (s.deferRenetRemoval c).pendingRenetRemovals } := by
  unfold deferRenetRemoval
  split <;> rfl

theorem severed_frame (s : WebRtcState N R S W) (r : N × ServerResult) :
    s.severed r = { s with netcodeServer := r.1, trace := (s.severed r).trace } := by
  unfold severed logSevered
  split <;> rfl

/-- The call is logged when netcode has let a client go. -/
theorem severed_trace (s : WebRtcState N R S W) (r : N × ServerResult) :
    (s.severed r).trace =
      match (toOwnedServerResult r.2).disconnects with
      | some c => .severed c (waits c s.pendingServerResults) :: s.trace
      | none => s.trace := by
  unfold severed logSevered
  cases (toOwnedServerResult r.2).disconnects <;> rfl

section

variable [RenetServer S]

theorem releaseClient_frame (s : WebRtcState N R S W) (c : ClientId) (addr : SocketAddr) :
    s.releaseClient c addr = { s with
      addrToClientId := s.addrToClientId.remove addr
      connectedClientIds := (s.releaseClient c addr).connectedClientIds
      server := (s.releaseClient c addr).server
      trace := (s.releaseClient c addr).trace } := by
  unfold releaseClient
  dsimp only
  split <;> rfl

theorem mem_connected_releaseClient {s : WebRtcState N R S W} {c c' : ClientId} {addr : SocketAddr} :
    c' ∈ (s.releaseClient c addr).connectedClientIds ↔ c' ≠ c ∧ c' ∈ s.connectedClientIds := by
  unfold releaseClient
  dsimp only
  split
  · exact HashMap.mem_remove
  · rename_i h
    constructor
    · exact fun hc => ⟨fun heq => h (heq ▸ hc), hc⟩
    · exact fun hc => hc.2

/-- Handling a `ClientDisconnected` calls the `RenetServer` exactly when the
client is in `connected_client_ids`. -/
theorem releaseClient_cases (s : WebRtcState N R S W) (c : ClientId) (addr : SocketAddr) :
    (c ∈ s.connectedClientIds ∧
      (s.releaseClient c addr).server = RenetServer.removeConnection s.server c ∧
      (s.releaseClient c addr).trace =
        .removeConnection .webRtc c (RenetServer.hasConnection s.server c) :: s.trace) ∨
    (c ∉ s.connectedClientIds ∧ (s.releaseClient c addr).server = s.server ∧
      (s.releaseClient c addr).trace = s.trace) := by
  unfold releaseClient
  dsimp only
  split
  · rename_i h; exact .inl ⟨h, rfl, rfl⟩
  · rename_i h; exact .inr ⟨h, rfl, rfl⟩

end

section

variable [NetcodeServer N]

@[simp] theorem expelled_toShared (s : WebRtcState N R S W) (c : ClientId) :
    (s.expelled c).toShared = { s.toShared with trace := .removed c :: s.trace } := by
  unfold expelled; dsimp only; rw [deferRenetRemoval_frame]; rfl

@[simp] theorem expelled_packetGate (s : WebRtcState N R S W) (c : ClientId) :
    (s.expelled c).packetGate = s.packetGate := by
  unfold expelled; dsimp only; rw [deferRenetRemoval_frame]; rfl

@[simp] theorem expelled_netcodeServer (s : WebRtcState N R S W) (c : ClientId) :
    (s.expelled c).netcodeServer = (NetcodeServer.disconnect s.netcodeServer c).1 := by
  unfold expelled; dsimp only; rw [deferRenetRemoval_frame]; rfl

@[simp] theorem expelled_peers (s : WebRtcState N R S W) (c : ClientId) :
    (s.expelled c).peers = s.peers.remove c := by
  unfold expelled; dsimp only; rw [deferRenetRemoval_frame]; rfl

@[simp] theorem expelled_pending (s : WebRtcState N R S W) (c : ClientId) :
    (s.expelled c).pendingServerResults =
      s.pendingServerResults.filter fun o => !o.result.concerns c := by
  unfold expelled; dsimp only; rw [deferRenetRemoval_frame]; rfl

@[simp] theorem expelled_applying (s : WebRtcState N R S W) (c : ClientId) :
    (s.expelled c).applying = s.applying := by
  unfold expelled; dsimp only; rw [deferRenetRemoval_frame]; rfl

@[simp] theorem expelled_routes (s : WebRtcState N R S W) (c : ClientId) :
    (s.expelled c).addrToClientId = s.addrToClientId.retain fun _ value => value ≠ c := by
  unfold expelled; dsimp only; rw [deferRenetRemoval_frame]; rfl

theorem mem_connected_expelled {s : WebRtcState N R S W} {c c' : ClientId} :
    c' ∈ (s.expelled c).connectedClientIds ↔ c' ≠ c ∧ c' ∈ s.connectedClientIds := by
  unfold expelled deferRenetRemoval
  dsimp only
  split
  · exact HashMap.mem_remove
  · rename_i h
    constructor
    · exact fun hc => ⟨fun heq => h (heq ▸ hc), hc⟩
    · exact fun hc => hc.2

theorem mem_removals_expelled {s : WebRtcState N R S W} {c c' : ClientId} :
    c' ∈ (s.expelled c).pendingRenetRemovals ↔
      c' ∈ s.pendingRenetRemovals ∨ c' = c ∧ c ∈ s.connectedClientIds := by
  unfold expelled deferRenetRemoval
  dsimp only
  split
  · rename_i h
    have h' : c ∈ s.connectedClientIds := h
    simp only [log, HashMap.mem_insert, h', and_true]
    exact or_comm
  · rename_i h
    have h' : c ∉ s.connectedClientIds := h
    simp [log, dropRoutes, h']

/-! What `remove_peer` leaves of a client. -/

variable [World W]

theorem removePeer_eq (s : WebRtcState N R S W) (c : ClientId) :
    s.removePeer c = (s.gateRemove c).expelled c := rfl

/-- Netcode has no client of this id afterwards. -/
theorem removePeer_free [LawfulNetcode N] (s : WebRtcState N R S W) (c : ClientId) :
    NetcodeServer.clientAddr (s.removePeer c).netcodeServer c = none := by
  have h := setsClient_disconnect s.netcodeServer c c
  rw [if_pos rfl] at h
  rw [removePeer_eq, expelled_netcodeServer]
  exact h

theorem removePeer_pending (s : WebRtcState N R S W) (c : ClientId) :
    (s.removePeer c).pendingServerResults =
      s.pendingServerResults.filter fun o => !o.result.concerns c := by
  rw [removePeer_eq, expelled_pending]
  rfl

theorem removePeer_waits (s : WebRtcState N R S W) (c : ClientId) :
    waits c (s.removePeer c).pendingServerResults = false := by
  rw [removePeer_pending]
  exact waits_filter c _

theorem removePeer_routes (s : WebRtcState N R S W) (c : ClientId) (addr : SocketAddr) :
    (s.removePeer c).addrToClientId.get addr ≠ some c := by
  rw [removePeer_eq, expelled_routes, HashMap.get_retain]
  simp [Option.filter_eq_some_iff]

end

end WebRtcState

variable [NetcodeServer N] [Rtc R] [RenetServer S]

inductive Act : Cfg N R S W → Cfg N R S W → Prop
  /-- A socket, a clock or the egress limiter. -/
  | ambient {s d f} (w : W) (e : Egress ClientId) :
      Act ⟨s, d, f⟩ ⟨{ s with world := w, egress := e }, d, f⟩
  /-- `get_packets_to_send` -/
  | fetch {s d f} (c : ClientId) :
      Act ⟨s, d, f⟩ ⟨{ s with server := (RenetServer.getPacketsToSend s.server c).1 }, d, f⟩
  /-- A netcode call that connects and disconnects nobody. -/
  | tick {s d f} (n : N) : SameClients s.netcodeServer n →
      Act ⟨s, d, f⟩ ⟨{ s with netcodeServer := n }, d, f⟩
  /-- A call on the gate that adds nothing to it. -/
  | gate {s d f} (g : ServerPacketGate) (sh : Shared S W) :
      GateShrinks s.packetGate s.toShared g sh →
      Act ⟨s, d, f⟩ ⟨{ s with packetGate := g, toShared := sh }, d, f⟩
  /-- Packets drained from the gate, or the rest of a loop over them. -/
  | inbox {s d f} (xs : List (ServerPeerId × Packet)) :
      (GateOk s.packetGate s.conds → ∀ x ∈ xs, x ∈ f.inbox ∨
        Stock s.packetGate s.conds .incoming x.1 x.2) →
      Act ⟨s, d, f⟩ ⟨s, d, { f with inbox := xs }⟩
  /-- The same for packets to send, which may also have been made just now. -/
  | outbox {s d f} (xs : List (ClientId × Packet)) :
      (GateOk s.packetGate s.conds → ∀ x ∈ xs, x ∈ f.outbox ∨
        Stock s.packetGate s.conds .outgoing (.webRtc x.1) x.2 ∨ x.2.tag = s.tagNow x.1) →
      Act ⟨s, d, f⟩ ⟨s, d, { f with outbox := xs }⟩
  /-- A peer is taken out of the map to be driven. -/
  | pickUp {s d f} (c : ClientId) (p : ServerPeer R) :
      s.peers.get c = some p → d.hand = none → d.failed = false →
      Act ⟨s, d, f⟩ ⟨{ s with peers := s.peers.remove c }, { d with hand := some (c, p) }, f⟩
  | putDown {s d f} (c : ClientId) (p : ServerPeer R) :
      d.hand = some (c, p) → d.failed = false → d.gathered = [] → d.dirty = none →
      Act ⟨s, d, f⟩ ⟨{ s with peers := s.peers.insert c p }, { d with hand := none }, f⟩
  /-- The peer's `Rtc` is disconnected or its data channel is set. -/
  | touchHand {s d f} (c : ClientId) (p p' : ServerPeer R) :
      d.hand = some (c, p) → p.Retains p' →
      Act ⟨s, d, f⟩ ⟨s, { d with hand := some (c, p') }, f⟩
  | touchPeer {s d f} (c : ClientId) (p p' : ServerPeer R) :
      s.peers.get c = some p → p.Retains p' →
      Act ⟨s, d, f⟩ ⟨{ s with peers := s.peers.insert c p' }, d, f⟩
  /-- `next_timeout = None` -/
  | startDrain {s d f} (c : ClientId) (p : ServerPeer R) :
      d.hand = some (c, p) → (d.dirty = none ∨ d.dirty = some c) →
      Act ⟨s, d, f⟩
        ⟨s, { d with hand := some (c, { p with nextTimeout := none }), dirty := none }, f⟩
  | polled {s d f} (c : ClientId) (p : ServerPeer R) (rtc : R) :
      d.hand = some (c, p) → p.nextTimeout = none →
      Act ⟨s, d, f⟩
        ⟨s.log (.polled p.clientId false), { d with hand := some (c, { p with rtc := rtc }) }, f⟩
  | polledTimeout {s d f} (c : ClientId) (p : ServerPeer R) (rtc : R) (deadline : Nat) :
      d.hand = some (c, p) → p.nextTimeout = none →
      Act ⟨s, d, f⟩ ⟨s.log (.polled p.clientId true),
        { d with hand := some (c, { p with rtc := rtc, nextTimeout := some deadline }) }, f⟩
  /-- A binary message on the peer's data channel. -/
  | arrive {s d f} (c : ClientId) (p : ServerPeer R) (data : Bytes) :
      d.hand = some (c, p) → d.parcel = none →
      Act ⟨s, d, f⟩ ⟨s.log (.arrived ⟨data, s.tagNow p.clientId⟩),
        { d with parcel := some (p.clientId, ⟨data, s.tagNow p.clientId⟩) }, f⟩
  /-- A packet released by the conditioner, for a registered peer. -/
  | unpack {s d f} (c : ClientId) (packet : Packet) :
      (.webRtc c, packet) ∈ f.inbox → d.parcel = none →
      Act ⟨s, d, f⟩ ⟨s, { d with parcel := some (c, packet) }, f⟩
  | discard {s d f} : Act ⟨s, d, f⟩ ⟨s, { d with parcel := none }, f⟩
  | stockIn {s d f} (c : ClientId) (packet : Packet) (sh : Shared S W) :
      d.parcel = some (c, packet) →
      GateStep s.packetGate s.toShared s.packetGate sh
        (fun dir id p => dir = .incoming ∧ id = .webRtc c ∧ p = packet) →
      Act ⟨s, d, f⟩ ⟨{ s with toShared := sh }, d, f⟩
  | stockOut {s d f} (c : ClientId) (packet : Packet) (sh : Shared S W) :
      (c, packet) ∈ f.outbox →
      GateStep s.packetGate s.toShared s.packetGate sh
        (fun dir id p => dir = .outgoing ∧ id = .webRtc c ∧ p = packet) →
      Act ⟨s, d, f⟩ ⟨{ s with toShared := sh }, d, f⟩
  /-- `process_peer_packet`, the identity checked. -/
  | process {s d f} (c c' : ClientId) (p : ServerPeer R) (packet : Packet) (r : N × ServerResult) :
      d.hand = some (c, p) → d.parcel = some (c', packet) → (c' = c ∨ c' = p.clientId) →
      r = NetcodeServer.processPacket s.netcodeServer p.virtualAddr packet.bytes →
      (∀ id, (toOwnedServerResult r.2).connects = some id → id = p.clientId) →
      Act ⟨s, d, f⟩ ⟨{ s with netcodeServer := r.1 }.log (.processed packet),
        { d with
          parcel := none
          gathered := d.gathered ++ [⟨toOwnedServerResult r.2, packet.tag⟩] }, f⟩
  /-- `process_peer_packet` of a peer that claims another identity. -/
  | processForeign {s d f} (c c' id : ClientId) (p : ServerPeer R) (packet : Packet)
      (r : N × ServerResult) :
      d.hand = some (c, p) → d.parcel = some (c', packet) → (c' = c ∨ c' = p.clientId) →
      r = NetcodeServer.processPacket s.netcodeServer p.virtualAddr packet.bytes →
      (toOwnedServerResult r.2).connects = some id → id ≠ p.clientId →
      Act ⟨s, d, f⟩
        ⟨{ s with netcodeServer := (NetcodeServer.disconnect r.1 id).1 }.log (.processed packet),
          { d with parcel := none }, f⟩
  | commit {s d f} : d.failed = false →
      Act ⟨s, d, f⟩ ⟨{ s with pendingServerResults := s.pendingServerResults ++ d.gathered },
        { d with gathered := [] }, f⟩
  /-- A drain failed and its results are dropped. -/
  | lose {s d f} (c : ClientId) (p : ServerPeer R) :
      d.hand = some (c, p) →
      Act ⟨s, d, f⟩ ⟨s.log (.lost p.clientId (d.gathered.map Outcome.result)),
        { d with gathered := [], failed := true }, f⟩
  | tearDown {s d f} (c : ClientId) (p : ServerPeer R) :
      d.hand = some (c, p) → d.gathered = [] → (d.dirty = none ∨ d.dirty = some c) →
      Act ⟨s, d, f⟩ ⟨s.tornDown c, { d with hand := none, failed := false, dirty := none }, f⟩
  /-- A datagram goes into a drained peer. -/
  | feed {s d f} (c : ClientId) (p : ServerPeer R) (source : SocketAddr) (input : Input) :
      s.peers.get c = some p → p.nextTimeout ≠ none → d.dirty = none → d.hand = none →
      Act ⟨s, d, f⟩ ⟨s.feedPeer c p source input, { d with dirty := some c }, f⟩
  | timeout {s d f} (c : ClientId) (p : ServerPeer R) (rtc : R) :
      s.peers.get c = some p → p.nextTimeout ≠ none → d.dirty = none → d.hand = none →
      Act ⟨s, d, f⟩ ⟨(s.setRtc c p rtc).log (.input c false), { d with dirty := some c }, f⟩
  | write {s d f} (c : ClientId) (p : ServerPeer R) (rtc : R) (packet : Packet) :
      s.peers.get c = some p → p.nextTimeout ≠ none → d.dirty = none → d.hand = none →
      (c, packet) ∈ f.outbox →
      Act ⟨s, d, f⟩ ⟨(s.setRtc c p rtc).log (.wrote c packet), { d with dirty := some c }, f⟩
  /-- `mem::take(&mut self.pending_server_results)` -/
  | takePending {s d f} : s.applying = [] → f.Between → d.gathered = [] →
      Act ⟨s, d, f⟩
        ⟨{ s with applying := s.pendingServerResults, pendingServerResults := [] }, d, f⟩
  | take {s d f} (o : Outcome) (rest : List Outcome) :
      s.applying = o :: rest → f.Between →
      Act ⟨s, d, f⟩ ⟨{ s with applying := rest }, d, { f with current := some o }⟩
  /-- A result that needs nothing done. -/
  | dismiss {s d f} (o : Outcome) :
      f.current = some o → o.result.connects = none → o.result.disconnects = none →
      Act ⟨s, d, f⟩ ⟨s, d, { f with current := none }⟩
  | route {s d f} (o : Outcome) (addr : SocketAddr) (payload : Bytes) :
      f.current = some o → o.result = .packetToSend addr payload → d.hand = none →
      Act ⟨s, d, f⟩
        ⟨s.log (.routed addr (s.addrToClientId.get addr) s.peers.keys ⟨payload, o.tag⟩), d,
          { f with
            current := none
            outbox := ((s.addrToClientId.get addr).map fun c =>
              (c, (⟨payload, o.tag⟩ : Packet))).toList }⟩
  | deliver {s d f} (o : Outcome) (c : ClientId) (payload : Bytes) :
      f.current = some o → o.result = .payload c payload →
      Act ⟨s, d, f⟩ ⟨s.deliverPayload c ⟨payload, o.tag⟩, d, { f with current := none }⟩
  | connect {s d f} (o : Outcome) (c : ClientId) (addr : SocketAddr) (payload : Bytes) :
      f.current = some o → o.result = .clientConnected c addr payload →
      RenetServer.isConnected s.server c = false → f.swept = true → f.removing = [] →
      f.roll = none → f.doomed = none → d.hand = none →
      Act ⟨s, d, f⟩ ⟨s.admitClient c addr o.tag, d,
        { f with current := none, outbox := [(c, ⟨payload, o.tag⟩)] }⟩
  | reject {s d f} (o : Outcome) (c : ClientId) (addr : SocketAddr) (payload : Bytes) :
      f.current = some o → o.result = .clientConnected c addr payload →
      RenetServer.isConnected s.server c = true → f.ejected = none →
      Act ⟨s, d, f⟩ ⟨s.disconnectDuplicate c, d, { f with current := none, ejected := some c }⟩
  /-- `remove_peer`: of a duplicate, or by the user. -/
  | expel {s d f} (c : ClientId) :
      (f.ejected = some c ∨ f.ejected = none ∧ s.applying = []) → d.hand = none →
      d.gathered = [] → d.dirty = none → f.current = none →
      Act ⟨s, d, f⟩ ⟨s.expelled c, d, { f with ejected := none }⟩
  | register {s d f} (c : ClientId) (rtc : R) :
      s.peers.get c = none → NetcodeServer.clientAddr s.netcodeServer c = none →
      c ∉ s.connectedClientIds → waits c s.pendingServerResults = false → s.applying = [] →
      d.hand = none → d.gathered = [] → f.current = none →
      (∀ addr, s.addrToClientId.get addr ≠ some c) →
      Act ⟨s, d, f⟩ ⟨s.registered c rtc, d, f⟩
  | release {s d f} (o : Outcome) (c : ClientId) (addr : SocketAddr) (payload : Option Bytes) :
      f.current = some o → o.result = .clientDisconnected c addr payload →
      Act ⟨s, d, f⟩ ⟨s.releaseClient c addr, d,
        { f with
          current := none
          doomed := some c
          outbox := (payload.map fun bytes => (c, (⟨bytes, o.tag⟩ : Packet))).toList }⟩
  | forget {s d f} (c : ClientId) : f.doomed = some c → d.hand = none →
      Act ⟨s, d, f⟩ ⟨s.forgotten c, d, { f with doomed := none }⟩
  /-- `update_client` or `disconnect`, outside a drain. -/
  | settle {s d f} (c : ClientId) (r : N × ServerResult) :
      ClientSpec s.netcodeServer r.1 c r.2 → s.applying = [] → f.Between → d.gathered = [] →
      Act ⟨s, d, f⟩ ⟨s.severed r, d, { f with current := some (s.severedOutcome c r) }⟩
  /-- `disconnect_all` begins its loop. -/
  | callRoll {s d f} (ids : List ClientId) :
      (∀ c, NetcodeServer.clientAddr s.netcodeServer c ≠ none → c ∈ ids) →
      s.applying = [] → s.pendingServerResults = [] → d = {} → f.Between →
      Act ⟨s, d, f⟩ ⟨s, d, { f with roll := some ids }⟩
  | rollNext {s d f} (c : ClientId) (rest : List ClientId) (r : N × ServerResult) :
      DisconnectSpec s.netcodeServer r.1 c r.2 → s.applying = [] → f.current = none →
      f.doomed = none → f.ejected = none → f.roll = some (c :: rest) → d.gathered = [] →
      Act ⟨s, d, f⟩ ⟨s.severed r, d,
        { f with current := some (s.severedOutcome c r), roll := some rest }⟩
  /-- `pending_renet_removals.drain()` -/
  | sweep {s d f} (ids : List ClientId) :
      (∀ c, c ∈ ids ↔ c ∈ s.pendingRenetRemovals) → f.removing = [] →
      Act ⟨s, d, f⟩
        ⟨{ s with pendingRenetRemovals := ∅ }, d, { f with removing := ids, swept := true }⟩
  | removeNext {s d f} (c : ClientId) (rest : List ClientId) : f.removing = c :: rest →
      Act ⟨s, d, f⟩ ⟨s.removeConnection c, d, { f with removing := rest }⟩
  /-- `peers.clear()` and `addr_to_client_id.clear()` -/
  | clear {s d f} : d.hand = none → d.dirty = none → f.current = none → f.doomed = none →
      s.applying = [] → f.roll = some [] →
      Act ⟨s, d, f⟩ ⟨{ s with peers := ∅, addrToClientId := ∅ }, d, { f with roll := none }⟩
  /-- The operation returns. -/
  | finish {s d f} : Act ⟨s, d, f⟩ ⟨s, d, { f with swept := false }⟩

abbrev Steps : Cfg N R S W → Cfg N R S W → Prop := ReflTransGen Act

/-- Steps that take no result out of a queue. -/
abbrev QuietSteps : Cfg N R S W → Cfg N R S W → Prop :=
  ReflTransGen fun a b => Act a b ∧ b.st.applying = a.st.applying

/-- Steps in which no local of the functions around a drive or a send changes. -/
abbrev SteadySteps : Cfg N R S W → Cfg N R S W → Prop :=
  ReflTransGen fun a b => Act a b ∧ b.st.applying = a.st.applying ∧ b.frame = a.frame

theorem SteadySteps.quiet {a b : Cfg N R S W} (h : SteadySteps a b) : QuietSteps a b := by
  induction h with
  | refl => exact .refl
  | tail _ hstep ih => exact ih.tail ⟨hstep.1, hstep.2.1⟩

theorem QuietSteps.steps {a b : Cfg N R S W} (h : QuietSteps a b) : Steps a b := by
  induction h with
  | refl => exact .refl
  | tail _ hstep ih => exact ih.tail hstep.1

theorem QuietSteps.applying {a b : Cfg N R S W} (h : QuietSteps a b) :
    b.st.applying = a.st.applying := by
  induction h with
  | refl => rfl
  | tail _ hstep ih => exact hstep.2.trans ih

end RenetCross.L4
