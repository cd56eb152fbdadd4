import RenetCross.L4App.WebRtcServer

/-!
# `UdpNetcodeServerTransport`

`src/udp_server.rs`: one UDP socket carries the netcode packets of every native
client, and a netcode server's results drive a `RenetServer`. Unlike the WebRTC
transport it handles each result at once, and keeps no record of its own of the
connections it added: the netcode server's table is the only one.

`UdpState.Act` says what its operations do to the three things that matter to
another transport of the same `RenetServer`: who is connected in netcode, which
entries the `RenetServer` has, and the trace.

Left out: log lines, the reused receive buffer and the read-only accessors.
-/
namespace RenetCross.L4

open RenetCross.L2 Relation

/-- renetcode's `NETCODE_MAX_PACKET_BYTES`. -/
class PacketLimit (N : Type) where
  maxPacketBytes : Nat

/-- `addr.ip().to_canonical().is_ipv4()`: an IPv4 address, or one mapped into IPv6. -/
def isCanonicalV4 : SocketAddr → Bool
  | .v4 _ _ => true
  | .v6 ip _ _ _ =>
    ip.s0 = 0 && ip.s1 = 0 && ip.s2 = 0 && ip.s3 = 0 && ip.s4 = 0 && ip.s5 = 0xffff

/-- mirrors src/egress.rs:322-328 -/
def ipOverhead (addr : SocketAddr) : Nat := if isCanonicalV4 addr then 28 else 48

/-- mirrors src/udp_server.rs:18-27 -/
structure UdpTransport (N : Type) where
  egress : Egress SocketAddr
  netcodeServer : N
  maxDatagramsPerUpdate : { n : Nat // 0 < n }
  packets : ServerPacketGate

/-- The transport and what it calls. -/
structure UdpState (N S W : Type) extends UdpTransport N, Shared S W

namespace UdpState

variable {N S W : Type}

/-- mirrors src/udp_server.rs:35-55; the socket is part of the world. -/
def new (netcodeServer : N) (shared : Shared S W) : UdpState N S W where
  egress := .new .nativeUdpIp
  netcodeServer := netcodeServer
  maxDatagramsPerUpdate := ⟨256, by decide⟩
  packets := none
  toShared := shared

def log (s : UdpState N S W) (e : Event) : UdpState N S W := { s with trace := e :: s.trace }

/-- The tag of something that came from, or is made for, `addr` now. -/
def tagNow (s : UdpState N S W) (addr : SocketAddr) : Tag := ⟨.udp addr, s.trace.length⟩

section

variable [World W]

/-- `packets.remove(ServerPeerId::Udp(addr))` -/
def gateRemove (s : UdpState N S W) (addr : SocketAddr) : UdpState N S W :=
  { s with toShared := s.packets.remove (.udp addr) s.toShared }

/-! ## Sending -/

/-- mirrors src/udp_server.rs:326-344 -/
def sendDatagram (s : UdpState N S W) (p : Packet) (addr : SocketAddr) :
    UdpState N S W × Except IoErrorKind Nat :=
  let overhead := ipOverhead addr
  let now := World.egressNow s.world
  let admitted := s.egress.admitAt addr p.bytes overhead now.2
  let s := { s with world := now.1, egress := admitted.1 }
  if admitted.2 then
    let r := World.sendTo .udp s.world p.bytes addr
    let sent := match r.2 with
      | .ok len => len = p.bytes.length
      | .error _ => false
    let now := World.egressNow r.1
    ({ s with
        world := now.1
        egress := s.egress.complete addr p.bytes overhead sent now.2 }, r.2)
  else (s, .ok p.bytes.length)

/-- mirrors src/udp_server.rs:312-324 -/
def sendPacket (s : UdpState N S W) (p : Packet) (addr : SocketAddr) :
    UdpState N S W × Except IoErrorKind Nat :=
  let r := s.packets.defer .outgoing (.udp addr) p s.toShared
  let s := { s with toShared := r.1 }
  if r.2 then (s, .ok p.bytes.length) else s.sendDatagram p addr

/-- The body of `flush_outgoing`'s loop. -/
def sendQueued (s : UdpState N S W) (x : ServerPeerId × Packet) : UdpState N S W :=
  match x.1 with
  | .udp addr => (s.sendDatagram x.2 addr).1
  | .webRtc _ => s

/-- mirrors src/udp_server.rs:215-223 -/
def flushOutgoing (s : UdpState N S W) : UdpState N S W :=
  let r := s.packets.drain .outgoing s.toShared
  r.2.foldl sendQueued { s with toShared := r.1 }

variable [NetcodeServer N] [RenetServer S]

/-! ## Netcode results -/

/-- `server.remove_connection(client_id)` -/
def removeConnection (s : UdpState N S W) (c : ClientId) : UdpState N S W :=
  { s with server := RenetServer.removeConnection s.server c }.log
    (.removeConnection .udp c (RenetServer.hasConnection s.server c))

/-- This transport keeps no `connected_client_ids`.
mirrors src/udp_server.rs:239-243 -/
def deliverPayload (s : UdpState N S W) (c : ClientId) (p : Packet) : UdpState N S W :=
  { s with server := (RenetServer.processPacketFrom s.server p.bytes c).1 }.log
    (.processPacketFrom .udp c (RenetServer.hasConnection s.server c) true p)

/-- `server.add_connection(client_id)`; every client of this transport has its
socket address. -/
def admitClient (s : UdpState N S W) (c : ClientId) (tag : Tag) : UdpState N S W :=
  { s with server := RenetServer.addConnection s.server c }.log
    (.addConnection .udp c (RenetServer.hasConnection s.server c) true tag)

/-- The farewell of a `ClientDisconnected`, if it has one. -/
def sendFarewell (s : UdpState N S W) : OwnedServerResult → UdpState N S W
  | .clientDisconnected _ addr (some payload) =>
    (s.sendDatagram ⟨payload, s.tagNow addr⟩ addr).1
  | _ => s

/-- mirrors src/udp_server.rs:253-268 -/
def rejectDuplicate (s : UdpState N S W) (c : ClientId) (addr : SocketAddr) : UdpState N S W :=
  let r := NetcodeServer.disconnect s.netcodeServer c
  let s := { s with netcodeServer := r.1 }
  (s.sendFarewell (toOwnedServerResult r.2)).gateRemove addr

/-- mirrors src/udp_server.rs:225-296 -/
def handleServerResult (s : UdpState N S W) (o : Outcome) : UdpState N S W :=
  match o.result with
  | .none => s
  | .packetToSend addr payload => (s.sendPacket ⟨payload, o.tag⟩ addr).1
  | .payload c payload => s.deliverPayload c ⟨payload, o.tag⟩
  | .clientConnected c addr payload =>
    if RenetServer.isConnected s.server c then s.rejectDuplicate c addr
    else ((s.admitClient c o.tag).sendPacket ⟨payload, o.tag⟩ addr).1
  | .clientDisconnected c addr payload =>
    ((s.gateRemove addr).removeConnection c).sendFarewell (.clientDisconnected c addr payload)

/-- `netcode_server.process_packet` and its result. -/
def processPacket (s : UdpState N S W) (source : SocketAddr) (p : Packet) : UdpState N S W :=
  let r := NetcodeServer.processPacket s.netcodeServer source p.bytes
  { s with netcodeServer := r.1 }.handleServerResult ⟨toOwnedServerResult r.2, p.tag⟩

/-- A netcode call for one client and its result. -/
def settle (s : UdpState N S W) (c : ClientId) (r : N × ServerResult) : UdpState N S W :=
  let tag := s.tagNow ((NetcodeServer.clientAddr s.netcodeServer c).getD default)
  { s with netcodeServer := r.1 }.handleServerResult ⟨toOwnedServerResult r.2, tag⟩

/-- mirrors src/udp_server.rs:160-162 -/
def advanceClient (s : UdpState N S W) (c : ClientId) : UdpState N S W :=
  s.settle c (NetcodeServer.updateClient s.netcodeServer c)

/-- mirrors src/udp_server.rs:166-168 -/
def disconnectClient (s : UdpState N S W) (c : ClientId) : UdpState N S W :=
  s.settle c (NetcodeServer.disconnect s.netcodeServer c)

/-! ## The socket -/

variable [PacketLimit N]

/-- The closure `update` passes to `receive_with_budget`, after a successful read.
mirrors src/udp_server.rs:135-148 -/
def receive (s : UdpState N S W) (bytes : Bytes) (source : SocketAddr) : UdpState N S W :=
  if bytes.length ≤ PacketLimit.maxPacketBytes N then
    let p : Packet := ⟨bytes, s.tagNow source⟩
    let r := s.packets.defer .incoming (.udp source) p s.toShared
    let s := { s with toShared := r.1 }
    if r.2 then s else s.processPacket source p
  else s

/-- mirrors src/udp_io.rs:5-22 -/
def receiveWithBudget : Nat → UdpState N S W → UdpState N S W × Option IoErrorKind
  | 0, s => (s, none)
  | n + 1, s =>
    let r := World.recvFrom .udp s.world
    let s := { s with world := r.1 }
    match r.2 with
    | .error .wouldBlock => (s, none)
    | .error .interrupted => receiveWithBudget n s
    | .error .connectionReset => receiveWithBudget n s
    | .error kind => (s, some kind)
    | .ok (bytes, source) => receiveWithBudget n (s.receive bytes source)

/-- mirrors src/udp_server.rs:151-157 -/
def processDelayed (s : UdpState N S W) (x : ServerPeerId × Packet) : UdpState N S W :=
  match x.1 with
  | .udp source => s.processPacket source x.2
  | .webRtc _ => s

/-! ## The public operations -/

/-- The part of `update` after the socket was read.
mirrors src/udp_server.rs:151-172 -/
def updateReceived (s : UdpState N S W) : UdpState N S W :=
  let r := s.packets.drain .incoming s.toShared
  let s := r.2.foldl processDelayed { s with toShared := r.1 }
  let s := (NetcodeServer.clientsId s.netcodeServer).foldl advanceClient s
  let s := (RenetServer.disconnectionsId s.server).foldl disconnectClient s
  s.flushOutgoing

/-- mirrors src/udp_server.rs:126-173 -/
def update (duration : Nat) (s : UdpState N S W) : UdpState N S W × Option TransportError :=
  let s := { s with netcodeServer := NetcodeServer.update s.netcodeServer duration }
  let r := receiveWithBudget s.maxDatagramsPerUpdate s
  match r.2 with
  | some kind => (r.1, some (.io kind))
  | none => (r.1.updateReceived, none)

/-- The packets of one client; a failure ends its turn.
mirrors src/udp_server.rs:186-210 -/
def sendPayloads (c : ClientId) : List Bytes → UdpState N S W → UdpState N S W
  | [], s => s
  | packet :: rest, s =>
    let r := NetcodeServer.generatePayloadPacket s.netcodeServer c packet
    let s := { s with netcodeServer := r.1 }
    match r.2 with
    | none => s
    | some (addr, payload) =>
      let sent := s.sendPacket ⟨payload, s.tagNow addr⟩ addr
      match sent.2 with
      | .error _ => sent.1
      | .ok _ => sendPayloads c rest sent.1

/-- mirrors src/udp_server.rs:178-210 -/
def sendClient (s : UdpState N S W) (c : ClientId) : UdpState N S W :=
  let r := RenetServer.getPacketsToSend s.server c
  let s := { s with server := r.1 }
  match r.2 with
  | some packets => sendPayloads c packets s
  | none => s

/-- mirrors src/udp_server.rs:175-213 -/
def sendPackets (s : UdpState N S W) : UdpState N S W :=
  let s := s.flushOutgoing
  ((NetcodeServer.clientsId s.netcodeServer).foldl sendClient s).flushOutgoing

/-- mirrors src/udp_server.rs:117-124 -/
def disconnectAll (s : UdpState N S W) : UdpState N S W :=
  let s := (NetcodeServer.clientsId s.netcodeServer).foldl disconnectClient s
  { s with toShared := s.packets.reset s.toShared }

/-- mirrors src/udp_server.rs:301-303 -/
def setConditioner (handle : Nat) (s : UdpState N S W) : Option (UdpState N S W) :=
  (s.packets.attach handle s.toShared).map fun r => { s with packets := r.1, toShared := r.2 }

/-- mirrors src/udp_server.rs:307-309 -/
def clearConditioner (s : UdpState N S W) : UdpState N S W :=
  let r := s.packets.detach s.toShared
  { s with packets := r.1, toShared := r.2 }

end

/-! ## What an operation does, seen from outside -/

variable [NetcodeServer N] [RenetServer S]

/-- Nobody connects or leaves, and the `RenetServer` keeps its entries. -/
structure Calm (s s' : UdpState N S W) : Prop where
  clients : SameClients s.netcodeServer s'.netcodeServer
  entries : ∀ c, RenetServer.hasConnection s'.server c = RenetServer.hasConnection s.server c
  trace : s'.trace = s.trace

/-- A step of the transport: a call on the `RenetServer`, together with the netcode
call that caused it, or something calm. -/
inductive Act : UdpState N S W → UdpState N S W → Prop
  | calm {s t} : Calm s t → Act s t
  | deliver {s t} (c : ClientId) (p : Packet) :
      NetcodeServer.clientAddr s.netcodeServer c ≠ none →
      SameClients s.netcodeServer t.netcodeServer →
      (∀ c', RenetServer.hasConnection t.server c' = RenetServer.hasConnection s.server c') →
      t.trace = .processPacketFrom .udp c (RenetServer.hasConnection s.server c) true p :: s.trace →
      Act s t
  | connect {s t} (c : ClientId) (addr : SocketAddr) (tag : Tag) :
      NetcodeServer.clientAddr s.netcodeServer c = none →
      SetsClient s.netcodeServer t.netcodeServer c (some addr) →
      (∀ c', RenetServer.hasConnection t.server c' =
        (decide (c' = c) || RenetServer.hasConnection s.server c')) →
      t.trace = .addConnection .udp c (RenetServer.hasConnection s.server c) true tag :: s.trace →
      Act s t
  | leave {s t} (c : ClientId) :
      NetcodeServer.clientAddr s.netcodeServer c ≠ none →
      SetsClient s.netcodeServer t.netcodeServer c none →
      (∀ c', RenetServer.hasConnection t.server c' =
        (!decide (c' = c) && RenetServer.hasConnection s.server c')) →
      t.trace = .removeConnection .udp c (RenetServer.hasConnection s.server c) :: s.trace →
      Act s t

abbrev Steps : UdpState N S W → UdpState N S W → Prop := ReflTransGen Act

theorem Calm.refl (s : UdpState N S W) : Calm s s := ⟨fun _ => rfl, fun _ => rfl, rfl⟩

theorem Calm.andThen {s t u : UdpState N S W} (h : Calm s t) (h' : Calm t u) : Calm s u :=
  ⟨fun c => (h'.clients c).trans (h.clients c), fun c => (h'.entries c).trans (h.entries c),
    h'.trace.trans h.trace⟩

theorem Calm.foldl {α : Type} {g : UdpState N S W → α → UdpState N S W} (hg : ∀ s x, Calm s (g s x)) :
    ∀ (xs : List α) (s : UdpState N S W), Calm s (xs.foldl g s)
  | [], s => .refl s
  | x :: xs, s => (hg s x).andThen (Calm.foldl hg xs (g s x))

theorem Steps.foldl {α : Type} {g : UdpState N S W → α → UdpState N S W}
    (hg : ∀ s x, Steps s (g s x)) : ∀ (xs : List α) (s : UdpState N S W), Steps s (xs.foldl g s)
  | [], _ => .refl
  | x :: xs, s => (hg s x).trans (Steps.foldl hg xs (g s x))

/-- A call on the gate. -/
theorem Calm.gate {s : UdpState N S W} {g : ServerPacketGate} {sh : Shared S W}
    {new : ConditionerDirection → ServerPeerId → Packet → Prop}
    (h : GateStep s.packets s.toShared g sh new) (packets : ServerPacketGate) :
    Calm s { s with packets := packets, toShared := sh } :=
  ⟨fun _ => rfl, fun c => by rw [h.server], h.trace⟩

variable [World W]

theorem gateRemove_calm (s : UdpState N S W) (addr : SocketAddr) : Calm s (s.gateRemove addr) :=
  .gate (ServerPacketGate.remove_shrinks s.packets (.udp addr) s.toShared) s.packets

theorem sendDatagram_calm (s : UdpState N S W) (p : Packet) (addr : SocketAddr) :
    Calm s (s.sendDatagram p addr).1 := by
  unfold sendDatagram
  dsimp only
  split
  · exact ⟨fun _ => rfl, fun _ => rfl, rfl⟩
  · exact ⟨fun _ => rfl, fun _ => rfl, rfl⟩

theorem sendPacket_calm (s : UdpState N S W) (p : Packet) (addr : SocketAddr) :
    Calm s (s.sendPacket p addr).1 := by
  have hdefer := Calm.gate (ServerPacketGate.defer_step s.packets .outgoing (.udp addr) p s.toShared)
    s.packets
  unfold sendPacket
  dsimp only
  split
  · exact hdefer
  · exact hdefer.andThen (sendDatagram_calm _ p addr)

theorem sendQueued_calm (s : UdpState N S W) (x : ServerPeerId × Packet) : Calm s (s.sendQueued x) := by
  unfold sendQueued
  split
  · exact sendDatagram_calm s _ _
  · exact .refl s

theorem flushOutgoing_calm (s : UdpState N S W) : Calm s s.flushOutgoing :=
  (Calm.gate (ServerPacketGate.drain_shrinks s.packets .outgoing s.toShared) s.packets).andThen
    (Calm.foldl sendQueued_calm _ _)

theorem sendFarewell_calm (s : UdpState N S W) (result : OwnedServerResult) :
    Calm s (s.sendFarewell result) := by
  unfold sendFarewell
  split
  · exact sendDatagram_calm s _ _
  · exact .refl s

section
variable [LawfulNetcode N] [LawfulRenet S]

omit [LawfulRenet S] in
/-- Connecting a client and turning it away again leaves netcode as it was. -/
theorem rejectDuplicate_calm {s : UdpState N S W} {n : N} {c : ClientId} {addr : SocketAddr}
    {at_ : Option SocketAddr} (hfree : NetcodeServer.clientAddr s.netcodeServer c = none)
    (hset : SetsClient s.netcodeServer n c at_) :
    Calm s ({ s with netcodeServer := n }.rejectDuplicate c addr) := by
  unfold rejectDuplicate
  dsimp only
  refine Calm.andThen ?_ (gateRemove_calm _ addr)
  refine Calm.andThen (t := { s with netcodeServer := (NetcodeServer.disconnect n c).1 })
    ⟨fun c' => ?_, fun _ => rfl, rfl⟩ (sendFarewell_calm _ _)
  have h := setsClient_disconnect n c c'
  by_cases hc : c' = c
  · rw [hc, if_pos rfl] at h
    rw [hc, hfree]
    exact h
  · rw [if_neg hc, hset c', if_neg hc] at h
    exact h

omit [LawfulNetcode N] in
theorem steps_leave {s : UdpState N S W} {n : N} {c : ClientId} {addr : SocketAddr}
    {payload : Option Bytes} {tag : Tag}
    (hheld : NetcodeServer.clientAddr s.netcodeServer c ≠ none)
    (hset : SetsClient s.netcodeServer n c none) :
    Steps s ({ s with netcodeServer := n }.handleServerResult
      ⟨.clientDisconnected c addr payload, tag⟩) := by
  have hgate := gateRemove_calm { s with netcodeServer := n } addr
  unfold handleServerResult
  dsimp only
  generalize hu : { s with netcodeServer := n }.gateRemove addr = u at hgate
  refine .tail (.single (.leave c hheld (t := u.removeConnection c) (fun c' => ?_) (fun c' => ?_) ?_))
    (.calm (sendFarewell_calm _ _))
  · exact (hgate.clients c').trans (hset c')
  · refine (LawfulRenet.removeConnection u.server c c').trans ?_
    rw [hgate.entries]
  · show Event.removeConnection .udp c (RenetServer.hasConnection u.server c) :: u.trace = _
    rw [hgate.entries, hgate.trace]

theorem steps_connect {s : UdpState N S W} {n : N} {c : ClientId} {addr : SocketAddr}
    {payload : Bytes} {tag : Tag} (hfree : NetcodeServer.clientAddr s.netcodeServer c = none)
    (hset : SetsClient s.netcodeServer n c (some addr)) :
    Steps s ({ s with netcodeServer := n }.handleServerResult
      ⟨.clientConnected c addr payload, tag⟩) := by
  unfold handleServerResult
  dsimp only
  split
  · exact .single (.calm (rejectDuplicate_calm hfree hset))
  · refine .tail (.single (.connect c addr tag (t := { s with netcodeServer := n }.admitClient c tag)
      hfree hset (fun c' => ?_) rfl)) (.calm (sendPacket_calm _ _ _))
    exact LawfulRenet.addConnection s.server c c'

theorem steps_processPacket (s : UdpState N S W) (source : SocketAddr) (p : Packet) :
    Steps s (s.processPacket source p) := by
  unfold processPacket
  dsimp only
  have hspec := LawfulNetcode.processPacket s.netcodeServer source p.bytes
  set r := NetcodeServer.processPacket s.netcodeServer source p.bytes
  obtain ⟨n, result⟩ := r
  cases result with
  | none => exact .single (.calm ⟨hspec, fun _ => rfl, rfl⟩)
  | packetToSend addr payload =>
    refine .head (.calm (t := { s with netcodeServer := n }) ⟨hspec.2, fun _ => rfl, rfl⟩) ?_
    exact .single (.calm (sendPacket_calm _ _ _))
  | payload c payload =>
    refine .single (.deliver c ⟨payload, p.tag⟩ ?_ hspec.2 (fun c' => ?_) rfl)
    · rw [hspec.1]
      exact Option.some_ne_none source
    · exact LawfulRenet.processPacketFrom s.server payload c c'
  | clientConnected c addr userData payload =>
    obtain ⟨rfl, hfree, hset⟩ := hspec
    exact steps_connect hfree hset
  | clientDisconnected c addr payload =>
    obtain ⟨rfl, hat, hset⟩ := hspec
    exact steps_leave (by rw [hat]; exact Option.some_ne_none addr) hset

omit [LawfulNetcode N] in
theorem steps_settle (s : UdpState N S W) (c : ClientId) (r : N × ServerResult)
    (h : ClientSpec s.netcodeServer r.1 c r.2) : Steps s (s.settle c r) := by
  unfold settle
  dsimp only
  obtain ⟨n, result⟩ := r
  cases result with
  | none => exact .single (.calm ⟨h, fun _ => rfl, rfl⟩)
  | packetToSend addr payload =>
    refine .head (.calm (t := { s with netcodeServer := n }) ⟨h.2, fun _ => rfl, rfl⟩) ?_
    exact .single (.calm (sendPacket_calm _ _ _))
  | payload c payload => exact h.elim
  | clientConnected c addr userData payload => exact h.elim
  | clientDisconnected c' addr payload =>
    obtain ⟨rfl, hat, hset⟩ := h
    exact steps_leave (by rw [hat]; exact Option.some_ne_none addr) hset

theorem steps_advanceClient (s : UdpState N S W) (c : ClientId) : Steps s (s.advanceClient c) :=
  steps_settle s c _ (LawfulNetcode.updateClient _ c)

theorem steps_disconnectClient (s : UdpState N S W) (c : ClientId) :
    Steps s (s.disconnectClient c) :=
  steps_settle s c _ (LawfulNetcode.disconnect _ c).clientSpec

theorem steps_processDelayed (s : UdpState N S W) (x : ServerPeerId × Packet) :
    Steps s (s.processDelayed x) := by
  unfold processDelayed
  split
  · exact steps_processPacket s _ _
  · exact .refl

omit [LawfulRenet S] in
theorem sendPayloads_calm (c : ClientId) : ∀ (packets : List Bytes) (s : UdpState N S W),
    Calm s (sendPayloads c packets s)
  | [], s => .refl s
  | packet :: rest, s => by
    unfold sendPayloads
    dsimp only
    have hmade : Calm s { s with
        netcodeServer := (NetcodeServer.generatePayloadPacket s.netcodeServer c packet).1 } :=
      ⟨LawfulNetcode.generatePayloadPacket _ c packet, fun _ => rfl, rfl⟩
    split
    · exact hmade
    · refine hmade.andThen ?_
      split
      · exact sendPacket_calm _ _ _
      · exact (sendPacket_calm _ _ _).andThen (sendPayloads_calm c rest _)

theorem sendClient_calm (s : UdpState N S W) (c : ClientId) : Calm s (s.sendClient c) := by
  have hfetch : Calm s { s with server := (RenetServer.getPacketsToSend s.server c).1 } :=
    ⟨fun _ => rfl, LawfulRenet.getPacketsToSend s.server c, rfl⟩
  unfold sendClient
  dsimp only
  split
  · exact hfetch.andThen (sendPayloads_calm c _ _)
  · exact hfetch

theorem sendPackets_calm (s : UdpState N S W) : Calm s s.sendPackets :=
  ((flushOutgoing_calm s).andThen (Calm.foldl sendClient_calm _ _)).andThen (flushOutgoing_calm _)

theorem steps_disconnectAll (s : UdpState N S W) : Steps s s.disconnectAll := by
  unfold disconnectAll
  dsimp only
  have hleave := Steps.foldl steps_disconnectClient (NetcodeServer.clientsId s.netcodeServer) s
  exact hleave.tail (.calm (Calm.gate (ServerPacketGate.reset_shrinks _ _) _))

theorem steps_updateReceived (s : UdpState N S W) : Steps s s.updateReceived := by
  unfold updateReceived
  dsimp only
  set r := s.packets.drain .incoming s.toShared with hr
  have hdrain := Calm.gate (ServerPacketGate.drain_shrinks s.packets .incoming s.toShared) s.packets
  have hdelayed := Steps.foldl steps_processDelayed r.2 { s with toShared := r.1 }
  set t := r.2.foldl processDelayed { s with toShared := r.1 }
  have hadvance := Steps.foldl steps_advanceClient (NetcodeServer.clientsId t.netcodeServer) t
  set u := (NetcodeServer.clientsId t.netcodeServer).foldl advanceClient t
  have hleave := Steps.foldl steps_disconnectClient (RenetServer.disconnectionsId u.server) u
  exact (ReflTransGen.head (.calm hdrain) (hdelayed.trans (hadvance.trans hleave))).tail
    (.calm (flushOutgoing_calm _))

variable [PacketLimit N]

theorem steps_receive (s : UdpState N S W) (bytes : Bytes) (source : SocketAddr) :
    Steps s (s.receive bytes source) := by
  unfold receive
  split
  · dsimp only
    refine .head (.calm (Calm.gate (ServerPacketGate.defer_step s.packets .incoming (.udp source)
      ⟨bytes, s.tagNow source⟩ s.toShared) s.packets)) ?_
    split
    · exact .refl
    · exact steps_processPacket _ source _
  · exact .refl

theorem steps_receiveWithBudget : ∀ (n : Nat) (s : UdpState N S W),
    Steps s (receiveWithBudget n s).1
  | 0, _ => .refl
  | n + 1, s => by
    unfold receiveWithBudget
    dsimp only
    refine .head (.calm (t := { s with world := (World.recvFrom .udp s.world).1 })
      ⟨fun _ => rfl, fun _ => rfl, rfl⟩) ?_
    split
    · exact .refl
    · exact steps_receiveWithBudget n _
    · exact steps_receiveWithBudget n _
    · exact .refl
    · exact (steps_receive _ _ _).trans (steps_receiveWithBudget n _)

theorem steps_update (duration : Nat) (s : UdpState N S W) : Steps s (s.update duration).1 := by
  unfold update
  dsimp only
  refine .head (.calm (t := { s with netcodeServer := NetcodeServer.update s.netcodeServer duration })
    ⟨LawfulNetcode.update _ duration, fun _ => rfl, rfl⟩) ?_
  refine .trans (steps_receiveWithBudget s.maxDatagramsPerUpdate _) ?_
  split
  · exact .refl
  · exact steps_updateReceived _

end

theorem setConditioner_calm {handle : Nat} {s s' : UdpState N S W}
    (h : s.setConditioner handle = some s') : Calm s s' := by
  obtain ⟨⟨gate, shared⟩, hr, rfl⟩ := Option.map_eq_some_iff.1 h
  exact .gate (ServerPacketGate.attach_spec hr).1 gate

theorem clearConditioner_calm (s : UdpState N S W) : Calm s s.clearConditioner :=
  .gate (ServerPacketGate.detach_shrinks s.packets s.toShared) _

end UdpState
end RenetCross.L4
