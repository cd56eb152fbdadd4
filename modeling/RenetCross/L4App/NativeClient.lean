import RenetCross.L4App.ClientFlow
import RenetCross.L4App.UdpServer

/-!
# `UdpNetcodeClientTransport`

`src/native_client.rs`: one UDP socket joins a `NetcodeClient` to its server and
hands what it decrypts to a `RenetClient`. Datagrams from other addresses and
datagrams too large for netcode are read and thrown away; both ways pass the
packet gate, and every datagram sent passes the egress layer.

Left out: log lines, the reused receive buffer and the read-only accessors.
-/
namespace RenetCross.L4

open RenetCross.L2

/-- The socket and the clocks of a native client. -/
class ClientSocket (W : Type) extends GateWorld W where
  recvFrom : W → W × Except IoErrorKind (Bytes × SocketAddr)
  sendTo : W → Bytes → SocketAddr → W × Except IoErrorKind Nat
  egressNow : W → W × Nat

/-- The errors the transport itself returns.
mirrors src/native_client.rs:16-44 -/
inductive UdpClientError where
  | io (kind : IoErrorKind)
  | netcode (error : NetcodeError)
  deriving DecidableEq, Repr

/-- mirrors src/native_client.rs:70-79 -/
structure UdpClientTransport (N : Type) where
  egress : Egress SocketAddr
  netcodeClient : N
  maxDatagramsPerUpdate : { n : Nat // 0 < n }
  packets : PacketGate SocketAddr

/-- The transport, the `RenetClient` it is called with, and the world. -/
structure UdpClientState (N C W : Type) extends UdpClientTransport N where
  client : C
  world : W
  trace : List (ClientEvent SocketAddr)

namespace UdpClientState

variable {N C W : Type}

/-- mirrors src/native_client.rs:91-112 -/
def new (netcodeClient : N) (conditioner : Option Control) (client : C) (world : W) :
    UdpClientState N C W where
  egress := .new .nativeUdpIp
  netcodeClient := netcodeClient
  maxDatagramsPerUpdate := ⟨256, Nat.succ_pos 255⟩
  packets := conditioner.elim none fun handle => PacketGate.attach none handle
  client := client
  world := world
  trace := []

def log (s : UdpClientState N C W) (e : ClientEvent SocketAddr) : UdpClientState N C W :=
  { s with trace := e :: s.trace }

variable [ClientSocket W]

/-- mirrors src/native_client.rs:115-120; a refused setting changes nothing. -/
def setEgressLimit (config : Option EgressConfig) (s : UdpClientState N C W) : UdpClientState N C W :=
  let now := ClientSocket.egressNow s.world
  match s.egress.configure config now.2 with
  | .ok egress => { s with world := now.1, egress := egress }
  | .error _ => { s with world := now.1 }

/-- mirrors src/native_client.rs:126-128 -/
def setMaxDatagramsPerUpdate (limit : { n : Nat // 0 < n }) (s : UdpClientState N C W) :
    UdpClientState N C W :=
  { s with maxDatagramsPerUpdate := limit }

/-- mirrors src/native_client.rs:236-238 -/
def setConditioner (handle : Control) (s : UdpClientState N C W) : UdpClientState N C W :=
  { s with packets := s.packets.attach handle }

/-- mirrors src/native_client.rs:243-245 -/
def clearConditioner (s : UdpClientState N C W) : UdpClientState N C W :=
  { s with packets := s.packets.detach }

variable [NetcodeClient N]

/-! ## The gate -/

/-- `packets.defer(direction, ..)` -/
def gateDefer (s : UdpClientState N C W) (d : ConditionerDirection) (addr : SocketAddr)
    (bytes : Bytes) : UdpClientState N C W × Bool :=
  let r := s.packets.defer d addr bytes s.world
  ({ s with packets := r.1, world := r.2.1 }, r.2.2)

/-- `packets.drain(direction)` -/
def gateDrain (s : UdpClientState N C W) (d : ConditionerDirection) :
    UdpClientState N C W × List (SocketAddr × Bytes) :=
  let r := s.packets.drain d s.world
  ({ s with packets := r.1, world := r.2.1 }, r.2.2)

/-! ## Sending -/

/-- Whether the socket took the whole datagram.
mirrors src/native_client.rs:281 -/
def tookAll (bytes : Bytes) : Except IoErrorKind Nat → Bool
  | .ok len => len = bytes.length
  | .error _ => false

/-- A saturated socket is loss, not an error.
mirrors src/native_client.rs:283-296 -/
def sendResult : Except IoErrorKind Nat → Except IoErrorKind Unit
  | .ok _ => .ok ()
  | .error .wouldBlock => .ok ()
  | .error .interrupted => .ok ()
  | .error kind => .error kind

/-- mirrors src/native_client.rs:266-297 -/
def sendDatagram (s : UdpClientState N C W) (payload : Bytes) (addr : SocketAddr) :
    UdpClientState N C W × Except IoErrorKind Unit :=
  let overhead := ipOverhead addr
  let server := NetcodeClient.serverAddr s.netcodeClient
  let now := ClientSocket.egressNow s.world
  let admitted := s.egress.admitAt addr payload overhead now.2
  let s := { s with world := now.1, egress := admitted.1 }
  if admitted.2 then
    let r := ClientSocket.sendTo s.world payload addr
    let sent := tookAll payload r.2
    let now := ClientSocket.egressNow r.1
    let s := { s with
      world := now.1
      egress := s.egress.complete addr payload overhead sent now.2 }
    (s.log (.offered addr server payload (.ofSent sent)), sendResult r.2)
  else (s.log (.offered addr server payload .refused), .ok ())

/-- The loops that send what the gate released: packets to another address than
`server` are dropped, the first failure ends the loop.
mirrors src/native_client.rs:131-135,258-262 -/
def sendReleased (server : SocketAddr) : List (SocketAddr × Bytes) → UdpClientState N C W →
    UdpClientState N C W × Except IoErrorKind Unit
  | [], s => (s, .ok ())
  | (addr, bytes) :: rest, s =>
    if addr = server then
      let r := s.sendDatagram bytes addr
      match r.2 with
      | .error kind => (r.1, .error kind)
      | .ok () => sendReleased server rest r.1
    else sendReleased server rest s

/-- mirrors src/native_client.rs:130-137 -/
def flushOutgoing (s : UdpClientState N C W) : UdpClientState N C W × Except IoErrorKind Unit :=
  let r := s.gateDrain .outgoing
  sendReleased (NetcodeClient.serverAddr r.1.netcodeClient) r.2 r.1

/-- mirrors src/native_client.rs:255-257 -/
def deferOrSend (s : UdpClientState N C W) (bytes : Bytes) (addr : SocketAddr) :
    UdpClientState N C W × Except IoErrorKind Unit :=
  let r := s.gateDefer .outgoing addr bytes
  if r.2 then (r.1, .ok ()) else r.1.sendDatagram bytes addr

/-- mirrors src/native_client.rs:248-264 -/
def sendPacket (s : UdpClientState N C W) (bytes : Bytes) (addr : SocketAddr) :
    UdpClientState N C W × Except IoErrorKind Unit :=
  let sent := s.deferOrSend bytes addr
  match sent.2 with
  | .error kind => (sent.1, .error kind)
  | .ok () =>
    let r := sent.1.gateDrain .outgoing
    sendReleased addr r.2 r.1

/-- Netcode made a packet, and the transport sends it. -/
def sendMade (s : UdpClientState N C W) (addr : SocketAddr) (bytes : Bytes) :
    UdpClientState N C W × Except IoErrorKind Unit :=
  (s.log (.made addr bytes)).sendPacket bytes addr

variable [RenetClient C]

/-! ## Receiving -/

/-- `netcode_client.process_packet`, and `client.process_packet` with what it finds. -/
def processPacket (s : UdpClientState N C W) (source : SocketAddr) (bytes : Bytes) :
    UdpClientState N C W :=
  let r := NetcodeClient.processPacket s.netcodeClient bytes
  let s := { s.log (.processed source (NetcodeClient.serverAddr s.netcodeClient) bytes r.2) with
    netcodeClient := r.1 }
  match r.2 with
  | some payload => { s with client := RenetClient.processPacket s.client payload }.log (.delivered payload)
  | none => s

/-- mirrors src/native_client.rs:139-147 -/
def deliverIncoming (s : UdpClientState N C W) : UdpClientState N C W :=
  let r := s.gateDrain .incoming
  r.2.foldl (fun s x =>
    if x.1 = NetcodeClient.serverAddr s.netcodeClient then s.processPacket x.1 x.2 else s) r.1

/-- Which datagrams get past the socket. -/
def eligible (N : Type) [NetcodeClient N] (source server : SocketAddr) (bytes : Bytes) : Bool :=
  source = server && bytes.length ≤ NetcodeClient.maxPacketBytes N

/-- The closure `update` passes to `receive_with_budget`, after a successful read.
mirrors src/native_client.rs:175-190 -/
def receive (s : UdpClientState N C W) (bytes : Bytes) (source : SocketAddr) : UdpClientState N C W :=
  let server := NetcodeClient.serverAddr s.netcodeClient
  let s := s.log (.received source server bytes)
  if eligible N source server bytes then
    let r := s.gateDefer .incoming source bytes
    if r.2 then r.1 else r.1.processPacket source bytes
  else s

/-- mirrors src/udp_io.rs:5-22 -/
def receiveWithBudget : Nat → UdpClientState N C W → UdpClientState N C W × Except IoErrorKind Unit
  | 0, s => (s, .ok ())
  | n + 1, s =>
    let r := ClientSocket.recvFrom s.world
    let s := { s with world := r.1 }
    match r.2 with
    | .error .wouldBlock => (s, .ok ())
    | .error .interrupted => receiveWithBudget n s
    | .error .connectionReset => receiveWithBudget n s
    | .error kind => (s, .error kind)
    | .ok (bytes, source) => receiveWithBudget n (s.receive bytes source)

/-! ## The public operations -/

/-- What both ends of `update` do once netcode has given up.
mirrors src/native_client.rs:154-160,200-206 -/
def giveUp (s : UdpClientState N C W) (reason : DisconnectReason) :
    UdpClientState N C W × Except UdpClientError Unit :=
  ({ s with
      packets := s.packets.reset
      client := RenetClient.disconnectDueToTransport s.client }.log .disconnected,
    .error (.netcode (.disconnected reason)))

/-- The game has left: netcode says goodbye, once, whatever becomes of the packet.
mirrors src/native_client.rs:162-167 -/
def sayGoodbye (s : UdpClientState N C W) : UdpClientState N C W :=
  if RenetClient.isDisconnected s.client && !NetcodeClient.isDisconnected s.netcodeClient then
    let r := NetcodeClient.disconnect s.netcodeClient
    let s := { s with netcodeClient := r.1 }
    match r.2 with
    | some (addr, packet) => (s.sendMade addr packet).1
    | none => s
  else s

/-- mirrors src/native_client.rs:169-173 -/
def reflectState (s : UdpClientState N C W) : UdpClientState N C W :=
  if NetcodeClient.isConnected s.netcodeClient then
    { s with client := RenetClient.setConnected s.client }
  else if NetcodeClient.isConnecting s.netcodeClient then
    { s with client := RenetClient.setConnecting s.client }
  else s

/-- `netcode_client.update(duration)` and the packet it may make.
mirrors src/native_client.rs:195-197 -/
def advance (duration : Nat) (s : UdpClientState N C W) :
    UdpClientState N C W × Except IoErrorKind Unit :=
  let r := NetcodeClient.update s.netcodeClient duration
  let s := { s with netcodeClient := r.1 }
  match r.2 with
  | some (packet, addr) => s.sendMade addr packet
  | none => (s, .ok ())

/-- The end of `update`, when no socket call failed.
mirrors src/native_client.rs:199-211 -/
def settle (s : UdpClientState N C W) : UdpClientState N C W × Except UdpClientError Unit :=
  match NetcodeClient.disconnectReason s.netcodeClient with
  | some reason => s.giveUp reason
  | none =>
    if NetcodeClient.isConnected s.netcodeClient then
      ({ s with client := RenetClient.setConnected s.client }, .ok ())
    else (s, .ok ())

/-- A socket error ends `update` where it happens; otherwise `next` goes on. -/
def orIoError (r : UdpClientState N C W × Except IoErrorKind Unit)
    (next : UdpClientState N C W → UdpClientState N C W × Except UdpClientError Unit) :
    UdpClientState N C W × Except UdpClientError Unit :=
  match r.2 with
  | .error kind => (r.1, .error (.io kind))
  | .ok () => next r.1

/-- mirrors src/native_client.rs:149-212 -/
def update (duration : Nat) (s : UdpClientState N C W) :
    UdpClientState N C W × Except UdpClientError Unit :=
  match NetcodeClient.disconnectReason s.netcodeClient with
  | some reason => s.giveUp reason
  | none =>
    let s := s.sayGoodbye.reflectState
    orIoError (receiveWithBudget s.maxDatagramsPerUpdate s) fun s =>
    orIoError s.flushOutgoing fun s =>
    orIoError (s.deliverIncoming.advance duration) settle

/-- The loop of `send_packets`.
mirrors src/native_client.rs:225-228 -/
def sendPayloads : List Bytes → UdpClientState N C W →
    UdpClientState N C W × Except UdpClientError Unit
  | [], s => (s, .ok ())
  | packet :: rest, s =>
    let r := NetcodeClient.generatePayloadPacket s.netcodeClient packet
    let s := { s with netcodeClient := r.1 }
    match r.2 with
    | .error error => (s, .error (.netcode error))
    | .ok (addr, payload) => orIoError (s.sendMade addr payload) (sendPayloads rest)

/-- mirrors src/native_client.rs:214-231 -/
def sendPackets (s : UdpClientState N C W) : UdpClientState N C W × Except UdpClientError Unit :=
  match NetcodeClient.disconnectReason s.netcodeClient with
  | some reason => ({ s with packets := s.packets.reset }, .error (.netcode (.disconnected reason)))
  | none => orIoError s.flushOutgoing fun s =>
    let r := RenetClient.getPacketsToSend s.client
    sendPayloads r.2 { s with client := r.1 }

/-! ## Runs -/

/-- A call of the transport's owner; `game` is any call the game makes on its
`RenetClient` in between. -/
inductive Op (C : Type) where
  | update (duration : Nat)
  | sendPackets
  | setEgressLimit (config : Option EgressConfig)
  | setMaxDatagramsPerUpdate (limit : { n : Nat // 0 < n })
  | setConditioner (handle : Control)
  | clearConditioner
  | game (f : C → C)

def step (s : UdpClientState N C W) : Op C → UdpClientState N C W
  | .update duration => (s.update duration).1
  | .sendPackets => s.sendPackets.1
  | .setEgressLimit config => s.setEgressLimit config
  | .setMaxDatagramsPerUpdate limit => s.setMaxDatagramsPerUpdate limit
  | .setConditioner handle => s.setConditioner handle
  | .clearConditioner => s.clearConditioner
  | .game f => { s with client := f s.client }

def run (s : UdpClientState N C W) (ops : List (Op C)) : UdpClientState N C W := ops.foldl step s

end UdpClientState
end RenetCross.L4
