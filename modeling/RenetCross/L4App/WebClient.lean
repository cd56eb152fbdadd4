import RenetCross.L4App.ClientFlow

/-!
# `WebRtcNetcodeClientTransport`

`src/web_client.rs` and the buffering policy of `src/web_config.rs`: in the browser
a data channel takes the place of the socket. The browser calls `on_message`
between frames, so a received message waits in the gate or in a bounded
`PacketInbox` until the next `update`; a message to send goes to the channel only
while the browser's own buffer has room for it.

Left out: the connection set-up with its promises and timers, log lines, and the
read-only accessors.
-/
namespace RenetCross.L4

open RenetCross.L2

/-! ## The inbox -/

/-- mirrors src/web_config.rs:75-81 -/
structure WebRtcClientStats where
  sendBackpressureDrops : Nat := 0
  receiveOverflowDrops : Nat := 0
  receiveInvalidSizeDrops : Nat := 0
  deriving DecidableEq, Repr

/-- mirrors src/web_config.rs:84-86 -/
def fitsSendBudget (buffered packetLen limit : Nat) : Bool :=
  packetLen ≤ limit - buffered && buffered ≤ limit

/-- mirrors src/web_config.rs:89-93 -/
structure PacketInbox where
  packets : List Bytes
  capacity : Nat
  stats : WebRtcClientStats
  deriving DecidableEq, Repr

namespace PacketInbox

/-- mirrors src/web_config.rs:97-103 -/
def new (capacity : Nat) : PacketInbox := ⟨[], capacity, {}⟩

/-- `limit` is `NETCODE_MAX_PACKET_BYTES`.
mirrors src/web_config.rs:106-113 -/
def acceptsSize (limit : Nat) (inbox : PacketInbox) (len : Nat) : PacketInbox × Bool :=
  if len = 0 ∨ len > limit then
    ({ inbox with
        stats.receiveInvalidSizeDrops := wrapU64 (inbox.stats.receiveInvalidSizeDrops + 1) }, false)
  else (inbox, true)

/-- One packet more among the overflow drops. -/
def countOverflow (inbox : PacketInbox) : PacketInbox :=
  { inbox with stats.receiveOverflowDrops := wrapU64 (inbox.stats.receiveOverflowDrops + 1) }

/-- mirrors src/web_config.rs:115-125 -/
def push (inbox : PacketInbox) (packet : Bytes) : PacketInbox :=
  if inbox.capacity = 0 then inbox.countOverflow
  else
    let inbox :=
      if inbox.packets.length = inbox.capacity then
        { inbox.countOverflow with packets := inbox.packets.tail }
      else inbox
    { inbox with packets := inbox.packets ++ [packet] }

/-- mirrors src/web_config.rs:127-129 -/
def pop (inbox : PacketInbox) : PacketInbox × Option Bytes :=
  match inbox.packets with
  | [] => (inbox, none)
  | packet :: rest => ({ inbox with packets := rest }, some packet)

/-- `while self.inbox.borrow_mut().pop().is_some() {}` -/
def clear (inbox : PacketInbox) : PacketInbox := { inbox with packets := [] }

end PacketInbox

/-! ## The options -/

/-- mirrors src/web_config.rs:6-10 -/
structure WebRtcIceServer where
  urls : List String
  username : Option String := none
  credential : Option String := none
  deriving DecidableEq, Repr

/-- The fields `validate` looks at.
mirrors src/web_config.rs:14-28 -/
structure WebRtcConnectOptions where
  iceServers : List WebRtcIceServer
  maxBufferedAmount : Nat
  maxInboxPackets : Nat
  deriving DecidableEq, Repr

structure WebRtcOptionsError where
  message : String
  deriving DecidableEq, Repr

/-- `char::is_whitespace` -/
def isWhitespace (c : Char) : Bool :=
  let n := c.toNat
  9 ≤ n && n ≤ 13 || n = 0x20 || n = 0x85 || n = 0xa0 || n = 0x1680 || 0x2000 ≤ n && n ≤ 0x200a ||
    n = 0x2028 || n = 0x2029 || n = 0x202f || n = 0x205f || n = 0x3000

/-- `limit` is `NETCODE_MAX_PACKET_BYTES`. A trimmed URL is empty when it has only
whitespace.
mirrors src/web_config.rs:57-72 -/
def WebRtcConnectOptions.validate (limit : Nat) (o : WebRtcConnectOptions) :
    Except WebRtcOptionsError Unit :=
  if o.maxBufferedAmount < limit then .error ⟨"max_buffered_amount must fit a netcode packet"⟩
  else if o.maxInboxPackets = 0 then .error ⟨"max_inbox_packets must be nonzero"⟩
  else if o.iceServers.any fun server =>
      server.urls.isEmpty || server.urls.any fun url => url.toList.all isWhitespace then
    .error ⟨"ICE servers must contain nonempty URLs"⟩
  else .ok ()

/-! ## The transport -/

/-- `RtcDataChannelState`; `invalid` is any value the browser has no name for. -/
inductive ChannelState where
  | connecting
  | isOpen
  | closing
  | closed
  | invalid
  deriving DecidableEq, Repr

/-- mirrors src/web_client.rs:747-755 -/
def dataChannelStateLabel : ChannelState → String
  | .connecting => "connecting"
  | .isOpen => "open"
  | .closing => "closing"
  | .closed => "closed"
  | .invalid => "unknown"

/-- The data channel and the clocks of a browser. `elapse` is what the browser does
between two calls: send from its buffer, or change the channel's state. -/
class DataChannel (W : Type) extends GateWorld W where
  readyState : W → ChannelState
  bufferedAmount : W → Nat
  send : W → Bytes → W × Except String Unit
  egressNow : W → W × Nat
  elapse : W → Nat → W

/-- What is assumed of a data channel: only `send` puts bytes into its buffer. -/
class LawfulChannel (W : Type) [DataChannel W] : Prop where
  send : ∀ (w : W) bytes, DataChannel.bufferedAmount (DataChannel.send w bytes).1 ≤
    DataChannel.bufferedAmount w + bytes.length
  egressNow : ∀ w : W, DataChannel.bufferedAmount (DataChannel.egressNow w).1 ≤
    DataChannel.bufferedAmount w
  lock : ∀ (w : W) c, DataChannel.bufferedAmount (GateWorld.lock w c).1 ≤ DataChannel.bufferedAmount w
  elapse : ∀ (w : W) k, DataChannel.bufferedAmount (DataChannel.elapse w k) ≤
    DataChannel.bufferedAmount w

/-- The errors the transport itself returns.
mirrors src/web_client.rs:26-69 -/
inductive WebRtcClientError where
  | dataChannelState (state : String)
  | javascript (detail : String)
  | netcode (error : NetcodeError)
  deriving DecidableEq, Repr

/-- mirrors src/web_client.rs:84-93 -/
structure WebClientTransport (N : Type) where
  egress : Egress Unit
  netcodeClient : N
  inbox : PacketInbox
  maxBufferedAmount : Nat
  packets : PacketGate Unit

structure WebClientState (N C W : Type) extends WebClientTransport N where
  client : C
  world : W
  trace : List (ClientEvent Unit)

/-- The data of a message event. -/
inductive MessageData where
  | arrayBuffer (bytes : Bytes)
  | uint8Array (bytes : Bytes)
  | other
  deriving DecidableEq, Repr

namespace WebClientState

variable {N C W : Type}

/-- The transport `connect_webrtc_from_session` returns.
mirrors src/web_client.rs:484-524 -/
def new (options : WebRtcConnectOptions) (conditioner : Option Control) (netcodeClient : N)
    (client : C) (world : W) : WebClientState N C W where
  egress := .new .encryptedLogical
  netcodeClient := netcodeClient
  inbox := .new options.maxInboxPackets
  maxBufferedAmount := options.maxBufferedAmount
  packets := conditioner.elim none fun handle => PacketGate.attach none handle
  client := client
  world := world
  trace := []

def log (s : WebClientState N C W) (e : ClientEvent Unit) : WebClientState N C W :=
  { s with trace := e :: s.trace }

/-- mirrors src/web_client.rs:144-147 -/
def clearPendingPackets (s : WebClientState N C W) : WebClientState N C W :=
  { s with packets := s.packets.reset, inbox := s.inbox.clear }.log
    (.cleared s.inbox.packets.length)

/-- mirrors src/web_client.rs:126-129 -/
def setConditioner (handle : Control) (s : WebClientState N C W) : WebClientState N C W :=
  let s := s.clearPendingPackets
  { s with packets := s.packets.attach handle }

/-- mirrors src/web_client.rs:137-140 -/
def clearConditioner (s : WebClientState N C W) : WebClientState N C W :=
  let s := s.clearPendingPackets
  { s with packets := s.packets.detach }

variable [DataChannel W]

/-- mirrors src/web_client.rs:113-118; a refused setting changes nothing. -/
def setEgressLimit (config : Option EgressConfig) (s : WebClientState N C W) : WebClientState N C W :=
  let now := DataChannel.egressNow s.world
  match s.egress.configure config now.2 with
  | .ok egress => { s with world := now.1, egress := egress }
  | .error _ => { s with world := now.1 }

variable [NetcodeClient N]

/-! ## The gate -/

def gateDefer (s : WebClientState N C W) (d : ConditionerDirection) (bytes : Bytes) :
    WebClientState N C W × Bool :=
  let r := s.packets.defer d () bytes s.world
  ({ s with packets := r.1, world := r.2.1 }, r.2.2)

def gateDrain (s : WebClientState N C W) (d : ConditionerDirection) :
    WebClientState N C W × List (Unit × Bytes) :=
  let r := s.packets.drain d s.world
  ({ s with packets := r.1, world := r.2.1 }, r.2.2)

/-! ## The message callback -/

/-- Which messages are copied out of the browser. -/
def eligible (N : Type) [NetcodeClient N] (_ : Unit) (_ : SocketAddr) (bytes : Bytes) : Bool :=
  !(bytes.length = 0 || bytes.length > NetcodeClient.maxPacketBytes N)

/-- A message that was copied waits in the gate or in the inbox.
mirrors src/web_client.rs:495-498 -/
def keepMessage (s : WebClientState N C W) (bytes : Bytes) : WebClientState N C W :=
  let r := s.gateDefer .incoming bytes
  if r.2 then r.1 else { r.1 with inbox := r.1.inbox.push bytes }

/-- mirrors src/web_client.rs:491-500,717-727 -/
def receive (s : WebClientState N C W) (bytes : Bytes) : WebClientState N C W :=
  let s := s.log (.received () (NetcodeClient.serverAddr s.netcodeClient) bytes)
  let size := s.inbox.acceptsSize (NetcodeClient.maxPacketBytes N) bytes.length
  let s := { s with inbox := size.1 }
  if size.2 then s.keepMessage bytes else s

/-- A message that is not binary is ignored.
mirrors src/web_client.rs:491-500,714-731 -/
def onMessage (data : MessageData) (s : WebClientState N C W) : WebClientState N C W :=
  match data with
  | .arrayBuffer bytes => s.receive bytes
  | .uint8Array bytes => s.receive bytes
  | .other => s

/-! ## Sending -/

/-- What becomes of an accepted packet: whether the browser took it, and what the
call returns.
mirrors src/web_client.rs:279-307 -/
def handToChannel (s : WebClientState N C W) (payload : Bytes) :
    WebClientState N C W × Bool × Except WebRtcClientError Unit :=
  match DataChannel.readyState s.world with
  | .isOpen =>
    if fitsSendBudget (DataChannel.bufferedAmount s.world) payload.length s.maxBufferedAmount then
      let r := DataChannel.send s.world payload
      let s := { s with world := r.1 }
      match r.2 with
      | .ok () => (s, true, .ok ())
      | .error detail => (s, false, .error (.javascript detail))
    else
      ({ s with inbox.stats.sendBackpressureDrops :=
          wrapU64 (s.inbox.stats.sendBackpressureDrops + 1) }, false, .ok ())
  | .connecting => (s, false, .ok ())
  | state => (s, false, .error (.dataChannelState (dataChannelStateLabel state)))

/-- mirrors src/web_client.rs:272-308 -/
def sendUnconditioned (s : WebClientState N C W) (payload : Bytes) :
    WebClientState N C W × Except WebRtcClientError Unit :=
  let server := NetcodeClient.serverAddr s.netcodeClient
  let now := DataChannel.egressNow s.world
  let admitted := s.egress.admitAt () payload 0 now.2
  let s := { s with world := now.1, egress := admitted.1 }
  if admitted.2 then
    let r := s.handToChannel payload
    let now := DataChannel.egressNow r.1.world
    let s := { r.1 with
      world := now.1
      egress := r.1.egress.complete () payload 0 r.2.1 now.2 }
    (s.log (.offered () server payload (.ofSent r.2.1)), r.2.2)
  else (s.log (.offered () server payload .refused), .ok ())

/-- The loop of `flush_pending_sends`. -/
def sendReleased : List (Unit × Bytes) → WebClientState N C W →
    WebClientState N C W × Except WebRtcClientError Unit
  | [], s => (s, .ok ())
  | (_, packet) :: rest, s =>
    let r := s.sendUnconditioned packet
    match r.2 with
    | .error error => (r.1, .error error)
    | .ok () => sendReleased rest r.1

/-- mirrors src/web_client.rs:161-166 -/
def flushPendingSends (s : WebClientState N C W) :
    WebClientState N C W × Except WebRtcClientError Unit :=
  let r := s.gateDrain .outgoing
  sendReleased r.2 r.1

/-- mirrors src/web_client.rs:266-268 -/
def deferOrSend (s : WebClientState N C W) (payload : Bytes) :
    WebClientState N C W × Except WebRtcClientError Unit :=
  let r := s.gateDefer .outgoing payload
  if r.2 then (r.1, .ok ()) else r.1.sendUnconditioned payload

/-- An error ends the operation where it happens; otherwise `next` goes on. -/
def orError (r : WebClientState N C W × Except WebRtcClientError Unit)
    (next : WebClientState N C W → WebClientState N C W × Except WebRtcClientError Unit) :
    WebClientState N C W × Except WebRtcClientError Unit :=
  match r.2 with
  | .error error => (r.1, .error error)
  | .ok () => next r.1

/-- mirrors src/web_client.rs:265-270 -/
def sendDataChannelPacket (s : WebClientState N C W) (payload : Bytes) :
    WebClientState N C W × Except WebRtcClientError Unit :=
  orError (s.deferOrSend payload) flushPendingSends

/-- Netcode made a packet, and the transport sends it. -/
def sendMade (s : WebClientState N C W) (bytes : Bytes) :
    WebClientState N C W × Except WebRtcClientError Unit :=
  (s.log (.made () bytes)).sendDataChannelPacket bytes

variable [RenetClient C]

/-! ## Receiving -/

/-- `netcode_client.process_packet`, and `client.process_packet` with what it finds. -/
def processPacket (s : WebClientState N C W) (bytes : Bytes) : WebClientState N C W :=
  let r := NetcodeClient.processPacket s.netcodeClient bytes
  let s := { s.log (.processed () (NetcodeClient.serverAddr s.netcodeClient) bytes r.2) with
    netcodeClient := r.1 }
  match r.2 with
  | some payload => { s with client := RenetClient.processPacket s.client payload }.log (.delivered payload)
  | none => s

/-- mirrors src/web_client.rs:149-159 -/
def deliverPendingPackets (s : WebClientState N C W) :
    WebClientState N C W × Except WebRtcClientError Unit :=
  let r := s.gateDrain .incoming
  (r.2.foldl (fun s x => s.processPacket x.2) r.1).flushPendingSends

/-- The inbox is popped until it is empty; no message comes in meanwhile.
mirrors src/web_client.rs:208-212 -/
def deliverInbox : List Bytes → WebClientState N C W → WebClientState N C W
  | [], s => s
  | packet :: rest, s =>
    deliverInbox rest ({ s with inbox := s.inbox.pop.1 }.processPacket packet)

/-! ## The public operations -/

/-- What `update` does once the connection is over, before it returns an error. -/
def giveUp (s : WebClientState N C W) : WebClientState N C W :=
  { s.clearPendingPackets with
    client := RenetClient.disconnectDueToTransport s.client }.log .disconnected

/-- mirrors src/web_client.rs:186-193 -/
def sayGoodbye (s : WebClientState N C W) : WebClientState N C W :=
  if RenetClient.isDisconnected s.client && !NetcodeClient.isDisconnected s.netcodeClient then
    let r := NetcodeClient.disconnect s.netcodeClient
    let s := { s with netcodeClient := r.1 }
    match r.2 with
    | some (_, packet) => (s.sendMade packet).1.clearPendingPackets
    | none => s
  else s

/-- mirrors src/web_client.rs:214-221 -/
def advance (duration : Nat) (s : WebClientState N C W) :
    WebClientState N C W × Except WebRtcClientError Unit :=
  let r := NetcodeClient.update s.netcodeClient duration
  let s := { s with netcodeClient := r.1 }
  match r.2 with
  | some (packet, _) => s.sendMade packet
  | none => (s, .ok ())

/-- mirrors src/web_client.rs:223-237 -/
def settle (s : WebClientState N C W) : WebClientState N C W × Except WebRtcClientError Unit :=
  match NetcodeClient.disconnectReason s.netcodeClient with
  | some reason => (s.giveUp, .error (.netcode (.disconnected reason)))
  | none =>
    if NetcodeClient.isConnected s.netcodeClient then
      ({ s with client := RenetClient.setConnected s.client }, .ok ())
    else if NetcodeClient.isConnecting s.netcodeClient then
      ({ s with client := RenetClient.setConnecting s.client }, .ok ())
    else (s, .ok ())

/-- `matches!(ready_state, Closing | Closed)` -/
def ChannelGone (w : W) : Bool :=
  match DataChannel.readyState w with
  | .closing => true
  | .closed => true
  | _ => false

/-- mirrors src/web_client.rs:173-238 -/
def update (duration : Nat) (s : WebClientState N C W) :
    WebClientState N C W × Except WebRtcClientError Unit :=
  match NetcodeClient.disconnectReason s.netcodeClient with
  | some reason => (s.giveUp, .error (.netcode (.disconnected reason)))
  | none =>
    let s := s.sayGoodbye
    if ChannelGone s.world then
      (s.giveUp, .error (.dataChannelState (dataChannelStateLabel (DataChannel.readyState s.world))))
    else
      orError s.deliverPendingPackets fun s =>
      orError ((deliverInbox s.inbox.packets s).advance duration) settle

/-- The loop of `send_packets`.
mirrors src/web_client.rs:251-260 -/
def sendPayloads : List Bytes → WebClientState N C W →
    WebClientState N C W × Except WebRtcClientError Unit
  | [], s => (s, .ok ())
  | packet :: rest, s =>
    let r := NetcodeClient.generatePayloadPacket s.netcodeClient packet
    let s := { s with netcodeClient := r.1 }
    match r.2 with
    | .error error => (s, .error (.netcode error))
    | .ok (_, payload) => orError (s.sendMade payload) (sendPayloads rest)

/-- mirrors src/web_client.rs:240-263 -/
def sendPackets (s : WebClientState N C W) : WebClientState N C W × Except WebRtcClientError Unit :=
  match NetcodeClient.disconnectReason s.netcodeClient with
  | some reason => (s.clearPendingPackets, .error (.netcode (.disconnected reason)))
  | none => orError s.flushPendingSends fun s =>
    let r := RenetClient.getPacketsToSend s.client
    sendPayloads r.2 { s with client := r.1 }

/-! ## Runs -/

/-- A call of the transport's owner, or something the browser does in between: a
message event, or time passing. -/
inductive Op (C : Type) where
  | update (duration : Nat)
  | sendPackets
  | setEgressLimit (config : Option EgressConfig)
  | setConditioner (handle : Control)
  | clearConditioner
  | message (data : MessageData)
  | elapse (k : Nat)
  | game (f : C → C)

def step (s : WebClientState N C W) : Op C → WebClientState N C W
  | .update duration => (s.update duration).1
  | .sendPackets => s.sendPackets.1
  | .setEgressLimit config => s.setEgressLimit config
  | .setConditioner handle => s.setConditioner handle
  | .clearConditioner => s.clearConditioner
  | .message data => s.onMessage data
  | .elapse k => { s with world := DataChannel.elapse s.world k }
  | .game f => { s with client := f s.client }

def run (s : WebClientState N C W) (ops : List (Op C)) : WebClientState N C W := ops.foldl step s

end WebClientState
end RenetCross.L4
