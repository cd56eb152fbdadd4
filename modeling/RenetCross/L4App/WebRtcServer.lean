import RenetCross.Core.LTS
import RenetCross.L2Machine.Egress
import RenetCross.L4App.PacketGate

/-!
# `WebRtcNetcodeServerTransport`

`src/server.rs`: one UDP socket carries every WebRTC peer; each peer's data
channel carries netcode packets of one client, which the transport hands to one
netcode server under a virtual address, and netcode's results drive a
`RenetServer`.

The functions below are the source's, in its order of calls; state is passed
explicitly. The only loop without a bound of its own is the `while` of
`apply_pending_results`; it takes `fuel`, and `none` means that the turns it was
given were not enough. `applying` holds what the two loops over a taken-out
result vector have not handled yet, a local of the source.

Left out: log lines, `trace_packet`, and the reused buffers.
-/
namespace RenetCross.L4

open RenetCross.L2

def MAX_WEBRTC_DATAGRAMS_PER_UPDATE : Nat := 256
def MAX_WEBRTC_DATAGRAMS_PER_PEER_PER_UPDATE : Nat := 24
def MAX_WEBRTC_DRAIN_STEPS_PER_PEER : Nat := 256

/-- The members of `TransportError` a server's WebRTC transport makes.
mirrors src/error.rs:7-22 -/
inductive TransportError where
  | io (kind : IoErrorKind)
  | rtc (error : RtcError)
  | dataChannelNotOpen (clientId : ClientId)
  | dataChannelBackpressure (clientId : ClientId)
  | missingPeer (clientId : ClientId)

/-- mirrors src/server.rs:27-35 -/
structure ServerPeer (R : Type) where
  clientId : ClientId
  virtualAddr : SocketAddr
  rtc : R
  dataChannel : Option Nat
  remoteAddr : Option SocketAddr
  nextTimeout : Option Nat

/-- mirrors src/server.rs:38-47 -/
def ServerPeer.new {R : Type} (clientId : ClientId) (rtc : R) : ServerPeer R where
  clientId := clientId
  virtualAddr := virtualAddrForClient clientId
  rtc := rtc
  dataChannel := none
  remoteAddr := none
  nextTimeout := none

/-- mirrors src/server.rs:78-92 -/
structure WebRtcTransport (N R : Type) where
  egress : Egress ClientId
  netcodeServer : N
  receiveDestination : SocketAddr
  peers : HashMap ClientId (ServerPeer R)
  connectedClientIds : HashSet ClientId
  pendingRenetRemovals : HashSet ClientId
  addrToClientId : HashMap SocketAddr ClientId
  pendingServerResults : List Outcome
  packetGate : ServerPacketGate
  applying : List Outcome

/-- The transport and what it calls. -/
structure WebRtcState (N R S W : Type) extends WebRtcTransport N R, Shared S W

/-- The results `remove_peer` throws away.
mirrors src/server.rs:191-196 -/
def OwnedServerResult.concerns (c : ClientId) : OwnedServerResult → Bool
  | .none => false
  | .packetToSend addr _ => addr = virtualAddrForClient c
  | .payload id _ => id = c
  | .clientConnected id _ _ => id = c
  | .clientDisconnected id _ _ => id = c

/-- A `ClientConnected` of `c` is among the results. -/
def waits (c : ClientId) (results : List Outcome) : Bool :=
  results.any fun o => o.result.connects = some c

/-- mirrors src/server.rs:784-798 -/
def isNonFatalWebrtcSendError : IoErrorKind → Bool
  | .other => false
  | _ => true

namespace WebRtcState

variable {N R S W : Type}

/-- mirrors src/server.rs:106-142; the socket is part of the world. -/
def new (netcodeServer : N) (receiveDestination : SocketAddr) (shared : Shared S W) :
    WebRtcState N R S W where
  egress := .new .encryptedLogical
  netcodeServer := netcodeServer
  receiveDestination := receiveDestination
  peers := ∅
  connectedClientIds := ∅
  pendingRenetRemovals := ∅
  addrToClientId := ∅
  pendingServerResults := []
  packetGate := none
  applying := []
  toShared := shared

def log (s : WebRtcState N R S W) (e : Event) : WebRtcState N R S W := { s with trace := e :: s.trace }

/-- The tag of something made now for `c`. -/
def tagNow (s : WebRtcState N R S W) (c : ClientId) : Tag := ⟨.webRtc c, s.trace.length⟩

/-- `addr_to_client_id.retain(|_, value| *value != client_id)` -/
def dropRoutes (s : WebRtcState N R S W) (c : ClientId) : WebRtcState N R S W :=
  { s with addrToClientId := s.addrToClientId.retain fun _ value => value ≠ c }

variable [World W]

/-- `packet_gate.remove(ServerPeerId::WebRtc(client_id))` -/
def gateRemove (s : WebRtcState N R S W) (c : ClientId) : WebRtcState N R S W :=
  { s with toShared := s.packetGate.remove (.webRtc c) s.toShared }

/-- The iteration order of a hash table with these keys. -/
def inOrder (s : WebRtcState N R S W) (ids : List ClientId) : List ClientId := World.order s.world ids

variable [NetcodeServer N]

/-- The part of `remove_peer` about `connected_client_ids`.
mirrors src/server.rs:185-187 -/
def deferRenetRemoval (s : WebRtcState N R S W) (c : ClientId) : WebRtcState N R S W :=
  if c ∈ s.connectedClientIds then
    { s with
      connectedClientIds := s.connectedClientIds.remove c
      pendingRenetRemovals := s.pendingRenetRemovals.insert c () }
  else s

/-- mirrors src/server.rs:180-198 -/
def removePeer (s : WebRtcState N R S W) (c : ClientId) : WebRtcState N R S W :=
  let s := (s.gateRemove c).dropRoutes c
  let s := { s with netcodeServer := (NetcodeServer.disconnect s.netcodeServer c).1 }
  let s := s.deferRenetRemoval c
  { s with
    pendingServerResults := s.pendingServerResults.filter fun o => !o.result.concerns c
    peers := s.peers.remove c }.log (.removed c)

/-- The peer that was registered before is what `peers` had; it goes back to the
caller.
mirrors src/server.rs:169-176 -/
def addPeer (s : WebRtcState N R S W) (c : ClientId) (rtc : R) : WebRtcState N R S W :=
  let s := s.removePeer c
  let peer := ServerPeer.new c rtc
  let s := { s with
    addrToClientId := s.addrToClientId.insert peer.virtualAddr c
    peers := s.peers.insert c peer }
  s.log (.added c)

variable [Rtc R]

/-! ## Driving one peer -/

/-- mirrors src/server.rs:571-591 -/
def processPeerPacket (s : WebRtcState N R S W) (peer : ServerPeer R) (packet : Packet)
    (results : List Outcome) : WebRtcState N R S W × ServerPeer R × List Outcome :=
  let r := NetcodeServer.processPacket s.netcodeServer peer.virtualAddr packet.bytes
  let s := { s with netcodeServer := r.1 }.log (.processed packet)
  let result := toOwnedServerResult r.2
  match result.connects with
  | some c =>
    if c ≠ peer.clientId then
      ({ s with netcodeServer := (NetcodeServer.disconnect s.netcodeServer c).1 },
        { peer with rtc := Rtc.disconnect peer.rtc }, results)
    else (s, peer, results ++ [⟨result, packet.tag⟩])
  | none => (s, peer, results ++ [⟨result, packet.tag⟩])

/-- The `ChannelData` arm of `handle_peer_event` on a binary message of the
data channel.
mirrors src/server.rs:540-547 -/
def receivePacket (s : WebRtcState N R S W) (peer : ServerPeer R) (data : Bytes)
    (results : List Outcome) : WebRtcState N R S W × ServerPeer R × List Outcome :=
  let packet : Packet := ⟨data, s.tagNow peer.clientId⟩
  let s := s.log (.arrived packet)
  let r := s.packetGate.defer .incoming (.webRtc peer.clientId) packet s.toShared
  let s := { s with toShared := r.1 }
  if r.2 then (s, peer, results) else s.processPeerPacket peer packet results

/-- mirrors src/server.rs:518-569 -/
def handlePeerEvent (s : WebRtcState N R S W) (peer : ServerPeer R) (event : RtcEvent)
    (results : List Outcome) : WebRtcState N R S W × ServerPeer R × List Outcome :=
  match event with
  | .channelOpen id =>
    if peer.dataChannel = none then (s, { peer with dataChannel := some id }, results)
    else (s, peer, results)
  | .channelData id binary data =>
    if peer.dataChannel ≠ some id ∨ binary = false then (s, peer, results)
    else s.receivePacket peer data results
  | .iceConnectionStateChange disconnected =>
    if disconnected then (s, { peer with rtc := Rtc.disconnect peer.rtc }, results)
    else (s, peer, results)
  | .channelClose id =>
    if peer.dataChannel = some id then (s, { peer with rtc := Rtc.disconnect peer.rtc }, results)
    else (s, peer, results)
  | .other => (s, peer, results)

/-- The loop of `drive_peer_with_limit`; the last component is the error that
ended it, if one did.
mirrors src/server.rs:480-513 -/
def drainOutput : Nat → WebRtcState N R S W → ServerPeer R → List Outcome →
    WebRtcState N R S W × ServerPeer R × List Outcome × Option TransportError
  | 0, s, peer, results => (s, peer, results, none)
  | n + 1, s, peer, results =>
    let r := Rtc.pollOutput peer.rtc
    let peer := { peer with rtc := r.1 }
    match r.2 with
    | .error error => (s.log (.polled peer.clientId false), peer, results, some (.rtc error))
    | .ok (.timeout deadline) =>
      (s.log (.polled peer.clientId true), { peer with nextTimeout := some deadline }, results, none)
    | .ok (.transmit contents destination) =>
      let s := s.log (.polled peer.clientId false)
      let sent := World.sendTo .webRtc s.world contents destination
      let s := { s with world := sent.1 }
      match sent.2 with
      | .ok _ => drainOutput n s peer results
      | .error kind =>
        if isNonFatalWebrtcSendError kind then drainOutput n s peer results
        else (s, peer, results, some (.io kind))
    | .ok (.event event) =>
      let r := (s.log (.polled peer.clientId false)).handlePeerEvent peer event results
      drainOutput n r.1 r.2.1 r.2.2

/-- mirrors src/server.rs:471-516 -/
def drivePeerWithLimit (s : WebRtcState N R S W) (peer : ServerPeer R) (maxSteps : Nat) :
    WebRtcState N R S W × ServerPeer R × List Outcome × Option TransportError :=
  drainOutput maxSteps s { peer with nextTimeout := none } []

/-- The `match` on the drained results.
mirrors src/server.rs:370-380 -/
def drivePeer (s : WebRtcState N R S W) (peer : ServerPeer R) : WebRtcState N R S W × ServerPeer R :=
  let d := s.drivePeerWithLimit peer MAX_WEBRTC_DRAIN_STEPS_PER_PEER
  match d.2.2.2 with
  | none => ({ d.1 with pendingServerResults := d.1.pendingServerResults ++ d.2.2.1 }, d.2.1)
  | some _ =>
    (d.1.log (.lost d.2.1.clientId (d.2.2.1.map Outcome.result)),
      { d.2.1 with rtc := Rtc.disconnect d.2.1.rtc })

/-- mirrors src/server.rs:384-389 -/
def tearDown (s : WebRtcState N R S W) (c : ClientId) : WebRtcState N R S W :=
  let s := (s.gateRemove c).dropRoutes c
  let r := NetcodeServer.disconnect s.netcodeServer c
  { s with
    netcodeServer := r.1
    pendingServerResults := s.pendingServerResults ++ [⟨toOwnedServerResult r.2, s.tagNow c⟩] }

/-- The end of `flush_peer_output`: a peer that is still alive goes back.
mirrors src/server.rs:382-390 -/
def putBack (s : WebRtcState N R S W) (c : ClientId) (peer : ServerPeer R) : WebRtcState N R S W :=
  if Rtc.isAlive peer.rtc then { s with peers := s.peers.insert c peer } else s.tearDown c

/-- mirrors src/server.rs:366-391 -/
def flushPeerOutput (s : WebRtcState N R S W) (c : ClientId) : WebRtcState N R S W :=
  match s.peers.get c with
  | none => s
  | some peer =>
    let s := { s with peers := s.peers.remove c }
    if Rtc.isAlive peer.rtc then
      let d := s.drivePeer peer
      d.1.putBack c d.2
    else s.putBack c peer

/-! ## Sending to one peer -/

/-- A registered peer's `Rtc` changes in place (`peers.get_mut`). -/
def setRtc (s : WebRtcState N R S W) (c : ClientId) (peer : ServerPeer R) (rtc : R) :
    WebRtcState N R S W :=
  { s with peers := s.peers.insert c { peer with rtc := rtc } }

/-- The channel of a drained peer, if it is open.
mirrors src/server.rs:733-742 -/
def openChannel (c : ClientId) (peer : ServerPeer R) : Except TransportError Nat :=
  if peer.nextTimeout = none then .error (.dataChannelBackpressure c)
  else
    match peer.dataChannel with
    | none => .error (.dataChannelNotOpen c)
    | some id => if Rtc.hasChannel peer.rtc id then .ok id else .error (.dataChannelNotOpen c)

/-- mirrors src/server.rs:723-752 -/
def sendToPeerBackend (s : WebRtcState N R S W) (c : ClientId) (p : Packet) :
    WebRtcState N R S W × Except TransportError Unit :=
  let s := s.flushPeerOutput c
  match s.peers.get c with
  | none => (s, .error (.missingPeer c))
  | some peer =>
    match openChannel c peer with
    | .error error => (s, .error error)
    | .ok id =>
      let r := Rtc.write peer.rtc id p.bytes
      let s := ((s.setRtc c peer r.1).log (.wrote c p)).flushPeerOutput c
      match r.2 with
      | .error error => (s, .error (.rtc error))
      | .ok accepted => (s, if accepted then .ok () else .error (.dataChannelBackpressure c))

/-- mirrors src/server.rs:710-721 -/
def sendToPeerUnconditioned (s : WebRtcState N R S W) (c : ClientId) (p : Packet) :
    WebRtcState N R S W × Except TransportError Unit :=
  let now := World.egressNow s.world
  let admitted := s.egress.admitAt c p.bytes 0 now.2
  let s := { s with world := now.1, egress := admitted.1 }
  if admitted.2 then
    let r := s.sendToPeerBackend c p
    let now := World.egressNow r.1.world
    ({ r.1 with
        world := now.1
        egress := r.1.egress.complete c p.bytes 0 r.2.isOk now.2 }, r.2)
  else (s, .ok ())

/-- mirrors src/server.rs:696-708 -/
def sendToPeer (s : WebRtcState N R S W) (c : ClientId) (p : Packet) :
    WebRtcState N R S W × Except TransportError Unit :=
  if c ∈ s.peers then
    let r := s.packetGate.defer .outgoing (.webRtc c) p s.toShared
    let s := { s with toShared := r.1 }
    if r.2 then (s, .ok ()) else s.sendToPeerUnconditioned c p
  else (s, .error (.missingPeer c))

/-- mirrors src/server.rs:688-694 -/
def sendToPeerLossy (s : WebRtcState N R S W) (c : ClientId) (p : Packet) : WebRtcState N R S W :=
  (s.sendToPeer c p).1

/-- Send what a result carries for `c`, if anything. -/
def sendOptional (s : WebRtcState N R S W) (c : ClientId) (tag : Tag) (payload : Option Bytes) :
    WebRtcState N R S W :=
  match payload with
  | some payload => s.sendToPeerLossy c ⟨payload, tag⟩
  | none => s

variable [RenetServer S]

/-! ## Netcode results -/

/-- `server.remove_connection(client_id)` -/
def removeConnection (s : WebRtcState N R S W) (c : ClientId) : WebRtcState N R S W :=
  { s with server := RenetServer.removeConnection s.server c }.log
    (.removeConnection .webRtc c (RenetServer.hasConnection s.server c))

/-- mirrors src/server.rs:634-638 -/
def deliverPayload (s : WebRtcState N R S W) (c : ClientId) (p : Packet) : WebRtcState N R S W :=
  { s with server := (RenetServer.processPacketFrom s.server p.bytes c).1 }.log
    (.processPacketFrom .webRtc c (RenetServer.hasConnection s.server c)
      (c ∈ s.connectedClientIds) p)

/-- The payload of a `ClientDisconnected`. -/
def farewell : OwnedServerResult → Option Bytes
  | .clientDisconnected _ _ payload => payload
  | _ => none

/-- The netcode half of a duplicate's rejection.
mirrors src/server.rs:648 -/
def disconnectDuplicate (s : WebRtcState N R S W) (c : ClientId) : WebRtcState N R S W :=
  { s with netcodeServer := (NetcodeServer.disconnect s.netcodeServer c).1 }.log
    (.severed c (waits c s.applying))

/-- mirrors src/server.rs:644-657 -/
def rejectDuplicate (s : WebRtcState N R S W) (c : ClientId) : WebRtcState N R S W :=
  let result := toOwnedServerResult (NetcodeServer.disconnect s.netcodeServer c).2
  let s := s.disconnectDuplicate c
  (s.sendOptional c (s.tagNow c) (farewell result)).removePeer c

/-- mirrors src/server.rs:660-662 -/
def admitClient (s : WebRtcState N R S W) (c : ClientId) (addr : SocketAddr) (tag : Tag) :
    WebRtcState N R S W :=
  { s with
    server := RenetServer.addConnection s.server c
    connectedClientIds := s.connectedClientIds.insert c ()
    addrToClientId := s.addrToClientId.insert addr c }.log
    (.addConnection .webRtc c (RenetServer.hasConnection s.server c) (c ∈ s.peers) tag)

/-- mirrors src/server.rs:671-674 -/
def releaseClient (s : WebRtcState N R S W) (c : ClientId) (addr : SocketAddr) :
    WebRtcState N R S W :=
  let s :=
    if c ∈ s.connectedClientIds then
      { s with connectedClientIds := s.connectedClientIds.remove c }.removeConnection c
    else s
  { s with addrToClientId := s.addrToClientId.remove addr }

/-- mirrors src/server.rs:680-683 -/
def forgetPeer (s : WebRtcState N R S W) (c : ClientId) : WebRtcState N R S W :=
  let s := s.dropRoutes c
  { s with peers := s.peers.remove c }.gateRemove c

/-- mirrors src/server.rs:624-633 -/
def dispatch (s : WebRtcState N R S W) (addr : SocketAddr) (p : Packet) : WebRtcState N R S W :=
  let route := s.addrToClientId.get addr
  let s := s.log (.routed addr route s.peers.keys p)
  match route with
  | some c => s.sendToPeerLossy c p
  | none => s

/-- mirrors src/server.rs:621-686 -/
def handleServerResult (s : WebRtcState N R S W) (o : Outcome) : WebRtcState N R S W :=
  match o.result with
  | .none => s
  | .packetToSend addr payload => s.dispatch addr ⟨payload, o.tag⟩
  | .payload c payload => s.deliverPayload c ⟨payload, o.tag⟩
  | .clientConnected c addr payload =>
    if RenetServer.isConnected s.server c then s.rejectDuplicate c
    else (s.admitClient c addr o.tag).sendToPeerLossy c ⟨payload, o.tag⟩
  | .clientDisconnected c addr payload =>
    ((s.releaseClient c addr).sendOptional c o.tag payload).forgetPeer c

/-- `for result in results { self.handle_server_result(result, server) }` -/
def handleAll : List Outcome → WebRtcState N R S W → WebRtcState N R S W
  | [], s => s
  | o :: rest, s => handleAll rest ({ s with applying := rest }.handleServerResult o)

/-- The same loop over the vector taken out of `pending_server_results`. -/
def handlePending (s : WebRtcState N R S W) : WebRtcState N R S W :=
  handleAll s.pendingServerResults
    { s with applying := s.pendingServerResults, pendingServerResults := [] }

/-- mirrors src/server.rs:355-357 -/
def drainRemovals (s : WebRtcState N R S W) : WebRtcState N R S W :=
  (s.inOrder s.pendingRenetRemovals.keys).foldl removeConnection
    { s with pendingRenetRemovals := ∅ }

/-- mirrors src/server.rs:359-363 -/
def applyLoop : Nat → WebRtcState N R S W → Option (WebRtcState N R S W)
  | 0, s => if s.pendingServerResults = [] then some s else none
  | fuel + 1, s => if s.pendingServerResults = [] then some s else applyLoop fuel s.handlePending

/-- mirrors src/server.rs:354-364 -/
def applyPendingResults (fuel : Nat) (s : WebRtcState N R S W) : Option (WebRtcState N R S W) :=
  applyLoop fuel s.drainRemovals

/-! ## The conditioner's queues -/

/-- The packet of a peer that was taken out of the map.
mirrors src/server.rs:601-605 -/
def processDelayed (s : WebRtcState N R S W) (peer : ServerPeer R) (p : Packet) :
    WebRtcState N R S W × ServerPeer R × List Outcome :=
  if Rtc.isAlive peer.rtc then s.processPeerPacket peer p [] else (s, peer, [])

/-- mirrors src/server.rs:598-608 -/
def releaseIncoming (s : WebRtcState N R S W) (c : ClientId) (peer : ServerPeer R) (p : Packet) :
    WebRtcState N R S W :=
  let r := { s with peers := s.peers.remove c }.processDelayed peer p
  { r.1 with
    pendingServerResults := r.1.pendingServerResults ++ r.2.2
    peers := r.1.peers.insert c r.2.1 }.flushPeerOutput c

/-- mirrors src/server.rs:594-609 -/
def drainIncoming (fuel : Nat) : List (ServerPeerId × Packet) → WebRtcState N R S W →
    Option (WebRtcState N R S W)
  | [], s => some s
  | (.udp _, _) :: rest, s => drainIncoming fuel rest s
  | (.webRtc c, p) :: rest, s =>
    match s.peers.get c with
    | none => drainIncoming fuel rest s
    | some peer =>
      match (s.releaseIncoming c peer p).applyPendingResults fuel with
      | none => none
      | some s => drainIncoming fuel rest s

/-- mirrors src/server.rs:610-617 -/
def drainOutgoing : List (ServerPeerId × Packet) → WebRtcState N R S W → WebRtcState N R S W
  | [], s => s
  | (.udp _, _) :: rest, s => drainOutgoing rest s
  | (.webRtc c, p) :: rest, s => drainOutgoing rest (s.sendToPeerUnconditioned c p).1

/-- The outgoing half of `drain_conditioned_packets`. -/
def releaseOutgoing (s : WebRtcState N R S W) : WebRtcState N R S W :=
  let r := s.packetGate.drain .outgoing s.toShared
  drainOutgoing r.2 { s with toShared := r.1 }

/-- mirrors src/server.rs:593-619 -/
def drainConditionedPackets (fuel : Nat) (s : WebRtcState N R S W) :
    Option (WebRtcState N R S W) :=
  let r := s.packetGate.drain .incoming s.toShared
  match drainIncoming fuel r.2 { s with toShared := r.1 } with
  | none => none
  | some s => s.releaseOutgoing.applyPendingResults fuel

/-! ## The socket -/

/-- mirrors src/server.rs:457-469 -/
def resolveClientForInput (s : WebRtcState N R S W) (source : SocketAddr) (input : Input) :
    Option ClientId :=
  let accepting := fun c => (s.peers.get c).any fun peer => Rtc.accepts peer.rtc input
  match (s.addrToClientId.get source).filter accepting with
  | some c => some c
  | none => (s.inOrder s.peers.keys).find? accepting

/-- The `Rtc` after `handle_input` on a datagram: an error that is not a full
queue or a malformed packet disconnects it.
mirrors src/server.rs:442-449 -/
def afterReceive (r : R × Except RtcError Unit) : R :=
  match r.2 with
  | .error .other => Rtc.disconnect r.1
  | _ => r.1

/-- The routes after a datagram of the peer came from `source`.
mirrors src/server.rs:435-441 -/
def learnRoute (routes : HashMap SocketAddr ClientId) (c : ClientId) (old : Option SocketAddr)
    (source : SocketAddr) : HashMap SocketAddr ClientId :=
  let routes :=
    match old with
    | some oldSource =>
      if oldSource ≠ source ∧ routes.get oldSource = some c then routes.remove oldSource else routes
    | none => routes
  routes.insert source c

/-- One datagram for `c` goes into its `Rtc`.
mirrors src/server.rs:435-449 -/
def feedPeer (s : WebRtcState N R S W) (c : ClientId) (peer : ServerPeer R) (source : SocketAddr)
    (input : Input) : WebRtcState N R S W :=
  let routes := learnRoute s.addrToClientId c peer.remoteAddr source
  let rtc := afterReceive (Rtc.handleInput peer.rtc input)
  ({ s with addrToClientId := routes }.setRtc c { peer with remoteAddr := some source } rtc).log
    (.input c (s.peers.keys.any fun q => source = virtualAddrForClient q))

/-- mirrors src/server.rs:427-452 -/
def ingest (s : WebRtcState N R S W) (c : ClientId) (source : SocketAddr) (input : Input) :
    WebRtcState N R S W :=
  match s.peers.get c with
  | none => s.flushPeerOutput c
  | some peer =>
    if peer.nextTimeout = none then s.flushPeerOutput c
    else (s.feedPeer c peer source input).flushPeerOutput c

/-- The loop of `route_socket_input_to_peers`; `seen` is `per_peer_datagrams`.
mirrors src/server.rs:397-454 -/
def routeSocketInput (now : Nat) : Nat → HashMap ClientId Nat → WebRtcState N R S W →
    WebRtcState N R S W × Option TransportError
  | 0, _, s => (s, none)
  | n + 1, seen, s =>
    let r := World.recvFrom .webRtc s.world
    let s := { s with world := r.1 }
    match r.2 with
    | .error .wouldBlock => (s, none)
    | .error .interrupted => routeSocketInput now n seen s
    | .error .connectionReset => routeSocketInput now n seen s
    | .error kind => (s, some (.io kind))
    | .ok (contents, source) =>
      if Rtc.receivable R source s.receiveDestination contents then
        let input := Input.receive now ⟨source, s.receiveDestination, contents⟩
        match s.resolveClientForInput source input with
        | none => routeSocketInput now n seen s
        | some c =>
          let count := (seen.get c).getD 0
          if count ≥ MAX_WEBRTC_DATAGRAMS_PER_PEER_PER_UPDATE then routeSocketInput now n seen s
          else routeSocketInput now n (seen.insert c (count + 1)) (s.ingest c source input)
      else routeSocketInput now n seen s

/-! ## The public operations -/

/-- The `Rtc` after `handle_input` on a timeout. -/
def afterTimeout (r : R × Except RtcError Unit) : R :=
  match r.2 with
  | .error _ => Rtc.disconnect r.1
  | .ok _ => r.1

/-- mirrors src/server.rs:287-294 -/
def timeoutPeer (s : WebRtcState N R S W) (c : ClientId) (now : Nat) : WebRtcState N R S W :=
  match s.peers.get c with
  | none => s
  | some peer =>
    if Rtc.isAlive peer.rtc ∧ peer.nextTimeout.any (· ≤ now) then
      (s.setRtc c peer (afterTimeout (Rtc.handleInput peer.rtc (.timeout now)))).log (.input c false)
    else s

/-- mirrors src/server.rs:286-295 -/
def pumpPeer (now : Nat) (s : WebRtcState N R S W) (c : ClientId) : WebRtcState N R S W :=
  ((s.flushPeerOutput c).timeoutPeer c now).flushPeerOutput c

/-- Record that netcode let `c` go, if it did. -/
def logSevered (s : WebRtcState N R S W) (result : OwnedServerResult) : WebRtcState N R S W :=
  match result.disconnects with
  | some c => s.log (.severed c (waits c s.pendingServerResults))
  | none => s

/-- A netcode call for one client and its result, handled at once. -/
def settle (s : WebRtcState N R S W) (c : ClientId) (r : N × ServerResult) : WebRtcState N R S W :=
  let result := toOwnedServerResult r.2
  let s := { s with netcodeServer := r.1 }.logSevered result
  s.handleServerResult ⟨result, s.tagNow c⟩

/-- mirrors src/server.rs:301-303 -/
def advanceClient (s : WebRtcState N R S W) (c : ClientId) : WebRtcState N R S W :=
  s.settle c (NetcodeServer.updateClient s.netcodeServer c)

/-- mirrors src/server.rs:308-310 -/
def disconnectClient (s : WebRtcState N R S W) (c : ClientId) : WebRtcState N R S W :=
  s.settle c (NetcodeServer.disconnect s.netcodeServer c)

/-- The part of `update_at` after the socket was read.
mirrors src/server.rs:278-315 -/
def updateRouted (fuel now : Nat) (s : WebRtcState N R S W) : Option (WebRtcState N R S W) := do
  let s := s.handlePending
  let s := (s.inOrder s.peers.keys).foldl (pumpPeer now) s
  let s ← s.applyPendingResults fuel
  let s := (NetcodeServer.clientsId s.netcodeServer).foldl advanceClient s
  let s := (RenetServer.disconnectionsId s.server).foldl disconnectClient s
  let s ← s.applyPendingResults fuel
  s.drainConditionedPackets fuel

/-- The part of `update_at` before the socket is read.
mirrors src/server.rs:269-276 -/
def updateStart (fuel duration : Nat) (s : WebRtcState N R S W) : Option (WebRtcState N R S W) := do
  let s ← s.applyPendingResults fuel
  let s := { s with netcodeServer := NetcodeServer.update s.netcodeServer duration }
  let s ← s.drainConditionedPackets fuel
  let s := (s.inOrder s.peers.keys).foldl flushPeerOutput s
  s.applyPendingResults fuel

/-- mirrors src/server.rs:263-316 -/
def updateAt (fuel duration now : Nat) (s : WebRtcState N R S W) :
    Option (WebRtcState N R S W × Option TransportError) := do
  let s ← s.updateStart fuel duration
  let r := routeSocketInput now MAX_WEBRTC_DATAGRAMS_PER_UPDATE ∅ s
  match r.2 with
  | some error => some (r.1, some error)
  | none => (r.1.updateRouted fuel now).map fun s => (s, none)

/-- The packets of one client; an encryption failure ends its turn.
mirrors src/server.rs:330-347 -/
def sendPayloads (c : ClientId) : List Bytes → WebRtcState N R S W → WebRtcState N R S W
  | [], s => s
  | packet :: rest, s =>
    let r := NetcodeServer.generatePayloadPacket s.netcodeServer c packet
    let s := { s with netcodeServer := r.1 }
    match r.2 with
    | some (_, payload) => sendPayloads c rest (s.sendToPeerLossy c ⟨payload, s.tagNow c⟩)
    | none => s

/-- mirrors src/server.rs:322-348 -/
def sendClient (s : WebRtcState N R S W) (c : ClientId) : WebRtcState N R S W :=
  let r := RenetServer.getPacketsToSend s.server c
  let s := { s with server := r.1 }
  match r.2 with
  | some packets => sendPayloads c packets s
  | none => s

/-- mirrors src/server.rs:318-352 -/
def sendPackets (fuel : Nat) (s : WebRtcState N R S W) : Option (WebRtcState N R S W) := do
  let s ← s.applyPendingResults fuel
  let s ← s.drainConditionedPackets fuel
  let s := (NetcodeServer.clientsId s.netcodeServer).foldl sendClient s
  let s ← s.applyPendingResults fuel
  s.drainConditionedPackets fuel

/-- mirrors src/server.rs:241-253 -/
def disconnectAll (fuel : Nat) (s : WebRtcState N R S W) : Option (WebRtcState N R S W) := do
  let s ← s.applyPendingResults fuel
  let s := (NetcodeServer.clientsId s.netcodeServer).foldl disconnectClient s
  let s := { s with peers := ∅, addrToClientId := ∅ }
  let s := { s with toShared := s.packetGate.reset s.toShared }
  s.applyPendingResults fuel

/-- mirrors src/server.rs:757-759 -/
def setConditioner (handle : Nat) (s : WebRtcState N R S W) : Option (WebRtcState N R S W) :=
  (s.packetGate.attach handle s.toShared).map fun r => { s with packetGate := r.1, toShared := r.2 }

/-- mirrors src/server.rs:766-768 -/
def clearConditioner (s : WebRtcState N R S W) : WebRtcState N R S W :=
  let r := s.packetGate.detach s.toShared
  { s with packetGate := r.1, toShared := r.2 }

/-- An error leaves the limit as it was.
mirrors src/server.rs:145-150 -/
def setEgressLimit (config : Option EgressConfig) (s : WebRtcState N R S W) : WebRtcState N R S W :=
  let now := World.egressNow s.world
  match s.egress.configure config now.2 with
  | .ok egress => { s with world := now.1, egress := egress }
  | .error _ => s

/-- `peer_mut(c)` followed by `set_data_channel`.
mirrors src/server.rs:61-63 -/
def setDataChannel (c : ClientId) (id : Nat) (s : WebRtcState N R S W) : WebRtcState N R S W :=
  match s.peers.get c with
  | none => s
  | some peer => { s with peers := s.peers.insert c { peer with dataChannel := some id } }

/-- The calls of a user of the transport. `game` is anything the game does to
its own `RenetServer` between them. -/
inductive Op (R S : Type) where
  | addPeer (c : ClientId) (rtc : R)
  | removePeer (c : ClientId)
  | update (fuel duration now : Nat)
  | sendPackets (fuel : Nat)
  | disconnectAll (fuel : Nat)
  | setConditioner (handle : Nat)
  | clearConditioner
  | setEgressLimit (config : Option EgressConfig)
  | setDataChannel (c : ClientId) (id : Nat)
  | game (server : S)

/-- `none`: the call does not return within its fuel, or panics. -/
def step (s : WebRtcState N R S W) : Op R S → Option (WebRtcState N R S W)
  | .addPeer c rtc => some (s.addPeer c rtc)
  | .removePeer c => some (s.removePeer c)
  | .update fuel duration now => (s.updateAt fuel duration now).map Prod.fst
  | .sendPackets fuel => s.sendPackets fuel
  | .disconnectAll fuel => s.disconnectAll fuel
  | .setConditioner handle => s.setConditioner handle
  | .clearConditioner => some s.clearConditioner
  | .setEgressLimit config => some (s.setEgressLimit config)
  | .setDataChannel c id => some (s.setDataChannel c id)
  | .game server => some { s with server := server }

/-- A transport as `new_with_config` returns it, over a netcode server without
clients and conditioners whose owners are all handed out. -/
def Fresh (s : WebRtcState N R S W) : Prop :=
  ∃ (n : N) (addr : SocketAddr) (shared : Shared S W), s = WebRtcState.new n addr shared ∧
    shared.trace = [] ∧ (∀ c, NetcodeServer.clientAddr n c = none) ∧ ∀ h, (shared.conds h).Owned

def runs (N R S W : Type) [World W] [NetcodeServer N] [Rtc R] [RenetServer S] :
    LTS (WebRtcState N R S W) (Op R S) := .ofFn Fresh step

end WebRtcState
end RenetCross.L4
