import RenetCross.L2Machine.ConditionerQueues

/-!
# What the server transports call

The transports of `src/server.rs`, `src/udp_server.rs` and `src/mixed_server.rs`
drive four things that are not part of this repository: a renetcode
`NetcodeServer`, a renet `RenetServer`, one str0m `Rtc` per WebRTC peer, and the
operating system (sockets, clocks, the order of hash tables). Each is a class
over an opaque state type; a law class states what the transports rely on. The
classes are universally quantified in every result, so a socket, a peer or a
client may behave in any way the laws allow, at any step.

`Shared` is what two transports of one server share: the `RenetServer`, the
outside world, and the packet conditioners behind the handles. It also carries
the trace of the calls made so far, newest first. Packets and netcode results
travel with a `Tag` that says which peer they belong to and how long the trace
was when they were made; no branch of the code looks at a tag or the trace.
-/
namespace RenetCross.L4

open RenetCross.L2

inductive Backend where
  | udp
  | webRtc
  deriving DecidableEq, Repr

/-! ## renetcode -/

/-- renetcode's `ServerResult`. -/
inductive ServerResult where
  | none
  | packetToSend (addr : SocketAddr) (payload : Bytes)
  | payload (clientId : ClientId) (payload : Bytes)
  | clientConnected (clientId : ClientId) (addr : SocketAddr) (userData payload : Bytes)
  | clientDisconnected (clientId : ClientId) (addr : SocketAddr) (payload : Option Bytes)
  deriving DecidableEq

/-- mirrors src/netcode_result.rs:6-27 -/
inductive OwnedServerResult where
  | none
  | packetToSend (addr : SocketAddr) (payload : Bytes)
  | payload (clientId : ClientId) (payload : Bytes)
  | clientConnected (clientId : ClientId) (addr : SocketAddr) (payload : Bytes)
  | clientDisconnected (clientId : ClientId) (addr : SocketAddr) (payload : Option Bytes)
  deriving DecidableEq, Repr

/-- mirrors src/netcode_result.rs:29-60 -/
def toOwnedServerResult : ServerResult → OwnedServerResult
  | .none => .none
  | .packetToSend addr payload => .packetToSend addr payload
  | .payload clientId payload => .payload clientId payload
  | .clientConnected clientId addr _ payload => .clientConnected clientId addr payload
  | .clientDisconnected clientId addr payload => .clientDisconnected clientId addr payload

/-- The client a `ClientConnected` is about. -/
def OwnedServerResult.connects : OwnedServerResult → Option ClientId
  | .clientConnected c _ _ => some c
  | _ => Option.none

/-- The client a `ClientDisconnected` is about. -/
def OwnedServerResult.disconnects : OwnedServerResult → Option ClientId
  | .clientDisconnected c _ _ => some c
  | _ => Option.none

class NetcodeServer (N : Type) where
  update : N → Nat → N
  processPacket : N → SocketAddr → Bytes → N × ServerResult
  updateClient : N → ClientId → N × ServerResult
  disconnect : N → ClientId → N × ServerResult
  generatePayloadPacket : N → ClientId → Bytes → N × Option (SocketAddr × Bytes)
  clientsId : N → List ClientId
  clientAddr : N → ClientId → Option SocketAddr

section
variable {N : Type} [NetcodeServer N]
open NetcodeServer

/-- The connected clients are the same, at the same addresses. -/
def SameClients (n n' : N) : Prop := ∀ c, clientAddr n' c = clientAddr n c

/-- `c` is now at `addr` (or gone); every other client is as before. -/
def SetsClient (n n' : N) (c : ClientId) (addr : Option SocketAddr) : Prop :=
  ∀ c', clientAddr n' c' = if c' = c then addr else clientAddr n c'

/-- What one packet from `addr` can do to the table of connected clients. -/
def PacketSpec (n n' : N) (addr : SocketAddr) : ServerResult → Prop
  | .none => SameClients n n'
  | .packetToSend addr' _ => addr' = addr ∧ SameClients n n'
  | .payload c _ => clientAddr n c = some addr ∧ SameClients n n'
  | .clientConnected c addr' _ _ =>
    addr' = addr ∧ clientAddr n c = none ∧ SetsClient n n' c (some addr)
  | .clientDisconnected c addr' _ =>
    addr' = addr ∧ clientAddr n c = some addr ∧ SetsClient n n' c none

/-- What advancing one client can do: a keep-alive, a timeout, or nothing. -/
def ClientSpec (n n' : N) (c : ClientId) : ServerResult → Prop
  | .none => SameClients n n'
  | .packetToSend addr _ => clientAddr n c = some addr ∧ SameClients n n'
  | .clientDisconnected c' addr _ =>
    c' = c ∧ clientAddr n c = some addr ∧ SetsClient n n' c none
  | .payload _ _ => False
  | .clientConnected _ _ _ _ => False

/-- Disconnecting a client that is connected frees its slot and says so once. -/
def DisconnectSpec (n n' : N) (c : ClientId) : ServerResult → Prop
  | .none => clientAddr n c = none ∧ SameClients n n'
  | .clientDisconnected c' addr _ =>
    c' = c ∧ clientAddr n c = some addr ∧ SetsClient n n' c none
  | .packetToSend _ _ => False
  | .payload _ _ => False
  | .clientConnected _ _ _ _ => False

/-- What is assumed of renetcode. -/
class LawfulNetcode (N : Type) [NetcodeServer N] : Prop where
  update : ∀ (n : N) d, SameClients n (update n d)
  processPacket : ∀ (n : N) addr bytes,
    PacketSpec n (processPacket n addr bytes).1 addr (processPacket n addr bytes).2
  updateClient : ∀ (n : N) c, ClientSpec n (updateClient n c).1 c (updateClient n c).2
  disconnect : ∀ (n : N) c, DisconnectSpec n (disconnect n c).1 c (disconnect n c).2
  generatePayloadPacket : ∀ (n : N) c bytes, SameClients n (generatePayloadPacket n c bytes).1
  clientsId : ∀ (n : N) c, c ∈ clientsId n ↔ clientAddr n c ≠ none

theorem ClientSpec.quiet {n n' : N} {c : ClientId} {r : ServerResult} (h : ClientSpec n n' c r) :
    (toOwnedServerResult r).connects = none := by
  cases r with
  | clientConnected id addr userData payload => exact h.elim
  | payload id payload => exact h.elim
  | _ => rfl

theorem DisconnectSpec.clientSpec {n n' : N} {c : ClientId} {r : ServerResult}
    (h : DisconnectSpec n n' c r) : ClientSpec n n' c r := by
  cases r with
  | none => exact h.2
  | clientDisconnected id addr payload => exact h
  | packetToSend addr payload => exact h.elim
  | payload id payload => exact h.elim
  | clientConnected id addr userData payload => exact h.elim

/-- The slot of a disconnected client is free, and no other slot changes. -/
theorem setsClient_disconnect [LawfulNetcode N] (n : N) (c : ClientId) :
    SetsClient n (disconnect n c).1 c none := by
  have h := LawfulNetcode.disconnect n c
  intro c'
  cases hr : (disconnect n c).2 with
  | none =>
    rw [hr] at h
    rw [h.2 c']
    split
    · rename_i hc; rw [hc]; exact h.1
    · rfl
  | clientDisconnected c'' addr payload => rw [hr] at h; exact h.2.2 c'
  | packetToSend addr payload => rw [hr] at h; exact h.elim
  | payload c'' payload => rw [hr] at h; exact h.elim
  | clientConnected c'' addr userData payload => rw [hr] at h; exact h.elim

end

/-! ## renet -/

/-- `hasConnection` is not called by the transports: it says whether there is an
entry for a client, connected or not. -/
class RenetServer (S : Type) where
  hasConnection : S → ClientId → Bool
  isConnected : S → ClientId → Bool
  addConnection : S → ClientId → S
  removeConnection : S → ClientId → S
  disconnect : S → ClientId → S
  disconnectionsId : S → List ClientId
  processPacketFrom : S → Bytes → ClientId → S × Bool
  getPacketsToSend : S → ClientId → S × Option (List Bytes)

/-- What is assumed of renet. -/
class LawfulRenet (S : Type) [RenetServer S] : Prop where
  addConnection : ∀ (s : S) c c', RenetServer.hasConnection (RenetServer.addConnection s c) c' =
    (decide (c' = c) || RenetServer.hasConnection s c')
  removeConnection : ∀ (s : S) c c',
    RenetServer.hasConnection (RenetServer.removeConnection s c) c' =
      (!decide (c' = c) && RenetServer.hasConnection s c')
  disconnect : ∀ (s : S) c c', RenetServer.hasConnection (RenetServer.disconnect s c) c' =
    RenetServer.hasConnection s c'
  processPacketFrom : ∀ (s : S) bytes c c',
    RenetServer.hasConnection (RenetServer.processPacketFrom s bytes c).1 c' =
      RenetServer.hasConnection s c'
  getPacketsToSend : ∀ (s : S) c c',
    RenetServer.hasConnection (RenetServer.getPacketsToSend s c).1 c' =
      RenetServer.hasConnection s c'

/-! ## str0m -/

/-- `Receive::new` has classified the datagram. -/
structure Receive where
  source : SocketAddr
  destination : SocketAddr
  contents : Bytes

inductive Input where
  | timeout (now : Nat)
  | receive (now : Nat) (receive : Receive)

/-- The events `handle_peer_event` looks at. -/
inductive RtcEvent where
  | channelOpen (id : Nat)
  | channelData (id : Nat) (binary : Bool) (data : Bytes)
  | channelClose (id : Nat)
  | iceConnectionStateChange (disconnected : Bool)
  | other

inductive Output where
  | timeout (deadline : Nat)
  | transmit (contents : Bytes) (destination : SocketAddr)
  | event (event : RtcEvent)

/-- How the transport treats an error of `handle_input`, from its message. -/
inductive RtcError where
  | receiveQueueFull
  | malformedInput
  | other

/-- `receivable` is whether `Receive::new` accepts a datagram, `hasChannel`
whether `Rtc::channel` finds an open channel; `write` is `Channel::write` with
`binary = true`. -/
class Rtc (R : Type) where
  isAlive : R → Bool
  disconnect : R → R
  receivable : SocketAddr → SocketAddr → Bytes → Bool
  accepts : R → Input → Bool
  handleInput : R → Input → R × Except RtcError Unit
  pollOutput : R → R × Except RtcError Output
  hasChannel : R → Nat → Bool
  write : R → Nat → Bytes → R × Except RtcError Bool

/-! ## Packets and the trace -/

/-- Which peer something belongs to, and the length of the trace when it came
in or was made. -/
structure Tag where
  peer : ServerPeerId
  at_ : Nat
  deriving DecidableEq, Repr

structure Packet where
  bytes : Bytes
  tag : Tag
  deriving DecidableEq, Repr

/-- A netcode result with the tag of the packet that caused it, or of the call
that made it. -/
structure Outcome where
  result : OwnedServerResult
  tag : Tag
  deriving DecidableEq, Repr

/-- The calls the results about the transports speak of. `entry` is whether the
`RenetServer` had an entry for the client, `registered` whether the client had a
peer and `own` whether it was in `connected_client_ids` at that moment. `lost`
records the results a failed drain threw away, and `severed` a netcode slot that
was freed and whether a `ClientConnected` of that client still waited. `clash` is
whether a datagram came from the virtual address of a registered peer; `routed`
has the route a packet of netcode was sent by and the peers registered then. -/
inductive Event where
  | added (c : ClientId)
  | removed (c : ClientId)
  | arrived (p : Packet)
  | processed (p : Packet)
  | polled (c : ClientId) (timeout : Bool)
  | input (c : ClientId) (clash : Bool)
  | wrote (c : ClientId) (p : Packet)
  | lost (c : ClientId) (results : List OwnedServerResult)
  | severed (c : ClientId) (stale : Bool)
  | routed (addr : SocketAddr) (route : Option ClientId) (registered : List ClientId) (p : Packet)
  | addConnection (b : Backend) (c : ClientId) (entry registered : Bool) (tag : Tag)
  | removeConnection (b : Backend) (c : ClientId) (entry : Bool)
  | processPacketFrom (b : Backend) (c : ClientId) (entry own : Bool) (p : Packet)
  deriving DecidableEq, Repr

/-! ## The operating system -/

/-- The kinds of `io::Error` the transports tell apart. -/
inductive IoErrorKind where
  | wouldBlock
  | interrupted
  | addrNotAvailable
  | networkUnreachable
  | hostUnreachable
  | connectionReset
  | connectionAborted
  | connectionRefused
  | timedOut
  | notConnected
  | other
  deriving DecidableEq, Repr

/-- A call made on a conditioner by another holder of its handle. -/
inductive HandleCall where
  | deferAt (owner : Nat) (d : ConditionerDirection) (id : ServerPeerId) (payload : Packet) (now : Nat)
  | drainAt (owner : Nat) (d : ConditionerDirection) (now : Nat)
  | removePeer (owner : Nat) (id : ServerPeerId)
  | removeOwner (owner : Nat)
  | allocateOwner
  | configure (config : ValidServerConfig)
  | outageAt (duration now : Nat)

/-- `lock`: what the other holders of conditioner handles did before this
transport took the lock, and the clock it then read. `order` is the iteration
order of a hash table. -/
class World (W : Type) where
  recvFrom : Backend → W → W × Except IoErrorKind (Bytes × SocketAddr)
  sendTo : Backend → W → Bytes → SocketAddr → W × Except IoErrorKind Nat
  egressNow : W → W × Nat
  lock : W → W × Nat × List (Nat × HandleCall)
  order : W → List ClientId → List ClientId
  delay : W → Nat → Nat → Nat → Nat

class LawfulWorld (W : Type) [World W] : Prop where
  order : ∀ (w : W) ids, (World.order w ids).Perm ids

structure Shared (S W : Type) where
  server : S
  world : W
  conds : Nat → ServerConditioner Packet
  trace : List Event

end RenetCross.L4
