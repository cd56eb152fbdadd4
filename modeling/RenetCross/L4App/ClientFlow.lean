import RenetCross.L2Machine.EgressLedger
import RenetCross.L4App.ClientGate
import RenetCross.L4App.Components

/-!
# What the client transports call, and what flows through them

The transports of `src/native_client.rs` and `src/web_client.rs` join a renetcode
`NetcodeClient` to a renet `RenetClient`; both are classes over an opaque state
type, as in `Components`. Each transport logs what passes it, newest first, in a
`ClientEvent`; no branch of the code looks at the log.

`Flow` reads the log as two lossy links, one from the wire to netcode and one from
netcode to the wire, with the packets the transport holds in flight between.
-/
namespace RenetCross.L4

open RenetCross.L2

/-! ## renetcode and renet -/

/-- renetcode's `DisconnectReason`. -/
inductive DisconnectReason where
  | connectTokenExpired
  | connectionTimedOut
  | connectionResponseTimedOut
  | connectionRequestTimedOut
  | connectionDenied
  | disconnectedByClient
  | disconnectedByServer
  deriving DecidableEq, Repr

/-- renetcode's `NetcodeError`, as far as a client transport makes or passes one on. -/
inductive NetcodeError where
  | disconnected (reason : DisconnectReason)
  | other
  deriving DecidableEq, Repr

/-- `maxPacketBytes` is `NETCODE_MAX_PACKET_BYTES`. -/
class NetcodeClient (N : Type) where
  maxPacketBytes : Nat
  serverAddr : N → SocketAddr
  disconnectReason : N → Option DisconnectReason
  isDisconnected : N → Bool
  isConnected : N → Bool
  isConnecting : N → Bool
  processPacket : N → Bytes → N × Option Bytes
  update : N → Nat → N × Option (Bytes × SocketAddr)
  disconnect : N → N × Option (SocketAddr × Bytes)
  generatePayloadPacket : N → Bytes → N × Except NetcodeError (SocketAddr × Bytes)

/-- What is assumed of renetcode: it addresses its packets to its current server. -/
class LawfulNetcodeClient (N : Type) [NetcodeClient N] : Prop where
  update : ∀ (n : N) d bytes addr, (NetcodeClient.update n d).2 = some (bytes, addr) →
    addr = NetcodeClient.serverAddr (NetcodeClient.update n d).1
  disconnect : ∀ (n : N) addr bytes, (NetcodeClient.disconnect n).2 = some (addr, bytes) →
    addr = NetcodeClient.serverAddr (NetcodeClient.disconnect n).1
  generatePayloadPacket : ∀ (n : N) p addr bytes,
    (NetcodeClient.generatePayloadPacket n p).2 = .ok (addr, bytes) →
      addr = NetcodeClient.serverAddr (NetcodeClient.generatePayloadPacket n p).1

class RenetClient (C : Type) where
  isDisconnected : C → Bool
  disconnectDueToTransport : C → C
  setConnected : C → C
  setConnecting : C → C
  processPacket : C → Bytes → C
  getPacketsToSend : C → C × List Bytes

/-! ## The log -/

/-- `T` is what the transport knows of the other end: a socket address, or nothing.
`server` is netcode's server address at that moment, `payload` what netcode made of
a packet. `received` is every packet read from the wire, `made` every packet netcode
gave out, `offered` every packet shown to the egress layer, and `cleared` the number of
packets an inbox held when it was emptied unread. -/
inductive ClientEvent (T : Type) where
  | received (source : T) (server : SocketAddr) (bytes : Bytes)
  | processed (source : T) (server : SocketAddr) (bytes : Bytes) (payload : Option Bytes)
  | delivered (payload : Bytes)
  | made (dest : T) (bytes : Bytes)
  | offered (dest : T) (server : SocketAddr) (bytes : Bytes) (fate : Fate)
  | cleared (packets : Nat)
  | disconnected
  deriving DecidableEq, Repr

namespace ClientEvent

variable {T : Type}

/-- The way in: a packet that passes the transport's check enters, and leaves when
netcode processes it. -/
def incoming (eligible : T → SocketAddr → Bytes → Bool) :
    ClientEvent T → Option (LinkMove (T × Bytes))
  | .received source server bytes =>
    if eligible source server bytes then some (.accept (source, bytes)) else none
  | .processed source _ bytes _ => some (.deliver (source, bytes))
  | _ => none

/-- The way out: a packet enters when netcode makes it, and leaves when the backend
is given it. -/
def outgoing : ClientEvent T → Option (LinkMove (T × Bytes))
  | .made dest bytes => some (.accept (dest, bytes))
  | .offered dest _ bytes fate => if fate = .refused then none else some (.deliver (dest, bytes))
  | _ => none

/-- A packet that passed the transport's check. -/
def accepted (eligible : T → SocketAddr → Bytes → Bool) : ClientEvent T → Option (T × Bytes)
  | .received source server bytes => if eligible source server bytes then some (source, bytes) else none
  | _ => none

/-- A packet netcode processed. -/
def processedPacket : ClientEvent T → Option (T × Bytes)
  | .processed source _ bytes _ => some (source, bytes)
  | _ => none

/-- A packet netcode made. -/
def madePacket : ClientEvent T → Option (T × Bytes)
  | .made dest bytes => some (dest, bytes)
  | _ => none

/-- A packet the backend was given. -/
def handedPacket : ClientEvent T → Option (T × Bytes)
  | .offered dest _ bytes fate => if fate = .refused then none else some (dest, bytes)
  | _ => none

/-- The packet as the egress layer has it on its books. -/
def posting (overhead : T → Nat) : ClientEvent T → Option (Posting T)
  | .offered dest _ bytes fate => some ⟨dest, bytes, overhead dest, fate⟩
  | _ => none

/-- A payload renet was given. -/
def payloadDelivered : ClientEvent T → Option Bytes
  | .delivered payload => some payload
  | _ => none

/-- A payload netcode found in a packet. -/
def payloadFound : ClientEvent T → Option Bytes
  | .processed _ _ _ payload => payload
  | _ => none

end ClientEvent

/-! ## The two links -/

/-- `inc` and `out` are the packets held on the way in and on the way out. -/
structure Flow {T : Type} (eligible : T → SocketAddr → Bytes → Bool) (trace : List (ClientEvent T))
    (inc out : Multiset (T × Bytes)) : Prop where
  incoming : LossyLink (trace.filterMap (ClientEvent.incoming eligible)) inc
  outgoing : LossyLink (trace.filterMap ClientEvent.outgoing) out
  payloads : trace.filterMap ClientEvent.payloadDelivered = trace.filterMap ClientEvent.payloadFound

namespace Flow

variable {T : Type} {eligible : T → SocketAddr → Bytes → Bool} {trace : List (ClientEvent T)}
  {inc out : Multiset (T × Bytes)}

theorem idle : Flow eligible ([] : List (ClientEvent T)) 0 0 := ⟨.idle, .idle, rfl⟩

theorem lose (h : Flow eligible trace inc out) {inc' out' : Multiset (T × Bytes)} (hi : inc' ≤ inc)
    (ho : out' ≤ out) : Flow eligible trace inc' out' :=
  ⟨.lose h.incoming hi, .lose h.outgoing ho, h.payloads⟩

theorem readValid (h : Flow eligible trace inc out) {source : T} {server : SocketAddr} {bytes : Bytes}
    (hok : eligible source server bytes = true) :
    Flow eligible (.received source server bytes :: trace) ((source, bytes) ::ₘ inc) out := by
  refine ⟨?_, h.outgoing, h.payloads⟩
  rw [List.filterMap_cons_some (b := LinkMove.accept (source, bytes)) (by simp [ClientEvent.incoming, hok])]
  exact .accept _ h.incoming

theorem readInvalid (h : Flow eligible trace inc out) {source : T} {server : SocketAddr} {bytes : Bytes}
    (hno : eligible source server bytes = false) :
    Flow eligible (.received source server bytes :: trace) inc out := by
  refine ⟨?_, h.outgoing, h.payloads⟩
  rw [List.filterMap_cons_none (by simp [ClientEvent.incoming, hno])]
  exact h.incoming

/-- What netcode finds in a packet goes to renet, and nothing else does. -/
theorem process {source : T} {bytes : Bytes} (h : Flow eligible trace ((source, bytes) ::ₘ inc) out)
    (server : SocketAddr) (payload : Option Bytes) :
    Flow eligible ((payload.map ClientEvent.delivered).toList ++
      .processed source server bytes payload :: trace) inc out := by
  have hin := LossyLink.deliver _ h.incoming
  cases payload with
  | none => exact ⟨hin, h.outgoing, h.payloads⟩
  | some payload => exact ⟨hin, h.outgoing, congrArg (payload :: ·) h.payloads⟩

theorem make (h : Flow eligible trace inc out) (dest : T) (bytes : Bytes) :
    Flow eligible (.made dest bytes :: trace) inc ((dest, bytes) ::ₘ out) :=
  ⟨h.incoming, .accept _ h.outgoing, h.payloads⟩

theorem offer {dest : T} {bytes : Bytes} (h : Flow eligible trace inc ((dest, bytes) ::ₘ out))
    (server : SocketAddr) (fate : Fate) :
    Flow eligible (.offered dest server bytes fate :: trace) inc out := by
  cases fate with
  | refused => exact ⟨h.incoming, .lose h.outgoing (Multiset.le_cons_self _ _), h.payloads⟩
  | failed => exact ⟨h.incoming, .deliver _ h.outgoing, h.payloads⟩
  | sent => exact ⟨h.incoming, .deliver _ h.outgoing, h.payloads⟩

theorem disconnect (h : Flow eligible trace inc out) : Flow eligible (.disconnected :: trace) inc out :=
  ⟨h.incoming, h.outgoing, h.payloads⟩

theorem clear (h : Flow eligible trace inc out) (n : Nat) :
    Flow eligible (.cleared n :: trace) inc out :=
  ⟨h.incoming, h.outgoing, h.payloads⟩

/-! ## What a log says -/

theorem accepted_incoming (trace : List (ClientEvent T)) :
    LossyLink.accepted (trace.filterMap (ClientEvent.incoming eligible)) =
      trace.filterMap (ClientEvent.accepted eligible) := by
  refine LossyLink.accepted_filterMap (fun e => ?_) trace
  cases e with
  | received source server bytes =>
    simp only [ClientEvent.incoming, ClientEvent.accepted]
    split <;> rfl
  | _ => rfl

theorem delivered_incoming (trace : List (ClientEvent T)) :
    LossyLink.delivered (trace.filterMap (ClientEvent.incoming eligible)) =
      trace.filterMap ClientEvent.processedPacket := by
  refine LossyLink.delivered_filterMap (fun e => ?_) trace
  cases e with
  | received source server bytes =>
    simp only [ClientEvent.incoming, ClientEvent.processedPacket]
    split <;> rfl
  | _ => rfl

theorem accepted_outgoing (trace : List (ClientEvent T)) :
    LossyLink.accepted (trace.filterMap ClientEvent.outgoing) =
      trace.filterMap ClientEvent.madePacket := by
  refine LossyLink.accepted_filterMap (fun e => ?_) trace
  cases e with
  | offered dest server bytes fate => cases fate <;> rfl
  | _ => rfl

theorem delivered_outgoing (trace : List (ClientEvent T)) :
    LossyLink.delivered (trace.filterMap ClientEvent.outgoing) =
      trace.filterMap ClientEvent.handedPacket := by
  refine LossyLink.delivered_filterMap (fun e => ?_) trace
  cases e with
  | offered dest server bytes fate => cases fate <;> rfl
  | _ => rfl

/-- Netcode processes only packets that were let in, each at most once, and what is
held on the way in was let in as well. -/
theorem inbound (h : Flow eligible trace inc out) :
    (trace.filterMap ClientEvent.processedPacket : Multiset (T × Bytes)) + inc ≤
      trace.filterMap (ClientEvent.accepted eligible) := by
  rw [← @delivered_incoming T eligible, ← accepted_incoming]
  exact h.incoming.conserved

theorem inbound_past (h : Flow eligible trace inc out) {newer older : List (ClientEvent T)}
    (ht : trace = newer ++ older) :
    (older.filterMap ClientEvent.processedPacket : Multiset (T × Bytes)) ≤
      older.filterMap (ClientEvent.accepted eligible) := by
  rw [← @delivered_incoming T eligible, ← accepted_incoming]
  have hin := h.incoming
  rw [ht, List.filterMap_append] at hin
  exact hin.delivered_le

/-- The wire gets only packets netcode made, each at most once. -/
theorem outbound (h : Flow eligible trace inc out) :
    (trace.filterMap ClientEvent.handedPacket : Multiset (T × Bytes)) + out ≤
      trace.filterMap ClientEvent.madePacket := by
  rw [← delivered_outgoing, ← accepted_outgoing]
  exact h.outgoing.conserved

theorem outbound_past (h : Flow eligible trace inc out) {newer older : List (ClientEvent T)}
    (ht : trace = newer ++ older) :
    (older.filterMap ClientEvent.handedPacket : Multiset (T × Bytes)) ≤
      older.filterMap ClientEvent.madePacket := by
  rw [← delivered_outgoing, ← accepted_outgoing]
  have hout := h.outgoing
  rw [ht, List.filterMap_append] at hout
  exact hout.delivered_le

end Flow

/-! ## A small netcode and a small renet -/

/-- A netcode whose packets are a tag and their payload: tag 0 is a disconnect, 1 a
keep-alive and 5 a payload. -/
structure TaggedNetcode where
  server : SocketAddr
  reason : Option DisconnectReason := none
  deriving DecidableEq

instance : NetcodeClient TaggedNetcode where
  maxPacketBytes := 1400
  serverAddr := TaggedNetcode.server
  disconnectReason := TaggedNetcode.reason
  isDisconnected n := n.reason.isSome
  isConnected n := n.reason.isNone
  isConnecting _ := false
  processPacket n bytes :=
    match bytes with
    | 0 :: _ => ({ n with reason := some .disconnectedByServer }, none)
    | 5 :: payload => (n, some payload)
    | _ => (n, none)
  update n _ := (n, if n.reason.isSome then none else some ([1], n.server))
  disconnect n := ({ n with reason := some .disconnectedByClient }, some (n.server, [0]))
  generatePayloadPacket n payload := (n, .ok (n.server, 5 :: payload))

instance : LawfulNetcodeClient TaggedNetcode where
  update n d bytes addr h := by
    simp only [NetcodeClient.update] at h
    split at h
    · cases h
    · cases h; rfl
  disconnect n addr bytes h := by cases h; rfl
  generatePayloadPacket n p addr bytes h := by cases h; rfl

/-- A renet that keeps what it is given and sends what is in its outbox. -/
structure MailboxRenet where
  inbox : List Bytes := []
  outbox : List Bytes := []
  down : Bool := false
  deriving DecidableEq

instance : RenetClient MailboxRenet where
  isDisconnected c := c.down
  disconnectDueToTransport c := { c with down := true }
  setConnected c := c
  setConnecting c := c
  processPacket c payload := { c with inbox := payload :: c.inbox }
  getPacketsToSend c := ({ c with outbox := [] }, c.outbox)

end RenetCross.L4
