import RenetCross.Core.Map
import RenetCross.L1Encoding.SocketAddr
import RenetCross.L2Machine.Conditioner

/-!
# The server's packet conditioner

`src/server_conditioner.rs`: one engine per peer under a global peer limit, idle
reclamation, and outages that cover every peer. A handle is shared by the
transports of one server; each transport is an owner and touches only its own
peers. Every call takes the state's lock for its whole body, so the state is a
value here and a call is one function on it.

Payloads are generic: the transports queue byte strings, and a model of a
transport can queue them together with where they came from.
-/
namespace RenetCross.L2

/-- mirrors src/packet_io/mod.rs:16-19 -/
inductive ServerPeerId where
  | udp (addr : SocketAddr)
  | webRtc (clientId : ClientId)
  deriving DecidableEq, Repr, Ord

/-- mirrors src/server_conditioner.rs:20-37 -/
structure ServerConditionerConfig where
  packets : ConditionerConfig := {}
  maxPeers : Nat := 1024
  idleTimeout : Nat := Duration.fromSecs 30
  deriving DecidableEq

structure ServerConditionerConfigError where
  deriving DecidableEq, Repr

/-- mirrors src/server_conditioner.rs:47-53 -/
def ServerConditionerConfig.validate (c : ServerConditionerConfig) :
    Except ServerConditionerConfigError Unit :=
  if c.packets.validate ≠ .ok () ∨ c.maxPeers = 0 ∨ c.idleTimeout = 0 then .error {} else .ok ()

/-- The default settings pass their own check. -/
theorem ServerConditionerConfig.validate_default :
    ({} : ServerConditionerConfig).validate = .ok () := by
  decide

/-- Settings that passed `validate`. -/
abbrev ValidServerConfig := { c : ServerConditionerConfig // c.validate = .ok () }

theorem ServerConditionerConfig.packets_valid {c : ServerConditionerConfig} (h : c.validate = .ok ()) :
    c.packets.validate = .ok () := by
  unfold validate at h
  split at h
  · cases h
  · rename_i hn; exact not_not.1 fun hp => hn (.inl hp)

def ValidServerConfig.packets (c : ValidServerConfig) : ValidConfig :=
  ⟨c.1.packets, c.1.packets_valid c.2⟩

/-- mirrors src/server_conditioner.rs:56-63 -/
structure ServerConditionerStats where
  packets : ConditionerStats
  peers : Nat
  peerLimitDrops : Nat
  expiredPeers : Nat

/-- One step of FNV-1a. -/
def fnvMix (hash : UInt64) (byte : UInt8) : UInt64 := (hash ^^^ byte.toUInt64) * 0x100000001b3

/-- The bytes of an id that are hashed, in order.
mirrors src/server_conditioner.rs:327-354 -/
def ServerPeerId.hashed : ServerPeerId → Bytes
  | .udp (.v4 ip port) => [0, 4] ++ ip.octets ++ toBeBytes16 port
  | .udp (.v6 ip port _ _) => [0, 6] ++ ip.octets ++ toBeBytes16 port
  | .webRtc clientId => 1 :: toBeBytes64 clientId

/-- Only the seed depends on the peer, so the result is valid with the settings.
mirrors src/server_conditioner.rs:321-359 -/
def peerConfig (config : ValidConfig) (id : ServerPeerId) : ValidConfig :=
  ⟨{ config.1 with seed := config.1.seed ^^^ id.hashed.foldl fnvMix 0xcbf29ce484222325 },
    config.2⟩

/-- mirrors src/server_conditioner.rs:360-369 -/
def addDirection (into from_ : DirectionStats) : DirectionStats where
  queuedPackets := satAdd U64_MAX into.queuedPackets from_.queuedPackets
  queuedBytes := satAdd U64_MAX into.queuedBytes from_.queuedBytes
  simulatedLossDrops := satAdd U64_MAX into.simulatedLossDrops from_.simulatedLossDrops
  outageDrops := satAdd U64_MAX into.outageDrops from_.outageDrops
  overflowDrops := satAdd U64_MAX into.overflowDrops from_.overflowDrops
  transitionDrops := satAdd U64_MAX into.transitionDrops from_.transitionDrops

/-- mirrors src/server_conditioner.rs:370-374 -/
def addStats (into from_ : ConditionerStats) : ConditionerStats where
  incoming := addDirection into.incoming from_.incoming
  outgoing := addDirection into.outgoing from_.outgoing
  outageActive := into.outageActive || from_.outageActive

/-- mirrors src/server_conditioner.rs:65-69 -/
structure Peer (T : Type) where
  owner : Nat
  lastSeen : Nat
  engine : PacketConditioner T

/-- What the mutex of a `ServerConditionerHandle` protects.
mirrors src/server_conditioner.rs:69-80 -/
structure ServerConditioner (T : Type) where
  config : ValidServerConfig
  peers : HashMap ServerPeerId (Peer T)
  retired : ConditionerStats
  peerLimitDrops : Nat
  expiredPeers : Nat
  nextOwner : Nat
  now : Nat
  nextCleanup : Nat
  outageUntil : Option Nat

namespace ServerConditioner

variable {T : Type}

/-- mirrors src/server_conditioner.rs:93-109 -/
def new (config : ValidServerConfig) : ServerConditioner T where
  config := config
  peers := ∅
  retired := {}
  peerLimitDrops := 0
  expiredPeers := 0
  nextOwner := 1
  now := 0
  nextCleanup := 0
  outageUntil := none

/-- The order of the `BTreeMap`. -/
def before (a b : ServerPeerId) : Prop := compare a b ≠ .gt

instance : DecidableRel before := fun a b => inferInstanceAs (Decidable (compare a b ≠ .gt))

/-- A change of every engine's handle with its own settings again: it drops what
is queued and cancels an outage. -/
def flushed (p : Peer T) : Peer T :=
  { p with engine.handle := p.engine.handle.reconfigure p.engine.handle.config }

/-- mirrors src/server_conditioner.rs:313-319 -/
def retire (s : ServerConditioner T) (id : ServerPeerId) : ServerConditioner T :=
  match s.peers.get id with
  | none => s
  | some p =>
    { s with
      peers := s.peers.remove id
      retired := addStats s.retired (flushed p).engine.handle.stats }

/-- The ids, in map order, of the peers that satisfy `f`. -/
def idsWhere (s : ServerConditioner T) (f : Peer T → Bool) : List ServerPeerId :=
  (s.peers.iter.filter fun x => f x.2).map Prod.fst

/-- mirrors src/server_conditioner.rs:303-306 -/
def expirePeer (s : ServerConditioner T) (id : ServerPeerId) : ServerConditioner T :=
  let s := s.retire id
  { s with expiredPeers := satAdd U64_MAX s.expiredPeers 1 }

/-- The clean-up of `poll`.
mirrors src/server_conditioner.rs:294-310 -/
def cleanup (s : ServerConditioner T) : ServerConditioner T :=
  if s.now ≥ s.nextCleanup then
    let ids := s.idsWhere fun p => s.now - p.lastSeen ≥ s.config.1.idleTimeout
    let s := ids.foldl expirePeer s
    { s with
      nextCleanup :=
        Duration.saturatingAdd s.now (min s.config.1.idleTimeout (Duration.fromSecs 1)) }
  else s

/-- The clock of `poll`: it never goes back, and ends an outage.
mirrors src/server_conditioner.rs:290-293 -/
def clamp (s : ServerConditioner T) (now : Nat) : ServerConditioner T :=
  { s with
    now := max now s.now
    outageUntil :=
      if s.outageUntil.any (fun till => max now s.now ≥ till) then none else s.outageUntil }

/-- The clamped time is `now` of the result.
mirrors src/server_conditioner.rs:289-312 -/
def poll (s : ServerConditioner T) (now : Nat) : ServerConditioner T := (s.clamp now).cleanup

/-- `min_by_key` on `last_seen`: the first of the least recently active peers.
mirrors src/server_conditioner.rs:131-136 -/
def oldest (s : ServerConditioner T) : Option ServerPeerId :=
  match s.peers.iter with
  | [] => none
  | x :: rest =>
    some (rest.foldl (fun best y => if y.2.lastSeen < best.2.lastSeen then y else best) x).1

/-- The eviction loop of `configure`; one peer goes at each turn, so the number
of peers bounds the turns.
mirrors src/server_conditioner.rs:130-138 -/
def evict : Nat → ServerConditioner T → ServerConditioner T
  | 0, s => s
  | n + 1, s =>
    if s.peers.len > s.config.1.maxPeers then
      match s.oldest with
      | some id => evict n (s.retire id)
      | none => s
    else s

/-- `configure` once the settings are known to be valid.
mirrors src/server_conditioner.rs:120-139 -/
def reconfigure (s : ServerConditioner T) (config : ValidServerConfig) : ServerConditioner T :=
  let s := { s with
    peers := s.peers.mapVal fun id p =>
      { p with engine.handle := p.engine.handle.reconfigure (peerConfig config.packets id) }
    config := config
    outageUntil := none
    nextCleanup := 0 }
  s.evict s.peers.len

/-- mirrors src/server_conditioner.rs:115-140 -/
def configure (s : ServerConditioner T) (config : ServerConditionerConfig) :
    Except ServerConditionerConfigError (ServerConditioner T) :=
  if h : config.validate = .ok () then .ok (s.reconfigure ⟨config, h⟩) else .error {}

/-- mirrors src/server_conditioner.rs:141-154 -/
def stats (s : ServerConditioner T) : ServerConditionerStats where
  packets :=
    { s.peers.iter.foldl (fun acc x => addStats acc x.2.engine.handle.stats) s.retired with
      outageActive := s.outageUntil.any fun till => s.now < till }
  peers := s.peers.len
  peerLimitDrops := s.peerLimitDrops
  expiredPeers := s.expiredPeers

/-- mirrors src/server_conditioner.rs:169-177 -/
def outageAt (s : ServerConditioner T) (duration now : Nat) : ServerConditioner T :=
  let s := s.poll now
  { s with
    peers := s.peers.mapVal fun _ p => flushed p
    outageUntil := if duration = 0 then none else some (Duration.saturatingAdd s.now duration) }

/-- `none`: the owner ids are exhausted and the call panics.
mirrors src/server_conditioner.rs:181-188 -/
def allocateOwner (s : ServerConditioner T) : Option (ServerConditioner T × Nat) :=
  if s.nextOwner + 1 ≤ U64_MAX then some ({ s with nextOwner := s.nextOwner + 1 }, s.nextOwner)
  else none

/-- mirrors src/server_conditioner.rs:189-200 -/
def removeOwner (s : ServerConditioner T) (owner : Nat) : ServerConditioner T :=
  (s.idsWhere fun p => p.owner == owner).foldl retire s

/-- mirrors src/server_conditioner.rs:201-206 -/
def removePeer (s : ServerConditioner T) (owner : Nat) (id : ServerPeerId) : ServerConditioner T :=
  if (s.peers.get id).any fun p => p.owner == owner then s.retire id else s

/-- Announce what is left of a global outage to an engine. -/
def impose (remaining : Option Nat) (e : PacketConditioner T) : PacketConditioner T :=
  match remaining with
  | some r => { e with handle := e.handle.outage r }
  | none => e

/-- What is left of the outage in force after a `poll`. -/
def outageRemaining (s : ServerConditioner T) : Option Nat := s.outageUntil.map fun till => till - s.now

/-- mirrors src/server_conditioner.rs:233-248 -/
def newPeer (s : ServerConditioner T) (owner : Nat) (id : ServerPeerId) : Peer T where
  owner := owner
  lastSeen := s.now
  engine := .new (.ofValid (peerConfig s.config.packets id))

def dropForLimit (s : ServerConditioner T) : ServerConditioner T :=
  { s with peerLimitDrops := satAdd U64_MAX s.peerLimitDrops 1 }

/-- One peer's turn in `drain_at`.
mirrors src/server_conditioner.rs:273-283 -/
def drainPeer (owner : Nat) (d : ConditionerDirection) (now : Nat) (remaining : Option Nat)
    (p : Peer T) : Peer T × List T :=
  if p.owner = owner then
    let r := (impose remaining p.engine).drainReady d now
    ({ p with engine := r.1 }, r.2)
  else (p, [])

/-- mirrors src/server_conditioner.rs:262-286 -/
def drainAt (s : ServerConditioner T) (owner : Nat) (d : ConditionerDirection) (now : Nat) :
    ServerConditioner T × List (ServerPeerId × T) :=
  let s := s.poll now
  let turn := drainPeer owner d s.now s.outageRemaining
  ({ s with peers := s.peers.mapVal fun _ p => (turn p).1 },
    s.peers.iter.flatMap fun x => (turn x.2).2.map fun payload => (x.1, payload))

variable (delay : Nat → Nat → Nat → Nat)

/-- The end of `defer_at`, on the peer's entry.
mirrors src/server_conditioner.rs:250-261 -/
def deferTo (s : ServerConditioner T) (owner : Nat) (d : ConditionerDirection) (id : ServerPeerId)
    (payload : T) (byteLen : Nat) (p : Peer T) : ServerConditioner T × Bool :=
  if p.owner ≠ owner then (s.dropForLimit, true)
  else
    let r := (impose s.outageRemaining p.engine).enqueue delay d s.now payload byteLen
    ({ s with
        peers := s.peers.sortedInsert before id { p with lastSeen := s.now, engine := r.1 } },
      r.2.isNone)

/-- mirrors src/server_conditioner.rs:217-261 -/
def deferAt (s : ServerConditioner T) (owner : Nat) (d : ConditionerDirection) (id : ServerPeerId)
    (payload : T) (byteLen : Nat) (now : Nat) : ServerConditioner T × Bool :=
  let s := s.poll now
  if s.config.1.packets.enabled = false ∧ s.outageRemaining = none then (s, false)
  else
    match s.peers.get id with
    | some p => s.deferTo delay owner d id payload byteLen p
    | none =>
      if s.peers.len ≥ s.config.1.maxPeers then (s.dropForLimit, true)
      else s.deferTo delay owner d id payload byteLen (s.newPeer owner id)

end ServerConditioner
end RenetCross.L2
