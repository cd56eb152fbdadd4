import Mathlib.Logic.Function.Basic
import RenetCross.Core.Num

/-!
# The packet conditioner

`src/conditioner.rs`: a handle with the settings and the counters, and an engine
with one queue of delayed packets per direction. The handle is an
`Arc<Mutex<Control>>`; the engine keeps it as its own field here, since in the
server each engine owns a handle of its own and every call takes the lock for
its whole body.

A change made through the handle (`configure`, `outage`, `reset_session`) bumps
`revision` and zeroes the queue counters at once; the engine drops its queues
when it next sees that the revisions differ (`sync`).

Floats: `packet_loss` is a rational, `none` standing for a NaN or an infinity,
and a random number is its 53-bit numerator, so the comparison with
`packet_loss` is exact. The delay is computed in `f64` from latency, jitter and
a random number; it is the parameter `delay`.

The queue counters are decremented with the subtraction of the naturals; the
source would overflow there below zero, which `Tallied` excludes.
-/
namespace RenetCross.L2

/-- mirrors src/conditioner.rs:16-43 -/
structure ConditionerConfig where
  enabled : Bool := false
  latency : Nat := 0
  jitter : Nat := 0
  packetLoss : Option Rat := some 0
  maxQueuePackets : Nat := 1024
  maxQueueBytes : Nat := 2097152
  seed : UInt64 := 1
  deriving DecidableEq

structure ConditionerConfigError where
  deriving DecidableEq, Repr

/-- mirrors src/conditioner.rs:54-64 -/
def ConditionerConfig.validate (c : ConditionerConfig) : Except ConditionerConfigError Unit :=
  if c.packetLoss.all (fun p => p < 0 || 1 < p) || c.maxQueuePackets == 0 ||
      c.maxQueueBytes == 0 then
    .error {}
  else .ok ()

/-- Settings that passed `validate`: the only ones a handle ever holds. -/
abbrev ValidConfig := { c : ConditionerConfig // c.validate = .ok () }

inductive ConditionerDirection where
  | incoming
  | outgoing
  deriving DecidableEq, Repr

/-- mirrors src/conditioner.rs:81-89 -/
structure DirectionStats where
  queuedPackets : Nat := 0
  queuedBytes : Nat := 0
  simulatedLossDrops : Nat := 0
  outageDrops : Nat := 0
  overflowDrops : Nat := 0
  transitionDrops : Nat := 0
  deriving DecidableEq, Repr

/-- mirrors src/conditioner.rs:91-96 -/
structure ConditionerStats where
  incoming : DirectionStats := {}
  outgoing : DirectionStats := {}
  outageActive : Bool := false
  deriving DecidableEq, Repr

namespace ConditionerStats

/-- mirrors src/conditioner.rs:98-103 -/
def direction (s : ConditionerStats) : ConditionerDirection → DirectionStats
  | .incoming => s.incoming
  | .outgoing => s.outgoing

/-- A write through the reference `direction` returns. -/
def modifyDirection (s : ConditionerStats) (d : ConditionerDirection)
    (f : DirectionStats → DirectionStats) : ConditionerStats :=
  match d with
  | .incoming => { s with incoming := f s.incoming }
  | .outgoing => { s with outgoing := f s.outgoing }

end ConditionerStats

/-- One direction's part of `discard_queues`. -/
def DirectionStats.discardQueue (s : DirectionStats) : DirectionStats :=
  { s with
    transitionDrops := satAdd U64_MAX s.transitionDrops s.queuedPackets
    queuedPackets := 0
    queuedBytes := 0 }

/-- mirrors src/conditioner.rs:104-112 -/
def ConditionerStats.discardQueues (s : ConditionerStats) : ConditionerStats :=
  { s with incoming := s.incoming.discardQueue, outgoing := s.outgoing.discardQueue }

/-- What the mutex of a `ConditionerHandle` protects.
mirrors src/conditioner.rs:115-121 -/
structure Control where
  config : ValidConfig
  stats : ConditionerStats
  revision : Nat
  pendingOutage : Option Nat

namespace Control

/-- `ConditionerHandle::new` once the settings are known to be valid.
mirrors src/conditioner.rs:132-140 -/
def ofValid (config : ValidConfig) : Control :=
  { config := config, stats := {}, revision := 0, pendingOutage := none }

/-- `ConditionerHandle::configure` once the settings are known to be valid.
mirrors src/conditioner.rs:144-149 -/
def reconfigure (c : Control) (config : ValidConfig) : Control :=
  { config := config
    stats := { c.stats.discardQueues with outageActive := false }
    revision := wrapU64 (c.revision + 1)
    pendingOutage := none }

/-- mirrors src/conditioner.rs:142-151 -/
def configure (c : Control) (config : ConditionerConfig) : Except ConditionerConfigError Control :=
  if h : config.validate = .ok () then .ok (c.reconfigure ⟨config, h⟩) else .error {}

/-- mirrors src/conditioner.rs:164-170 -/
def outage (c : Control) (duration : Nat) : Control :=
  { c with
    stats := { c.stats.discardQueues with outageActive := duration ≠ 0 }
    pendingOutage := if duration = 0 then none else some duration
    revision := wrapU64 (c.revision + 1) }

/-- mirrors src/conditioner.rs:173-178 -/
def resetSession (c : Control) : Control :=
  { c with stats := {}, pendingOutage := none, revision := wrapU64 (c.revision + 1) }

end Control

structure Scheduled (T : Type) where
  due : Nat
  payload : T
  bytes : Nat

/-- mirrors src/conditioner.rs:188-196 -/
structure PacketConditioner (T : Type) where
  handle : Control
  queues : ConditionerDirection → List (Scheduled T)
  revision : Nat
  rng : UInt64
  lastNow : Nat
  outageUntil : Option Nat

/-- SplitMix64: the next state and the 53-bit numerator of the random number.
mirrors src/conditioner.rs:228-235 -/
def splitMix64 (rng : UInt64) : UInt64 × Nat :=
  let rng := rng + 0x9e3779b97f4a7c15
  let z := (rng ^^^ (rng >>> 30)) * 0xbf58476d1ce4e5b9
  let z := (z ^^^ (z >>> 27)) * 0x94d049bb133111eb
  let z := z ^^^ (z >>> 31)
  (rng, (z >>> 11).toNat)

/-- `random() < packet_loss as f64`, cleared of the denominator `2^53`. -/
def lost (numerator : Nat) (packetLoss : Option Rat) : Bool :=
  packetLoss.any fun p => (numerator : Rat) < p * 9007199254740992

/-- Insertion before the first packet due later, so packets with one deadline
keep their order.
mirrors src/conditioner.rs:275-287 -/
def schedule {T : Type} (p : Scheduled T) : List (Scheduled T) → List (Scheduled T)
  | [] => [p]
  | q :: rest => if q.due > p.due then p :: q :: rest else q :: schedule p rest

/-- The loop of `drain_ready`: pop while the front is due.
mirrors src/conditioner.rs:302-307 -/
def popReady {T : Type} (now : Nat) :
    List (Scheduled T) → DirectionStats → List (Scheduled T) × DirectionStats × List T
  | [], stats => ([], stats, [])
  | p :: rest, stats =>
    if p.due ≤ now then
      let r := popReady now rest
        { stats with
          queuedPackets := stats.queuedPackets - 1
          queuedBytes := stats.queuedBytes - p.bytes }
      (r.1, r.2.1, p.payload :: r.2.2)
    else (p :: rest, stats, [])

namespace PacketConditioner

variable {T : Type}

/-- mirrors src/conditioner.rs:198-208 -/
def new (handle : Control) : PacketConditioner T :=
  { handle := handle.resetSession
    queues := fun _ => []
    revision := U64_MAX
    rng := 1
    lastNow := 0
    outageUntil := none }

/-- The branch of `sync` taken when the handle has changed.
mirrors src/conditioner.rs:215-220 -/
def resync (e : PacketConditioner T) (now : Nat) : PacketConditioner T :=
  if e.revision ≠ e.handle.revision then
    { e with
      queues := fun _ => []
      revision := e.handle.revision
      rng := e.handle.config.1.seed
      outageUntil := e.handle.pendingOutage.map fun d => Duration.saturatingAdd now d
      handle.pendingOutage := none }
  else e

/-- The end of `sync`: drop an outage that is over, report the rest.
mirrors src/conditioner.rs:221-224 -/
def expire (e : PacketConditioner T) (now : Nat) : PacketConditioner T :=
  let outageUntil := if e.outageUntil.any (fun till => now ≥ till) then none else e.outageUntil
  { e with outageUntil := outageUntil, handle.stats.outageActive := outageUntil.isSome }

/-- The clamped time is `lastNow` of the result.
mirrors src/conditioner.rs:212-226 -/
def sync (e : PacketConditioner T) (now : Nat) : PacketConditioner T :=
  let now := max now e.lastNow
  ({ e with lastNow := now }.resync now).expire now

/-- Count one packet in `direction` under `f`. -/
def count (e : PacketConditioner T) (d : ConditionerDirection)
    (f : DirectionStats → DirectionStats) : PacketConditioner T :=
  { e with handle.stats := e.handle.stats.modifyDirection d f }

/-- No room for `byteLen` more bytes, or for one more packet.
mirrors src/conditioner.rs:265-266 -/
def full (e : PacketConditioner T) (d : ConditionerDirection) (byteLen : Nat) : Bool :=
  (e.handle.stats.direction d).queuedPackets ≥ e.handle.config.1.maxQueuePackets ||
    byteLen > e.handle.config.1.maxQueueBytes - (e.handle.stats.direction d).queuedBytes

variable (delay : Nat → Nat → Nat → Nat)

/-- The end of `enqueue`: draw a delay and schedule the packet.
mirrors src/conditioner.rs:272-292 -/
def push (e : PacketConditioner T) (d : ConditionerDirection) (payload : T) (byteLen : Nat) :
    PacketConditioner T :=
  let (rng, r) := splitMix64 e.rng
  let due := Duration.saturatingAdd e.lastNow
    (delay e.handle.config.1.latency e.handle.config.1.jitter r)
  let e := { e with
    rng := rng
    queues := Function.update e.queues d (schedule ⟨due, payload, byteLen⟩ (e.queues d)) }
  e.count d fun s =>
    { s with queuedPackets := s.queuedPackets + 1, queuedBytes := s.queuedBytes + byteLen }

/-- The part of `enqueue` after the outage and bypass checks: drop or schedule.
mirrors src/conditioner.rs:255-293 -/
def impair (e : PacketConditioner T) (d : ConditionerDirection) (payload : T) (byteLen : Nat) :
    PacketConditioner T :=
  let (rng, r) := splitMix64 e.rng
  let e := { e with rng := rng }
  if lost r e.handle.config.1.packetLoss then
    e.count d fun s => { s with simulatedLossDrops := satAdd U64_MAX s.simulatedLossDrops 1 }
  else if e.full d byteLen then
    e.count d fun s => { s with overflowDrops := satAdd U64_MAX s.overflowDrops 1 }
  else e.push delay d payload byteLen

/-- Returns the packet only for immediate bypass.
mirrors src/conditioner.rs:237-294 -/
def enqueue (e : PacketConditioner T) (d : ConditionerDirection) (now : Nat) (payload : T)
    (byteLen : Nat) : PacketConditioner T × Option T :=
  let e := e.sync now
  if e.outageUntil.isSome then
    (e.count d fun s => { s with outageDrops := satAdd U64_MAX s.outageDrops 1 }, none)
  else if !e.handle.config.1.enabled then (e, some payload)
  else (e.impair delay d payload byteLen, none)

/-- mirrors src/conditioner.rs:295-309 -/
def drainReady (e : PacketConditioner T) (d : ConditionerDirection) (now : Nat) :
    PacketConditioner T × List T :=
  let e := e.sync now
  let r := popReady e.lastNow (e.queues d) (e.handle.stats.direction d)
  ({ e with queues := Function.update e.queues d r.1 }.count d fun _ => r.2.1, r.2.2)

/-- mirrors src/conditioner.rs:310-315 -/
def clearSession (e : PacketConditioner T) : PacketConditioner T :=
  { e with
    handle := e.handle.resetSession
    queues := fun _ => []
    lastNow := 0
    outageUntil := none }

end PacketConditioner
end RenetCross.L2
