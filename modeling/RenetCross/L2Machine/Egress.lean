import RenetCross.Core.Map
import RenetCross.Core.Num

/-!
# Egress pacing: token buckets at the transport boundary

`src/egress.rs`. One bucket per destination, at most `MAX_PEERS` of them, and one
overflow bucket that every other destination shares. Credit is kept in
byte-nanoseconds (`u128`), so a refill of `bytes_per_second` over `elapsed`
nanoseconds is exact.

`Egress::configure`, `complete` and `peer_allowance` read the monotonic clock
themselves; here the reading is their last argument, as in `admit_at`.
-/
namespace RenetCross.L2

inductive EgressBasis where
  | nativeUdpIp
  | encryptedLogical
  deriving DecidableEq, Repr

inductive EgressConfigError where
  | invalidBudget
  | basisMismatch
  deriving DecidableEq, Repr

/-- The fields are private to the crate and `EgressConfig::new` is the only
constructor, so its checks are fields here.
mirrors src/egress.rs:11-17 -/
structure EgressConfig where
  basis : EgressBasis
  bytesPerSecond : Nat
  burstBytes : Nat
  controlReserveBytes : Nat
  rate_mem : 1 ≤ bytesPerSecond ∧ bytesPerSecond ≤ 1000000000
  burst_mem : 2048 ≤ burstBytes ∧ burstBytes ≤ 67108864
  reserve_mem : 256 ≤ controlReserveBytes ∧ controlReserveBytes ≤ burstBytes - 1448
  deriving DecidableEq, Repr

/-- mirrors src/egress.rs:28-47 -/
def EgressConfig.new (basis : EgressBasis) (bytesPerSecond burstBytes controlReserveBytes : Nat) :
    Except EgressConfigError EgressConfig :=
  if h : (1 ≤ bytesPerSecond ∧ bytesPerSecond ≤ 1000000000) ∧
      (2048 ≤ burstBytes ∧ burstBytes ≤ 67108864) ∧
      (256 ≤ controlReserveBytes ∧ controlReserveBytes ≤ burstBytes - 1448) then
    .ok ⟨basis, bytesPerSecond, burstBytes, controlReserveBytes, h.1, h.2.1, h.2.2⟩
  else .error .invalidBudget

/-- mirrors src/egress.rs:62-78 -/
structure EgressStats where
  basis : EgressBasis
  config : Option EgressConfig := none
  sentPackets : Nat := 0
  encryptedLogicalBytes : Nat := 0
  nativeUdpIpBytes : Nat := 0
  controlPackets : Nat := 0
  pacingDrops : Nat := 0
  capDrops : Nat := 0
  backendDrops : Nat := 0
  deferredPackets : Nat := 0
  peerCapacityPackets : Nat := 0
  deriving DecidableEq, Repr

/-- mirrors src/egress.rs:98-105 -/
structure EgressAllowance where
  basis : EgressBasis
  config : Option EgressConfig
  availableDataBytes : Nat
  maximumDataBytes : Nat
  ipUdpOverhead : Nat
  deriving DecidableEq, Repr

/-- mirrors src/egress.rs:109-113 -/
def EgressAllowance.reserveQueued (a : EgressAllowance) (logicalBytes packets : Nat) :
    EgressAllowance :=
  let committed := satAdd U64_MAX logicalBytes (satMul U64_MAX packets a.ipUdpOverhead)
  { a with availableDataBytes := a.availableDataBytes - committed }

structure Bucket where
  credit : Nat
  at_ : Nat
  stats : EgressStats
  deriving DecidableEq, Repr

/-- Bytes as credit: byte-nanoseconds at one byte per second. -/
def byteNanos (bytes : Nat) : Nat := NANOS_PER_SEC * bytes

/-- A full bucket under `config`, in byte-nanoseconds; nothing when unpaced. -/
def fullCredit (config : Option EgressConfig) : Nat :=
  match config with
  | none => 0
  | some c => byteNanos c.burstBytes

/-- mirrors src/egress.rs:122-130 -/
def Bucket.new (basis : EgressBasis) (config : Option EgressConfig) (at_ : Nat) : Bucket :=
  { credit := fullCredit config, at_ := at_, stats := { basis := basis, config := config } }

/-- The credit after a refill up to `now`, capped at one burst; shared by
`allowance` and `admit`.
mirrors src/egress.rs:133-140,162-169 -/
def Bucket.refilled (b : Bucket) (c : EgressConfig) (now : Nat) : Nat :=
  min (satAdd U128_MAX b.credit (satMul U128_MAX (now - b.at_) c.bytesPerSecond))
    (byteNanos c.burstBytes)

/-- mirrors src/egress.rs:131-154 -/
def Bucket.allowance (b : Bucket) (now : Nat) : EgressAllowance :=
  let limits := match b.stats.config with
    | none => (U64_MAX, U64_MAX)
    | some c =>
      let credit := b.refilled c now / NANOS_PER_SEC
      (wrapU64 credit - c.controlReserveBytes, c.burstBytes - c.controlReserveBytes)
  { basis := b.stats.basis, config := b.stats.config, availableDataBytes := limits.1,
    maximumDataBytes := limits.2, ipUdpOverhead := 0 }

/-- Credit a packet must leave behind: control traffic may spend all of it.
mirrors src/egress.rs:170 -/
def EgressConfig.reserveFor (c : EgressConfig) (control : Bool) : Nat :=
  if control then 0 else c.controlReserveBytes

/-- mirrors src/egress.rs:159-169 -/
def Bucket.refill (b : Bucket) (c : EgressConfig) (now : Nat) : Bucket :=
  { b with credit := b.refilled c now, at_ := max b.at_ now }

/-- mirrors src/egress.rs:170-180 -/
def Bucket.spend (b : Bucket) (c : EgressConfig) (bytes : Nat) (control : Bool) : Bucket × Bool :=
  if bytes > c.burstBytes - c.reserveFor control then
    ({ b with stats.capDrops := satAdd U64_MAX b.stats.capDrops 1 }, false)
  else if b.credit < byteNanos (wrapU64 (bytes + c.reserveFor control)) then
    ({ b with stats.pacingDrops := satAdd U64_MAX b.stats.pacingDrops 1 }, false)
  else ({ b with credit := b.credit - byteNanos bytes }, true)

/-- mirrors src/egress.rs:155-181 -/
def Bucket.admitOne (b : Bucket) (bytes : Nat) (control : Bool) (now : Nat) : Bucket × Bool :=
  match b.stats.config with
  | none => (b, true)
  | some c => (b.refill c now).spend c bytes control

/-- mirrors src/egress.rs:318-320 -/
def isControl (payload : Bytes) : Bool :=
  match payload with
  | [] => false
  | b :: _ => b &&& 0x0f != 5

/-- The `u64` a packet is charged: its length plus the per-packet overhead. -/
def chargeOf (payload : Bytes) (overhead : Nat) : Nat := wrapU64 (payload.length + overhead)

/-- mirrors src/egress.rs:300-317 -/
def record (stats : EgressStats) (payload : Bytes) (overhead : Nat) (sent : Bool) : EgressStats :=
  if sent then
    { stats with
      sentPackets := satAdd U64_MAX stats.sentPackets 1
      encryptedLogicalBytes := satAdd U64_MAX stats.encryptedLogicalBytes payload.length
      nativeUdpIpBytes :=
        if stats.basis = .nativeUdpIp then
          satAdd U64_MAX stats.nativeUdpIpBytes (chargeOf payload overhead)
        else stats.nativeUdpIpBytes
      controlPackets :=
        if isControl payload then satAdd U64_MAX stats.controlPackets 1 else stats.controlPackets }
  else { stats with backendDrops := satAdd U64_MAX stats.backendDrops 1 }

def MAX_PEERS : Nat := 4096

/-- mirrors src/egress.rs:187-197 -/
structure Egress (κ : Type) where
  basis : EgressBasis
  config : Option EgressConfig
  buckets : HashMap κ Bucket
  overflow : Bucket
  total : EgressStats

/-- Which bucket the reference returned by `Egress::bucket` points to. -/
inductive Slot (κ : Type) where
  | peer (key : κ)
  | overflow
  deriving DecidableEq, Repr

namespace Egress

variable {κ : Type} [DecidableEq κ]

/-- mirrors src/egress.rs:200-212 -/
def new (basis : EgressBasis) : Egress κ where
  basis := basis
  config := none
  buckets := ∅
  overflow := Bucket.new basis none 0
  total := { basis := basis }

/-- One bucket's part of the loop in `configure`.
mirrors src/egress.rs:228-240 -/
def reconfigured (config : Option EgressConfig) (now : Nat) (b : Bucket) : Bucket :=
  { b with credit := min b.credit (fullCredit config), at_ := now, stats.config := config }

/-- mirrors src/egress.rs:223-244 -/
def configure (e : Egress κ) (config : Option EgressConfig) (now : Nat) :
    Except EgressConfigError (Egress κ) :=
  if config.any (fun c => c.basis ≠ e.basis) then .error .basisMismatch
  else .ok
    { e with
      buckets := e.buckets.mapVal fun _ b => reconfigured config now b
      overflow := reconfigured config now e.overflow
      config := config
      total.config := config }

/-- mirrors src/egress.rs:252-262 -/
def peerAllowance (e : Egress κ) (key : κ) (now : Nat) : EgressAllowance :=
  match e.buckets.get key with
  | some b => b.allowance now
  | none =>
    if e.buckets.len ≥ MAX_PEERS then e.overflow.allowance now
    else (Bucket.new e.basis e.config now).allowance now

/-- The insertion half of `Egress::bucket`.
mirrors src/egress.rs:263-267 -/
def track (e : Egress κ) (key : κ) (now : Nat) : Egress κ :=
  if key ∉ e.buckets ∧ e.buckets.len < MAX_PEERS then
    { e with buckets := e.buckets.insert key (Bucket.new e.basis e.config now) }
  else e

/-- The lookup half of `Egress::bucket`.
mirrors src/egress.rs:268-272 -/
def slot (e : Egress κ) (key : κ) : Slot κ := if key ∈ e.buckets then .peer key else .overflow

/-- The bucket behind a reference. -/
def at? (e : Egress κ) : Slot κ → Option Bucket
  | .peer key => e.buckets.get key
  | .overflow => some e.overflow

/-- Write through a reference. -/
def modify (e : Egress κ) (x : Slot κ) (f : Bucket → Bucket) : Egress κ :=
  match x with
  | .peer key =>
    match e.buckets.get key with
    | some b => { e with buckets := e.buckets.insert key (f b) }
    | none => e
  | .overflow => { e with overflow := f e.overflow }

/-- The packets counted as falling to a full table's shared bucket.
mirrors src/egress.rs:279-281 -/
def countCapacity (e : Egress κ) (key : κ) : EgressStats :=
  if e.buckets.len = MAX_PEERS ∧ key ∉ e.buckets then
    { e.total with peerCapacityPackets := satAdd U64_MAX e.total.peerCapacityPackets 1 }
  else e.total

/-- mirrors src/egress.rs:278-292 -/
def admitAt (e : Egress κ) (key : κ) (payload : Bytes) (overhead : Nat) (now : Nat) :
    Egress κ × Bool :=
  let total := e.countCapacity key
  let e := e.track key now
  match e.at? (e.slot key) with
  | none => (e, false)
  | some before =>
    let after := before.admitOne (chargeOf payload overhead) (isControl payload) now
    let pacing := after.1.stats.pacingDrops - before.stats.pacingDrops
    let cap := after.1.stats.capDrops - before.stats.capDrops
    ({ e.modify (e.slot key) fun _ => after.1 with
        total := { total with
          pacingDrops := satAdd U64_MAX total.pacingDrops pacing
          capDrops := satAdd U64_MAX total.capDrops cap } }, after.2)

/-- mirrors src/egress.rs:293-298 -/
def complete (e : Egress κ) (key : κ) (payload : Bytes) (overhead : Nat) (sent : Bool)
    (now : Nat) : Egress κ :=
  let e := e.track key now
  let e := e.modify (e.slot key) fun b => { b with stats := record b.stats payload overhead sent }
  { e with total := record e.total payload overhead sent }

end Egress
end RenetCross.L2
