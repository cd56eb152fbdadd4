import RenetCross.Core.LossyLink
import RenetCross.L2Machine.ConditionerAccounting

/-!
# The packet gate of a client transport

`src/packet_io/client.rs`: a transport's conditioner, if one is attached. The
settings behind its handle are shared with whoever attached it, so before every
call of the gate the other holders may have left anything in them; what waits in
the queues is the gate's own.

`waiting` is the bag of packets in one direction's queue. `defer` adds at most the
packet given, a drain takes its packets out of the bag, and every other call only
loses packets.
-/
namespace RenetCross

open Multiset

namespace L2.PacketConditioner

variable {T : Type}

/-- The packets in one direction's queue. -/
def waiting (e : PacketConditioner T) (d : ConditionerDirection) : Multiset T :=
  (e.queues d).map Scheduled.payload

theorem popReady_append (now : Nat) : ∀ (queue : List (Scheduled T)) (stats : DirectionStats),
    (popReady now queue stats).2.2 ++ (popReady now queue stats).1.map Scheduled.payload =
      queue.map Scheduled.payload
  | [], _ => rfl
  | p :: rest, stats => by
    unfold popReady
    split
    · exact congrArg (p.payload :: ·) (popReady_append now rest _)
    · rfl

theorem waiting_sync (e : PacketConditioner T) (now : Nat) (d : ConditionerDirection) :
    (e.sync now).waiting d ≤ e.waiting d := by
  simp only [waiting, sync, expire, resync]
  split
  · exact Multiset.zero_le _
  · exact le_refl _

/-- Only the packet given can be added, and only when it is not handed back. -/
theorem waiting_enqueue (delay : Nat → Nat → Nat → Nat) (e : PacketConditioner T)
    (d : ConditionerDirection) (now : Nat) (payload : T) (byteLen : Nat) :
    let r := e.enqueue delay d now payload byteLen
    (∀ d', d' ≠ d ∨ r.2 ≠ none → r.1.waiting d' ≤ e.waiting d') ∧
      r.1.waiting d ≤ payload ::ₘ e.waiting d := by
  have hdid := enqueue_did delay e d now payload byteLen
  have hsync := waiting_sync e now
  generalize e.enqueue delay d now payload byteLen = r at hdid ⊢
  generalize e.queuedAt delay d now byteLen = at_ at hdid
  cases hdid with
  | bypassed _ => exact ⟨fun d' _ => hsync d', (hsync d).trans (Multiset.le_cons_self _ _)⟩
  | dropped _ => exact ⟨fun d' _ => hsync d', (hsync d).trans (Multiset.le_cons_self _ _)⟩
  | @queued rng due _ _ _ =>
    refine ⟨fun d' hne => ?_, ?_⟩
    · simp only [waiting, count, Function.update_apply]
      rw [if_neg (hne.resolve_right fun h => h rfl)]
      exact hsync d'
    · simp only [waiting, count, Function.update_self]
      rw [Multiset.coe_eq_coe.2 ((schedule_perm _ _).map Scheduled.payload)]
      exact (Multiset.cons_le_cons_iff payload).2 (hsync d)

theorem waiting_drainReady (e : PacketConditioner T) (d : ConditionerDirection) (now : Nat) :
    let r := e.drainReady d now
    (∀ d', d' ≠ d → r.1.waiting d' ≤ e.waiting d') ∧
      (r.2 : Multiset T) + r.1.waiting d ≤ e.waiting d := by
  have hsync := waiting_sync e now
  refine ⟨fun d' hne => ?_, ?_⟩
  · simp only [waiting, drainReady, count, Function.update_apply]
    rw [if_neg hne]
    exact hsync d'
  · simp only [waiting, drainReady, count, Function.update_self, Multiset.coe_add]
    rw [popReady_append]
    exact hsync d

end L2.PacketConditioner

namespace L4

open RenetCross.L2

/-- mirrors src/packet_io/client.rs:10-16; the clock is part of the world. -/
abbrev PacketGate (T : Type) := Option (PacketConditioner (T × Bytes))

/-- `lock`: the world and the settings behind the handle once the gate holds the
lock, and the reading of its clock. `delay` is the delay drawn for a packet. -/
class GateWorld (W : Type) where
  lock : W → Control → W × Nat × Control
  delay : W → Nat → Nat → Nat → Nat

namespace PacketGate

variable {T W : Type}

/-- mirrors src/packet_io/client.rs:52-56 -/
def reset (gate : PacketGate T) : PacketGate T := gate.map PacketConditioner.clearSession

/-- The engine is dropped, and its queues with it.
mirrors src/packet_io/client.rs:48-51 -/
def detach (_gate : PacketGate T) : PacketGate T := none

/-- mirrors src/packet_io/client.rs:36-39 -/
def attach (_gate : PacketGate T) (handle : Control) : PacketGate T := some (.new handle)

variable [GateWorld W]

/-- The engine with what the other holders left in its handle. -/
def locked (e : PacketConditioner (T × Bytes)) (w : W) : PacketConditioner (T × Bytes) :=
  { e with handle := (GateWorld.lock w e.handle).2.2 }

/-- mirrors src/packet_io/client.rs:58-74 -/
def defer (gate : PacketGate T) (d : ConditionerDirection) (metadata : T) (bytes : Bytes) (w : W) :
    PacketGate T × W × Bool :=
  match gate with
  | none => (none, w, false)
  | some e =>
    let t := GateWorld.lock w e.handle
    let r := (locked e w).enqueue (GateWorld.delay w) d t.2.1 (metadata, bytes) bytes.length
    (some r.1, t.1, r.2.isNone)

/-- mirrors src/packet_io/client.rs:75-83 -/
def drain (gate : PacketGate T) (d : ConditionerDirection) (w : W) :
    PacketGate T × W × List (T × Bytes) :=
  match gate with
  | none => (none, w, [])
  | some e =>
    let t := GateWorld.lock w e.handle
    let r := (locked e w).drainReady d t.2.1
    (some r.1, t.1, r.2)

/-! ## What waits behind the gate -/

def waiting (gate : PacketGate T) (d : ConditionerDirection) : Multiset (T × Bytes) :=
  gate.elim 0 fun e => e.waiting d

@[simp] theorem waiting_reset (gate : PacketGate T) (d : ConditionerDirection) :
    gate.reset.waiting d = 0 := by
  cases gate <;> rfl

@[simp] theorem waiting_detach (gate : PacketGate T) (d : ConditionerDirection) :
    gate.detach.waiting d = 0 := rfl

@[simp] theorem waiting_attach (gate : PacketGate T) (handle : Control) (d : ConditionerDirection) :
    (gate.attach handle).waiting d = 0 := rfl

/-- A packet that is not deferred stays with the caller. -/
theorem waiting_defer (gate : PacketGate T) (d : ConditionerDirection) (metadata : T) (bytes : Bytes)
    (w : W) :
    let r := gate.defer d metadata bytes w
    (∀ d', d' ≠ d ∨ r.2.2 = false → r.1.waiting d' ≤ gate.waiting d') ∧
      r.1.waiting d ≤ (metadata, bytes) ::ₘ gate.waiting d := by
  cases gate with
  | none => exact ⟨fun _ _ => le_refl _, Multiset.le_cons_self _ _⟩
  | some e =>
    obtain ⟨hother, hself⟩ := PacketConditioner.waiting_enqueue (GateWorld.delay w) (locked e w) d
      (GateWorld.lock w e.handle).2.1 (metadata, bytes) bytes.length
    refine ⟨fun d' hd => hother d' (hd.imp_right fun h hnone => ?_), hself⟩
    simp only [defer, hnone, Option.isNone_none, Bool.true_eq_false] at h

theorem waiting_drain (gate : PacketGate T) (d : ConditionerDirection) (w : W) :
    let r := gate.drain d w
    (∀ d', d' ≠ d → r.1.waiting d' ≤ gate.waiting d') ∧
      (r.2.2 : Multiset (T × Bytes)) + r.1.waiting d ≤ gate.waiting d := by
  cases gate with
  | none => exact ⟨fun _ _ => le_refl _, le_refl _⟩
  | some e =>
    exact PacketConditioner.waiting_drainReady (locked e w) d (GateWorld.lock w e.handle).2.1

end PacketGate
end L4
end RenetCross
