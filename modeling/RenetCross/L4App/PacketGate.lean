import RenetCross.L4App.Components

/-!
# The packet gate of a server transport

`src/packet_io/server.rs`: a transport's view of a conditioner handle, if one is
attached. A handle is shared with other transports and other threads, so before
every call of this gate the other holders may have made any calls of theirs.

`Stock` is what waits behind the gate for its own transport. It grows only by
`defer`, with the packet given; a drain returns packets of it; everything else,
including what other holders do, only shrinks it, and a newly attached gate has
nothing.
-/
namespace RenetCross.L4

open RenetCross.L2

/-- A handle and the owner id allocated from it.
mirrors src/packet_io/server.rs:4-7 -/
abbrev ServerPacketGate := Option (Nat × Nat)

variable {S W : Type} [World W]

/-- The owner a call needs; only `allocate_owner` hands owner ids out. -/
def HandleCall.owner : HandleCall → Option Nat
  | .deferAt owner _ _ _ _ => some owner
  | .drainAt owner _ _ => some owner
  | .removePeer owner _ => some owner
  | .removeOwner owner => some owner
  | .allocateOwner => none
  | .configure _ => none
  | .outageAt _ _ => none

def HandleCall.apply (delay : Nat → Nat → Nat → Nat) (s : ServerConditioner Packet) :
    HandleCall → ServerConditioner Packet
  | .deferAt owner d id payload now =>
    (s.deferAt delay owner d id payload payload.bytes.length now).1
  | .drainAt owner d now => (s.drainAt owner d now).1
  | .removePeer owner id => s.removePeer owner id
  | .removeOwner owner => s.removeOwner owner
  | .allocateOwner => (s.allocateOwner.map Prod.fst).getD s
  | .configure config => s.reconfigure config
  | .outageAt duration now => s.outageAt duration now

/-- Another holder acts on handle `x.1`. It has an owner id only if that was
handed out, and never the one of this gate. -/
def otherCall (delay : Nat → Nat → Nat → Nat) (gate : ServerPacketGate)
    (conds : Nat → ServerConditioner Packet) (x : Nat × HandleCall) :
    Nat → ServerConditioner Packet :=
  if x.2.owner.all fun owner => owner < (conds x.1).nextOwner ∧ gate ≠ some (x.1, owner) then
    Function.update conds x.1 (x.2.apply delay (conds x.1))
  else conds

/-- Take the lock of the gate's conditioner and read its clock. -/
def Shared.lock (s : Shared S W) (gate : ServerPacketGate) : Shared S W × Nat :=
  let r := World.lock s.world
  ({ s with
      world := r.1
      conds := r.2.2.foldl (otherCall (World.delay s.world) gate) s.conds }, r.2.1)

def Shared.setCond (s : Shared S W) (handle : Nat) (c : ServerConditioner Packet) : Shared S W :=
  { s with conds := Function.update s.conds handle c }

namespace ServerPacketGate

/-- mirrors src/packet_io/server.rs:21-25 -/
def reset (gate : ServerPacketGate) (s : Shared S W) : Shared S W :=
  match gate with
  | none => s
  | some (handle, owner) =>
    let s := (s.lock gate).1
    s.setCond handle ((s.conds handle).removeOwner owner)

/-- The state after `detach`; the gate itself becomes `none`.
mirrors src/packet_io/server.rs:17-20 -/
def detach (gate : ServerPacketGate) (s : Shared S W) : ServerPacketGate × Shared S W :=
  (none, gate.reset s)

/-- `none`: the owner ids are exhausted and `allocate_owner` panics.
mirrors src/packet_io/server.rs:9-13 -/
def attach (gate : ServerPacketGate) (handle : Nat) (s : Shared S W) :
    Option (ServerPacketGate × Shared S W) :=
  let s := ((gate.detach s).2.lock none).1
  match (s.conds handle).allocateOwner with
  | none => none
  | some (c, owner) => some (some (handle, owner), s.setCond handle c)

/-- mirrors src/packet_io/server.rs:26-30 -/
def remove (gate : ServerPacketGate) (id : ServerPeerId) (s : Shared S W) : Shared S W :=
  match gate with
  | none => s
  | some (handle, owner) =>
    let s := (s.lock gate).1
    s.setCond handle ((s.conds handle).removePeer owner id)

/-- mirrors src/packet_io/server.rs:31-35 -/
def defer (gate : ServerPacketGate) (d : ConditionerDirection) (id : ServerPeerId) (p : Packet)
    (s : Shared S W) : Shared S W × Bool :=
  match gate with
  | none => (s, false)
  | some (handle, owner) =>
    let t := s.lock gate
    let r := (t.1.conds handle).deferAt (World.delay s.world) owner d id p p.bytes.length t.2
    (t.1.setCond handle r.1, r.2)

/-- mirrors src/packet_io/server.rs:43-48 -/
def drain (gate : ServerPacketGate) (d : ConditionerDirection) (s : Shared S W) :
    Shared S W × List (ServerPeerId × Packet) :=
  match gate with
  | none => (s, [])
  | some (handle, owner) =>
    let t := s.lock gate
    let r := (t.1.conds handle).drainAt owner d t.2
    (t.1.setCond handle r.1, r.2)

end ServerPacketGate

/-! ## What the gate holds -/

/-- The packets waiting behind the gate. -/
def Stock (gate : ServerPacketGate) (conds : Nat → ServerConditioner Packet)
    (d : ConditionerDirection) (id : ServerPeerId) (p : Packet) : Prop :=
  ∃ handle owner, gate = some (handle, owner) ∧ (conds handle).Holds owner d id p

/-- Every conditioner's peers belong to owners it handed out, and so does the
gate. -/
structure GateOk (gate : ServerPacketGate) (conds : Nat → ServerConditioner Packet) : Prop where
  owned : ∀ h, (conds h).Owned
  gate : ∀ h owner, gate = some (h, owner) → owner < (conds h).nextOwner

omit [World W] in
theorem stock_none {conds : Nat → ServerConditioner Packet} {d : ConditionerDirection}
    {id : ServerPeerId} {p : Packet} : ¬ Stock none conds d id p := by
  rintro ⟨h, owner, hg, _⟩
  cases hg

/-- One call on the gate: it leaves the `RenetServer` and the trace alone, and
what waits behind the gate afterwards waited before or is in `new`. -/
structure GateStep (gate : ServerPacketGate) (s : Shared S W) (gate' : ServerPacketGate)
    (s' : Shared S W) (new : ConditionerDirection → ServerPeerId → Packet → Prop) : Prop where
  server : s'.server = s.server
  trace : s'.trace = s.trace
  ok : GateOk gate s.conds → GateOk gate' s'.conds
  stock : GateOk gate s.conds → ∀ d id p, Stock gate' s'.conds d id p →
    Stock gate s.conds d id p ∨ new d id p

/-- A call that adds nothing. -/
abbrev GateShrinks (gate : ServerPacketGate) (s : Shared S W) (gate' : ServerPacketGate)
    (s' : Shared S W) : Prop := GateStep gate s gate' s' fun _ _ _ => False

omit [World W] in
theorem GateShrinks.refl (gate : ServerPacketGate) (s : Shared S W) : GateShrinks gate s gate s :=
  ⟨rfl, rfl, fun h => h, fun _ _ _ _ h => .inl h⟩

omit [World W] in
theorem GateShrinks.andThen {gate gate' gate'' : ServerPacketGate} {s s' s'' : Shared S W}
    {new : ConditionerDirection → ServerPeerId → Packet → Prop} (h : GateShrinks gate s gate' s')
    (h' : GateStep gate' s' gate'' s'' new) : GateStep gate s gate'' s'' new := by
  refine ⟨h'.server.trans h.server, h'.trace.trans h.trace, fun ok => h'.ok (h.ok ok), ?_⟩
  intro ok d id p hp
  rcases h'.stock (h.ok ok) d id p hp with hp | hp
  · exact (h.stock ok d id p hp).elim .inl False.elim
  · exact .inr hp

/-! ## The calls -/

omit [World W] in
/-- A conditioner is replaced by one with less in it. -/
theorem gateShrinks_setCond (gate : ServerPacketGate) {s : Shared S W} {h : Nat}
    {c : ServerConditioner Packet} (hc : c.Within (s.conds h)) :
    GateShrinks gate s gate (s.setCond h c) := by
  have hall : ∀ h', ((s.setCond h c).conds h').Within (s.conds h') := by
    intro h'
    simp only [Shared.setCond, Function.update_apply]
    split
    · rename_i hh; rw [hh]; exact hc
    · exact .refl _
  refine ⟨rfl, rfl, fun ok => ⟨fun h' => (hall h').owned (ok.owned h'), fun h' owner hg => ?_⟩, ?_⟩
  · exact Nat.lt_of_lt_of_le (ok.gate h' owner hg) (hall h').nextOwner
  · rintro ok d id p ⟨h', owner, hg, hp⟩
    exact .inl ⟨h', owner, hg, (hall h').holds hp⟩

/-- A call on another owner's behalf only takes packets away from this gate. -/
theorem otherCall_spec (delay : Nat → Nat → Nat → Nat) {gate : ServerPacketGate}
    {conds : Nat → ServerConditioner Packet} (x : Nat × HandleCall) (ok : GateOk gate conds) :
    GateOk gate (otherCall delay gate conds x) ∧
      ∀ d id p, Stock gate (otherCall delay gate conds x) d id p → Stock gate conds d id p := by
  obtain ⟨h, call⟩ := x
  have hshrink : ∀ c : ServerConditioner Packet, c.Within (conds h) →
      GateOk gate (Function.update conds h c) ∧
        ∀ d id p, Stock gate (Function.update conds h c) d id p → Stock gate conds d id p := by
    intro c hc
    have hs := gateShrinks_setCond (S := Unit) (W := Unit) gate (s := ⟨(), (), conds, []⟩) hc
    exact ⟨hs.ok ok, fun d id p hp => (hs.stock ok d id p hp).elim (fun hp => hp) False.elim⟩
  unfold otherCall
  split
  · rename_i hown
    cases call with
    | deferAt owner d id payload now =>
      simp only [HandleCall.owner, Option.all_some, decide_eq_true_eq] at hown
      obtain ⟨hlt, hne⟩ := hown
      have hown' := ServerConditioner.deferAt_owned delay d id payload payload.bytes.length now (ok.owned h)
        hlt
      have hnext := ServerConditioner.nextOwner_deferAt delay (conds h) owner d id payload
        payload.bytes.length now
      refine ⟨⟨fun h' => ?_, fun h' owner' hg => ?_⟩, ?_⟩
      · simp only [Function.update_apply, HandleCall.apply]
        split
        · exact hown'
        · exact ok.owned h'
      · simp only [Function.update_apply, HandleCall.apply]
        split
        · rename_i hh
          subst hh
          exact Nat.lt_of_lt_of_le (ok.gate h' owner' hg) hnext
        · exact ok.gate h' owner' hg
      · rintro d' id' p ⟨h', owner', hg, hp⟩
        refine ⟨h', owner', hg, ?_⟩
        simp only [Function.update_apply, HandleCall.apply] at hp
        split at hp
        · rename_i hh
          subst hh
          rcases ServerConditioner.deferAt_adds hp with hp | ⟨rfl, _⟩
          · exact hp
          · exact absurd hg hne
        · exact hp
    | drainAt owner d now => exact hshrink _ (ServerConditioner.within_drainAt _ _ _ _)
    | removePeer owner id => exact hshrink _ (ServerConditioner.within_removePeer _ _ _)
    | removeOwner owner => exact hshrink _ (ServerConditioner.within_removeOwner _ _)
    | allocateOwner =>
      refine hshrink _ ?_
      simp only [HandleCall.apply]
      cases ha : (conds h).allocateOwner with
      | none => exact .refl _
      | some r => exact (ServerConditioner.allocateOwner_fresh ha (ok.owned h)).1
    | configure config => exact hshrink _ (ServerConditioner.within_reconfigure _ _)
    | outageAt duration now => exact hshrink _ (ServerConditioner.within_outageAt _ _ _)
  · exact ⟨ok, fun _ _ _ hp => hp⟩

theorem otherCalls_spec (delay : Nat → Nat → Nat → Nat) {gate : ServerPacketGate} :
    ∀ (calls : List (Nat × HandleCall)) {conds : Nat → ServerConditioner Packet}, GateOk gate conds →
      GateOk gate (calls.foldl (otherCall delay gate) conds) ∧
        ∀ d id p, Stock gate (calls.foldl (otherCall delay gate) conds) d id p →
          Stock gate conds d id p
  | [], _, ok => ⟨ok, fun _ _ _ hp => hp⟩
  | x :: calls, _, ok => by
    obtain ⟨hok, hst⟩ := otherCall_spec delay x ok
    obtain ⟨hok', hst'⟩ := otherCalls_spec delay calls hok
    exact ⟨hok', fun d id p hp => hst d id p (hst' d id p hp)⟩

theorem gateShrinks_lock (gate : ServerPacketGate) (s : Shared S W) :
    GateShrinks gate s gate (s.lock gate).1 :=
  ⟨rfl, rfl, fun ok => (otherCalls_spec _ _ ok).1,
    fun ok d id p hp => .inl ((otherCalls_spec _ _ ok).2 d id p hp)⟩

namespace ServerPacketGate

theorem reset_shrinks (gate : ServerPacketGate) (s : Shared S W) :
    GateShrinks gate s gate (gate.reset s) := by
  unfold reset
  split
  · exact .refl _ s
  · exact (gateShrinks_lock _ s).andThen
      (gateShrinks_setCond _ (ServerConditioner.within_removeOwner _ _))

theorem detach_shrinks (gate : ServerPacketGate) (s : Shared S W) :
    GateShrinks gate s none (gate.detach s).2 := by
  refine (reset_shrinks gate s).andThen ⟨rfl, rfl, fun ok => ⟨ok.owned, ?_⟩, ?_⟩
  · intro h owner hg
    cases hg
  · exact fun _ d id p hp => absurd hp stock_none

/-- A newly attached gate has nothing behind it. -/
theorem attach_spec {gate gate' : ServerPacketGate} {handle : Nat} {s s' : Shared S W}
    (h : gate.attach handle s = some (gate', s')) :
    GateShrinks gate s gate' s' ∧ (GateOk gate s.conds → ∀ d id p, ¬ Stock gate' s'.conds d id p) := by
  unfold attach at h
  dsimp only at h
  set t := ((gate.detach s).2.lock none).1 with ht
  have hlock : GateShrinks gate s none t := (detach_shrinks gate s).andThen (gateShrinks_lock none _)
  split at h
  · cases h
  · rename_i c owner ha
    cases h
    have hnone : GateOk gate s.conds → ∀ d id p,
        ¬ Stock (some (handle, owner)) (t.setCond handle c).conds d id p := by
      rintro ok d id p ⟨h', owner', hg, hp⟩
      cases hg
      simp only [Shared.setCond, Function.update_self] at hp
      exact (ServerConditioner.allocateOwner_fresh ha ((hlock.ok ok).owned handle)).2.2 d id p hp
    refine ⟨⟨hlock.server, hlock.trace, fun ok => ?_, fun ok d id p hp => ?_⟩, hnone⟩
    · obtain ⟨hw, hlt, _⟩ := ServerConditioner.allocateOwner_fresh ha ((hlock.ok ok).owned handle)
      refine ⟨((gateShrinks_setCond none hw).ok (hlock.ok ok)).owned, fun h' owner' hg => ?_⟩
      cases hg
      simpa only [Shared.setCond, Function.update_self] using hlt
    · exact absurd hp (hnone ok d id p)

theorem remove_shrinks (gate : ServerPacketGate) (id : ServerPeerId) (s : Shared S W) :
    GateShrinks gate s gate (gate.remove id s) := by
  unfold remove
  split
  · exact .refl _ s
  · exact (gateShrinks_lock _ s).andThen
      (gateShrinks_setCond _ (ServerConditioner.within_removePeer _ _ _))

/-- Nothing waits for a removed peer. -/
theorem remove_empty (gate : ServerPacketGate) (id : ServerPeerId) (s : Shared S W)
    {d : ConditionerDirection} {p : Packet} : ¬ Stock gate (gate.remove id s).conds d id p := by
  rintro ⟨h, owner, rfl, hp⟩
  simp only [remove, Shared.setCond, Function.update_self] at hp
  exact ServerConditioner.removePeer_not_holds hp

theorem defer_step (gate : ServerPacketGate) (d : ConditionerDirection) (id : ServerPeerId)
    (p : Packet) (s : Shared S W) :
    GateStep gate s gate (gate.defer d id p s).1 fun d' id' p' => d' = d ∧ id' = id ∧ p' = p := by
  unfold defer
  split
  · exact ⟨rfl, rfl, fun ok => ok, fun _ _ _ _ hp => .inl hp⟩
  · rename_i handle owner
    refine (gateShrinks_lock _ s).andThen ⟨rfl, rfl, fun ok => ⟨fun h => ?_, fun h o hg => ?_⟩, ?_⟩
    · simp only [Shared.setCond, Function.update_apply]
      split
      · exact ServerConditioner.deferAt_owned _ _ _ _ _ _ (ok.owned handle) (ok.gate _ _ rfl)
      · exact ok.owned h
    · cases hg
      simp only [Shared.setCond, Function.update_self]
      exact Nat.lt_of_lt_of_le (ok.gate _ _ rfl) (ServerConditioner.nextOwner_deferAt ..)
    · rintro ok d' id' p' ⟨h, o, hg, hp⟩
      cases hg
      simp only [Shared.setCond, Function.update_self] at hp
      rcases ServerConditioner.deferAt_adds hp with hp | ⟨_, h⟩
      · exact .inl ⟨handle, owner, rfl, hp⟩
      · exact .inr h

theorem drain_shrinks (gate : ServerPacketGate) (d : ConditionerDirection) (s : Shared S W) :
    GateShrinks gate s gate (gate.drain d s).1 := by
  unfold drain
  split
  · exact .refl _ s
  · exact (gateShrinks_lock _ s).andThen
      (gateShrinks_setCond _ (ServerConditioner.within_drainAt _ _ _ _))

/-- A drain returns packets that waited behind the gate. -/
theorem mem_drain {gate : ServerPacketGate} {d : ConditionerDirection} {s : Shared S W}
    {x : ServerPeerId × Packet} (ok : GateOk gate s.conds) (h : x ∈ (gate.drain d s).2) :
    Stock gate s.conds d x.1 x.2 := by
  unfold drain at h
  split at h
  · exact absurd h List.not_mem_nil
  · rename_i handle owner
    have hp := ServerConditioner.drainAt_holds h
    exact ((gateShrinks_lock _ s).stock ok d x.1 x.2 ⟨handle, owner, rfl, hp⟩).elim (fun hp => hp)
      False.elim

end ServerPacketGate
end RenetCross.L4
