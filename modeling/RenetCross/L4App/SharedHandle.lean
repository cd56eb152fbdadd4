import RenetCross.L2Machine.ServerWrap

/-!
# Gates on one conditioner handle

The packet gates of any number of transports on one `ServerConditionerHandle`
(`src/packet_io/server.rs`), with every call of every holder in one sequence: each
call takes the handle's lock for its whole body. `attach` begins with a `detach`,
which is a call of its own, so here a gate is attached when it is not attached;
a gate attached to another handle is not attached to this one.

A packet returned to a gate was deferred by that gate, and the gate was neither
attached nor detached in between. With `Delivered` of the calls on the handle this
is `conditioned_delivery`.
-/
namespace RenetCross.L4

open RenetCross.L2
open RenetCross.L2.ServerConditioner (Op)

/-- What the holders of a handle do. -/
inductive GateOp where
  | attach (gate : Nat)
  | detach (gate : Nat)
  | reset (gate : Nat)
  | remove (gate : Nat) (id : ServerPeerId)
  | defer (gate : Nat) (direction : ConditionerDirection) (id : ServerPeerId) (bytes : Bytes) (now : Nat)
  | drain (gate : Nat) (direction : ConditionerDirection) (now : Nat)
  | configure (config : ServerConditionerConfig)
  | outageAt (duration now : Nat)

namespace GateOp

def gate : GateOp → Option Nat
  | attach g => some g
  | detach g => some g
  | reset g => some g
  | remove g _ => some g
  | defer g _ _ _ _ => some g
  | drain g _ _ => some g
  | configure _ => none
  | outageAt _ _ => none

/-- The call on the handle, for a gate that is attached as `owner`.
mirrors src/packet_io/server.rs:10-49 -/
def call (owner : Nat) : GateOp → Op
  | attach _ => .allocateOwner
  | detach _ => .removeOwner owner
  | reset _ => .removeOwner owner
  | remove _ id => .removePeer owner id
  | defer _ d id bytes now => .deferAt owner d id bytes now
  | drain _ d now => .drainAt owner d now
  | configure config => .configure config
  | outageAt duration now => .outageAt duration now

end GateOp

/-- The owner a call on the handle is made for. -/
def ownerOf : Op → Option Nat
  | .deferAt owner _ _ _ _ => some owner
  | .drainAt owner _ _ => some owner
  | .removePeer owner _ => some owner
  | .removeOwner owner => some owner
  | .allocateOwner => none
  | .configure _ => none
  | .outageAt _ _ => none

/-- The handle, the gates with the owner ids they have, and what was done. -/
structure Gated where
  trace : Trace Bytes
  gates : Nat → Option Nat
  /-- one for each call in the log -/
  made : List GateOp

namespace Gated

/-- The call that is made. `none`: a gate that is not attached makes none. -/
def callOf (x : Gated) : GateOp → Option Op
  | .attach g => if x.gates g = none then some .allocateOwner else none
  | .detach g => (x.gates g).map (GateOp.detach g).call
  | .reset g => (x.gates g).map (GateOp.reset g).call
  | .remove g id => (x.gates g).map (GateOp.remove g id).call
  | .defer g d id bytes now => (x.gates g).map (GateOp.defer g d id bytes now).call
  | .drain g d now => (x.gates g).map (GateOp.drain g d now).call
  | .configure config => some (.configure config)
  | .outageAt duration now => some (.outageAt duration now)

/-- The gates after it. -/
def rewired (x : Gated) : GateOp → Nat → Option Nat
  | .attach g => Function.update x.gates g (some x.trace.state.nextOwner)
  | .detach g => Function.update x.gates g none
  | _ => x.gates

variable (delay : Nat → Nat → Nat → Nat)

def step (x : Gated) (q : GateOp) : Option Gated :=
  (x.callOf q).bind fun op => (x.trace.step delay (fun _ bytes => bytes) op).map fun t =>
    ⟨t, x.rewired q, x.made ++ [q]⟩

/-- Runs that begin with a new handle and no gate attached. -/
def runs : LTS Gated GateOp :=
  .ofFn (fun x => ∃ config, x = ⟨⟨.new config, []⟩, fun _ => none, []⟩) (step delay)

variable {delay}

theorem step_eq {x x' : Gated} {q : GateOp} (h : x.step delay q = some x') :
    ∃ op t, x.callOf q = some op ∧ x.trace.step delay (fun _ bytes => bytes) op = some t ∧
      x' = ⟨t, x.rewired q, x.made ++ [q]⟩ := by
  obtain ⟨op, hop, h⟩ := Option.bind_eq_some_iff.1 h
  obtain ⟨t, ht, rfl⟩ := Option.map_eq_some_iff.1 h
  exact ⟨op, t, hop, ht, rfl⟩

/-- The calls of the gates are a run of the handle. -/
theorem trace_reachable {x : Gated} (h : (runs delay).Reachable x) :
    (Trace.runs delay fun _ bytes => bytes).Reachable x.trace := by
  have hinv : (runs delay).Inductive fun x =>
      (Trace.runs delay fun _ bytes => bytes).Reachable x.trace := by
    refine ⟨fun x hx => ?_, fun x q x' ih hs => ?_⟩
    · obtain ⟨config, rfl⟩ := hx
      exact ⟨_, [], ⟨config, rfl⟩, .nil _⟩
    · obtain ⟨op, t, -, ht, rfl⟩ := step_eq hs
      exact ih.run (.cons ht (.nil _))
  exact hinv.reachable x h

/-- A call for an owner is made by the gate that is attached as that owner. -/
theorem callOf_eq {x : Gated} {q : GateOp} {op : Op} (h : x.callOf q = some op) :
    ∃ owner, op = q.call owner ∧
      ∀ o, ownerOf op = some o → ∃ g, q.gate = some g ∧ x.gates g = some o := by
  cases q with
  | attach g =>
    simp only [callOf] at h
    split at h
    · cases h
      exact ⟨0, rfl, fun o ho => (by cases ho)⟩
    · cases h
  | configure config => cases h; exact ⟨0, rfl, fun o ho => (by cases ho)⟩
  | outageAt duration now => cases h; exact ⟨0, rfl, fun o ho => (by cases ho)⟩
  | detach g =>
    obtain ⟨o, hg, rfl⟩ := Option.map_eq_some_iff.1 h
    exact ⟨o, rfl, fun o' ho => (by cases ho; exact ⟨g, rfl, hg⟩)⟩
  | reset g =>
    obtain ⟨o, hg, rfl⟩ := Option.map_eq_some_iff.1 h
    exact ⟨o, rfl, fun o' ho => (by cases ho; exact ⟨g, rfl, hg⟩)⟩
  | remove g id =>
    obtain ⟨o, hg, rfl⟩ := Option.map_eq_some_iff.1 h
    exact ⟨o, rfl, fun o' ho => (by cases ho; exact ⟨g, rfl, hg⟩)⟩
  | defer g d id bytes now =>
    obtain ⟨o, hg, rfl⟩ := Option.map_eq_some_iff.1 h
    exact ⟨o, rfl, fun o' ho => (by cases ho; exact ⟨g, rfl, hg⟩)⟩
  | drain g d now =>
    obtain ⟨o, hg, rfl⟩ := Option.map_eq_some_iff.1 h
    exact ⟨o, rfl, fun o' ho => (by cases ho; exact ⟨g, rfl, hg⟩)⟩

theorem apply_nextOwner {T : Type} {make : Bytes → T} {s : ServerConditioner T} {op : Op}
    {r : ServerConditioner T × Bool × List (ServerPeerId × T)} (h : s.apply delay make op = some r) :
    s.nextOwner ≤ r.1.nextOwner ∧ (op = .allocateOwner → s.nextOwner < r.1.nextOwner) := by
  cases op with
  | deferAt owner d id bytes now =>
    cases h
    exact ⟨ServerConditioner.nextOwner_deferAt .., fun hop => (by cases hop)⟩
  | drainAt owner d now =>
    cases h
    exact ⟨(ServerConditioner.within_drainAt s owner d now).nextOwner, fun hop => (by cases hop)⟩
  | configure config =>
    refine ⟨?_, fun hop => (by cases hop)⟩
    simp only [ServerConditioner.apply, ServerConditioner.configure] at h
    by_cases hvalid : config.validate = .ok ()
    · rw [dif_pos hvalid] at h
      cases h
      exact (ServerConditioner.within_reconfigure s _).nextOwner
    · rw [dif_neg hvalid] at h
      cases h
      exact Nat.le_refl _
  | outageAt duration now =>
    cases h
    exact ⟨(ServerConditioner.within_outageAt s duration now).nextOwner, fun hop => (by cases hop)⟩
  | removePeer owner id =>
    cases h
    exact ⟨(ServerConditioner.within_removePeer s owner id).nextOwner, fun hop => (by cases hop)⟩
  | removeOwner owner =>
    cases h
    exact ⟨(ServerConditioner.within_removeOwner s owner).nextOwner, fun hop => (by cases hop)⟩
  | allocateOwner =>
    simp only [ServerConditioner.apply, ServerConditioner.allocateOwner] at h
    split at h
    · cases h
      exact ⟨Nat.le_succ _, fun _ => Nat.lt_succ_self _⟩
    · cases h

/-- Before position `i` the calls for `o` were all made by `g`, which has not been
attached or detached since the first of them. -/
def Held (made : List GateOp) (log : List (Call Bytes)) (i g o : Nat) : Prop :=
  ∀ (m : Nat) (q : GateOp) (c : Call Bytes), m < i → made[m]? = some q → log[m]? = some c →
    ownerOf c.op = some o →
    q.gate = some g ∧
      ∀ k q', m < k → k < i → made[k]? = some q' → q' ≠ .attach g ∧ q' ≠ .detach g

theorem Held.snoc {made : List GateOp} {log : List (Call Bytes)} {i g o : Nat} {q : GateOp}
    {c : Call Bytes} (h : Held made log i g o) (hm : i ≤ made.length) (hl : i ≤ log.length) :
    Held (made ++ [q]) (log ++ [c]) i g o := by
  intro m q₁ c₁ hmi hq hc ho
  rw [List.getElem?_append_left (by omega)] at hq hc
  obtain ⟨hgate, hfree⟩ := h m q₁ c₁ hmi hq hc ho
  refine ⟨hgate, fun k q' hmk hki hq' => ?_⟩
  rw [List.getElem?_append_left (by omega)] at hq'
  exact hfree k q' hmk hki hq'

/-- Owner ids are not shared and not used again. -/
structure Wired (x : Gated) : Prop where
  len : x.made.length = x.trace.log.length
  calls : ∀ (k : Nat) (q : GateOp) (c : Call Bytes), x.made[k]? = some q →
    x.trace.log[k]? = some c → ∃ owner, c.op = q.call owner
  below : ∀ (k : Nat) (c : Call Bytes) o, x.trace.log[k]? = some c → ownerOf c.op = some o →
    o < x.trace.state.nextOwner
  gate : ∀ g o, x.gates g = some o →
    o < x.trace.state.nextOwner ∧ ∀ g', x.gates g' = some o → g' = g
  held : ∀ g o, x.gates g = some o → Held x.made x.trace.log x.trace.log.length g o
  past : ∀ (i : Nat) (q : GateOp) (c : Call Bytes) g o, x.made[i]? = some q →
    x.trace.log[i]? = some c → q.gate = some g →
    ownerOf c.op = some o → Held x.made x.trace.log i g o

/-- What `attach` and `detach` do to the gates. -/
theorem rewired_cases {x : Gated} {q : GateOp} {g o : Nat} (h : x.rewired q g = some o) :
    q = .attach g ∧ o = x.trace.state.nextOwner ∨
      x.gates g = some o ∧ q ≠ .attach g ∧ q ≠ .detach g := by
  cases q with
  | attach g' =>
    simp only [rewired, Function.update_apply] at h
    split at h
    · rename_i hg
      subst hg
      exact .inl ⟨rfl, (Option.some.inj h).symm⟩
    · rename_i hg
      exact .inr ⟨h, fun he => hg (GateOp.attach.inj he).symm, fun he => (by cases he)⟩
  | detach g' =>
    simp only [rewired, Function.update_apply] at h
    split at h
    · cases h
    · rename_i hg
      exact .inr ⟨h, fun he => (by cases he), fun he => hg (GateOp.detach.inj he).symm⟩
  | reset g' => exact .inr ⟨h, fun he => (by cases he), fun he => (by cases he)⟩
  | remove g' id => exact .inr ⟨h, fun he => (by cases he), fun he => (by cases he)⟩
  | defer g' d id bytes now => exact .inr ⟨h, fun he => (by cases he), fun he => (by cases he)⟩
  | drain g' d now => exact .inr ⟨h, fun he => (by cases he), fun he => (by cases he)⟩
  | configure config => exact .inr ⟨h, fun he => (by cases he), fun he => (by cases he)⟩
  | outageAt duration now => exact .inr ⟨h, fun he => (by cases he), fun he => (by cases he)⟩

theorem callOf_attach {x : Gated} {g : Nat} {op : Op} (h : x.callOf (.attach g) = some op) :
    op = .allocateOwner := by
  simp only [callOf] at h
  split at h
  · exact (Option.some.inj h).symm
  · cases h

theorem Wired.step {x x' : Gated} {q : GateOp} (h : Wired x) (hs : x.step delay q = some x') :
    Wired x' := by
  obtain ⟨op, t, hop, ht, rfl⟩ := step_eq hs
  obtain ⟨r, hr, rfl⟩ := Trace.step_eq delay _ ht
  obtain ⟨owner, hcall, howner⟩ := callOf_eq hop
  obtain ⟨hnext, hfresh⟩ := apply_nextOwner hr
  have hlen := h.len
  refine ⟨?_, ?_, ?_, ?_, ?_, ?_⟩
  · simp only [Trace.logged, List.length_append, List.length_singleton, hlen]
  · intro k q' c hq hc
    rcases get_snoc hq with ⟨hk, hq⟩ | ⟨hk, rfl⟩
    · rcases get_snoc hc with ⟨-, hc⟩ | ⟨hk', -⟩
      · exact h.calls k q' c hq hc
      · omega
    · rcases get_snoc hc with ⟨hk', -⟩ | ⟨-, rfl⟩
      · omega
      · exact ⟨owner, hcall⟩
  · intro k c o hc ho
    rcases get_snoc hc with ⟨-, hc⟩ | ⟨-, rfl⟩
    · exact Nat.lt_of_lt_of_le (h.below k c o hc ho) hnext
    · obtain ⟨g, -, hg⟩ := howner o ho
      exact Nat.lt_of_lt_of_le (h.gate g o hg).1 hnext
  · intro g o hg
    rcases rewired_cases hg with ⟨rfl, rfl⟩ | ⟨hg, -, -⟩
    · refine ⟨hfresh (callOf_attach hop), fun g' hg' => ?_⟩
      rcases rewired_cases (show x.rewired (.attach g) g' = _ from hg') with ⟨he, -⟩ | ⟨hold, -, -⟩
      · exact (GateOp.attach.inj he).symm
      · exact absurd (h.gate g' _ hold).1 (Nat.lt_irrefl _)
    · refine ⟨Nat.lt_of_lt_of_le (h.gate g o hg).1 hnext, fun g' hg' => ?_⟩
      rcases rewired_cases (show x.rewired q g' = _ from hg') with ⟨-, rfl⟩ | ⟨hold, -, -⟩
      · exact absurd (h.gate g _ hg).1 (Nat.lt_irrefl _)
      · exact (h.gate g o hg).2 g' hold
  · intro g o hg m q₁ c₁ hm hq hc ho
    rcases rewired_cases hg with ⟨rfl, rfl⟩ | ⟨hold, hna, hnd⟩
    · -- a fresh id: no call was made for it
      rcases get_snoc hc with ⟨-, hc⟩ | ⟨-, rfl⟩
      · exact absurd (h.below m c₁ _ hc ho) (Nat.lt_irrefl _)
      · rw [callOf_attach hop] at ho
        cases ho
    · rcases get_snoc hq with ⟨hmk, hq⟩ | ⟨hmk, rfl⟩
      · rcases get_snoc hc with ⟨hml, hc⟩ | ⟨hml, -⟩
        · obtain ⟨hgate, hfree⟩ := h.held g o hold m q₁ c₁ hml hq hc ho
          refine ⟨hgate, fun k q' hk hki hq' => ?_⟩
          rcases get_snoc hq' with ⟨hkl, hq'⟩ | ⟨-, rfl⟩
          · exact hfree k q' hk (by omega) hq'
          · exact ⟨hna, hnd⟩
        · omega
      · rcases get_snoc hc with ⟨hml, -⟩ | ⟨-, rfl⟩
        · omega
        · obtain ⟨g', hgate, hg'⟩ := howner o ho
          have hsame := (h.gate g o hold).2 g' hg'
          subst hsame
          refine ⟨hgate, fun k q' hk hki hq' => ?_⟩
          have hkl := (List.getElem?_eq_some_iff.1 hq').1
          simp only [List.length_append, List.length_singleton] at hkl
          omega
  · intro i q' c g o hq hc hgate ho
    rcases get_snoc hq with ⟨hk, hq⟩ | ⟨hk, rfl⟩
    · rcases get_snoc hc with ⟨hk', hc⟩ | ⟨hk', -⟩
      · exact (h.past i q' c g o hq hc hgate ho).snoc (Nat.le_of_lt hk) (Nat.le_of_lt hk')
      · omega
    · rcases get_snoc hc with ⟨hk', -⟩ | ⟨hk', rfl⟩
      · omega
      · obtain ⟨g', hgate', hg'⟩ := howner o ho
        rw [hgate] at hgate'
        cases hgate'
        rw [hk']
        exact (h.held g o hg').snoc (Nat.le_of_eq hlen.symm) (Nat.le_refl _)

theorem wired_inductive (delay : Nat → Nat → Nat → Nat) : (runs delay).Inductive Wired where
  init := by
    intro x hx
    obtain ⟨config, rfl⟩ := hx
    refine ⟨rfl, fun k q c hq => ?_, fun k c o hc => ?_, fun g o hg => ?_, fun g o hg => ?_,
      fun i q c g o hq => ?_⟩
    · simp at hq
    · simp at hc
    · cases hg
    · cases hg
    · simp at hq
  step := fun _ _ _ h hs => h.step hs

/-- A packet returned to a gate was deferred by it, since it was last attached. -/
theorem drained_by_gate {x : Gated} (hx : (runs delay).Reachable x) {m : Nat → Nat → Nat}
    (hm : Trace.Delivered x.trace.log m) {i g : Nat} {d : ConditionerDirection} {now : Nat}
    {c : Call Bytes} {j : Nat} {id : ServerPeerId} {bytes : Bytes}
    (hmade : x.made[i]? = some (.drain g d now)) (hc : x.trace.log[i]? = some c)
    (hitem : c.items[j]? = some (id, bytes)) :
    (∃ now', x.made[m i j]? = some (.defer g d id bytes now')) ∧
      ∀ k q, m i j < k → k < i → x.made[k]? = some q → q ≠ .attach g ∧ q ≠ .detach g := by
  have hwired := (wired_inductive delay).reachable x hx
  obtain ⟨owner, hop⟩ := hwired.calls i _ c hmade hc
  obtain ⟨hlt, ⟨c', now', hc', hop', -⟩, -⟩ := hm.call hc hop hitem
  have hmk : m i j < x.made.length := by
    rw [hwired.len]
    exact (List.getElem?_eq_some_iff.1 hc').1
  have hget := List.getElem?_eq_getElem hmk
  obtain ⟨hgate, hfree⟩ := hwired.past i _ c g owner hmade hc rfl (by rw [hop]; rfl) (m i j) _ c' hlt
    hget hc' (by rw [hop']; rfl)
  refine ⟨?_, hfree⟩
  -- the call at that position is a `defer`, so it was made by one
  obtain ⟨owner', hcall⟩ := hwired.calls (m i j) _ c' hget hc'
  rw [hop'] at hcall
  generalize x.made[m i j] = q at hget hgate hcall
  cases q with
  | defer g' d' id' bytes' now'' =>
    obtain ⟨-, rfl, rfl, rfl, rfl⟩ := Op.deferAt.inj hcall
    obtain rfl := Option.some.inj hgate
    exact ⟨now', hget⟩
  | attach g' => cases hcall
  | detach g' => cases hcall
  | reset g' => cases hcall
  | remove g' id' => cases hcall
  | drain g' d' now'' => cases hcall
  | configure config => cases hcall
  | outageAt duration now'' => cases hcall

/-- Packets are delivered intact, at most once, and only to the transport that
deferred them:

* in every run of a handle, the packets returned by `drain_at` are matched with
  distinct earlier calls of `defer_at` for the same owner, direction, id and bytes
  that took the packet, with no removal, expiry or eviction of the peer in between;
  as long as `configure` and `outage_at` have changed the handle fewer than
  `2^64 - 1` times, neither was called in between either;
* a removal leaves the entries of other owners alone, and so does a drain, idle
  ones aside;
* a packet returned to a gate was deferred by it, and it was neither attached nor
  detached in between. -/
theorem conditioned_delivery (delay : Nat → Nat → Nat → Nat) :
    (∀ u, (Trace.runs delay fun _ bytes => bytes).Reachable u →
      ∃ m, Trace.Delivered u.log m ∧ (u.flushes < U64_MAX → Trace.Undisturbed u.log m)) ∧
    (∀ (s : ServerConditioner Bytes) owner id p, p.owner ≠ owner →
      ((s.removeOwner owner).peers.get id = some p ↔ s.peers.get id = some p) ∧
      (∀ id', (s.removePeer owner id').peers.get id = some p ↔ s.peers.get id = some p) ∧
      ∀ d now, (s.drainAt owner d now).1.peers.get id = some p ↔
        s.peers.get id = some p ∧ id ∉ s.expiring now) ∧
    ∀ x, (runs delay).Reachable x → ∃ m, Trace.Delivered x.trace.log m ∧
      ∀ (i g : Nat) d now (c : Call Bytes) (j : Nat) id bytes, x.made[i]? = some (.drain g d now) →
        x.trace.log[i]? = some c → c.items[j]? = some (id, bytes) →
        (∃ now', x.made[m i j]? = some (.defer g d id bytes now')) ∧
          ∀ k q, m i j < k → k < i → x.made[k]? = some q → q ≠ .attach g ∧ q ≠ .detach g := by
  refine ⟨fun u hu => Trace.exists_delivered hu, ?_, ?_⟩
  · intro s owner id p ho
    refine ⟨?_, fun id' => ?_, fun d now => Trace.get_drainAt_other ho⟩
    · rw [ServerConditioner.get_removeOwner]
      exact ⟨And.left, fun h => ⟨h, ho⟩⟩
    · rw [ServerConditioner.get_removePeer]
      exact ⟨And.left, fun h => ⟨h, fun hand => ho hand.2⟩⟩
  · intro x hx
    obtain ⟨m, hm, -⟩ := Trace.exists_delivered (trace_reachable hx)
    exact ⟨m, hm, fun i g d now c j id bytes hmade hc hitem => drained_by_gate hx hm hmade hc hitem⟩

/-- One gate, attached, that defers a packet and drains it. -/
def oneGate : Gated :=
  let next := fun (x : Gated) q => (x.step Trace.byLatency q).getD x
  next (next (next ⟨⟨.new Trace.late, []⟩, fun _ => none, []⟩ (.attach 0))
    (.defer 0 .incoming (.webRtc 7) [1] 0)) (.drain 0 .incoming 5)

theorem oneGate_reachable : (runs Trace.byLatency).Reachable oneGate :=
  ⟨_, [.attach 0, .defer 0 .incoming (.webRtc 7) [1] 0, .drain 0 .incoming 5], ⟨Trace.late, rfl⟩,
    .cons rfl (.cons rfl (.cons rfl (.nil _)))⟩

theorem conditioned_delivery_oneGate :
    (∃ m, Trace.Undisturbed Trace.firstQueued.log m) ∧
      ((Trace.firstQueued.state.removeOwner 2).peers.get (.webRtc 7) =
          some (Trace.firstQueued.state.newPeer 1 (.webRtc 7)) ↔
        Trace.firstQueued.state.peers.get (.webRtc 7) =
          some (Trace.firstQueued.state.newPeer 1 (.webRtc 7))) ∧
      ∃ m : Nat → Nat → Nat,
        ∃ now', oneGate.made[m 2 0]? = some (.defer 0 .incoming (.webRtc 7) [1] now') := by
  obtain ⟨hrun, hframe, hgate⟩ := conditioned_delivery Trace.byLatency
  obtain ⟨m, -, hm⟩ := hrun Trace.firstQueued Trace.firstQueued_reachable
  obtain ⟨m', -, hm'⟩ := hgate oneGate oneGate_reachable
  have hflushes : Trace.firstQueued.flushes < U64_MAX := by decide +kernel
  refine ⟨⟨m, hm hflushes⟩, (hframe Trace.firstQueued.state 2 _ _ (by decide)).1, m', ?_⟩
  have hitems : ((oneGate.trace.log[2]?).map Call.items) = some [(.webRtc 7, [1])] := by decide +kernel
  obtain ⟨c, hc, hcitems⟩ := Option.map_eq_some_iff.1 hitems
  have hitem : c.items[0]? = some (.webRtc 7, [1]) := by
    rw [hcitems]
    rfl
  exact (hm' 2 0 .incoming 5 c 0 _ _ rfl hc hitem).1

/-- When the revision comes round, a packet is returned that was deferred before
`configure` was called: no matching avoids that. -/
theorem returned_across_configure : ∃ u,
    (Trace.runs Trace.byLatency fun _ bytes => bytes).Reachable u ∧
      ¬ ∃ m, Trace.Delivered u.log m ∧ Trace.Undisturbed u.log m := by
  refine ⟨Trace.firstReturned, Trace.firstReturned_reachable, ?_⟩
  intro h
  obtain ⟨m, hm, hfree⟩ := h
  rw [Trace.firstReturned_log] at hm hfree
  have hlast : (Trace.firstQueued.log ++ Trace.between ++ [Trace.lastDrain])[
      (Trace.firstQueued.log ++ Trace.between).length]? = some Trace.lastDrain :=
    List.getElem?_concat_length
  have hitem : Trace.lastDrain.items[0]? = some (.webRtc 7, [1]) := by
    rw [Trace.lastDrain_items]
    rfl
  obtain ⟨hlt, ⟨c, now, hc, hop, -⟩, -⟩ := hm.call hlast rfl hitem
  by_cases hzero : m (Trace.firstQueued.log ++ Trace.between).length 0 = 0
  · -- deferred by the first call, and the second was a `configure`
    have hflush := hfree _ _ 0 hlast (by rw [Trace.lastDrain_items]; decide) 1 _
      (by rw [hzero]; decide) Trace.one_lt_length Trace.firstReturned_second
    cases hflush
  · have hlen := Trace.length_firstQueued
    rw [List.append_assoc, List.getElem?_append_right (by omega)] at hc
    rcases List.mem_append.1 (List.mem_of_getElem? hc) with hc | hc
    · exact Trace.op_of_mem_between hc hop
    · rw [List.mem_singleton.1 hc] at hop
      cases hop

end Gated
end RenetCross.L4
