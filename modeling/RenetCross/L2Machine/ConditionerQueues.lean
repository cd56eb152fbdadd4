import RenetCross.L2Machine.ServerConditioner

/-!
# Where the packets in a conditioner's queues come from

`Holds s owner d id x`: the conditioner holds `x` for the peer `id` of `owner`,
to be released in direction `d`. Only `defer_at` ever adds to this relation, and
only the packet it was given under the owner, direction and id it was given; a
drain returns packets held for the drained owner; every other call, whoever
makes it, only takes packets away. After `remove_peer` or `remove_owner` nothing
is held for that peer or owner, and an owner id that was just allocated has
nothing (`Owned`).
-/
namespace RenetCross.L2

variable {T : Type}

/-! ## One engine -/

/-- The packet waits in the queue of this direction. -/
def PacketConditioner.Holds (e : PacketConditioner T) (d : ConditionerDirection) (x : T) : Prop :=
  ∃ q ∈ e.queues d, q.payload = x

/-- Scheduling adds the new packet and no other. -/
theorem mem_schedule {p q : Scheduled T} :
    ∀ {queue : List (Scheduled T)}, q ∈ schedule p queue → q = p ∨ q ∈ queue
  | [], h => .inl (List.mem_singleton.1 h)
  | r :: rest, h => by
    unfold schedule at h
    split at h
    · exact List.mem_cons.1 h
    · rcases List.mem_cons.1 h with rfl | h
      · exact .inr List.mem_cons_self
      · exact (mem_schedule h).imp_right (List.mem_cons_of_mem _)

/-- What `drain_ready` returns was in the queue, and so is what it leaves there. -/
theorem mem_popReady (now : Nat) :
    ∀ (queue : List (Scheduled T)) (stats : DirectionStats),
      (∀ q ∈ (popReady now queue stats).1, q ∈ queue) ∧
        ∀ x ∈ (popReady now queue stats).2.2, ∃ q ∈ queue, q.payload = x
  | [], _ => ⟨fun _ h => h, fun _ h => absurd h List.not_mem_nil⟩
  | p :: rest, stats => by
    unfold popReady
    split
    · obtain ⟨hkept, hout⟩ := mem_popReady now rest { stats with
        queuedPackets := stats.queuedPackets - 1
        queuedBytes := stats.queuedBytes - p.bytes }
      refine ⟨fun q h => List.mem_cons_of_mem _ (hkept q h), fun x h => ?_⟩
      rcases List.mem_cons.1 h with rfl | h
      · exact ⟨p, List.mem_cons_self, rfl⟩
      · obtain ⟨q, hq, hx⟩ := hout x h
        exact ⟨q, List.mem_cons_of_mem _ hq, hx⟩
    · exact ⟨fun _ h => h, fun _ h => absurd h List.not_mem_nil⟩

namespace PacketConditioner

theorem holds_sync {e : PacketConditioner T} (now : Nat) {d : ConditionerDirection} {x : T}
    (h : (e.sync now).Holds d x) : e.Holds d x := by
  simp only [Holds, sync, expire, resync] at h
  split at h
  · obtain ⟨q, hq, _⟩ := h
    exact absurd hq List.not_mem_nil
  · exact h

theorem holds_push {e : PacketConditioner T} {delay : Nat → Nat → Nat → Nat}
    {d d' : ConditionerDirection} {payload x : T} {byteLen : Nat}
    (h : (e.push delay d payload byteLen).Holds d' x) : e.Holds d' x ∨ d' = d ∧ x = payload := by
  obtain ⟨q, hq, rfl⟩ := h
  simp only [push, count, Function.update_apply] at hq
  split at hq
  · rename_i hd
    subst hd
    rcases mem_schedule hq with rfl | hq
    · exact .inr ⟨rfl, rfl⟩
    · exact .inl ⟨q, hq, rfl⟩
  · exact .inl ⟨q, hq, rfl⟩

theorem holds_impair {e : PacketConditioner T} {delay : Nat → Nat → Nat → Nat}
    {d d' : ConditionerDirection} {payload x : T} {byteLen : Nat}
    (h : (e.impair delay d payload byteLen).Holds d' x) : e.Holds d' x ∨ d' = d ∧ x = payload := by
  unfold impair at h
  split at h
  dsimp only at h
  split at h
  · exact .inl h
  · split at h
    · exact .inl h
    · rcases holds_push h with ⟨q, hq, hx⟩ | h
      · exact .inl ⟨q, hq, hx⟩
      · exact .inr h

/-- A call of `enqueue` adds its own packet at most, on every one of its paths. -/
theorem holds_enqueue {e : PacketConditioner T} {delay : Nat → Nat → Nat → Nat}
    {d d' : ConditionerDirection} {now : Nat} {payload x : T} {byteLen : Nat}
    (h : (e.enqueue delay d now payload byteLen).1.Holds d' x) :
    e.Holds d' x ∨ d' = d ∧ x = payload := by
  unfold enqueue at h
  dsimp only at h
  split at h
  · exact .inl (holds_sync now h)
  · split at h
    · exact .inl (holds_sync now h)
    · exact (holds_impair h).imp_left (holds_sync now)

theorem holds_drainReady (e : PacketConditioner T) (d : ConditionerDirection) (now : Nat) :
    (∀ d' x, (e.drainReady d now).1.Holds d' x → e.Holds d' x) ∧
      ∀ x ∈ (e.drainReady d now).2, e.Holds d x := by
  have hpop := mem_popReady (e.sync now).lastNow ((e.sync now).queues d)
    ((e.sync now).handle.stats.direction d)
  refine ⟨fun d' x h => holds_sync now ?_, fun x h => holds_sync now (hpop.2 x h)⟩
  obtain ⟨q, hq, hx⟩ := h
  simp only [drainReady, count, Function.update_apply] at hq
  split at hq
  · rename_i hd
    subst hd
    exact ⟨q, hpop.1 q hq, hx⟩
  · exact ⟨q, hq, hx⟩

theorem holds_impose {e : PacketConditioner T} {remaining : Option Nat} {d : ConditionerDirection}
    {x : T} : (ServerConditioner.impose remaining e).Holds d x ↔ e.Holds d x := by
  unfold ServerConditioner.impose
  split <;> exact Iff.rfl

end PacketConditioner

/-! ## The server's conditioner -/

namespace ServerConditioner

/-- The entry of `id` belongs to the owner, and the packet waits in its engine. -/
def Holds (s : ServerConditioner T) (owner : Nat) (d : ConditionerDirection) (id : ServerPeerId)
    (x : T) : Prop :=
  ∃ p, s.peers.get id = some p ∧ p.owner = owner ∧ p.engine.Holds d x

/-- Every peer belongs to an owner id that was handed out. -/
def Owned (s : ServerConditioner T) : Prop :=
  ∀ id p, s.peers.get id = some p → p.owner < s.nextOwner

/-- Peers may be missing and queues may be shorter; nothing is new. -/
structure Within (s' s : ServerConditioner T) : Prop where
  peers : ∀ id p', s'.peers.get id = some p' → ∃ p, s.peers.get id = some p ∧ p.owner = p'.owner ∧
    ∀ d x, p'.engine.Holds d x → p.engine.Holds d x
  nextOwner : s.nextOwner ≤ s'.nextOwner

theorem Within.refl (s : ServerConditioner T) : Within s s :=
  ⟨fun _ p h => ⟨p, h, rfl, fun _ _ h => h⟩, Nat.le_refl _⟩

theorem Within.trans {s s' s'' : ServerConditioner T} (h : Within s'' s') (h' : Within s' s) :
    Within s'' s := by
  refine ⟨fun id p'' hp'' => ?_, h'.nextOwner.trans h.nextOwner⟩
  obtain ⟨p', hp', ho', hq'⟩ := h.peers id p'' hp''
  obtain ⟨p, hp, ho, hq⟩ := h'.peers id p' hp'
  exact ⟨p, hp, ho.trans ho', fun d x hx => hq d x (hq' d x hx)⟩

/-- What is held within is held outside. -/
theorem Within.holds {s s' : ServerConditioner T} (h : Within s' s) {owner : Nat}
    {d : ConditionerDirection} {id : ServerPeerId} {x : T} (hx : s'.Holds owner d id x) :
    s.Holds owner d id x := by
  obtain ⟨p', hp', ho', hq'⟩ := hx
  obtain ⟨p, hp, ho, hq⟩ := h.peers id p' hp'
  exact ⟨p, hp, ho.trans ho', hq d x hq'⟩

/-- No new owner appears. -/
theorem Within.owned {s s' : ServerConditioner T} (h : Within s' s) (ho : s.Owned) : s'.Owned := by
  intro id p' hp'
  obtain ⟨p, hp, hpo, _⟩ := h.peers id p' hp'
  rw [← hpo]
  exact Nat.lt_of_lt_of_le (ho id p hp) h.nextOwner

theorem Within.foldl {f : ServerConditioner T → ServerPeerId → ServerConditioner T}
    (hf : ∀ s id, Within (f s id) s) :
    ∀ (ids : List ServerPeerId) (s : ServerConditioner T), Within (ids.foldl f s) s
  | [], s => .refl s
  | id :: ids, s => (Within.foldl hf ids (f s id)).trans (hf s id)

theorem get_retire (s : ServerConditioner T) (id id' : ServerPeerId) :
    (s.retire id).peers.get id' = if id' = id then none else s.peers.get id' := by
  unfold retire
  split
  · rename_i hp
    split
    · rename_i h; rw [h]; exact hp
    · rfl
  · exact HashMap.get_remove s.peers id id'

theorem nextOwner_retire (s : ServerConditioner T) (id : ServerPeerId) :
    (s.retire id).nextOwner = s.nextOwner := by
  unfold retire; split <;> rfl

/-- Retiring a peer takes its queues away. -/
theorem within_retire (s : ServerConditioner T) (id : ServerPeerId) : Within (s.retire id) s := by
  refine ⟨fun id' p' h => ?_, (nextOwner_retire s id).ge⟩
  rw [get_retire] at h
  split at h
  · cases h
  · exact ⟨p', h, rfl, fun _ _ h => h⟩

theorem within_poll (s : ServerConditioner T) (now : Nat) : Within (s.poll now) s := by
  have hclamp : Within (s.clamp now) s := ⟨(Within.refl s).peers, Nat.le_refl _⟩
  refine Within.trans ?_ hclamp
  unfold poll cleanup
  split
  · have hf := Within.foldl (f := expirePeer)
      (fun s id => ⟨(within_retire s id).peers, (within_retire s id).nextOwner⟩)
      ((s.clamp now).idsWhere fun p => (s.clamp now).now - p.lastSeen ≥
        (s.clamp now).config.1.idleTimeout) (s.clamp now)
    exact ⟨hf.peers, hf.nextOwner⟩
  · exact .refl _

/-- So does evicting the oldest ones, however many. -/
theorem within_evict : ∀ (n : Nat) (s : ServerConditioner T), Within (s.evict n) s
  | 0, s => .refl s
  | n + 1, s => by
    unfold evict
    split
    · split
      · rename_i id _; exact (within_evict n _).trans (within_retire s id)
      · exact .refl s
    · exact .refl s

/-- An update of every peer that leaves owners alone and queues nothing. -/
theorem within_mapVal {s s' : ServerConditioner T} {f : ServerPeerId → Peer T → Peer T}
    (hs : s'.peers = s.peers.mapVal f) (hn : s'.nextOwner = s.nextOwner)
    (hf : ∀ id p, (f id p).owner = p.owner ∧ ∀ d x, (f id p).engine.Holds d x → p.engine.Holds d x) :
    Within s' s := by
  refine ⟨fun id p' h => ?_, hn.ge⟩
  rw [hs, HashMap.get_mapVal, Option.map_eq_some_iff] at h
  obtain ⟨p, hp, rfl⟩ := h
  exact ⟨p, hp, (hf id p).1.symm, (hf id p).2⟩

theorem within_reconfigure (s : ServerConditioner T) (config : ValidServerConfig) :
    Within (s.reconfigure config) s := by
  refine (within_evict _ _).trans (within_mapVal (f := fun id p =>
    { p with engine.handle := p.engine.handle.reconfigure (peerConfig config.packets id) })
    rfl rfl fun _ _ => ⟨rfl, fun _ _ h => h⟩)

theorem within_outageAt (s : ServerConditioner T) (duration now : Nat) :
    Within (s.outageAt duration now) s := by
  refine .trans ?_ (within_poll s now)
  exact within_mapVal (f := fun _ p => flushed p) rfl rfl fun _ _ => ⟨rfl, fun _ _ h => h⟩

theorem within_removeOwner (s : ServerConditioner T) (owner : Nat) : Within (s.removeOwner owner) s :=
  Within.foldl within_retire _ s

theorem within_removePeer (s : ServerConditioner T) (owner : Nat) (id : ServerPeerId) :
    Within (s.removePeer owner id) s := by
  unfold removePeer
  split
  · exact within_retire s id
  · exact .refl s

/-- Draining a peer returns packets that were held for the caller, and keeps the rest where
they were. -/
theorem drainPeer_holds (owner : Nat) (d : ConditionerDirection) (now : Nat) (remaining : Option Nat)
    (p : Peer T) :
    (drainPeer owner d now remaining p).1.owner = p.owner ∧
      (∀ d' x, (drainPeer owner d now remaining p).1.engine.Holds d' x → p.engine.Holds d' x) ∧
      ∀ x ∈ (drainPeer owner d now remaining p).2, p.owner = owner ∧ p.engine.Holds d x := by
  unfold drainPeer
  split
  · rename_i ho
    obtain ⟨hkept, hout⟩ := PacketConditioner.holds_drainReady (impose remaining p.engine) d now
    exact ⟨rfl, fun d' x h => PacketConditioner.holds_impose.1 (hkept d' x h),
      fun x h => ⟨ho, PacketConditioner.holds_impose.1 (hout x h)⟩⟩
  · exact ⟨rfl, fun _ _ h => h, fun _ h => absurd h List.not_mem_nil⟩

theorem within_drainAt (s : ServerConditioner T) (owner : Nat) (d : ConditionerDirection) (now : Nat) :
    Within (s.drainAt owner d now).1 s := by
  refine .trans ?_ (within_poll s now)
  refine within_mapVal
    (f := fun _ p => (drainPeer owner d (s.poll now).now (s.poll now).outageRemaining p).1) rfl rfl ?_
  intro _ p
  obtain ⟨howner, hkept, _⟩ := drainPeer_holds owner d (s.poll now).now (s.poll now).outageRemaining p
  exact ⟨howner, hkept⟩

/-- A drain returns what was held for the drained owner and direction. -/
theorem drainAt_holds {s : ServerConditioner T} {owner : Nat} {d : ConditionerDirection} {now : Nat}
    {x : ServerPeerId × T} (h : x ∈ (s.drainAt owner d now).2) : s.Holds owner d x.1 x.2 := by
  simp only [drainAt, List.mem_flatMap, List.mem_map] at h
  obtain ⟨⟨id, p⟩, hmem, y, hy, rfl⟩ := h
  obtain ⟨ho, hq⟩ := (drainPeer_holds _ _ _ _ p).2.2 y hy
  exact (within_poll s now).holds ⟨p, HashMap.get_eq_some.2 hmem, ho, hq⟩

variable {delay : Nat → Nat → Nat → Nat}

/-- A deferred packet is held for the owner of the entry it came to. -/
theorem deferTo_adds {s : ServerConditioner T} {owner : Nat} {d : ConditionerDirection}
    {id : ServerPeerId} {payload : T} {byteLen : Nat} {p : Peer T}
    (hp : ∀ x d', p.engine.Holds d' x → s.Holds p.owner d' id x) {owner' : Nat}
    {d' : ConditionerDirection} {id' : ServerPeerId} {x : T}
    (h : (s.deferTo delay owner d id payload byteLen p).1.Holds owner' d' id' x) :
    s.Holds owner' d' id' x ∨ owner' = owner ∧ d' = d ∧ id' = id ∧ x = payload := by
  unfold deferTo at h
  split at h
  · exact .inl h
  · rename_i ho
    obtain ⟨p', hp', ho', hq⟩ := h
    simp only [HashMap.get_sortedInsert] at hp'
    split at hp'
    · rename_i hid
      cases hp'
      rcases PacketConditioner.holds_enqueue hq with hq | ⟨rfl, rfl⟩
      · rw [hid, ← ho']
        exact .inl (hp x d' (PacketConditioner.holds_impose.1 hq))
      · exact .inr ⟨ho'.symm.trans (not_not.1 ho), rfl, hid, rfl⟩
    · exact .inl ⟨p', hp', ho', hq⟩

/-- A peer starts with empty queues. -/
theorem holds_newPeer {s : ServerConditioner T} {owner : Nat} {id : ServerPeerId}
    {d : ConditionerDirection} {x : T} : ¬ (s.newPeer owner id).engine.Holds d x := by
  rintro ⟨q, hq, _⟩
  exact absurd hq List.not_mem_nil

/-- `defer_at` adds at most the packet it was given, where it was told to. -/
theorem deferAt_adds {s : ServerConditioner T} {owner : Nat} {d : ConditionerDirection}
    {id : ServerPeerId} {payload : T} {byteLen now : Nat} {owner' : Nat} {d' : ConditionerDirection}
    {id' : ServerPeerId} {x : T}
    (h : (s.deferAt delay owner d id payload byteLen now).1.Holds owner' d' id' x) :
    s.Holds owner' d' id' x ∨ owner' = owner ∧ d' = d ∧ id' = id ∧ x = payload := by
  have hpoll := within_poll s now
  unfold deferAt at h
  dsimp only at h
  split at h
  · exact .inl (hpoll.holds h)
  · split at h
    · rename_i p hp
      exact (deferTo_adds (fun x d' hx => ⟨p, hp, rfl, hx⟩) h).imp_left hpoll.holds
    · split at h
      · exact .inl (hpoll.holds h)
      · exact (deferTo_adds (fun x d' hx => absurd hx holds_newPeer) h).imp_left hpoll.holds

theorem deferTo_owned {s : ServerConditioner T} {owner : Nat} {d : ConditionerDirection}
    {id : ServerPeerId} {payload : T} {byteLen : Nat} {p : Peer T} (hs : s.Owned)
    (ho : owner < s.nextOwner) : (s.deferTo delay owner d id payload byteLen p).1.Owned := by
  unfold deferTo
  split
  · exact hs
  · rename_i hp
    intro id' p' h
    simp only [HashMap.get_sortedInsert] at h
    split at h
    · cases h
      rw [← not_not.1 hp] at ho
      exact ho
    · exact hs id' p' h

theorem deferAt_owned (delay : Nat → Nat → Nat → Nat) {s : ServerConditioner T} {owner : Nat}
    (d : ConditionerDirection) (id : ServerPeerId) (payload : T) (byteLen now : Nat) (hs : s.Owned)
    (ho : owner < s.nextOwner) : (s.deferAt delay owner d id payload byteLen now).1.Owned := by
  have hpoll := within_poll s now
  have hs' := hpoll.owned hs
  have ho' := Nat.lt_of_lt_of_le ho hpoll.nextOwner
  unfold deferAt
  dsimp only
  split
  · exact hs'
  · split
    · exact deferTo_owned hs' ho'
    · split
      · exact hs'
      · exact deferTo_owned hs' ho'

theorem nextOwner_deferAt (delay : Nat → Nat → Nat → Nat) (s : ServerConditioner T) (owner : Nat)
    (d : ConditionerDirection) (id : ServerPeerId) (payload : T) (byteLen now : Nat) :
    s.nextOwner ≤ (s.deferAt delay owner d id payload byteLen now).1.nextOwner := by
  refine (within_poll s now).nextOwner.trans (Nat.le_of_eq ?_)
  unfold deferAt deferTo
  dsimp only
  repeat' split
  all_goals rfl

/-! ## What removal leaves -/

/-- After `remove_peer` nothing is held for the owner under this id. -/
theorem removePeer_not_holds {s : ServerConditioner T} {owner : Nat} {d : ConditionerDirection}
    {id : ServerPeerId} {x : T} : ¬ (s.removePeer owner id).Holds owner d id x := by
  rintro ⟨p, hp, ho, _⟩
  unfold removePeer at hp
  split at hp
  · rw [get_retire, if_pos rfl] at hp
    cases hp
  · rename_i hn
    rw [hp] at hn
    exact hn (by simpa using ho)

/-- Every other peer's queues, of any owner, stay as they are. -/
theorem get_removePeer_ne (s : ServerConditioner T) (owner : Nat) {id id' : ServerPeerId}
    (h : id' ≠ id) : (s.removePeer owner id).peers.get id' = s.peers.get id' := by
  unfold removePeer
  split
  · rw [get_retire, if_neg h]
  · rfl

theorem get_foldl_retire (ids : List ServerPeerId) (s : ServerConditioner T) (id : ServerPeerId) :
    (ids.foldl retire s).peers.get id = if id ∈ ids then none else s.peers.get id := by
  induction ids generalizing s with
  | nil => rfl
  | cons i rest ih =>
    rw [List.foldl_cons, ih, get_retire]
    by_cases hi : id = i <;> by_cases hr : id ∈ rest <;> simp [hi, hr]

/-- Nothing is held for an owner id that was just allocated. -/
theorem allocateOwner_fresh {s s' : ServerConditioner T} {owner : Nat}
    (h : s.allocateOwner = some (s', owner)) (ho : s.Owned) :
    Within s' s ∧ owner < s'.nextOwner ∧ ∀ d id x, ¬ s'.Holds owner d id x := by
  unfold allocateOwner at h
  split at h
  · cases h
    refine ⟨⟨(Within.refl s).peers, Nat.le_succ _⟩, Nat.lt_succ_self _, ?_⟩
    rintro d id x ⟨p, hp, hpo, _⟩
    exact absurd hpo (Nat.ne_of_lt (ho id p hp))
  · cases h

theorem owned_new (config : ValidServerConfig) : (new config : ServerConditioner T).Owned := by
  intro id p h
  cases h

end ServerConditioner
end RenetCross.L2
