import RenetCross.L2Machine.ServerTrace

/-!
# What the conditioner does not look at

`poll`, the removals and the eviction read of a peer its owner, when it was last
seen and its counters, so they commute with every update of the peers that keeps
these three (`Blind`). One such update replaces the payloads: no call looks at them
(`Trace.step_map`), and a run whose packets carry the position of the call that
deferred them is, with the positions erased, the run on the bytes alone.
-/
namespace RenetCross.L2

namespace ServerConditioner

variable {T U : Type}

/-- An update of the peers. -/
def mapPeers (f : Peer T → Peer U) (s : ServerConditioner T) : ServerConditioner U where
  config := s.config
  peers := s.peers.mapVal fun _ p => f p
  retired := s.retired
  peerLimitDrops := s.peerLimitDrops
  expiredPeers := s.expiredPeers
  nextOwner := s.nextOwner
  now := s.now
  nextCleanup := s.nextCleanup
  outageUntil := s.outageUntil

/-- The update keeps what the table's upkeep reads. -/
structure Blind (f : Peer T → Peer U) : Prop where
  owner : ∀ p, (f p).owner = p.owner
  lastSeen : ∀ p, (f p).lastSeen = p.lastSeen
  stats : ∀ p, (f p).engine.handle.stats = p.engine.handle.stats

variable {f : Peer T → Peer U}

/-- An update neither adds nor removes an entry. -/
theorem get_mapPeers (s : ServerConditioner T) (id : ServerPeerId) :
    (s.mapPeers f).peers.get id = (s.peers.get id).map f := HashMap.get_mapVal ..

/-- Retiring adds up the counters of the peer, which the update keeps. -/
theorem retire_mapPeers (hf : Blind f) (s : ServerConditioner T) (id : ServerPeerId) :
    (s.mapPeers f).retire id = (s.retire id).mapPeers f := by
  unfold retire
  rw [get_mapPeers]
  cases hp : s.peers.get id with
  | none => rfl
  | some p =>
    have hstats : (flushed (f p)).engine.handle.stats = (flushed p).engine.handle.stats := by
      simp only [flushed, Control.reconfigure, hf.stats]
    simp only [Option.map_some, mapPeers, HashMap.remove_mapVal, hstats]

/-- A selection by what the update keeps selects the same peers. -/
theorem idsWhere_mapPeers {g : Peer U → Bool} {g' : Peer T → Bool} (hg : ∀ p, g (f p) = g' p)
    (s : ServerConditioner T) : (s.mapPeers f).idsWhere g = s.idsWhere g' := by
  unfold idsWhere
  simp only [mapPeers, HashMap.iter_mapVal, List.filter_map, List.map_map, Function.comp_def, hg]

/-- What commutes with one step of a loop over ids commutes with the loop. -/
theorem foldl_mapPeers {step : ServerConditioner T → ServerPeerId → ServerConditioner T}
    {step' : ServerConditioner U → ServerPeerId → ServerConditioner U}
    (h : ∀ s id, step' (s.mapPeers f) id = (step s id).mapPeers f) (ids : List ServerPeerId)
    (s : ServerConditioner T) : ids.foldl step' (s.mapPeers f) = (ids.foldl step s).mapPeers f := by
  induction ids generalizing s with
  | nil => rfl
  | cons id rest ih => rw [List.foldl_cons, List.foldl_cons, h, ih]

theorem expirePeer_mapPeers (hf : Blind f) (s : ServerConditioner T) (id : ServerPeerId) :
    (s.mapPeers f).expirePeer id = (s.expirePeer id).mapPeers f := by
  unfold expirePeer
  rw [retire_mapPeers hf]
  rfl

/-- The idle peers are the same. -/
theorem idle_mapPeers (hf : Blind f) (s : ServerConditioner T) :
    ((s.mapPeers f).idsWhere fun p =>
        (s.mapPeers f).now - p.lastSeen ≥ (s.mapPeers f).config.1.idleTimeout) =
      s.idsWhere fun p => s.now - p.lastSeen ≥ s.config.1.idleTimeout :=
  idsWhere_mapPeers (fun p => by rw [hf.lastSeen]; rfl) s

/-- The sweep goes by `last_seen` alone. -/
theorem cleanup_mapPeers (hf : Blind f) (s : ServerConditioner T) :
    (s.mapPeers f).cleanup = s.cleanup.mapPeers f := by
  unfold cleanup
  by_cases hdue : s.now ≥ s.nextCleanup
  · rw [if_pos hdue, if_pos (show (s.mapPeers f).now ≥ (s.mapPeers f).nextCleanup from hdue),
      idle_mapPeers hf]
    dsimp only
    rw [foldl_mapPeers (expirePeer_mapPeers hf)]
    rfl
  · rw [if_neg hdue, if_neg (show ¬ (s.mapPeers f).now ≥ (s.mapPeers f).nextCleanup from hdue)]

theorem clamp_mapPeers (s : ServerConditioner T) (now : Nat) :
    (s.mapPeers f).clamp now = (s.clamp now).mapPeers f := rfl

theorem poll_mapPeers (hf : Blind f) (s : ServerConditioner T) (now : Nat) :
    (s.mapPeers f).poll now = (s.poll now).mapPeers f := by
  unfold poll
  rw [clamp_mapPeers, cleanup_mapPeers hf]

theorem expiring_mapPeers (hf : Blind f) (s : ServerConditioner T) (now : Nat) :
    (s.mapPeers f).expiring now = s.expiring now := by
  unfold expiring
  rw [clamp_mapPeers]
  dsimp only
  rw [idle_mapPeers hf]
  rfl

theorem removeOwner_mapPeers (hf : Blind f) (s : ServerConditioner T) (owner : Nat) :
    (s.mapPeers f).removeOwner owner = (s.removeOwner owner).mapPeers f := by
  unfold removeOwner
  rw [idsWhere_mapPeers fun p => show ((f p).owner == owner) = (p.owner == owner) by rw [hf.owner]]
  exact foldl_mapPeers (retire_mapPeers hf) _ s

theorem removePeer_mapPeers (hf : Blind f) (s : ServerConditioner T) (owner : Nat)
    (id : ServerPeerId) : (s.mapPeers f).removePeer owner id = (s.removePeer owner id).mapPeers f := by
  unfold removePeer
  have hany : ((s.mapPeers f).peers.get id).any (fun p => p.owner == owner) =
      (s.peers.get id).any fun p => p.owner == owner := by
    rw [get_mapPeers, Option.any_map]
    simp only [hf.owner]
  rw [hany]
  split
  · exact retire_mapPeers hf s id
  · rfl

/-- The loop of `oldest` compares times; the entry it starts from is updated too. -/
theorem foldl_oldest (hf : Blind f) (xs : List (ServerPeerId × Peer T)) (x : ServerPeerId × Peer T) :
    (xs.map fun x => (x.1, f x.2)).foldl
        (fun best y => if y.2.lastSeen < best.2.lastSeen then y else best) (x.1, f x.2) =
      (fun x : ServerPeerId × Peer T => (x.1, f x.2))
        (xs.foldl (fun best y => if y.2.lastSeen < best.2.lastSeen then y else best) x) := by
  induction xs generalizing x with
  | nil => rfl
  | cons y rest ih =>
    simp only [List.map_cons, List.foldl_cons, hf.lastSeen]
    split
    · exact ih y
    · exact ih x

theorem oldest_mapPeers (hf : Blind f) (s : ServerConditioner T) :
    (s.mapPeers f).oldest = s.oldest := by
  have hiter : (s.mapPeers f).peers.iter = s.peers.iter.map fun x => (x.1, f x.2) :=
    HashMap.iter_mapVal ..
  unfold oldest
  rw [hiter]
  cases s.peers.iter with
  | nil => rfl
  | cons x rest =>
    simp only [List.map_cons]
    rw [foldl_oldest hf]

/-- The eviction takes the same peers in the same order. -/
theorem evict_mapPeers (hf : Blind f) (n : Nat) (s : ServerConditioner T) :
    (s.mapPeers f).evict n = (s.evict n).mapPeers f := by
  induction n generalizing s with
  | zero => rfl
  | succ n ih =>
    have hlen : (s.mapPeers f).peers.len = s.peers.len := HashMap.len_mapVal ..
    unfold evict
    rw [hlen, oldest_mapPeers hf]
    by_cases hover : s.peers.len > s.config.1.maxPeers
    · rw [if_pos hover, if_pos (show s.peers.len > (s.mapPeers f).config.1.maxPeers from hover)]
      cases s.oldest with
      | none => rfl
      | some id =>
        dsimp only
        rw [retire_mapPeers hf, ih]
    · rw [if_neg hover, if_neg (show ¬ s.peers.len > (s.mapPeers f).config.1.maxPeers from hover)]

end ServerConditioner

/-! ## Payloads -/

variable {T U : Type}

/-- A queued packet with another payload. -/
def Scheduled.map (f : T → U) (x : Scheduled T) : Scheduled U := ⟨x.due, f x.payload, x.bytes⟩

/-- A queue is ordered by due times only. -/
theorem schedule_map (f : T → U) (p : Scheduled T) (q : List (Scheduled T)) :
    schedule (p.map f) (q.map (Scheduled.map f)) = (schedule p q).map (Scheduled.map f) := by
  induction q with
  | nil => rfl
  | cons x rest ih =>
    simp only [List.map_cons, schedule, ih]
    split <;> rename_i h
    · rw [if_pos (show x.due > p.due from h)]
      rfl
    · rw [if_neg (show ¬ x.due > p.due from h)]
      rfl

/-- What is due leaves the queue, whatever it carries. -/
theorem popReady_map (f : T → U) (now : Nat) (q : List (Scheduled T)) (s : DirectionStats) :
    popReady now (q.map (Scheduled.map f)) s =
      ((popReady now q s).1.map (Scheduled.map f), (popReady now q s).2.1,
        (popReady now q s).2.2.map f) := by
  induction q generalizing s with
  | nil => rfl
  | cons x rest ih =>
    simp only [List.map_cons, popReady]
    by_cases h : x.due ≤ now
    · rw [if_pos h, if_pos (show (x.map f).due ≤ now from h), ih]
      rfl
    · rw [if_neg h, if_neg (show ¬ (x.map f).due ≤ now from h)]
      rfl

namespace PacketConditioner

def map (f : T → U) (e : PacketConditioner T) : PacketConditioner U where
  handle := e.handle
  queues := fun d => (e.queues d).map (Scheduled.map f)
  revision := e.revision
  rng := e.rng
  lastNow := e.lastNow
  outageUntil := e.outageUntil

variable (f : T → U)

/-- A change of revision is noticed, and the queues are emptied, in both. -/
theorem resync_map (e : PacketConditioner T) (now : Nat) :
    (e.map f).resync now = (e.resync now).map f := by
  unfold resync
  by_cases hrev : e.revision ≠ e.handle.revision
  · rw [if_pos hrev, if_pos (show (e.map f).revision ≠ (e.map f).handle.revision from hrev)]
    rfl
  · rw [if_neg hrev, if_neg (show ¬ (e.map f).revision ≠ (e.map f).handle.revision from hrev)]

theorem sync_map (e : PacketConditioner T) (now : Nat) : (e.map f).sync now = (e.sync now).map f := by
  have hresync := resync_map f { e with lastNow := max now e.lastNow } (max now e.lastNow)
  unfold sync
  dsimp only
  rw [show (resync { e.map f with lastNow := max now (e.map f).lastNow } (max now (e.map f).lastNow)) =
    (resync { e with lastNow := max now e.lastNow } (max now e.lastNow)).map f from hresync]
  rfl

theorem update_queues (q : ConditionerDirection → List (Scheduled T)) (d : ConditionerDirection)
    (l : List (Scheduled T)) :
    Function.update (fun d => (q d).map (Scheduled.map f)) d (l.map (Scheduled.map f)) =
      fun d' => (Function.update q d l d').map (Scheduled.map f) := by
  funext d'
  by_cases hd : d' = d
  · subst hd
    rw [Function.update_self, Function.update_self]
  · rw [Function.update_of_ne hd, Function.update_of_ne hd]

/-- The due time comes from the settings and the generator. -/
theorem push_map (delay : Nat → Nat → Nat → Nat) (e : PacketConditioner T) (d : ConditionerDirection)
    (payload : T) (byteLen : Nat) :
    (e.map f).push delay d (f payload) byteLen = (e.push delay d payload byteLen).map f := by
  have hq := update_queues f e.queues d (schedule ⟨Duration.saturatingAdd e.lastNow
    (delay e.handle.config.1.latency e.handle.config.1.jitter (splitMix64 e.rng).2),
    payload, byteLen⟩ (e.queues d))
  rw [← schedule_map] at hq
  unfold push
  dsimp only [map, count]
  rw [← hq]
  rfl

theorem impair_map (delay : Nat → Nat → Nat → Nat) (e : PacketConditioner T)
    (d : ConditionerDirection) (payload : T) (byteLen : Nat) :
    (e.map f).impair delay d (f payload) byteLen = (e.impair delay d payload byteLen).map f := by
  unfold impair
  dsimp only
  by_cases hlost : lost (splitMix64 e.rng).2 e.handle.config.1.packetLoss = true
  · rw [if_pos hlost, if_pos (show lost (splitMix64 (e.map f).rng).2
      (e.map f).handle.config.1.packetLoss = true from hlost)]
    rfl
  · rw [if_neg hlost, if_neg (show ¬ lost (splitMix64 (e.map f).rng).2
      (e.map f).handle.config.1.packetLoss = true from hlost), full_rng e, full_rng (e.map f)]
    by_cases hfull : e.full d byteLen = true
    · rw [if_pos hfull, if_pos (show (e.map f).full d byteLen = true from hfull)]
      rfl
    · rw [if_neg hfull, if_neg (show ¬ (e.map f).full d byteLen = true from hfull)]
      exact push_map f delay { e with rng := (splitMix64 e.rng).1 } d payload byteLen

/-- So the fate of a packet does not depend on what it carries. -/
theorem enqueue_map (delay : Nat → Nat → Nat → Nat) (e : PacketConditioner T)
    (d : ConditionerDirection) (now : Nat) (payload : T) (byteLen : Nat) :
    (e.map f).enqueue delay d now (f payload) byteLen =
      ((e.enqueue delay d now payload byteLen).1.map f,
        (e.enqueue delay d now payload byteLen).2.map f) := by
  unfold enqueue
  rw [sync_map]
  dsimp only
  generalize e.sync now = e1
  by_cases hout : e1.outageUntil.isSome = true
  · rw [if_pos hout, if_pos (show (e1.map f).outageUntil.isSome = true from hout)]
    rfl
  · rw [if_neg hout, if_neg (show ¬ (e1.map f).outageUntil.isSome = true from hout)]
    by_cases hoff : (!e1.handle.config.1.enabled) = true
    · rw [if_pos hoff, if_pos (show (!(e1.map f).handle.config.1.enabled) = true from hoff)]
      rfl
    · rw [if_neg hoff, if_neg (show ¬ (!(e1.map f).handle.config.1.enabled) = true from hoff),
        impair_map]
      rfl

theorem drainReady_map (e : PacketConditioner T) (d : ConditionerDirection) (now : Nat) :
    (e.map f).drainReady d now = ((e.drainReady d now).1.map f, (e.drainReady d now).2.map f) := by
  unfold drainReady
  rw [sync_map]
  dsimp only [map, count]
  rw [popReady_map, update_queues]

/-- An outage is announced to the handle, which holds no payload. -/
theorem impose_map (remaining : Option Nat) (e : PacketConditioner T) :
    ServerConditioner.impose remaining (e.map f) = (ServerConditioner.impose remaining e).map f := by
  cases remaining <;> rfl

end PacketConditioner

def Peer.map (f : T → U) (p : Peer T) : Peer U := ⟨p.owner, p.lastSeen, p.engine.map f⟩

namespace ServerConditioner

def map (f : T → U) (s : ServerConditioner T) : ServerConditioner U := s.mapPeers (Peer.map f)

/-- Replacing the payloads keeps what the upkeep reads. -/
theorem blind_map (f : T → U) : Blind (Peer.map f) := ⟨fun _ => rfl, fun _ => rfl, fun _ => rfl⟩

variable (f : T → U)

theorem reconfigure_map (s : ServerConditioner T) (config : ValidServerConfig) :
    (s.map f).reconfigure config = (s.reconfigure config).map f := by
  let changed : ServerConditioner T := { s with
    peers := s.peers.mapVal fun id p =>
      { p with engine.handle := p.engine.handle.reconfigure (peerConfig config.packets id) }
    config := config
    outageUntil := none
    nextCleanup := 0 }
  have hchanged : ({ s.map f with
      peers := (s.map f).peers.mapVal fun id p =>
        { p with engine.handle := p.engine.handle.reconfigure (peerConfig config.packets id) }
      config := config
      outageUntil := none
      nextCleanup := 0 } : ServerConditioner U) = changed.map f := by
    simp only [map, mapPeers, HashMap.mapVal_mapVal, changed]
    rfl
  have hlen : (s.map f).peers.len = s.peers.len := HashMap.len_mapVal ..
  unfold reconfigure
  dsimp only
  rw [hchanged, HashMap.len_mapVal, HashMap.len_mapVal, hlen]
  exact evict_mapPeers (blind_map f) _ changed

theorem outageAt_map (s : ServerConditioner T) (duration now : Nat) :
    (s.map f).outageAt duration now = (s.outageAt duration now).map f := by
  have hpoll : (s.map f).poll now = (s.poll now).map f := poll_mapPeers (blind_map f) s now
  unfold outageAt
  rw [hpoll]
  simp only [map, mapPeers, HashMap.mapVal_mapVal]
  rfl

/-- A peer is drained by owner and due times. -/
theorem drainPeer_map (owner : Nat) (d : ConditionerDirection) (now : Nat) (remaining : Option Nat)
    (p : Peer T) :
    drainPeer owner d now remaining (p.map f) =
      ((drainPeer owner d now remaining p).1.map f, (drainPeer owner d now remaining p).2.map f) := by
  unfold drainPeer
  by_cases ho : p.owner = owner
  · rw [if_pos ho, if_pos (show (p.map f).owner = owner from ho)]
    have hdrain := PacketConditioner.drainReady_map f (impose remaining p.engine) d now
    rw [← PacketConditioner.impose_map] at hdrain
    simp only [Peer.map, hdrain]
  · rw [if_neg ho, if_neg (show ¬ (p.map f).owner = owner from ho)]
    rfl

theorem drainAt_map (s : ServerConditioner T) (owner : Nat) (d : ConditionerDirection) (now : Nat) :
    (s.map f).drainAt owner d now =
      ((s.drainAt owner d now).1.map f, (s.drainAt owner d now).2.map fun x => (x.1, f x.2)) := by
  have hpoll : (s.map f).poll now = (s.poll now).map f := poll_mapPeers (blind_map f) s now
  unfold drainAt
  rw [hpoll]
  refine Prod.ext ?_ ?_
  · simp only [map, mapPeers, HashMap.mapVal_mapVal, drainPeer_map]
    rfl
  · simp only [map, mapPeers, HashMap.iter_mapVal, List.flatMap_map, List.map_flatMap, drainPeer_map,
      List.map_map, Function.comp_def]
    rfl

theorem deferTo_map (delay : Nat → Nat → Nat → Nat) (s : ServerConditioner T) (owner : Nat)
    (d : ConditionerDirection) (id : ServerPeerId) (payload : T) (byteLen : Nat) (p : Peer T) :
    (s.map f).deferTo delay owner d id (f payload) byteLen (p.map f) =
      ((s.deferTo delay owner d id payload byteLen p).1.map f,
        (s.deferTo delay owner d id payload byteLen p).2) := by
  unfold deferTo
  by_cases ho : p.owner ≠ owner
  · rw [if_pos ho, if_pos (show (p.map f).owner ≠ owner from ho)]
    rfl
  · rw [if_neg ho, if_neg (show ¬ (p.map f).owner ≠ owner from ho)]
    have henq := PacketConditioner.enqueue_map f delay (impose s.outageRemaining p.engine) d s.now
      payload byteLen
    rw [← PacketConditioner.impose_map] at henq
    dsimp only
    rw [show (impose (s.map f).outageRemaining (p.map f).engine).enqueue delay d (s.map f).now
      (f payload) byteLen = _ from henq]
    refine Prod.ext ?_ (by simp)
    simp only [map, mapPeers, ← HashMap.sortedInsert_mapVal]
    rfl

/-- `defer_at` answers the same, and leaves the same table with other payloads. -/
theorem deferAt_map (delay : Nat → Nat → Nat → Nat) (s : ServerConditioner T) (owner : Nat)
    (d : ConditionerDirection) (id : ServerPeerId) (payload : T) (byteLen now : Nat) :
    (s.map f).deferAt delay owner d id (f payload) byteLen now =
      ((s.deferAt delay owner d id payload byteLen now).1.map f,
        (s.deferAt delay owner d id payload byteLen now).2) := by
  have hpoll : (s.map f).poll now = (s.poll now).map f := poll_mapPeers (blind_map f) s now
  unfold deferAt
  rw [hpoll]
  dsimp only
  generalize s.poll now = s1
  by_cases hoff : s1.config.1.packets.enabled = false ∧ s1.outageRemaining = none
  · rw [if_pos hoff, if_pos (show (s1.map f).config.1.packets.enabled = false ∧
      (s1.map f).outageRemaining = none from hoff)]
  · rw [if_neg hoff, if_neg (show ¬ ((s1.map f).config.1.packets.enabled = false ∧
      (s1.map f).outageRemaining = none) from hoff)]
    have hget : (s1.map f).peers.get id = (s1.peers.get id).map (Peer.map f) := get_mapPeers s1 id
    rw [hget]
    cases hp : s1.peers.get id with
    | some p => exact deferTo_map f delay s1 owner d id payload byteLen p
    | none =>
      have hlen : (s1.map f).peers.len = s1.peers.len := HashMap.len_mapVal ..
      dsimp only [Option.map_none]
      rw [hlen]
      by_cases hfull : s1.peers.len ≥ s1.config.1.maxPeers
      · rw [if_pos hfull, if_pos (show s1.peers.len ≥ (s1.map f).config.1.maxPeers from hfull)]
        rfl
      · rw [if_neg hfull, if_neg (show ¬ s1.peers.len ≥ (s1.map f).config.1.maxPeers from hfull)]
        exact deferTo_map f delay s1 owner d id payload byteLen (s1.newPeer owner id)

/-- No call looks at the payloads. -/
theorem apply_map (delay : Nat → Nat → Nat → Nat) (make : Bytes → T) (s : ServerConditioner T)
    (op : Op) :
    (s.map f).apply delay (fun bytes => f (make bytes)) op =
      (s.apply delay make op).map fun r => (r.1.map f, r.2.1, r.2.2.map fun x => (x.1, f x.2)) := by
  cases op with
  | deferAt owner d id bytes now =>
    simp only [apply, deferAt_map, Option.map_some]
    rfl
  | drainAt owner d now =>
    simp only [apply, drainAt_map, Option.map_some]
  | configure config =>
    simp only [apply, configure]
    by_cases hvalid : config.validate = .ok ()
    · rw [dif_pos hvalid, dif_pos hvalid]
      simp only [reconfigure_map, Option.map_some]
      rfl
    · rw [dif_neg hvalid, dif_neg hvalid]
      rfl
  | outageAt duration now =>
    simp only [apply, outageAt_map, Option.map_some]
    rfl
  | removePeer owner id =>
    have h := removePeer_mapPeers (blind_map f) s owner id
    simp only [apply, Option.map_some]
    rw [show (s.map f).removePeer owner id = (s.removePeer owner id).map f from h]
    rfl
  | removeOwner owner =>
    have h := removeOwner_mapPeers (blind_map f) s owner
    simp only [apply, Option.map_some]
    rw [show (s.map f).removeOwner owner = (s.removeOwner owner).map f from h]
    rfl
  | allocateOwner =>
    simp only [apply, allocateOwner]
    by_cases hroom : s.nextOwner + 1 ≤ U64_MAX
    · rw [if_pos hroom, if_pos (show (s.map f).nextOwner + 1 ≤ U64_MAX from hroom)]
      rfl
    · rw [if_neg hroom, if_neg (show ¬ (s.map f).nextOwner + 1 ≤ U64_MAX from hroom)]
      rfl

theorem reclaimed_map (s : ServerConditioner T) (op : Op) :
    (s.map f).reclaimed op = s.reclaimed op := by
  unfold reclaimed
  cases op.reading with
  | none => rfl
  | some now => exact expiring_mapPeers (blind_map f) s now

theorem evicting_map (s : ServerConditioner T) (op : Op)
    (r : ServerConditioner T × Bool × List (ServerPeerId × T)) :
    (s.map f).evicting op (r.1.map f, r.2.1, r.2.2.map fun x => (x.1, f x.2)) = s.evicting op r := by
  cases op with
  | configure config =>
    simp only [evicting, map, mapPeers, HashMap.keys_mapVal, HashMap.mem_mapVal]
  | _ => rfl

end ServerConditioner

/-- A logged call with other payloads among the packets it returned. -/
def Call.map (f : T → U) (c : Call T) : Call U where
  op := c.op
  time := c.time
  outage := c.outage
  taken := c.taken
  items := c.items.map fun x => (x.1, f x.2)
  expired := c.expired
  evicted := c.evicted

namespace Trace

def map (f : T → U) (t : Trace T) : Trace U := ⟨t.state.map f, t.log.map (Call.map f)⟩

variable (f : T → U) {delay : Nat → Nat → Nat → Nat} {make : Nat → Bytes → T}

theorem step_map (t : Trace T) (op : ServerConditioner.Op) :
    (t.map f).step delay (fun n bytes => f (make n bytes)) op = (t.step delay make op).map (map f) := by
  unfold step
  have happly := ServerConditioner.apply_map f delay (make t.log.length) t.state op
  have hlen : (t.map f).log.length = t.log.length := List.length_map ..
  rw [hlen, show (t.map f).state.apply delay (fun bytes => f (make t.log.length bytes)) op = _ from happly]
  cases t.state.apply delay (make t.log.length) op with
  | none => rfl
  | some r =>
    simp only [Option.map_some, logged, map, ServerConditioner.called, ServerConditioner.reclaimed_map,
      ServerConditioner.evicting_map, List.map_append, List.map_cons, List.map_nil, Call.map]
    rfl

/-- A run on other payloads is the image of one on these. -/
theorem reachable_map (make : Nat → Bytes → T) {u : Trace U}
    (h : (runs delay fun n bytes => f (make n bytes)).Reachable u) :
    ∃ t, (runs delay make).Reachable t ∧ u = t.map f := by
  obtain ⟨u₀, ops, ⟨config, rfl⟩, hrun⟩ := h
  have hlift : ∀ {u u' : Trace U} {ops}, (runs delay fun n bytes => f (make n bytes)).Run u ops u' →
      ∀ t, u = t.map f → ∃ t', (runs delay make).Run t ops t' ∧ u' = t'.map f := by
    intro u u' ops hrun
    induction hrun with
    | nil u => exact fun t ht => ⟨t, .nil t, ht⟩
    | @cons u op u1 ops u2 hs _ ih =>
      intro t ht
      subst ht
      have hstep : (t.step delay make op).map (map f) = some u1 := (step_map f t op).symm.trans hs
      obtain ⟨t1, ht1, rfl⟩ := Option.map_eq_some_iff.1 hstep
      obtain ⟨t2, hrun2, rfl⟩ := ih t1 rfl
      exact ⟨t2, .cons ht1 hrun2, rfl⟩
  obtain ⟨t, hrun', rfl⟩ := hlift hrun ⟨.new config, []⟩ rfl
  exact ⟨t, ⟨_, ops, ⟨config, rfl⟩, hrun'⟩, rfl⟩

end Trace
end RenetCross.L2
