import RenetCross.L2Machine.ServerOutage

/-!
# During an outage and after it

From the call of `outage_at` to its deadline `defer_at` takes every packet and queues
none, and `drain_at` returns nothing, for every peer, owner and direction. After the
deadline, and after a zero-length `outage_at` or a `configure` at once, the conditioner
acts as one that was never told of an outage (`withoutOutage`).

A packet that is returned was deferred by a call that found no outage (`Calm`), so no
packet deferred before the deadline comes back after the call that began the outage.
-/
namespace RenetCross.L2

/-- The entry without the deadline of its engine. -/
def Peer.settled {T : Type} (p : Peer T) : Peer T := { p with engine := p.engine.settled }

namespace ServerConditioner

variable {T : Type}

/-! ## While it lasts -/

theorem deferTo_in_outage {s : ServerConditioner T} {e : PacketConditioner T} {p : Peer T}
    (he : e = impose s.outageRemaining p.engine) (h : (e.sync s.now).outageUntil.isSome = true)
    (delay : Nat → Nat → Nat → Nat) (owner : Nat) (d : ConditionerDirection) (id : ServerPeerId)
    (payload : T) (byteLen : Nat) : (s.deferTo delay owner d id payload byteLen p).2 = true := by
  unfold deferTo
  split
  · rfl
  · rw [← he]
    dsimp only
    rw [PacketConditioner.enqueue_in_outage h]
    rfl

/-! ## When it is over -/

/-- A conditioner that was never told of an outage. -/
def withoutOutage (s : ServerConditioner T) : ServerConditioner T :=
  { s.mapPeers Peer.settled with outageUntil := none }

theorem blind_settled : Blind (fun p : Peer T => p.settled) :=
  ⟨fun _ => rfl, fun _ => rfl, fun _ => rfl⟩

theorem poll_forgotten (s : ServerConditioner T) (now : Nat) :
    ({ s with outageUntil := none } : ServerConditioner T).poll now =
      { s.poll now with outageUntil := none } := by
  have hretire : ∀ (s : ServerConditioner T) (id : ServerPeerId),
      ({ s with outageUntil := none } : ServerConditioner T).expirePeer id =
        { s.expirePeer id with outageUntil := none } := by
    intro s id
    unfold expirePeer retire
    cases s.peers.get id with
    | none => rfl
    | some p => rfl
  have hfold : ∀ (ids : List ServerPeerId) (s : ServerConditioner T),
      ids.foldl expirePeer { s with outageUntil := none } =
        { ids.foldl expirePeer s with outageUntil := none } := by
    intro ids
    induction ids with
    | nil => intro s; rfl
    | cons id ids ih => intro s; rw [List.foldl_cons, List.foldl_cons, hretire, ih]
  have hclamp : ({ s with outageUntil := none } : ServerConditioner T).clamp now =
      { s.clamp now with outageUntil := none } := rfl
  unfold poll
  rw [hclamp]
  generalize s.clamp now = s
  unfold cleanup
  by_cases hdue : s.now ≥ s.nextCleanup
  · rw [if_pos hdue, if_pos hdue]
    have hids := hfold (s.idsWhere fun p => s.now - p.lastSeen ≥ s.config.1.idleTimeout) s
    have hsame : ({ s with outageUntil := none } : ServerConditioner T).idsWhere
        (fun p => s.now - p.lastSeen ≥ s.config.1.idleTimeout) =
      s.idsWhere fun p => s.now - p.lastSeen ≥ s.config.1.idleTimeout := rfl
    dsimp only at hids ⊢
    rw [hsame, hids]
  · rw [if_neg hdue, if_neg hdue]

/-- The deadline the engine acts by at `now` has passed. -/
def Over (now : Nat) (e : PacketConditioner T) : Prop :=
  e.revision = e.handle.revision → ∀ till, e.outageUntil = some till → till ≤ max now e.lastNow

theorem settled_of_none {e : PacketConditioner T} (h : e.outageUntil = none) : e.settled = e := by
  unfold PacketConditioner.settled
  rw [← h]

theorem sync_over {e : PacketConditioner T} {now : Nat} (h : Over now e)
    (hpending : e.handle.pendingOutage = none) : (e.sync now).outageUntil = none := by
  obtain ⟨hout, -⟩ := PacketConditioner.sync_outage e now
  rw [hout]
  unfold PacketConditioner.deadline
  by_cases hrev : e.revision = e.handle.revision
  · rw [if_pos hrev]
    cases hown : e.outageUntil with
    | none => rfl
    | some till => rw [Option.any_some, decide_eq_true (h hrev till hown), if_pos rfl]
  · rw [if_neg hrev, hpending]
    rfl

variable {s : ServerConditioner T}

/-- `defer_at` on an entry whose outage is over. -/
theorem deferTo_settled (hnone : s.outageUntil = none) {p : Peer T} (hover : Over s.now p.engine)
    (hpending : p.engine.handle.pendingOutage = none) (delay : Nat → Nat → Nat → Nat) (owner : Nat)
    (d : ConditionerDirection) (id : ServerPeerId) (payload : T) (byteLen : Nat) :
    (s.mapPeers Peer.settled).deferTo delay owner d id payload byteLen p.settled =
      ((s.deferTo delay owner d id payload byteLen p).1.mapPeers Peer.settled,
        (s.deferTo delay owner d id payload byteLen p).2) := by
  have hrem : s.outageRemaining = none := by rw [outageRemaining, hnone]; rfl
  have hrem' : (s.mapPeers Peer.settled).outageRemaining = none := hrem
  have henq : p.engine.settled.enqueue delay d s.now payload byteLen =
      p.engine.enqueue delay d s.now payload byteLen := by
    unfold PacketConditioner.enqueue
    rw [PacketConditioner.sync_settled hover]
  have hlast : (p.engine.enqueue delay d s.now payload byteLen).1.outageUntil = none :=
    (PacketConditioner.enqueue_outage delay p.engine d s.now payload byteLen).1.trans
      (sync_over hover hpending)
  unfold deferTo
  by_cases ho : p.owner ≠ owner
  · rw [if_pos ho, if_pos (show p.settled.owner ≠ owner from ho)]
    rfl
  · rw [if_neg ho, if_neg (show ¬ p.settled.owner ≠ owner from ho), hrem, hrem']
    dsimp only
    rw [show (impose none p.settled.engine).enqueue delay d (s.mapPeers Peer.settled).now payload
      byteLen = _ from henq]
    refine Prod.ext ?_ rfl
    have hentry : Peer.settled { p with
        lastSeen := s.now, engine := (p.engine.enqueue delay d s.now payload byteLen).1 } =
        { p with
          lastSeen := s.now, engine := (p.engine.enqueue delay d s.now payload byteLen).1 } := by
      unfold Peer.settled
      dsimp only
      rw [settled_of_none hlast]
    have hinsert := HashMap.sortedInsert_mapVal before s.peers (fun _ p => Peer.settled p) id
      { p with lastSeen := s.now, engine := (p.engine.enqueue delay d s.now payload byteLen).1 }
    rw [hentry] at hinsert
    simp only [mapPeers, impose, ← hinsert]
    rfl

/-- Every engine's outage is over at the clock of the conditioner. -/
structure AllOver (s : ServerConditioner T) : Prop where
  none : s.outageUntil = none
  pending : ∀ id p, s.peers.get id = some p → p.engine.handle.pendingOutage = Option.none
  past : ∀ id p, s.peers.get id = some p → Over s.now p.engine

theorem withoutOutage_of_none (h : s.outageUntil = none) :
    s.withoutOutage = s.mapPeers Peer.settled := by
  unfold withoutOutage mapPeers
  rw [h]

theorem poll_withoutOutage (s : ServerConditioner T) (now : Nat) :
    s.withoutOutage.poll now = (s.poll now).withoutOutage := by
  have hmap := poll_mapPeers (blind_settled (T := T)) s now
  unfold withoutOutage
  rw [poll_forgotten]
  rw [hmap]

theorem deferAt_withoutOutage {now : Nat} (h : (s.poll now).AllOver) (delay : Nat → Nat → Nat → Nat)
    (owner : Nat) (d : ConditionerDirection) (id : ServerPeerId) (payload : T) (byteLen : Nat) :
    s.withoutOutage.deferAt delay owner d id payload byteLen now =
      ((s.deferAt delay owner d id payload byteLen now).1.withoutOutage,
        (s.deferAt delay owner d id payload byteLen now).2) := by
  have hafter : (s.deferAt delay owner d id payload byteLen now).1.outageUntil = none :=
    (deferAt_frame delay s owner d id payload byteLen now).2.trans h.none
  rw [withoutOutage_of_none hafter]
  unfold deferAt
  rw [poll_withoutOutage, withoutOutage_of_none h.none]
  dsimp only
  generalize s.poll now = s1 at h
  by_cases hoff : s1.config.1.packets.enabled = false ∧ s1.outageRemaining = none
  · rw [if_pos hoff, if_pos (show (s1.mapPeers Peer.settled).config.1.packets.enabled = false ∧
      (s1.mapPeers Peer.settled).outageRemaining = none from hoff)]
  · rw [if_neg hoff, if_neg (show ¬ ((s1.mapPeers Peer.settled).config.1.packets.enabled = false ∧
      (s1.mapPeers Peer.settled).outageRemaining = none) from hoff), get_mapPeers]
    cases hp : s1.peers.get id with
    | some p =>
      exact deferTo_settled h.none (h.past id p hp) (h.pending id p hp) delay owner d id payload byteLen
    | none =>
      have hlen : (s1.mapPeers Peer.settled).peers.len = s1.peers.len := HashMap.len_mapVal ..
      dsimp only [Option.map_none]
      rw [hlen]
      by_cases hfull : s1.peers.len ≥ s1.config.1.maxPeers
      · rw [if_pos hfull, if_pos (show s1.peers.len ≥ (s1.mapPeers Peer.settled).config.1.maxPeers
          from hfull)]
        rfl
      · rw [if_neg hfull, if_neg (show ¬ s1.peers.len ≥ (s1.mapPeers Peer.settled).config.1.maxPeers
          from hfull)]
        have hnew : Over s1.now (s1.newPeer owner id).engine := by
          intro _ till htill
          cases htill
        exact deferTo_settled h.none hnew rfl delay owner d id payload byteLen

theorem drainPeer_settled {p : Peer T} {now : Nat} (hover : Over now p.engine)
    (hpending : p.engine.handle.pendingOutage = none) (owner : Nat) (d : ConditionerDirection) :
    drainPeer owner d now none p.settled =
      ((drainPeer owner d now none p).1.settled, (drainPeer owner d now none p).2) := by
  have hdrain : p.engine.settled.drainReady d now = p.engine.drainReady d now := by
    unfold PacketConditioner.drainReady
    rw [PacketConditioner.sync_settled hover]
  have hlast : (p.engine.drainReady d now).1.outageUntil = none := sync_over hover hpending
  unfold drainPeer
  by_cases ho : p.owner = owner
  · rw [if_pos ho, if_pos (show p.settled.owner = owner from ho)]
    dsimp only
    rw [show (impose none p.settled.engine).drainReady d now = _ from hdrain]
    refine Prod.ext ?_ rfl
    unfold Peer.settled
    dsimp only [impose]
    rw [settled_of_none hlast]
  · rw [if_neg ho, if_neg (show ¬ p.settled.owner = owner from ho)]

theorem drainAt_withoutOutage {now : Nat} (h : (s.poll now).AllOver) (owner : Nat)
    (d : ConditionerDirection) :
    s.withoutOutage.drainAt owner d now =
      ((s.drainAt owner d now).1.withoutOutage, (s.drainAt owner d now).2) := by
  have hafter : (s.drainAt owner d now).1.outageUntil = none := h.none
  rw [withoutOutage_of_none hafter]
  unfold drainAt
  rw [poll_withoutOutage, withoutOutage_of_none h.none]
  dsimp only
  generalize s.poll now = s1 at h
  have hrem : s1.outageRemaining = none := by rw [outageRemaining, h.none]; rfl
  have hrem' : (s1.mapPeers Peer.settled).outageRemaining = none := hrem
  have hturn : ∀ id p, s1.peers.get id = some p → drainPeer owner d s1.now none p.settled =
      ((drainPeer owner d s1.now none p).1.settled, (drainPeer owner d s1.now none p).2) :=
    fun id p hp => drainPeer_settled (h.past id p hp) (h.pending id p hp) owner d
  rw [hrem, hrem']
  refine Prod.ext ?_ ?_
  · have hpeers : (s1.peers.mapVal fun _ p => Peer.settled p).mapVal
        (fun _ p => (drainPeer owner d s1.now none p).1) =
        (s1.peers.mapVal fun _ p => (drainPeer owner d s1.now none p).1).mapVal
          (fun _ p => Peer.settled p) := by
      rw [HashMap.mapVal_mapVal, HashMap.mapVal_mapVal]
      refine HashMap.mapVal_congr fun id p hp => ?_
      rw [hturn id p hp]
    simp only [mapPeers, hpeers]
  · simp only [mapPeers, HashMap.iter_mapVal, List.flatMap_map]
    refine List.flatMap_congr fun x hx => ?_
    rw [hturn x.1 x.2 (HashMap.get_eq_some.2 hx)]

end ServerConditioner

namespace Trace

open ServerConditioner

variable {T : Type}

/-! ## What the last change of the handle means for the next call -/

section

variable {t : Trace T} {q : Nat} {c : Call T} {now : Nat}

theorem Quiet.in_force (h : Quiet t) (hlast : LastFlush t.log q c) {till : Nat}
    (hend : c.outageEnd = some till) (hbefore : max now t.state.now < till) :
    (t.state.poll now).outageUntil = some till := by
  obtain ⟨-, -, hout⟩ := poll_frame t.state now
  rcases h.last q c hlast with hforce | ⟨-, till', hend', hover⟩
  · rw [hout, hforce, hend, Option.any_some, decide_eq_false (Nat.not_le.2 hbefore),
      if_neg Bool.false_ne_true]
  · rw [hend] at hend'
    cases hend'
    omega

theorem Quiet.allOver (h : Quiet t) (hlast : LastFlush t.log q c)
    (hafter : ∀ till, c.outageEnd = some till → till ≤ max now t.state.now) :
    (t.state.poll now).AllOver := by
  obtain ⟨-, hnow, hout⟩ := poll_frame t.state now
  have hnone : (t.state.poll now).outageUntil = none := by
    rcases h.last q c hlast with hforce | ⟨hnone, -⟩
    · rw [hout, hforce]
      cases hend : c.outageEnd with
      | none => rfl
      | some till => rw [Option.any_some, decide_eq_true (hafter till hend), if_pos rfl]
    · rw [hout, hnone]
      rfl
  refine ⟨hnone, fun id p hp => ?_, fun id p hp hrev till htill => ?_⟩
  · exact (h.peers id p (get_of_poll hp).1).follows.pending
  · rcases (h.peers id p (get_of_poll hp).1).follows.outage hrev till htill with hforce | hover
    · rcases poll_outage t.state now with hsame | ⟨-, till', htill', hle⟩
      · rw [hsame, hforce] at hnone
        cases hnone
      · rw [hforce] at htill'
        cases htill'
        exact Nat.le_trans hle (Nat.le_max_left _ _)
    · have := le_poll t.state now
      exact Nat.le_trans hover (Nat.le_trans this (Nat.le_max_left _ _))

variable (h : Quiet t) (hn : t.flushes < U64_MAX)

include h hn

theorem Quiet.deferAt_taken (hsome : (t.state.poll now).outageUntil.isSome = true)
    (delay : Nat → Nat → Nat → Nat) (owner : Nat) (d : ConditionerDirection) (id : ServerPeerId)
    (payload : T) (byteLen : Nat) :
    (t.state.deferAt delay owner d id payload byteLen now).2 = true := by
  have hsynced : ∀ {p : Peer T}, ((t.state.poll now).peers.get id = some p ∨
      p = (t.state.poll now).newPeer p.owner id) →
      ((impose (t.state.poll now).outageRemaining p.engine).sync
        (t.state.poll now).now).outageUntil.isSome = true := by
    intro p hfrom
    obtain ⟨hfollows, k, hk, hlag⟩ := h.offered hn hfrom
    rw [(hfollows.synced h.bounded hlag hk now).1]
    exact hsome
  unfold deferAt
  dsimp only
  rw [if_neg (fun hoff => poll_some hsome hoff.2)]
  split
  · rename_i p hp
    exact deferTo_in_outage rfl (hsynced (.inl hp)) delay owner d id payload byteLen
  · split
    · rfl
    · exact deferTo_in_outage rfl (hsynced (.inr rfl)) delay owner d id payload byteLen

theorem Quiet.deferAt_nothing (hsome : (t.state.poll now).outageUntil.isSome = true)
    (delay : Nat → Nat → Nat → Nat) (make : Bytes → T) (owner : Nat) (d : ConditionerDirection)
    (id : ServerPeerId) (bytes : Bytes) {id' : ServerPeerId} {p : Peer T}
    (hp : (t.state.deferAt delay owner d id (make bytes) bytes.length now).1.peers.get id' = some p)
    (d' : ConditionerDirection) : p.engine.pending d' = [] := by
  have hr : t.state.apply delay make (.deferAt owner d id bytes now) = some
      ((t.state.deferAt delay owner d id (make bytes) bytes.length now).1,
        (t.state.deferAt delay owner d id (make bytes) bytes.length now).2, []) := rfl
  have hquiet := h.peer hn hr hp
  refine hquiet.empty ?_ d'
  rw [(deferAt_frame delay t.state owner d id (make bytes) bytes.length now).2]
  exact hsome

theorem Quiet.drainAt_nothing (hsome : (t.state.poll now).outageUntil.isSome = true) (owner : Nat)
    (d : ConditionerDirection) : (t.state.drainAt owner d now).2 = [] := by
  refine List.eq_nil_iff_forall_not_mem.2 fun y hy => ?_
  obtain ⟨p, hp, -, hpop⟩ := mem_drainAt hy
  obtain ⟨hs, -⟩ := get_of_poll hp
  obtain ⟨k, hk, hlag⟩ := (h.peers y.1 p hs).lag
  obtain ⟨-, popped, hpopped, hout⟩ := PacketConditioner.drainReady_split
    (impose (t.state.poll now).outageRemaining p.engine) d (t.state.poll now).now
  rw [sync_nil hlag (Nat.lt_of_le_of_lt hk hn) hsome d] at hpopped
  rw [hout, (List.append_eq_nil_iff.1 hpopped).1] at hpop
  exact absurd hpop List.not_mem_nil

end

/-! ## Where the packets come from -/

/-- The call at position `n` found no outage. -/
def WasCalm (log : List (Call T)) (n : Nat) : Prop := ∃ c, log[n]? = some c ∧ c.outage = false

theorem WasCalm.snoc {log : List (Call T)} {n : Nat} (h : WasCalm log n) (c : Call T) :
    WasCalm (log ++ [c]) n := by
  obtain ⟨c', hc', hcalm⟩ := h
  exact ⟨c', get_snoc_of_get hc' c, hcalm⟩

/-- No packet was queued during an outage. -/
structure Calm (t : Trace (Nat × Bytes)) : Prop where
  peers : ∀ id p, t.state.peers.get id = some p → ∀ d x, p.engine.Holds d x → WasCalm t.log x.1
  items : ∀ c ∈ t.log, ∀ y ∈ c.items, WasCalm t.log y.2.1

section

variable {t : Trace (Nat × Bytes)} {delay : Nat → Nat → Nat → Nat} {op : Op}
  {r : ServerConditioner (Nat × Bytes) × Bool × List (ServerPeerId × (Nat × Bytes))}

/-- What an engine holds after `sync` it held before. -/
theorem holds_synced {e : PacketConditioner T} {remaining : Option Nat} {now : Nat}
    {d : ConditionerDirection} {x : T} (h : ((impose remaining e).sync now).Holds d x) :
    e.Holds d x :=
  PacketConditioner.holds_impose.1 (PacketConditioner.holds_sync now h)

theorem Calm.peer (h : Calm t) (hquiet : Quiet t) (hn : t.flushes < U64_MAX)
    (hr : t.state.apply delay (fun bytes => (t.log.length, bytes)) op = some r)
    {id : ServerPeerId} {p' : Peer (Nat × Bytes)} (hp' : r.1.peers.get id = some p')
    {d' : ConditionerDirection} {x : Nat × Bytes} (hx : p'.engine.Holds d' x) :
    WasCalm (t.log ++ [t.state.called op r]) x.1 := by
  cases peerStep hr hp' with
  | kept hget hflush hrem hdrain => exact (h.peers id p' hget d' x hx).snoc _
  | @flushed p config hget hflush hrem => exact (h.peers id p hget d' x hx).snoc _
  | @drained p d now hop hget hrem =>
    obtain ⟨hs, -⟩ := get_of_poll hget
    obtain ⟨hkept, -⟩ := PacketConditioner.drainReady_split
      (impose (t.state.poll now).outageRemaining p.engine) d (t.state.poll now).now
    have hbefore : ((impose (t.state.poll now).outageRemaining p.engine).sync
        (t.state.poll now).now).Holds d' x := by
      rw [PacketConditioner.holds_iff_mem] at hx ⊢
      exact ((hkept d').map _).subset hx
    exact (h.peers id p hs d' x (holds_synced hbefore)).snoc _
  | @deferred p d bytes now hop hfrom htaken =>
    simp only [called] at hop
    subst hop
    obtain ⟨hfollows, k, hk, hlag⟩ := hquiet.offered hn (hfrom.imp_left And.left)
    have hold : ∀ d' x, p.engine.Holds d' x → WasCalm t.log x.1 := by
      rcases hfrom with ⟨hget, -⟩ | hnew
      · exact h.peers id p (get_of_poll hget).1
      · rw [hnew]
        exact fun d' x hx => absurd hx holds_newPeer
    rw [PacketConditioner.holds_iff_mem] at hx
    rcases PacketConditioner.enqueue_queue delay
      (impose (t.state.poll now).outageRemaining p.engine) d (t.state.poll now).now
      (t.log.length, bytes) bytes.length d' with hsame | ⟨-, -, hnone, due, hd⟩
    · rw [hsame] at hx
      exact (hold d' x (holds_synced (PacketConditioner.holds_iff_mem.2 hx))).snoc _
    · rw [hd] at hx
      have hperm := ((PacketConditioner.schedule_perm _ _).map Scheduled.payload).mem_iff.1 hx
      rcases List.mem_cons.1 hperm with rfl | hx
      · -- it was queued, so there was no outage
        refine ⟨_, List.getElem?_concat_length, ?_⟩
        cases hr
        obtain ⟨-, hout⟩ := deferAt_frame delay t.state p.owner d id (t.log.length, bytes)
          bytes.length now
        rw [(hfollows.synced hquiet.bounded hlag hk now).1] at hnone
        simp only [called, hout, hnone, Option.isSome_none]
      · exact (hold d' x (holds_synced (PacketConditioner.holds_iff_mem.2 hx))).snoc _

theorem Calm.step (h : Calm t) (hquiet : Quiet t) (hn : t.flushes < U64_MAX)
    {t' : Trace (Nat × Bytes)} (hs : t.step delay (fun n bytes => (n, bytes)) op = some t') :
    Calm t' := by
  obtain ⟨r, hr, rfl⟩ := step_eq delay _ hs
  refine ⟨fun id p' hp' d x hx => h.peer hquiet hn hr hp' hx, fun c hc y hy => ?_⟩
  rcases List.mem_append.1 hc with hc | hc
  · exact (h.items c hc y hy).snoc _
  · rw [List.mem_singleton.1 hc] at hy
    by_cases hop : ∃ owner d now, op = .drainAt owner d now
    · obtain ⟨owner, d, now, rfl⟩ := hop
      cases hr
      obtain ⟨p, hp, -, hpop⟩ := mem_drainAt hy
      have hholds : p.engine.Holds d y.2 :=
        PacketConditioner.holds_impose.1 ((PacketConditioner.holds_drainReady _ d _).2 y.2 hpop)
      exact (h.peers y.1 p (get_of_poll hp).1 d y.2 hholds).snoc _
    · have hnil : (t.state.called op r).items = [] :=
        items_nil hr fun owner d now hd => hop ⟨owner, d, now, hd⟩
      rw [hnil] at hy
      exact absurd hy List.not_mem_nil

theorem calm_inductive (delay : Nat → Nat → Nat → Nat) :
    (runs delay fun n bytes => (n, bytes)).Inductive fun t => t.flushes < U64_MAX → Quiet t ∧ Calm t where
  init := by
    intro t ht hn
    refine ⟨(quiet_inductive delay _).init t ht hn, ?_⟩
    obtain ⟨config, rfl⟩ := ht
    exact ⟨fun id p hp => (by cases hp), fun c hc => absurd hc List.not_mem_nil⟩
  step := by
    intro t op t' h hs hn
    have hlt := Nat.lt_of_le_of_lt (flushes_mono hs) hn
    obtain ⟨hquiet, hcalm⟩ := h hlt
    exact ⟨hquiet.step hlt hs, hcalm.step hquiet hlt hs⟩

end

/-- The calls that deferred what was returned found no outage. -/
def CalmOrigins (log : List (Call Bytes)) (m : Nat → Nat → Nat) : Prop :=
  ∀ (i : Nat) (c : Call Bytes) (j : Nat), log[i]? = some c → j < c.items.length → WasCalm log (m i j)

theorem Calm.origins {t : Trace (Nat × Bytes)} (h : Calm t) :
    CalmOrigins (t.map Prod.snd).log (carried t.log) := by
  intro i c j hc hj
  obtain ⟨c₀, hc₀, rfl⟩ := get_log_map hc
  simp only [Call.map, List.length_map] at hj
  rw [carried_eq hc₀ (List.getElem?_eq_getElem hj)]
  obtain ⟨c', hc', hcalm⟩ := h.items c₀ (List.mem_of_getElem? hc₀) _ (List.getElem_mem hj)
  refine ⟨c'.map Prod.snd, ?_, hcalm⟩
  simp only [map, List.getElem?_map, hc', Option.map_some]

theorem exists_calm {delay : Nat → Nat → Nat → Nat} {u : Trace Bytes}
    (hu : (runs delay fun _ bytes => bytes).Reachable u) (hn : u.flushes < U64_MAX) :
    ∃ m, Delivered u.log m ∧ Undisturbed u.log m ∧ CalmOrigins u.log m := by
  obtain ⟨t, ht, rfl⟩ := reachable_map (Prod.snd : Nat × Bytes → Bytes) (fun n bytes => (n, bytes)) hu
  rw [flushes_map] at hn
  exact ⟨carried t.log, ((ok_inductive delay).reachable t ht).delivered,
    ((fresh_inductive delay).reachable t ht hn).undisturbed,
    ((calm_inductive delay).reachable t ht hn).2.origins⟩

/-- Since the last change of the handle, a call that found no outage came at or after
its end. -/
def Timely (t : Trace T) : Prop :=
  ∀ q c till, LastFlush t.log q c → c.outageEnd = some till →
    ∀ (k : Nat) (c' : Call T), q < k → t.log[k]? = some c' → c'.outage = false → till ≤ c'.time

theorem timely_inductive (delay : Nat → Nat → Nat → Nat) (make : Nat → Bytes → T) :
    (runs delay make).Inductive fun t => t.flushes < U64_MAX → Quiet t ∧ Timely t where
  init := by
    intro t ht hn
    refine ⟨(quiet_inductive delay make).init t ht hn, ?_⟩
    obtain ⟨config, rfl⟩ := ht
    intro q c till hlast
    have := hlast.call
    simp at this
  step := by
    intro t op t' h hs hn
    have hlt := Nat.lt_of_le_of_lt (flushes_mono hs) hn
    obtain ⟨hquiet, htimely⟩ := h hlt
    have hquiet' := hquiet.step hlt hs
    refine ⟨hquiet', fun q c till hlast hend k c' hk hget hcalm => ?_⟩
    obtain ⟨r, hr, rfl⟩ := step_eq delay make hs
    rcases get_snoc hget with ⟨hold, hget'⟩ | ⟨rfl, rfl⟩
    · rcases hlast.snoc with ⟨hflush, rfl⟩ | ⟨-, hlast'⟩
      · -- the last change is the last call, and `k` would come after it
        have hq := hlast.quiet t.log.length _ (by omega) List.getElem?_concat_length
        rw [hflush] at hq
        cases hq
      · exact htimely q c till hlast' hend k c' hk hget' hcalm
    · rcases hquiet'.last q c hlast with hforce | ⟨-, till', hend', hover⟩
      · have hsome : r.1.outageUntil = some till := Eq.trans hforce hend
        simp only [called, hsome, Option.isSome_some] at hcalm
        cases hcalm
      · rw [hend] at hend'
        cases hend'
        exact hover

/-! ## The whole outage -/

/-- The last change of the handle decides. If it began an outage, then up to its end
every packet is taken and dropped and nothing is returned, and no packet deferred
before the end is returned after that change. From the end on, and at once after a
`configure` or a zero-length `outage_at`, both calls do what they do on a conditioner
that knows of no outage. The changes must be fewer than `2^64 - 1`. -/
theorem server_outage (delay : Nat → Nat → Nat → Nat) {u : Trace Bytes}
    (hu : (runs delay fun _ bytes => bytes).Reachable u) (hn : u.flushes < U64_MAX) {q : Nat}
    {c : Call Bytes} (hlast : LastFlush u.log q c) :
    (∀ till, c.outageEnd = some till →
      (∀ owner d id bytes now, max now u.state.now < till →
        (u.state.deferAt delay owner d id bytes bytes.length now).2 = true ∧
        ∀ id' p d', (u.state.deferAt delay owner d id bytes bytes.length now).1.peers.get id' = some p →
          p.engine.pending d' = []) ∧
      (∀ owner d now, max now u.state.now < till → (u.state.drainAt owner d now).2 = []) ∧
      ∃ m, Delivered u.log m ∧ ∀ (i j : Nat) (c' : Call Bytes), q < i → u.log[i]? = some c' →
        j < c'.items.length →
          ∃ c'' : Call Bytes, u.log[m i j]? = some c'' ∧ q < m i j ∧ till ≤ c''.time) ∧
    ∀ now, (∀ till, c.outageEnd = some till → till ≤ max now u.state.now) → ∀ owner d,
      (∀ id bytes, u.state.withoutOutage.deferAt delay owner d id bytes bytes.length now =
        ((u.state.deferAt delay owner d id bytes bytes.length now).1.withoutOutage,
          (u.state.deferAt delay owner d id bytes bytes.length now).2)) ∧
      u.state.withoutOutage.drainAt owner d now =
        ((u.state.drainAt owner d now).1.withoutOutage, (u.state.drainAt owner d now).2) := by
  obtain ⟨hquiet, htimely⟩ := (timely_inductive delay fun _ bytes => bytes).reachable u hu hn
  refine ⟨fun till hend => ⟨?_, ?_, ?_⟩, fun now hafter owner d => ?_⟩
  · intro owner d id bytes now hbefore
    have hsome : (u.state.poll now).outageUntil.isSome = true := by
      rw [hquiet.in_force hlast hend hbefore]
      rfl
    exact ⟨hquiet.deferAt_taken hn hsome delay owner d id bytes bytes.length,
      fun id' p d' hp => hquiet.deferAt_nothing hn hsome delay (fun bytes => bytes) owner d id bytes hp d'⟩
  · intro owner d now hbefore
    have hsome : (u.state.poll now).outageUntil.isSome = true := by
      rw [hquiet.in_force hlast hend hbefore]
      rfl
    exact hquiet.drainAt_nothing hn hsome owner d
  · obtain ⟨m, hm, hfree, hcalm⟩ := exists_calm hu hn
    refine ⟨m, hm, fun i j c' hi hget hj => ?_⟩
    obtain ⟨c'', hc'', hout⟩ := hcalm i c' j hget hj
    have hlt : q < m i j := hm.after_flush hfree
      ((drains_inductive delay fun _ bytes => bytes).reachable u hu) hlast.call hlast.flush hi hget hj
    exact ⟨c'', hc'', hlt, htimely q c till hlast hend (m i j) c'' hlt hc'' hout⟩
  · have hover := hquiet.allOver hlast hafter
    exact ⟨fun id bytes => deferAt_withoutOutage hover delay owner d id bytes bytes.length,
      drainAt_withoutOutage hover owner d⟩

/-- The last call changed the handle. -/
theorem lastFlush_concat (log : List (Call T)) {c : Call T} (h : c.flushes = true) :
    LastFlush (log ++ [c]) log.length c where
  call := List.getElem?_concat_length
  flush := h
  quiet := by
    intro k c' hk hget
    have := (List.getElem?_eq_some_iff.1 hget).1
    rw [List.length_append, List.length_singleton] at this
    omega

/-- A packet waits when an outage of ten nanoseconds begins. -/
def dark : Trace Bytes := firstQueued.next (.outageAt 10 0)

theorem server_outage_dark :
    (dark.state.deferAt byLatency 1 .incoming (.webRtc 9) [2] 1 4).2 = true ∧
      (dark.state.drainAt 1 .incoming 9).2 = [] := by
  have hreach := next_reachable firstQueued_reachable (.outageAt 10 0)
  have hlast : LastFlush dark.log firstQueued.log.length
      (firstQueued.state.called (.outageAt 10 0) (firstQueued.state.outageAt 10 0, true, [])) := by
    rw [dark, next_log rfl]
    exact lastFlush_concat _ rfl
  obtain ⟨hdefer, hdrain, -⟩ := (server_outage byLatency hreach (by decide +kernel) hlast).1 10
    (by decide +kernel)
  exact ⟨(hdefer 1 .incoming (.webRtc 9) [2] 4 (by decide +kernel)).1,
    hdrain 1 .incoming 9 (by decide +kernel)⟩

/-- When the revision comes round, a packet deferred in the middle of an outage waits
in the queue. -/
theorem queued_during_outage : ∃ u, (runs byLatency fun _ bytes => bytes).Reachable u ∧
    ∃ (q : Nat) (c : Call Bytes), LastFlush u.log q c ∧ c.outageEnd = some 10 ∧
      max 6 u.state.now < 10 ∧
      ∃ p, (u.state.deferAt byLatency 1 .incoming (.webRtc 7) [2] 1 6).1.peers.get (.webRtc 7) = some p ∧
        (p.engine.pending .incoming).map Scheduled.payload = [[1], [2]] := by
  refine ⟨round.next (.outageAt 10 0), next_reachable round_reachable _, round.log.length,
    round.state.called (.outageAt 10 0) (round.state.outageAt 10 0, true, []), ?_, ?_, ?_, ?_⟩
  · rw [next_log rfl]
    exact lastFlush_concat _ rfl
  · decide +kernel
  · decide +kernel
  · have hsome : (((round.next (.outageAt 10 0)).state.deferAt byLatency 1 .incoming (.webRtc 7) [2] 1
        6).1.peers.get (.webRtc 7)).map
          (fun p => (p.engine.pending .incoming).map Scheduled.payload) = some [[1], [2]] := by
      decide +kernel
    obtain ⟨p, hp, hpending⟩ := Option.map_eq_some_iff.1 hsome
    exact ⟨p, hp, hpending⟩

end Trace
end RenetCross.L2
