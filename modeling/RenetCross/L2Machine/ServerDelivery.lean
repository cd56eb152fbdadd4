import RenetCross.L2Machine.ServerErasure

/-!
# Every packet is delivered at most once, to the transport that deferred it

The run is made with packets that carry the position of the call that deferred
them, so packets with equal bytes are told apart. In such a run every packet that
is queued or returned names the call it comes from (`Origin`): the same owner,
direction, id and bytes, and no call since that removed the peer. A queue holds
no packet twice and none that was returned before.

That holds of queues the engine has yet to clear as well. What the change of a
handle adds is that a packet deferred before it is not returned: the engine is
behind its handle by the number `k` of changes since it last looked (`Lag`), and
as long as that number has not come round to `2^64`, it either sees that it is
behind and clears its queues, or `k = 0` and no change was made.
-/
namespace RenetCross.L2

/-! ## One engine -/

namespace PacketConditioner

variable {T : Type}

theorem popReady_split (now : Nat) (q : List (Scheduled T)) (s : DirectionStats) :
    ∃ popped, q = popped ++ (popReady now q s).1 ∧
      (popReady now q s).2.2 = popped.map Scheduled.payload := by
  induction q generalizing s with
  | nil => exact ⟨[], rfl, rfl⟩
  | cons x rest ih =>
    unfold popReady
    split
    · obtain ⟨popped, hq, hout⟩ := ih
        { s with queuedPackets := s.queuedPackets - 1, queuedBytes := s.queuedBytes - x.bytes }
      refine ⟨x :: popped, ?_, ?_⟩
      · rw [List.cons_append, ← hq]
      · rw [List.map_cons, ← hout]
    · exact ⟨[], rfl, rfl⟩

theorem sync_sublist (e : PacketConditioner T) (now : Nat) (d : ConditionerDirection) :
    ((e.sync now).queues d).Sublist (e.queues d) := by
  obtain ⟨-, -, -, -, -, hq⟩ := sync_frame e now
  rw [hq]
  split
  · exact .refl _
  · exact List.nil_sublist _

/-- `drain_ready` takes a first part off one queue and returns it. -/
theorem drainReady_split (e : PacketConditioner T) (d : ConditionerDirection) (now : Nat) :
    (∀ d', ((e.drainReady d now).1.queues d').Sublist ((e.sync now).queues d')) ∧
      ∃ popped, popped ++ (e.drainReady d now).1.queues d = (e.sync now).queues d ∧
        (e.drainReady d now).2 = popped.map Scheduled.payload := by
  obtain ⟨popped, hq, hout⟩ := popReady_split (e.sync now).lastNow ((e.sync now).queues d)
    ((e.sync now).handle.stats.direction d)
  have hkept : (e.drainReady d now).1.queues d = (popReady (e.sync now).lastNow ((e.sync now).queues d)
      ((e.sync now).handle.stats.direction d)).1 := by
    simp only [drainReady, count, Function.update_self]
  rw [← hkept] at hq
  refine ⟨fun d' => ?_, popped, hq.symm, hout⟩
  by_cases hd : d' = d
  · subst hd
    rw [hq]
    exact List.sublist_append_right _ _
  · simp only [drainReady, count, Function.update_of_ne hd]
    exact .refl _

/-- `enqueue` adds to a queue only the packet it keeps. -/
theorem enqueue_queue (delay : Nat → Nat → Nat → Nat) (e : PacketConditioner T)
    (d : ConditionerDirection) (now : Nat) (payload : T) (byteLen : Nat) (d' : ConditionerDirection) :
    (e.enqueue delay d now payload byteLen).1.queues d' = (e.sync now).queues d' ∨
      d' = d ∧ (e.enqueue delay d now payload byteLen).2 = none ∧
        (e.sync now).outageUntil = none ∧
        ∃ due, (e.enqueue delay d now payload byteLen).1.queues d' =
          schedule ⟨due, payload, byteLen⟩ ((e.sync now).queues d') := by
  have hdid := enqueue_did delay e d now payload byteLen
  generalize e.enqueue delay d now payload byteLen = out at hdid ⊢
  generalize e.queuedAt delay d now byteLen = at_ at hdid
  cases hdid with
  | bypassed _ => exact .inl rfl
  | dropped _ => exact .inl rfl
  | @queued rng due hout _ _ =>
    by_cases hd : d' = d
    · subst hd
      refine .inr ⟨rfl, rfl, hout, due, ?_⟩
      simp only [count, Function.update_self]
    · left
      simp only [count, Function.update_of_ne hd]

/-- The handle was changed `k` times since the engine last looked. -/
structure Lag (e : PacketConditioner T) (k : Nat) : Prop where
  engine : e.revision ≤ U64_MAX
  handle : e.handle.revision = wrapU64 (e.revision + k)

theorem Lag.synced {e : PacketConditioner T} (hs : e.revision = e.handle.revision)
    (hle : e.handle.revision ≤ U64_MAX) : Lag e 0 where
  engine := by rw [hs]; exact hle
  handle := by rw [hs, Nat.add_zero, wrapU64_eq hle]

theorem Lag.handle_le {e : PacketConditioner T} {k : Nat} (h : Lag e k) :
    e.handle.revision ≤ U64_MAX := by
  rw [h.handle]
  exact wrapU64_le _

theorem Lag.changed {e : PacketConditioner T} {k : Nat} (h : Lag e k) {c : Control}
    (hc : c.revision = wrapU64 (e.handle.revision + 1)) : Lag { e with handle := c } (k + 1) where
  engine := h.engine
  handle := by
    rw [hc, h.handle, wrapU64_wrapU64_add]
    rfl

/-- Until it has come round, the lag is seen. -/
theorem Lag.agree {e : PacketConditioner T} {k : Nat} (h : Lag e k) (hk : k ≤ U64_MAX) :
    e.revision = e.handle.revision ↔ k = 0 := by
  have hle := h.engine
  rw [h.handle]
  unfold wrapU64 U64_MAX at *
  omega

/-- An engine that has been told of an outage, or is behind, clears its queues. -/
theorem Lag.sync_impose {e : PacketConditioner T} {k : Nat} (h : Lag e k) (hk : k < U64_MAX)
    (remaining : Option Nat) (now : Nat) (d : ConditionerDirection) :
    ((ServerConditioner.impose remaining e).sync now).queues d = [] ∨ remaining = none ∧ k = 0 := by
  obtain ⟨-, -, -, -, -, hq⟩ := sync_frame (ServerConditioner.impose remaining e) now
  rw [hq]
  cases remaining with
  | none =>
    by_cases hzero : k = 0
    · exact .inr ⟨rfl, hzero⟩
    · left
      rw [if_neg]
      exact fun heq => hzero ((h.agree (Nat.le_of_lt hk)).1 heq)
  | some r =>
    left
    have hlag : Lag (ServerConditioner.impose (some r) e) (k + 1) := h.changed rfl
    rw [if_neg]
    exact fun heq => absurd ((hlag.agree hk).1 heq) (Nat.succ_ne_zero k)

theorem handle_impose_le {e : PacketConditioner T} (hle : e.handle.revision ≤ U64_MAX)
    (remaining : Option Nat) : (ServerConditioner.impose remaining e).handle.revision ≤ U64_MAX := by
  cases remaining with
  | none => exact hle
  | some r => exact wrapU64_le _

theorem holds_iff_mem {e : PacketConditioner T} {d : ConditionerDirection} {x : T} :
    e.Holds d x ↔ x ∈ (e.queues d).map Scheduled.payload := List.mem_map.symm

end PacketConditioner

/-! ## Where a packet comes from -/

open ServerConditioner

namespace Trace

/-- The packet `x` was deferred by the call its position names, and no call since
removed the entry it was queued in. -/
structure Origin (log : List (Call (Nat × Bytes))) (owner : Nat) (d : ConditionerDirection)
    (id : ServerPeerId) (x : Nat × Bytes) : Prop where
  call : ∃ c now, log[x.1]? = some c ∧ c.op = .deferAt owner d id x.2 now ∧ c.taken = true
  kept : ∀ k c, x.1 < k → log[k]? = some c → ¬ c.Removes owner id

/-- The positions named by the packets returned so far. -/
def returned (log : List (Call (Nat × Bytes))) : List Nat :=
  log.flatMap fun c => c.items.map fun y => y.2.1

section

variable {log : List (Call (Nat × Bytes))} {c : Call (Nat × Bytes)} {owner : Nat}
  {d : ConditionerDirection} {id : ServerPeerId} {x : Nat × Bytes}

theorem Origin.lt (h : Origin log owner d id x) : x.1 < log.length := by
  obtain ⟨c, _, hc, _⟩ := h.call
  exact (List.getElem?_eq_some_iff.1 hc).1

/-- A position names one packet, deferred at one place. -/
theorem Origin.same {owner' : Nat} {d' : ConditionerDirection} {id' : ServerPeerId} {x' : Nat × Bytes}
    (h : Origin log owner d id x) (h' : Origin log owner' d' id' x') (hx : x.1 = x'.1) :
    owner = owner' ∧ d = d' ∧ id = id' ∧ x = x' := by
  obtain ⟨c, now, hc, hop, -⟩ := h.call
  obtain ⟨c', now', hc', hop', -⟩ := h'.call
  rw [hx, hc'] at hc
  cases hc
  rw [hop'] at hop
  obtain ⟨ho, hd, hid, hbytes, -⟩ := Op.deferAt.inj hop
  exact ⟨ho.symm, hd.symm, hid.symm, Prod.ext hx hbytes.symm⟩

theorem Origin.snoc (h : Origin log owner d id x) (hc : ¬ c.Removes owner id) :
    Origin (log ++ [c]) owner d id x := by
  refine ⟨?_, fun k c' hk hget => ?_⟩
  · obtain ⟨c', now, hget, hop, htaken⟩ := h.call
    exact ⟨c', now, get_snoc_of_get hget c, hop, htaken⟩
  · rcases get_snoc hget with ⟨-, hget⟩ | ⟨-, rfl⟩
    · exact h.kept k c' hk hget
    · exact hc

/-- The packet of the call that was just made. -/
theorem Origin.fresh {bytes : Bytes} {now : Nat} (hop : c.op = .deferAt owner d id bytes now)
    (htaken : c.taken = true) : Origin (log ++ [c]) owner d id (log.length, bytes) := by
  refine ⟨⟨c, now, List.getElem?_concat_length, hop, htaken⟩, fun k c' hk hget => ?_⟩
  have := (List.getElem?_eq_some_iff.1 hget).1
  simp only [List.length_append, List.length_singleton] at this hk
  omega

theorem returned_snoc : returned (log ++ [c]) = returned log ++ c.items.map fun y => y.2.1 := by
  simp [returned]

/-- The entry of one peer. -/
structure PeerOk (log : List (Call (Nat × Bytes))) (id : ServerPeerId)
    (p : Peer (Nat × Bytes)) : Prop where
  origin : ∀ d x, p.engine.Holds d x → Origin log p.owner d id x
  nodup : ∀ d, ((p.engine.queues d).map fun q => q.payload.1).Nodup
  waiting : ∀ d x, p.engine.Holds d x → x.1 ∉ returned log

variable {p p' : Peer (Nat × Bytes)}

/-- Nothing was added to a queue. -/
theorem PeerOk.shrink (h : PeerOk log id p) (howner : p'.owner = p.owner)
    (hsub : ∀ d, (p'.engine.queues d).Sublist (p.engine.queues d))
    (hc : ∀ d x, p.engine.Holds d x → ¬ c.Removes p.owner id)
    (hout : ∀ d x, p'.engine.Holds d x → ∀ y ∈ c.items, y.2.1 ≠ x.1) :
    PeerOk (log ++ [c]) id p' := by
  have hholds : ∀ d x, p'.engine.Holds d x → p.engine.Holds d x := by
    intro d x hx
    rw [PacketConditioner.holds_iff_mem] at hx ⊢
    exact ((hsub d).map _).subset hx
  refine ⟨fun d x hx => ?_, fun d => ?_, fun d x hx => ?_⟩
  · rw [howner]
    exact (h.origin d x (hholds d x hx)).snoc (hc d x (hholds d x hx))
  · exact ((hsub d).map _).nodup (h.nodup d)
  · rw [returned_snoc, List.mem_append, List.mem_map]
    intro hmem
    rcases hmem with hmem | ⟨y, hy, hyx⟩
    · exact h.waiting d x (hholds d x hx) hmem
    · exact hout d x hx y hy hyx

end

/-- The whole table, and what was returned. -/
structure Ok (t : Trace (Nat × Bytes)) : Prop where
  peers : ∀ id p, t.state.peers.get id = some p → PeerOk t.log id p
  once : (returned t.log).Nodup
  items : ∀ i c, t.log[i]? = some c → ∀ y ∈ c.items,
    ∃ owner d now, c.op = .drainAt owner d now ∧ Origin (t.log.take i) owner d y.1 y.2

section

variable {t : Trace (Nat × Bytes)}

theorem Ok.returned_lt (h : Ok t) {n : Nat} (hn : n ∈ returned t.log) : n < t.log.length := by
  obtain ⟨c, hc, hn⟩ := List.mem_flatMap.1 hn
  obtain ⟨y, hy, rfl⟩ := List.mem_map.1 hn
  obtain ⟨i, hi⟩ := List.getElem?_of_mem hc
  obtain ⟨_, _, _, _, horigin⟩ := h.items i c hi y hy
  have := horigin.lt
  simp only [List.length_take] at this
  omega

/-- A queue a packet was added to. -/
theorem PeerOk.add (h : Ok t) {c : Call (Nat × Bytes)} {id : ServerPeerId} {p p' : Peer (Nat × Bytes)}
    {d : ConditionerDirection} {bytes : Bytes} {now byteLen due : Nat} (hp : PeerOk t.log id p)
    (howner : p'.owner = p.owner) (hop : c.op = .deferAt p.owner d id bytes now)
    (htaken : c.taken = true) (hitems : c.items = [])
    (hc : ∀ d' x, p.engine.Holds d' x → ¬ c.Removes p.owner id)
    {q : List (Scheduled (Nat × Bytes))} (hq : q.Sublist (p.engine.queues d))
    (hd : p'.engine.queues d = schedule ⟨due, (t.log.length, bytes), byteLen⟩ q)
    (hother : ∀ d', d' ≠ d → (p'.engine.queues d').Sublist (p.engine.queues d')) :
    PeerOk (t.log ++ [c]) id p' := by
  have hreturned : returned (t.log ++ [c]) = returned t.log := by
    rw [returned_snoc, hitems, List.map_nil, List.append_nil]
  -- what waits is the new packet or one that waited before
  have hcases : ∀ d' x, p'.engine.Holds d' x →
      d' = d ∧ x = (t.log.length, bytes) ∨ p.engine.Holds d' x := by
    intro d' x hx
    rw [PacketConditioner.holds_iff_mem] at hx ⊢
    by_cases hdd : d' = d
    · subst hdd
      rw [hd] at hx
      have hperm := ((PacketConditioner.schedule_perm ⟨due, (t.log.length, bytes), byteLen⟩ q).map
        Scheduled.payload).mem_iff.1 hx
      rcases List.mem_cons.1 hperm with hx | hx
      · exact .inl ⟨rfl, hx⟩
      · exact .inr ((hq.map _).subset hx)
    · exact .inr (((hother d' hdd).map _).subset hx)
  refine ⟨fun d' x hx => ?_, fun d' => ?_, fun d' x hx => ?_⟩
  · rw [howner]
    rcases hcases d' x hx with ⟨rfl, rfl⟩ | hx
    · exact .fresh hop htaken
    · exact (hp.origin d' x hx).snoc (hc d' x hx)
  · by_cases hdd : d' = d
    · subst hdd
      rw [hd, ((PacketConditioner.schedule_perm _ q).map _).nodup_iff, List.map_cons, List.nodup_cons]
      refine ⟨fun hmem => ?_, (hq.map _).nodup (hp.nodup d')⟩
      obtain ⟨y, hy, hyn⟩ := List.mem_map.1 hmem
      have := (hp.origin d' y.payload ⟨y, hq.subset hy, rfl⟩).lt
      simp only at hyn
      omega
    · exact ((hother d' hdd).map _).nodup (hp.nodup d')
  · rw [hreturned]
    rcases hcases d' x hx with ⟨-, rfl⟩ | hx
    · intro hmem
      exact Nat.lt_irrefl _ (h.returned_lt hmem)
    · exact hp.waiting d' x hx

/-! ## One call -/

theorem items_nil {T : Type} {delay : Nat → Nat → Nat → Nat} {make : Bytes → T}
    {s : ServerConditioner T} {op : Op} {r : ServerConditioner T × Bool × List (ServerPeerId × T)}
    (hr : s.apply delay make op = some r) (hop : ∀ owner d now, op ≠ .drainAt owner d now) :
    r.2.2 = [] := by
  cases op with
  | drainAt owner d now => exact absurd rfl (hop owner d now)
  | configure config =>
    simp only [apply, configure] at hr
    by_cases hvalid : config.validate = .ok ()
    · rw [dif_pos hvalid] at hr
      cases hr
      rfl
    · rw [dif_neg hvalid] at hr
      cases hr
      rfl
  | allocateOwner =>
    obtain ⟨a, _, rfl⟩ := Option.map_eq_some_iff.1 hr
    rfl
  | deferAt owner d id bytes now => cases hr; rfl
  | outageAt duration now => cases hr; rfl
  | removePeer owner id => cases hr; rfl
  | removeOwner owner => cases hr; rfl

/-- A returned packet was popped from the entry of its peer. -/
theorem mem_drainAt {T : Type} {s : ServerConditioner T} {owner : Nat} {d : ConditionerDirection}
    {now : Nat} {y : ServerPeerId × T} (h : y ∈ (s.drainAt owner d now).2) :
    ∃ p, (s.poll now).peers.get y.1 = some p ∧ p.owner = owner ∧
      y.2 ∈ ((impose (s.poll now).outageRemaining p.engine).drainReady d (s.poll now).now).2 := by
  simp only [drainAt, List.mem_flatMap, List.mem_map] at h
  obtain ⟨⟨id, p⟩, hmem, x, hx, rfl⟩ := h
  unfold drainPeer at hx
  split at hx
  · rename_i ho
    exact ⟨p, HashMap.get_eq_some.2 hmem, ho, hx⟩
  · exact absurd hx List.not_mem_nil

/-- A drain leaves the entries of the other owners alone, the idle ones aside. -/
theorem get_drainAt_other {T : Type} {s : ServerConditioner T} {owner : Nat} {d : ConditionerDirection}
    {now : Nat} {id : ServerPeerId} {p : Peer T} (ho : p.owner ≠ owner) :
    (s.drainAt owner d now).1.peers.get id = some p ↔
      s.peers.get id = some p ∧ id ∉ s.expiring now := by
  have hpoll : (s.poll now).peers.get id = some p ↔ s.peers.get id = some p ∧ id ∉ s.expiring now := by
    rw [get_poll]
    split
    · rename_i hid
      exact ⟨fun h => (by cases h), fun h => absurd hid h.2⟩
    · rename_i hid
      exact ⟨fun h => ⟨h, hid⟩, And.left⟩
  rw [← hpoll]
  simp only [drainAt, HashMap.get_mapVal, Option.map_eq_some_iff]
  constructor
  · intro h
    obtain ⟨q, hq, hqp⟩ := h
    unfold drainPeer at hqp
    split at hqp
    · rename_i hqo
      rw [← hqp] at ho
      exact absurd hqo ho
    · rw [← hqp]
      exact hq
  · intro h
    refine ⟨p, h, ?_⟩
    unfold drainPeer
    rw [if_neg ho]

theorem sync_impose_sublist {T : Type} (remaining : Option Nat) (e : PacketConditioner T) (now : Nat)
    (d : ConditionerDirection) : (((impose remaining e).sync now).queues d).Sublist (e.queues d) := by
  have hsub := PacketConditioner.sync_sublist (impose remaining e) now d
  cases remaining <;> exact hsub

variable {delay : Nat → Nat → Nat → Nat} {op : Op}
  {r : ServerConditioner (Nat × Bytes) × Bool × List (ServerPeerId × (Nat × Bytes))}

/-- What a drain returns waited in a queue. -/
theorem Ok.mem_drained (h : Ok t) {owner : Nat} {d : ConditionerDirection} {now : Nat}
    {y : ServerPeerId × (Nat × Bytes)} (hy : y ∈ (t.state.drainAt owner d now).2) :
    ∃ p, t.state.peers.get y.1 = some p ∧ p.owner = owner ∧ p.engine.Holds d y.2 ∧
      Origin t.log owner d y.1 y.2 ∧ y.2 ∈
        ((impose (t.state.poll now).outageRemaining p.engine).drainReady d (t.state.poll now).now).2 := by
  obtain ⟨p, hp, ho, hpop⟩ := mem_drainAt hy
  obtain ⟨hs, -⟩ := get_of_poll hp
  have hholds : p.engine.Holds d y.2 :=
    PacketConditioner.holds_impose.1 ((PacketConditioner.holds_drainReady _ d _).2 y.2 hpop)
  have horigin := (h.peers y.1 p hs).origin d y.2 hholds
  rw [ho] at horigin
  exact ⟨p, hs, ho, hholds, horigin, hpop⟩

theorem Ok.peer (h : Ok t) (hr : t.state.apply delay (fun bytes => (t.log.length, bytes)) op = some r)
    {id : ServerPeerId} {p' : Peer (Nat × Bytes)} (hp' : r.1.peers.get id = some p') :
    PeerOk (t.log ++ [t.state.called op r]) id p' := by
  have hnil : (∀ owner d now, op ≠ .drainAt owner d now) → (t.state.called op r).items = [] :=
    fun hop => items_nil hr hop
  cases peerStep hr hp' with
  | kept hget hflush hrem hdrain =>
    refine (h.peers id p' hget).shrink rfl (fun _ => .refl _) (fun _ _ _ => hrem) ?_
    intro d x hx y hy heq
    by_cases hop : ∃ owner d now, op = .drainAt owner d now
    · obtain ⟨owner, d', now, rfl⟩ := hop
      cases hr
      obtain ⟨q, -, -, -, horigin, -⟩ := h.mem_drained hy
      obtain ⟨ho, -, -, -⟩ := horigin.same ((h.peers id p' hget).origin d x hx) heq
      exact hdrain d' now (by rw [← ho]; rfl)
    · rw [hnil fun owner d now hd => hop ⟨owner, d, now, hd⟩] at hy
      exact absurd hy List.not_mem_nil
  | @flushed p config hget hflush hrem =>
    refine (h.peers id p hget).shrink rfl (fun _ => .refl _) (fun _ _ _ => hrem) ?_
    intro d x hx y hy
    rw [hnil ?_] at hy
    · exact absurd hy List.not_mem_nil
    · intro owner d now hop
      simp only [called, Call.flushes, hop] at hflush
      cases hflush
  | @drained p d now hop hget hrem =>
    obtain ⟨hs, -⟩ := get_of_poll hget
    have hp := h.peers id p hs
    obtain ⟨hkept, popped, hpopped, hout⟩ := PacketConditioner.drainReady_split
      (impose (t.state.poll now).outageRemaining p.engine) d (t.state.poll now).now
    have hsub := fun d' => (hkept d').trans (sync_impose_sublist _ p.engine _ d')
    refine hp.shrink rfl hsub (fun _ _ _ => hrem) ?_
    intro d' x hx y hy heq
    simp only [called] at hop
    subst hop
    cases hr
    obtain ⟨q, hq, -, -, horigin, hpop⟩ := h.mem_drained hy
    have hx' : p.engine.Holds d' x := by
      rw [PacketConditioner.holds_iff_mem] at hx ⊢
      exact ((hsub d').map _).subset hx
    obtain ⟨-, rfl, hid, hyx⟩ := horigin.same (hp.origin d' x hx') heq
    -- the same packet, popped and still in the queue
    rw [hid, hs] at hq
    cases hq
    have hnodup := ((sync_impose_sublist (t.state.poll now).outageRemaining p.engine
      (t.state.poll now).now d).map fun q => q.payload.1).nodup (hp.nodup d)
    rw [← hpopped, List.map_append, List.nodup_append] at hnodup
    rw [hout] at hpop
    obtain ⟨a, ha, hay⟩ := List.mem_map.1 hpop
    obtain ⟨b, hb, hbx⟩ := hx
    refine hnodup.2.2 a.payload.1 (List.mem_map.2 ⟨a, ha, rfl⟩) b.payload.1
      (List.mem_map.2 ⟨b, hb, rfl⟩) ?_
    rw [hay, hbx, hyx]
  | @deferred p d bytes now hop hfrom htaken =>
    simp only [called] at hop
    subst hop
    have hitems : (t.state.called (.deferAt p.owner d id bytes now) r).items = [] :=
      hnil (by intro _ _ _ hop; cases hop)
    have hp : PeerOk t.log id p ∧ ∀ d' x, p.engine.Holds d' x →
        ¬ (t.state.called (.deferAt p.owner d id bytes now) r).Removes p.owner id := by
      rcases hfrom with ⟨hget, hrem⟩ | hnew
      · exact ⟨h.peers id p (get_of_poll hget).1, fun _ _ _ => hrem⟩
      · have hempty : ∀ d', p.engine.queues d' = [] := by
          intro d'
          rw [hnew]
          rfl
        have hnone : ∀ d' x, ¬ p.engine.Holds d' x := by
          intro d' x hx
          rw [PacketConditioner.holds_iff_mem, hempty d'] at hx
          exact absurd hx List.not_mem_nil
        refine ⟨⟨fun d' x hx => absurd hx (hnone d' x), fun d' => ?_,
          fun d' x hx => absurd hx (hnone d' x)⟩, fun d' x hx => absurd hx (hnone d' x)⟩
        rw [hempty d']
        exact List.nodup_nil
    obtain ⟨hok, hrem⟩ := hp
    have hqueue := PacketConditioner.enqueue_queue delay
      (impose (t.state.poll now).outageRemaining p.engine) d (t.state.poll now).now
      (t.log.length, bytes) bytes.length
    have hother : ∀ d', d' ≠ d → (((impose (t.state.poll now).outageRemaining p.engine).enqueue delay d
        (t.state.poll now).now (t.log.length, bytes) bytes.length).1.queues d').Sublist
          (p.engine.queues d') := by
      intro d' hd'
      rcases hqueue d' with hsame | ⟨hd, -⟩
      · rw [hsame]
        exact sync_impose_sublist _ p.engine _ d'
      · exact absurd hd hd'
    rcases hqueue d with hsame | ⟨-, hkept, -, due, hd⟩
    · refine hok.shrink rfl (fun d' => ?_) hrem ?_
      · by_cases hd' : d' = d
        · subst hd'
          dsimp only
          rw [hsame]
          exact sync_impose_sublist _ p.engine _ d'
        · exact hother d' hd'
      · intro d' x _ y hy
        rw [hitems] at hy
        exact absurd hy List.not_mem_nil
    · refine hok.add h rfl rfl ?_ hitems hrem (sync_impose_sublist _ p.engine _ d) hd hother
      rw [htaken, hkept]
      rfl

/-- One drain returns no packet twice. -/
theorem Ok.drained_nodup (h : Ok t) (owner : Nat) (d : ConditionerDirection) (now : Nat) :
    ((t.state.drainAt owner d now).2.map fun y => y.2.1).Nodup := by
  -- per peer the packets are a first part of one queue; two peers differ in the id
  have horigin : ∀ x ∈ (t.state.poll now).peers.iter, ∀ z ∈
      (drainPeer owner d (t.state.poll now).now (t.state.poll now).outageRemaining x.2).2,
      Origin t.log owner d x.1 z := by
    intro x hx z hz
    obtain ⟨hs, -⟩ := get_of_poll (HashMap.get_eq_some.2 (show (x.1, x.2) ∈ _ from hx))
    obtain ⟨ho, hholds⟩ := (drainPeer_holds owner d _ _ x.2).2.2 z hz
    rw [← ho]
    exact (h.peers x.1 x.2 hs).origin d z hholds
  simp only [drainAt, List.map_flatMap, List.map_map, Function.comp_def]
  refine List.nodup_flatMap.2 ⟨fun x hx => ?_, ?_⟩
  · obtain ⟨hs, -⟩ := get_of_poll (HashMap.get_eq_some.2 (show (x.1, x.2) ∈ _ from hx))
    unfold drainPeer
    split
    · obtain ⟨-, popped, hpopped, hout⟩ := PacketConditioner.drainReady_split
        (impose (t.state.poll now).outageRemaining x.2.engine) d (t.state.poll now).now
      dsimp only
      rw [hout, List.map_map]
      have hnodup := ((sync_impose_sublist (t.state.poll now).outageRemaining x.2.engine
        (t.state.poll now).now d).map fun q => q.payload.1).nodup ((h.peers x.1 x.2 hs).nodup d)
      rw [← hpopped, List.map_append] at hnodup
      exact (List.nodup_append.1 hnodup).1
    · exact List.nodup_nil
  · refine (HashMap.iter_pairwise _).imp_of_mem ?_
    intro x y hx hy hne n hnx hny
    obtain ⟨z, hz, rfl⟩ := List.mem_map.1 hnx
    obtain ⟨w, hw, hwz⟩ := List.mem_map.1 hny
    obtain ⟨-, -, hid, -⟩ := (horigin x hx z hz).same (horigin y hy w hw) hwz.symm
    exact hne hid

theorem Ok.step (h : Ok t) {t' : Trace (Nat × Bytes)}
    (hs : t.step delay (fun n bytes => (n, bytes)) op = some t') : Ok t' := by
  obtain ⟨r, hr, rfl⟩ := step_eq delay _ hs
  refine ⟨fun id p' hp' => h.peer hr hp', ?_, ?_⟩
  · rw [logged, returned_snoc]
    by_cases hop : ∃ owner d now, op = .drainAt owner d now
    · obtain ⟨owner, d, now, rfl⟩ := hop
      cases hr
      refine List.nodup_append.2 ⟨h.once, h.drained_nodup owner d now, ?_⟩
      intro n hn m hm hnm
      obtain ⟨y, hy, rfl⟩ := List.mem_map.1 hm
      obtain ⟨p, hp, -, hholds, -, -⟩ := h.mem_drained hy
      exact (h.peers y.1 p hp).waiting d y.2 hholds (by rw [← hnm]; exact hn)
    · have hnil : (t.state.called op r).items = [] :=
        items_nil hr fun owner d now hd => hop ⟨owner, d, now, hd⟩
      rw [hnil, List.map_nil, List.append_nil]
      exact h.once
  · intro i c hi y hy
    simp only [logged] at hi ⊢
    rcases get_snoc hi with ⟨hlt, hi⟩ | ⟨rfl, rfl⟩
    · rw [List.take_append_of_le_length (Nat.le_of_lt hlt)]
      exact h.items i c hi y hy
    · rw [List.take_left']
      · by_cases hop : ∃ owner d now, op = .drainAt owner d now
        · obtain ⟨owner, d, now, rfl⟩ := hop
          cases hr
          obtain ⟨-, -, -, -, horigin, -⟩ := h.mem_drained hy
          exact ⟨owner, d, now, rfl, horigin⟩
        · have hnil : (t.state.called op r).items = [] :=
            items_nil hr fun owner d now hd => hop ⟨owner, d, now, hd⟩
          rw [hnil] at hy
          exact absurd hy List.not_mem_nil
      · rfl

theorem ok_inductive (delay : Nat → Nat → Nat → Nat) :
    (runs delay fun n bytes => (n, bytes)).Inductive Ok where
  init := by
    intro t ht
    obtain ⟨config, rfl⟩ := ht
    exact ⟨fun id p hp => (by cases hp), List.nodup_nil, fun i c hi => (by simp at hi)⟩
  step := fun t op t' h hs => h.step hs

/-! ## Changes of the handle -/

/-- No call since the packet was deferred dropped what was queued. -/
def Unflushed (log : List (Call (Nat × Bytes))) (x : Nat × Bytes) : Prop :=
  ∀ k c, x.1 < k → log[k]? = some c → c.flushes = false

theorem Unflushed.snoc {log : List (Call (Nat × Bytes))} {c : Call (Nat × Bytes)} {x : Nat × Bytes}
    (h : Unflushed log x) (hc : c.flushes = false) : Unflushed (log ++ [c]) x := by
  intro k c' hk hget
  rcases get_snoc hget with ⟨-, hget⟩ | ⟨-, rfl⟩
  · exact h k c' hk hget
  · exact hc

theorem Unflushed.fresh {log : List (Call (Nat × Bytes))} {c : Call (Nat × Bytes)} {bytes : Bytes} :
    Unflushed (log ++ [c]) (log.length, bytes) := by
  intro k c' hk hget
  have := (List.getElem?_eq_some_iff.1 hget).1
  simp only [List.length_append, List.length_singleton] at this hk
  omega

/-- An engine that is not behind holds only packets deferred since the last change. -/
def PeerFresh (log : List (Call (Nat × Bytes))) (p : Peer (Nat × Bytes)) : Prop :=
  ∃ k ≤ log.countP Call.flushes, p.engine.Lag k ∧
    (k = 0 → ∀ d x, p.engine.Holds d x → Unflushed log x)

/-- What an engine call leaves in the queues, the new packet aside, no change dropped. -/
theorem PeerFresh.unflushed {log : List (Call (Nat × Bytes))} {c : Call (Nat × Bytes)}
    {p : Peer (Nat × Bytes)} (h : PeerFresh log p) (hn : log.countP Call.flushes < U64_MAX)
    (hc : c.flushes = false) (remaining : Option Nat) (now : Nat) (d : ConditionerDirection)
    (x : Nat × Bytes) (hx : ((impose remaining p.engine).sync now).Holds d x) :
    Unflushed (log ++ [c]) x := by
  obtain ⟨k, hk, hlag, hzero⟩ := h
  rcases hlag.sync_impose (Nat.lt_of_le_of_lt hk hn) remaining now d with hnil | ⟨rfl, hk0⟩
  · rw [PacketConditioner.holds_iff_mem, hnil] at hx
    exact absurd hx List.not_mem_nil
  · exact (hzero hk0 d x (PacketConditioner.holds_sync now hx)).snoc hc

/-- The whole table, and what was returned. -/
structure Fresh (t : Trace (Nat × Bytes)) : Prop where
  peers : ∀ id p, t.state.peers.get id = some p → PeerFresh t.log p
  items : ∀ i c, t.log[i]? = some c → ∀ y ∈ c.items, Unflushed (t.log.take i) y.2

theorem Fresh.peer (h : Fresh t) (hn : t.flushes < U64_MAX)
    (hr : t.state.apply delay (fun bytes => (t.log.length, bytes)) op = some r)
    {id : ServerPeerId} {p' : Peer (Nat × Bytes)} (hp' : r.1.peers.get id = some p') :
    PeerFresh (t.log ++ [t.state.called op r]) p' := by
  unfold PeerFresh
  rw [List.countP_append, List.countP_singleton]
  cases peerStep hr hp' with
  | kept hget hflush hrem hdrain =>
    obtain ⟨k, hk, hlag, hzero⟩ := h.peers id p' hget
    exact ⟨k, Nat.le_add_right_of_le hk, hlag, fun hk0 d x hx => (hzero hk0 d x hx).snoc hflush⟩
  | @flushed p config hget hflush hrem =>
    obtain ⟨k, hk, hlag, -⟩ := h.peers id p hget
    refine ⟨k + 1, ?_, hlag.changed rfl, fun hk0 => absurd hk0 (Nat.succ_ne_zero k)⟩
    rw [if_pos hflush]
    exact Nat.succ_le_succ hk
  | @drained p d now hop hget hrem =>
    obtain ⟨hs, -⟩ := get_of_poll hget
    obtain ⟨k, -, hlag, -⟩ := h.peers id p hs
    obtain ⟨hrev, hhandle⟩ := PacketConditioner.drainReady_revision
      (impose (t.state.poll now).outageRemaining p.engine) d (t.state.poll now).now
    refine ⟨0, Nat.zero_le _, .synced (hrev.trans hhandle.symm) ?_, fun _ d' x hx => ?_⟩
    · rw [hhandle]
      exact PacketConditioner.handle_impose_le hlag.handle_le _
    · obtain ⟨hkept, -⟩ := PacketConditioner.drainReady_split
        (impose (t.state.poll now).outageRemaining p.engine) d (t.state.poll now).now
      refine (h.peers id p hs).unflushed hn (by simp only [Call.flushes, hop])
        (t.state.poll now).outageRemaining (t.state.poll now).now d' x ?_
      rw [PacketConditioner.holds_iff_mem] at hx ⊢
      exact ((hkept d').map _).subset hx
  | @deferred p d bytes now hop hfrom htaken =>
    have hflush : (t.state.called op r).flushes = false := by simp only [Call.flushes, hop]
    obtain ⟨hle, hold⟩ : p.engine.handle.revision ≤ U64_MAX ∧
        ∀ d' x, ((impose (t.state.poll now).outageRemaining p.engine).sync
          (t.state.poll now).now).Holds d' x → Unflushed (t.log ++ [t.state.called op r]) x := by
      rcases hfrom with ⟨hget, -⟩ | hnew
      · obtain ⟨hs, -⟩ := get_of_poll hget
        obtain ⟨k, -, hlag, -⟩ := h.peers id p hs
        exact ⟨hlag.handle_le, fun d' x => (h.peers id p hs).unflushed hn hflush _ _ d' x⟩
      · refine ⟨by rw [hnew]; exact wrapU64_le _, fun d' x hx => ?_⟩
        have hx' := PacketConditioner.holds_impose.1 (PacketConditioner.holds_sync _ hx)
        rw [hnew] at hx'
        exact absurd hx' holds_newPeer
    obtain ⟨hrev, hhandle⟩ := PacketConditioner.enqueue_revision delay
      (impose (t.state.poll now).outageRemaining p.engine) d (t.state.poll now).now
      (t.log.length, bytes) bytes.length
    refine ⟨0, Nat.zero_le _, .synced (hrev.trans hhandle.symm) ?_, fun _ d' x hx => ?_⟩
    · rw [hhandle]
      exact PacketConditioner.handle_impose_le hle _
    · rw [PacketConditioner.holds_iff_mem] at hx
      rcases PacketConditioner.enqueue_queue delay
        (impose (t.state.poll now).outageRemaining p.engine) d (t.state.poll now).now
        (t.log.length, bytes) bytes.length d' with hsame | ⟨-, -, -, due, hd⟩
      · rw [hsame] at hx
        exact hold d' x (PacketConditioner.holds_iff_mem.2 hx)
      · rw [hd] at hx
        have hperm := ((PacketConditioner.schedule_perm _ _).map Scheduled.payload).mem_iff.1 hx
        rcases List.mem_cons.1 hperm with rfl | hx
        · exact .fresh
        · exact hold d' x (PacketConditioner.holds_iff_mem.2 hx)

theorem Fresh.step (h : Fresh t) (hn : t.flushes < U64_MAX) {t' : Trace (Nat × Bytes)}
    (hs : t.step delay (fun n bytes => (n, bytes)) op = some t') : Fresh t' := by
  obtain ⟨r, hr, rfl⟩ := step_eq delay _ hs
  refine ⟨fun id p' hp' => h.peer hn hr hp', ?_⟩
  intro i c hi y hy
  simp only [logged] at hi ⊢
  rcases get_snoc hi with ⟨hlt, hi⟩ | ⟨rfl, rfl⟩
  · rw [List.take_append_of_le_length (Nat.le_of_lt hlt)]
    exact h.items i c hi y hy
  · rw [List.take_left' rfl]
    by_cases hop : ∃ owner d now, op = .drainAt owner d now
    · obtain ⟨owner, d, now, rfl⟩ := hop
      cases hr
      obtain ⟨p, hp, -, hpop⟩ := mem_drainAt hy
      obtain ⟨hget, -⟩ := get_of_poll hp
      obtain ⟨-, popped, hpopped, hout⟩ := PacketConditioner.drainReady_split
        (impose (t.state.poll now).outageRemaining p.engine) d (t.state.poll now).now
      rw [hout] at hpop
      obtain ⟨q, hq, hqy⟩ := List.mem_map.1 hpop
      have hx : ((impose (t.state.poll now).outageRemaining p.engine).sync
          (t.state.poll now).now).Holds d y.2 := by
        refine ⟨q, ?_, hqy⟩
        rw [← hpopped]
        exact List.mem_append_left _ hq
      obtain ⟨k, hk, hlag, hzero⟩ := h.peers y.1 p hget
      rcases hlag.sync_impose (Nat.lt_of_le_of_lt hk hn) (t.state.poll now).outageRemaining
        (t.state.poll now).now d with hnil | ⟨hnone, hk0⟩
      · rw [PacketConditioner.holds_iff_mem, hnil] at hx
        exact absurd hx List.not_mem_nil
      · exact hzero hk0 d y.2 (PacketConditioner.holds_impose.1 (PacketConditioner.holds_sync _ hx))
    · have hnil : (t.state.called op r).items = [] :=
        items_nil hr fun owner d now hd => hop ⟨owner, d, now, hd⟩
      rw [hnil] at hy
      exact absurd hy List.not_mem_nil

theorem flushes_mono {T : Type} {delay : Nat → Nat → Nat → Nat} {make : Nat → Bytes → T}
    {t t' : Trace T} {op : Op} (hs : t.step delay make op = some t') : t.flushes ≤ t'.flushes := by
  obtain ⟨r, -, rfl⟩ := step_eq delay _ hs
  simp only [flushes, logged, List.countP_append]
  exact Nat.le_add_right _ _

theorem fresh_inductive (delay : Nat → Nat → Nat → Nat) :
    (runs delay fun n bytes => (n, bytes)).Inductive fun t => t.flushes < U64_MAX → Fresh t where
  init := by
    intro t ht _
    obtain ⟨config, rfl⟩ := ht
    exact ⟨fun id p hp => (by cases hp), fun i c hi => (by simp at hi)⟩
  step := by
    intro t op t' h hs hn
    have hlt := Nat.lt_of_le_of_lt (flushes_mono hs) hn
    exact (h hlt).step hlt hs

end

/-! ## Packets without positions -/

theorem flushes_map {T U : Type} (f : T → U) (t : Trace T) : (t.map f).flushes = t.flushes := by
  simp only [flushes, map, List.countP_map]
  rfl

/-- Every packet returned is matched with the call that deferred it: `m i j` is the
position of that call for the `j`-th packet returned by the call at `i`. -/
structure Delivered (log : List (Call Bytes)) (m : Nat → Nat → Nat) : Prop where
  call : ∀ {i c owner d now j id bytes}, log[i]? = some c → c.op = .drainAt owner d now →
    c.items[j]? = some (id, bytes) → m i j < i ∧
      (∃ c' now', log[m i j]? = some c' ∧ c'.op = .deferAt owner d id bytes now' ∧ c'.taken = true) ∧
      ∀ k c', m i j < k → k < i → log[k]? = some c' → ¬ c'.Removes owner id
  once : ∀ {i c j i' c' j'}, log[i]? = some c → j < c.items.length → log[i']? = some c' →
    j' < c'.items.length → m i j = m i' j' → i = i' ∧ j = j'

/-- No call between the two dropped what was queued. -/
def Undisturbed (log : List (Call Bytes)) (m : Nat → Nat → Nat) : Prop :=
  ∀ i c j, log[i]? = some c → j < c.items.length →
    ∀ k c', m i j < k → k < i → log[k]? = some c' → c'.flushes = false

/-- The position carried by the `j`-th packet returned by the call at `i`. -/
def carried (log : List (Call (Nat × Bytes))) (i j : Nat) : Nat :=
  (((log[i]?).bind fun c => c.items[j]?).map fun y => y.2.1).getD 0

theorem carried_eq {log : List (Call (Nat × Bytes))} {i j : Nat} {c : Call (Nat × Bytes)}
    {y : ServerPeerId × (Nat × Bytes)} (hc : log[i]? = some c) (hy : c.items[j]? = some y) :
    carried log i j = y.2.1 := by
  simp [carried, hc, hy]

section

variable {t : Trace (Nat × Bytes)}

theorem get_log_map {i : Nat} {c : Call Bytes} (h : (t.map Prod.snd).log[i]? = some c) :
    ∃ c₀, t.log[i]? = some c₀ ∧ c = c₀.map Prod.snd := by
  simp only [map, List.getElem?_map, Option.map_eq_some_iff] at h
  obtain ⟨c₀, hc₀, rfl⟩ := h
  exact ⟨c₀, hc₀, rfl⟩

theorem get_items_map {c₀ : Call (Nat × Bytes)} {j : Nat} {y : ServerPeerId × Bytes}
    (h : (c₀.map Prod.snd).items[j]? = some y) :
    ∃ z, c₀.items[j]? = some z ∧ y = (z.1, z.2.2) := by
  simp only [Call.map, List.getElem?_map, Option.map_eq_some_iff] at h
  obtain ⟨z, hz, rfl⟩ := h
  exact ⟨z, hz, rfl⟩

theorem get_take {i k : Nat} {c : Call (Nat × Bytes)} (hk : k < i) (hc : t.log[k]? = some c) :
    (t.log.take i)[k]? = some c := by
  rw [List.getElem?_take_of_lt hk]
  exact hc

theorem Ok.delivered (h : Ok t) : Delivered (t.map Prod.snd).log (carried t.log) where
  call := by
    intro i c owner d now j id bytes hc hop hj
    obtain ⟨c₀, hc₀, rfl⟩ := get_log_map hc
    obtain ⟨z, hz, hy⟩ := get_items_map hj
    obtain ⟨rfl, rfl⟩ := Prod.mk.inj hy
    obtain ⟨owner', d', now', hop', horigin⟩ := h.items i c₀ hc₀ z (List.mem_of_getElem? hz)
    simp only [Call.map, hop'] at hop
    obtain ⟨rfl, rfl, rfl⟩ := Op.drainAt.inj hop
    rw [carried_eq hc₀ hz]
    have hlt := horigin.lt
    simp only [List.length_take] at hlt
    have hlt' : z.2.1 < i := by omega
    refine ⟨hlt', ?_, ?_⟩
    · obtain ⟨c', now'', hc', hop'', htaken⟩ := horigin.call
      rw [List.getElem?_take_of_lt hlt'] at hc'
      exact ⟨c'.map Prod.snd, now'', by simp [map, hc'], hop'', htaken⟩
    · intro k c' hk hki hc'
      obtain ⟨c₁, hc₁, rfl⟩ := get_log_map hc'
      exact horigin.kept k c₁ hk (get_take hki hc₁)
  once := by
    intro i c j i' c' j' hc hj hc' hj' heq
    obtain ⟨c₀, hc₀, rfl⟩ := get_log_map hc
    obtain ⟨c₁, hc₁, rfl⟩ := get_log_map hc'
    simp only [Call.map, List.length_map] at hj hj'
    rw [carried_eq hc₀ (List.getElem?_eq_getElem hj),
      carried_eq hc₁ (List.getElem?_eq_getElem hj')] at heq
    obtain ⟨hinner, houter⟩ := List.nodup_flatMap.1 h.once
    have hmem : ∀ {c : Call (Nat × Bytes)} {j : Nat} (hj : j < c.items.length),
        (c.items[j]).2.1 ∈ c.items.map fun y => y.2.1 :=
      fun hj => List.mem_map.2 ⟨_, List.getElem_mem hj, rfl⟩
    obtain ⟨hi, hci⟩ := List.getElem?_eq_some_iff.1 hc₀
    obtain ⟨hi', hci'⟩ := List.getElem?_eq_some_iff.1 hc₁
    have hdisj := fun a b ha hb hab => List.pairwise_iff_getElem.1 houter a b ha hb hab
    have hii : i = i' := by
      rcases Nat.lt_trichotomy i i' with hlt | heq' | hgt
      · exfalso
        have := hdisj i i' hi hi' hlt
        rw [hci, hci'] at this
        exact this (hmem hj) (by rw [heq]; exact hmem hj')
      · exact heq'
      · exfalso
        have := hdisj i' i hi' hi hgt
        rw [hci, hci'] at this
        exact this (hmem hj') (by rw [← heq]; exact hmem hj)
    subst hii
    rw [hc₀] at hc₁
    cases hc₁
    refine ⟨rfl, ?_⟩
    have hnodup := hinner c₀ (List.mem_of_getElem? hc₀)
    have hjm : j < (c₀.items.map fun y => y.2.1).length := by simpa using hj
    have hjm' : j' < (c₀.items.map fun y => y.2.1).length := by simpa using hj'
    have hget : (c₀.items.map fun y => y.2.1)[j] = (c₀.items.map fun y => y.2.1)[j'] := by
      simpa using heq
    exact hnodup.getElem_inj_iff.1 hget

theorem Fresh.undisturbed (h : Fresh t) : Undisturbed (t.map Prod.snd).log (carried t.log) := by
  intro i c j hc hj k c' hk hki hc'
  obtain ⟨c₀, hc₀, rfl⟩ := get_log_map hc
  obtain ⟨c₁, hc₁, rfl⟩ := get_log_map hc'
  simp only [Call.map, List.length_map] at hj
  rw [carried_eq hc₀ (List.getElem?_eq_getElem hj)] at hk
  exact h.items i c₀ hc₀ _ (List.getElem_mem hj) k c₁ hk (get_take hki hc₁)

/-- Whatever is returned was deferred, once, by the same transport. -/
theorem exists_delivered {delay : Nat → Nat → Nat → Nat} {u : Trace Bytes}
    (hu : (runs delay fun _ bytes => bytes).Reachable u) :
    ∃ m, Delivered u.log m ∧ (u.flushes < U64_MAX → Undisturbed u.log m) := by
  obtain ⟨t, ht, rfl⟩ := reachable_map (Prod.snd : Nat × Bytes → Bytes) (fun n bytes => (n, bytes)) hu
  refine ⟨carried t.log, ((ok_inductive delay).reachable t ht).delivered, fun hn => ?_⟩
  rw [flushes_map] at hn
  exact ((fresh_inductive delay).reachable t ht hn).undisturbed

end

/-- Only `drain_at` returns packets. -/
theorem drains_inductive (delay : Nat → Nat → Nat → Nat) (make : Nat → Bytes → T) :
    (runs delay make).Inductive fun t =>
      ∀ c ∈ t.log, c.items ≠ [] → ∃ owner d now, c.op = .drainAt owner d now where
  init := by
    intro t h c hc
    obtain ⟨config, rfl⟩ := h
    exact absurd hc List.not_mem_nil
  step := by
    intro t op t' h hstep c hc hne
    obtain ⟨r, hr, rfl⟩ := step_eq delay make hstep
    rcases List.mem_append.1 hc with hc | hc
    · exact h c hc hne
    · rw [List.mem_singleton.1 hc] at hne ⊢
      by_contra hop
      exact hne (items_nil hr fun owner d now hd => hop ⟨owner, d, now, hd⟩)

/-- What a call returns was deferred after any change of the handle before it. -/
theorem Delivered.after_flush {log : List (Call Bytes)} {m : Nat → Nat → Nat} (h : Delivered log m)
    (hfree : Undisturbed log m)
    (hdrains : ∀ c ∈ log, c.items ≠ [] → ∃ owner d now, c.op = .drainAt owner d now)
    {q i j : Nat} {c c' : Call Bytes} (hc : log[q]? = some c) (hflush : c.flushes = true) (hqi : q < i)
    (hc' : log[i]? = some c') (hj : j < c'.items.length) : q < m i j := by
  have hne : c'.items ≠ [] := List.ne_nil_of_length_pos (Nat.lt_of_le_of_lt (Nat.zero_le j) hj)
  obtain ⟨owner, d, now, hdrain⟩ := hdrains c' (List.mem_of_getElem? hc') hne
  obtain ⟨-, ⟨c₀, now₀, hc₀, hop₀, -⟩, -⟩ := h.call hc' hdrain (List.getElem?_eq_getElem hj)
  rcases Nat.lt_trichotomy q (m i j) with hlt | heq | hgt
  · exact hlt
  · rw [← heq, hc] at hc₀
    cases hc₀
    simp only [Call.flushes, hop₀] at hflush
    cases hflush
  · rw [hfree i c' j hc' hj q c hgt hqi hc] at hflush
    cases hflush

end Trace
end RenetCross.L2
