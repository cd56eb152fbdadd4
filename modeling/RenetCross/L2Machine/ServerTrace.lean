import RenetCross.L2Machine.ConditionerQueues
import RenetCross.L2Machine.ServerAccounting

/-!
# The calls on a server's conditioner, one after the other

A trace is the conditioner with a log of the calls made on it and of what came
of each: the packets returned, the peers that were reclaimed for being idle or to
make room, the clock, and whether an outage was in force. A position of the log names
a call.

What a packet is made of is a parameter (`make`): the bytes alone, as the
transports queue them, or the bytes together with the position of the call that
deferred them. The second tells packets with equal bytes apart; the conditioner
does not look at its payloads, so it does the same in both (`Trace.erase` in
`ServerDelivery`).

`PeerStep` is what one call does to one peer's entry, and the invariants of the
later modules are proved by cases on it.
-/
namespace RenetCross.L2

namespace ServerConditioner

variable {T : Type}

/-- The clock reading a call is made with. -/
def Op.reading : Op → Option Nat
  | .deferAt _ _ _ _ now => some now
  | .drainAt _ _ now => some now
  | .outageAt _ now => some now
  | .configure _ => none
  | .removePeer _ _ => none
  | .removeOwner _ => none
  | .allocateOwner => none

/-- The peers a `poll` reclaims. -/
def expiring (s : ServerConditioner T) (now : Nat) : List ServerPeerId :=
  let s := s.clamp now
  if s.now ≥ s.nextCleanup then s.idsWhere fun p => s.now - p.lastSeen ≥ s.config.1.idleTimeout
  else []

/-- The peers a call reclaims. -/
def reclaimed (s : ServerConditioner T) (op : Op) : List ServerPeerId :=
  match op.reading with
  | some now => s.expiring now
  | none => []

/-- The peers an accepted `configure` evicts, `r` being its result. -/
def evicting (s : ServerConditioner T) (op : Op)
    (r : ServerConditioner T × Bool × List (ServerPeerId × T)) : List ServerPeerId :=
  match op with
  | .configure _ => if r.2.1 then s.peers.keys.filter fun id => id ∉ r.1.peers else []
  | _ => []

/-- A call: the state after it, whether it took a packet or was accepted, and the
packets it returned. `none`: it panics. -/
def apply (delay : Nat → Nat → Nat → Nat) (make : Bytes → T) (s : ServerConditioner T) :
    Op → Option (ServerConditioner T × Bool × List (ServerPeerId × T))
  | .deferAt owner d id bytes now =>
    let r := s.deferAt delay owner d id (make bytes) bytes.length now
    some (r.1, r.2, [])
  | .drainAt owner d now =>
    let r := s.drainAt owner d now
    some (r.1, true, r.2)
  | .configure config =>
    match s.configure config with
    | .ok s' => some (s', true, [])
    | .error _ => some (s, false, [])
  | .outageAt duration now => some (s.outageAt duration now, true, [])
  | .removePeer owner id => some (s.removePeer owner id, true, [])
  | .removeOwner owner => some (s.removeOwner owner, true, [])
  | .allocateOwner => s.allocateOwner.map fun r => (r.1, true, [])

end ServerConditioner

open ServerConditioner

/-- A call that was made, with what came of it. -/
structure Call (T : Type) where
  op : Op
  /-- the clock after the call -/
  time : Nat
  /-- an outage was in force when the call returned -/
  outage : Bool
  /-- `defer_at` took the packet, `configure` the settings -/
  taken : Bool
  items : List (ServerPeerId × T)
  expired : List ServerPeerId
  /-- the peers that lost their place to a lower limit -/
  evicted : List ServerPeerId

namespace Call

variable {T : Type}

/-- The call drops what is queued for every peer. -/
def flushes (c : Call T) : Bool :=
  match c.op with
  | .configure _ => c.taken
  | .outageAt _ _ => true
  | _ => false

/-- The call removes the entry `owner` has for `id`. -/
def Removes (c : Call T) (owner : Nat) (id : ServerPeerId) : Prop :=
  c.op = .removePeer owner id ∨ c.op = .removeOwner owner ∨ id ∈ c.expired ∨ id ∈ c.evicted

end Call

/-- The call `op` on `s`, with its result `r`. -/
def ServerConditioner.called {T : Type} (s : ServerConditioner T) (op : Op)
    (r : ServerConditioner T × Bool × List (ServerPeerId × T)) : Call T where
  op := op
  time := r.1.now
  outage := r.1.outageUntil.isSome
  taken := r.2.1
  items := r.2.2
  expired := s.reclaimed op
  evicted := s.evicting op r

structure Trace (T : Type) where
  state : ServerConditioner T
  /-- oldest call first -/
  log : List (Call T)

namespace Trace

variable {T : Type}

/-- The calls so far that dropped what was queued. -/
def flushes (t : Trace T) : Nat := t.log.countP Call.flushes

def logged (t : Trace T) (op : Op)
    (r : ServerConditioner T × Bool × List (ServerPeerId × T)) : Trace T where
  state := r.1
  log := t.log ++ [t.state.called op r]

variable (delay : Nat → Nat → Nat → Nat) (make : Nat → Bytes → T)

def step (t : Trace T) (op : Op) : Option (Trace T) :=
  (t.state.apply delay (make t.log.length) op).map (t.logged op)

/-- Runs of one handle. -/
def runs : LTS (Trace T) Op := .ofFn (fun t => ∃ config, t = ⟨new config, []⟩) (step delay make)

theorem step_eq {t t' : Trace T} {op : Op} (h : t.step delay make op = some t') :
    ∃ r, t.state.apply delay (make t.log.length) op = some r ∧ t' = t.logged op r := by
  obtain ⟨r, hr, heq⟩ := Option.map_eq_some_iff.1 h
  exact ⟨r, hr, heq.symm⟩

end Trace

/-! ## `poll` -/

namespace ServerConditioner

variable {T : Type}

theorem get_foldl_expirePeer (ids : List ServerPeerId) (s : ServerConditioner T) (id : ServerPeerId) :
    (ids.foldl expirePeer s).peers.get id = if id ∈ ids then none else s.peers.get id := by
  induction ids generalizing s with
  | nil => rfl
  | cons i rest ih =>
    have hone : (s.expirePeer i).peers.get id = if id = i then none else s.peers.get id :=
      get_retire s i id
    rw [List.foldl_cons, ih, hone]
    by_cases hi : id = i <;> by_cases hr : id ∈ rest <;> simp [hi, hr]

/-- `poll` reclaims the idle peers and leaves the others alone. -/
theorem get_poll (s : ServerConditioner T) (now : Nat) (id : ServerPeerId) :
    (s.poll now).peers.get id = if id ∈ s.expiring now then none else s.peers.get id := by
  unfold poll cleanup expiring
  dsimp only
  by_cases hdue : (s.clamp now).now ≥ (s.clamp now).nextCleanup
  · rw [if_pos hdue, if_pos hdue]
    exact get_foldl_expirePeer _ (s.clamp now) id
  · rw [if_neg hdue, if_neg hdue, if_neg List.not_mem_nil]
    rfl

theorem get_of_poll {s : ServerConditioner T} {now : Nat} {id : ServerPeerId} {p : Peer T}
    (h : (s.poll now).peers.get id = some p) : s.peers.get id = some p ∧ id ∉ s.expiring now := by
  rw [get_poll] at h
  split at h
  · cases h
  · rename_i hid
    exact ⟨h, hid⟩

theorem get_removeOwner {s : ServerConditioner T} {owner : Nat} {id : ServerPeerId} {p : Peer T} :
    (s.removeOwner owner).peers.get id = some p ↔ s.peers.get id = some p ∧ p.owner ≠ owner := by
  have hmem : id ∈ (s.idsWhere fun p => p.owner == owner) ↔
      ∃ p, s.peers.get id = some p ∧ p.owner = owner := by
    simp only [idsWhere, List.mem_map, List.mem_filter, Prod.exists, exists_and_right, exists_eq_right,
      HashMap.get_eq_some, beq_iff_eq]
  rw [removeOwner, get_foldl_retire]
  split
  · rename_i hin
    obtain ⟨q, hq, hqo⟩ := hmem.1 hin
    constructor
    · intro h
      cases h
    · intro h
      rw [h.1] at hq
      cases hq
      exact absurd hqo h.2
  · rename_i hout
    exact ⟨fun h => ⟨h, fun ho => hout (hmem.2 ⟨p, h, ho⟩)⟩, And.left⟩

theorem get_removePeer {s : ServerConditioner T} {owner : Nat} {id id' : ServerPeerId} {p : Peer T} :
    (s.removePeer owner id).peers.get id' = some p ↔
      s.peers.get id' = some p ∧ ¬ (id' = id ∧ p.owner = owner) := by
  by_cases hid : id' = id
  · subst hid
    unfold removePeer
    split
    · rename_i hany
      obtain ⟨q, hq, hqo⟩ := (Option.any_eq_true _ _).1 hany
      rw [get_retire, if_pos rfl]
      constructor
      · intro h
        cases h
      · intro h
        rw [h.1] at hq
        cases hq
        exact absurd ⟨rfl, by simpa using hqo⟩ h.2
    · rename_i hnone
      refine ⟨fun h => ⟨h, fun ho => hnone ?_⟩, And.left⟩
      rw [h]
      simpa using ho.2
  · rw [get_removePeer_ne s owner hid]
    exact ⟨fun h => ⟨h, fun ho => hid ho.1⟩, And.left⟩

theorem get_evict {n : Nat} {s : ServerConditioner T} {id : ServerPeerId} {p : Peer T}
    (h : (s.evict n).peers.get id = some p) : s.peers.get id = some p := by
  induction n generalizing s with
  | zero => exact h
  | succ n ih =>
    unfold evict at h
    split at h
    · split at h
      · have := ih h
        rw [get_retire] at this
        split at this
        · cases this
        · exact this
      · exact h
    · exact h

theorem frame_evict (n : Nat) (s : ServerConditioner T) :
    (s.evict n).config = s.config ∧ (s.evict n).now = s.now ∧
      (s.evict n).outageUntil = s.outageUntil := by
  induction n generalizing s with
  | zero => exact ⟨rfl, rfl, rfl⟩
  | succ n ih =>
    unfold evict
    split
    · split
      · rename_i id _
        obtain ⟨h1, h2, h3⟩ := ih (s.retire id)
        obtain ⟨g1, g2, g3⟩ := retire_frame s id
        exact ⟨h1.trans g1, h2.trans g2, h3.trans g3⟩
      · exact ⟨rfl, rfl, rfl⟩
    · exact ⟨rfl, rfl, rfl⟩

theorem reconfigure_frame (s : ServerConditioner T) (config : ValidServerConfig) :
    (s.reconfigure config).now = s.now ∧ (s.reconfigure config).outageUntil = none := by
  unfold reconfigure
  exact ⟨(frame_evict _ _).2.1, (frame_evict _ _).2.2⟩

/-! ## What a call does to a peer's entry -/

/-- The entry a call leaves for `id`, from the one it found. -/
inductive PeerStep (delay : Nat → Nat → Nat → Nat) (make : Bytes → T) (s : ServerConditioner T)
    (id : ServerPeerId) (c : Call T) : Peer T → Prop
  | kept {p : Peer T} : s.peers.get id = some p → c.flushes = false → ¬ c.Removes p.owner id →
      (∀ d now, c.op ≠ .drainAt p.owner d now) → PeerStep delay make s id c p
  | flushed {p : Peer T} (config : ValidConfig) : s.peers.get id = some p → c.flushes = true →
      ¬ c.Removes p.owner id →
      PeerStep delay make s id c { p with engine.handle := p.engine.handle.reconfigure config }
  | drained {p : Peer T} {d : ConditionerDirection} {now : Nat} : c.op = .drainAt p.owner d now →
      (s.poll now).peers.get id = some p → ¬ c.Removes p.owner id →
      PeerStep delay make s id c { p with
        engine := ((impose (s.poll now).outageRemaining p.engine).drainReady d (s.poll now).now).1 }
  | deferred {p : Peer T} {d : ConditionerDirection} {bytes : Bytes} {now : Nat} :
      c.op = .deferAt p.owner d id bytes now →
      (s.poll now).peers.get id = some p ∧ ¬ c.Removes p.owner id ∨
        p = (s.poll now).newPeer p.owner id →
      c.taken = ((impose (s.poll now).outageRemaining p.engine).enqueue delay d (s.poll now).now
        (make bytes) bytes.length).2.isNone →
      PeerStep delay make s id c { p with
        lastSeen := (s.poll now).now
        engine := ((impose (s.poll now).outageRemaining p.engine).enqueue delay d (s.poll now).now
          (make bytes) bytes.length).1 }

variable {delay : Nat → Nat → Nat → Nat} {make : Bytes → T} {s : ServerConditioner T}

theorem evicting_of_reading {op : Op} {now : Nat} (hop : op.reading = some now)
    (r : ServerConditioner T × Bool × List (ServerPeerId × T)) : s.evicting op r = [] := by
  cases op <;> first | rfl | cases hop

theorem evicting_of_not_flushes {op : Op} {r : ServerConditioner T × Bool × List (ServerPeerId × T)}
    (hfl : (s.called op r).flushes = false) : s.evicting op r = [] := by
  cases op with
  | configure config => exact if_neg (by rw [show r.2.1 = false from hfl]; exact Bool.false_ne_true)
  | _ => rfl

/-- A call with a clock reading removes an entry only for being idle. -/
theorem not_removes {op : Op} {now owner : Nat} {id : ServerPeerId}
    {r : ServerConditioner T × Bool × List (ServerPeerId × T)} (hop : op.reading = some now)
    (hid : id ∉ s.expiring now) : ¬ (s.called op r).Removes owner id := by
  intro h
  rcases h with h | h | h | h
  · simp only [called] at h
    rw [h] at hop
    cases hop
  · simp only [called] at h
    rw [h] at hop
    cases hop
  · simp only [called, reclaimed, hop] at h
    exact hid h
  · simp only [called, evicting_of_reading hop] at h
    exact List.not_mem_nil h

theorem peerStep_deferTo {owner : Nat} {d : ConditionerDirection} {id : ServerPeerId} {bytes : Bytes}
    {now : Nat} {p : Peer T} {r : ServerConditioner T × Bool × List (ServerPeerId × T)}
    (hp : (s.poll now).peers.get id = some p ∨
      p = (s.poll now).newPeer owner id)
    (hr : (r.1, r.2.1) = (s.poll now).deferTo delay owner d id (make bytes) bytes.length p)
    {id' : ServerPeerId} {p' : Peer T} (h : r.1.peers.get id' = some p') :
    PeerStep delay make s id' (s.called (.deferAt owner d id bytes now) r) p' := by
  have hkept : (s.poll now).peers.get id' = some p' →
      PeerStep delay make s id' (s.called (.deferAt owner d id bytes now) r) p' := by
    intro hget
    obtain ⟨hs, hid⟩ := get_of_poll hget
    exact .kept hs rfl (not_removes rfl hid) (by intro _ _ hop; cases hop)
  unfold deferTo at hr
  split at hr
  · rw [(Prod.ext_iff.1 hr).1] at h
    exact hkept h
  · rename_i howner
    obtain ⟨hstate, htaken⟩ := Prod.ext_iff.1 hr
    dsimp only at hstate htaken
    rw [hstate] at h
    simp only [HashMap.get_sortedInsert] at h
    split at h
    · rename_i hid
      subst hid
      cases h
      have ho : p.owner = owner := not_not.1 howner
      refine .deferred (by rw [ho]; rfl) ?_ htaken
      rcases hp with hp | hp
      · exact .inl ⟨hp, not_removes rfl (get_of_poll hp).2⟩
      · exact .inr (by rw [ho]; exact hp)
    · exact hkept h

theorem peerStep_deferAt {owner : Nat} {d : ConditionerDirection} {id : ServerPeerId} {bytes : Bytes}
    {now : Nat} {r : ServerConditioner T × Bool × List (ServerPeerId × T)}
    (hr : (r.1, r.2.1) = s.deferAt delay owner d id (make bytes) bytes.length now)
    {id' : ServerPeerId} {p' : Peer T} (h : r.1.peers.get id' = some p') :
    PeerStep delay make s id' (s.called (.deferAt owner d id bytes now) r) p' := by
  have hkept : (s.poll now).peers.get id' = some p' →
      PeerStep delay make s id' (s.called (.deferAt owner d id bytes now) r) p' := by
    intro hget
    obtain ⟨hs, hid⟩ := get_of_poll hget
    exact .kept hs rfl (not_removes rfl hid) (by intro _ _ hop; cases hop)
  unfold deferAt at hr
  dsimp only at hr
  split at hr
  · rw [(Prod.ext_iff.1 hr).1] at h
    exact hkept h
  · split at hr
    · rename_i p hp
      exact peerStep_deferTo (.inl hp) hr h
    · split at hr
      · rw [(Prod.ext_iff.1 hr).1] at h
        exact hkept h
      · exact peerStep_deferTo (.inr rfl) hr h

theorem peerStep_drainAt {owner : Nat} {d : ConditionerDirection} {now : Nat}
    {r : ServerConditioner T × Bool × List (ServerPeerId × T)}
    (hr : r.1 = (s.drainAt owner d now).1) {id : ServerPeerId} {p' : Peer T}
    (h : r.1.peers.get id = some p') :
    PeerStep delay make s id (s.called (.drainAt owner d now) r) p' := by
  rw [hr] at h
  simp only [drainAt, HashMap.get_mapVal, Option.map_eq_some_iff] at h
  obtain ⟨p, hp, rfl⟩ := h
  obtain ⟨hs, hid⟩ := get_of_poll hp
  unfold drainPeer
  split
  · rename_i ho
    exact .drained (by rw [ho]; rfl) hp (not_removes rfl hid)
  · rename_i ho
    exact .kept hs rfl (not_removes rfl hid) (by intro _ _ hop; cases hop; exact ho rfl)

theorem peerStep_reconfigure {config : ServerConditionerConfig} {valid : ValidServerConfig}
    {r : ServerConditioner T × Bool × List (ServerPeerId × T)} (hr : r.1 = s.reconfigure valid)
    (hok : r.2.1 = true) {id : ServerPeerId} {p' : Peer T} (h : r.1.peers.get id = some p') :
    PeerStep delay make s id (s.called (.configure config) r) p' := by
  rw [hr] at h
  have hmap := get_evict h
  simp only [HashMap.get_mapVal, Option.map_eq_some_iff] at hmap
  obtain ⟨p, hp, rfl⟩ := hmap
  refine .flushed _ hp hok ?_
  intro hrem
  rcases hrem with hrem | hrem | hrem | hrem
  · cases hrem
  · cases hrem
  · exact List.not_mem_nil hrem
  · -- an entry that is there was not evicted
    simp only [called, evicting, if_pos hok, List.mem_filter, decide_eq_true_eq] at hrem
    rw [hr] at hrem
    rw [HashMap.not_mem_iff_get.1 hrem.2] at h
    cases h

theorem peerStep_outageAt {duration now : Nat}
    {r : ServerConditioner T × Bool × List (ServerPeerId × T)}
    (hr : r.1 = s.outageAt duration now) {id : ServerPeerId} {p' : Peer T}
    (h : r.1.peers.get id = some p') :
    PeerStep delay make s id (s.called (.outageAt duration now) r) p' := by
  rw [hr] at h
  simp only [outageAt, HashMap.get_mapVal, Option.map_eq_some_iff] at h
  obtain ⟨p, hp, rfl⟩ := h
  obtain ⟨hs, hid⟩ := get_of_poll hp
  exact .flushed _ hs rfl (not_removes rfl hid)

/-- A call without a clock reading that leaves an entry as it was. -/
theorem peerStep_kept {op : Op} {r : ServerConditioner T × Bool × List (ServerPeerId × T)}
    (hop : op.reading = none) (hfl : (s.called op r).flushes = false) {id : ServerPeerId} {p : Peer T}
    (hp : s.peers.get id = some p) (hpeer : op ≠ .removePeer p.owner id)
    (howner : op ≠ .removeOwner p.owner) : PeerStep delay make s id (s.called op r) p := by
  refine .kept hp hfl ?_ (by intro _ _ hdrain; simp only [called] at hdrain; rw [hdrain] at hop; cases hop)
  intro hrem
  rcases hrem with hrem | hrem | hrem | hrem
  · exact hpeer hrem
  · exact howner hrem
  · simp only [called, reclaimed, hop] at hrem
    exact List.not_mem_nil hrem
  · simp only [called, evicting_of_not_flushes hfl] at hrem
    exact List.not_mem_nil hrem

/-- Every entry a call leaves comes from one it found, or from the packet it was given. -/
theorem peerStep {op : Op} {r : ServerConditioner T × Bool × List (ServerPeerId × T)}
    (hr : s.apply delay make op = some r) {id : ServerPeerId} {p' : Peer T}
    (h : r.1.peers.get id = some p') : PeerStep delay make s id (s.called op r) p' := by
  cases op with
  | deferAt owner d id' bytes now =>
    cases hr
    exact peerStep_deferAt rfl h
  | drainAt owner d now =>
    cases hr
    exact peerStep_drainAt rfl h
  | configure config =>
    simp only [apply, configure] at hr
    by_cases hvalid : config.validate = .ok ()
    · rw [dif_pos hvalid] at hr
      cases hr
      exact peerStep_reconfigure rfl rfl h
    · rw [dif_neg hvalid] at hr
      cases hr
      exact peerStep_kept rfl rfl h (by intro hop; cases hop) (by intro hop; cases hop)
  | outageAt duration now =>
    cases hr
    exact peerStep_outageAt rfl h
  | removePeer owner id' =>
    cases hr
    obtain ⟨hs, hne⟩ := get_removePeer.1 h
    exact peerStep_kept rfl rfl hs (by intro hop; cases hop; exact hne ⟨rfl, rfl⟩)
      (by intro hop; cases hop)
  | removeOwner owner =>
    cases hr
    obtain ⟨hs, hne⟩ := get_removeOwner.1 h
    exact peerStep_kept rfl rfl hs (by intro hop; cases hop) (by intro hop; cases hop; exact hne rfl)
  | allocateOwner =>
    simp only [apply, allocateOwner] at hr
    split at hr
    · cases hr
      exact peerStep_kept rfl rfl h (by intro hop; cases hop) (by intro hop; cases hop)
    · cases hr

end ServerConditioner
end RenetCross.L2
