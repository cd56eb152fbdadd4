import RenetCross.Core.LTS
import RenetCross.L2Machine.ConditionerAccounting
import RenetCross.L2Machine.ServerConditioner

/-!
# No packet disappears in the server conditioner

Every packet `defer_at` keeps is later returned by `drain_at`, still queued, or
in one of the drop counters `stats` reports. The counters are spread over the
peers' handles, the totals of retired peers and the peer limit counter, and a
retirement can happen inside any call, so the proof follows the sum `account`
through the pieces of each call: retiring a peer moves its counters (`Sheds`),
an engine call books the packets it takes and releases (`Booked`).
-/
namespace RenetCross.L2

namespace ServerConditioner

variable {T : Type}

/-- Packets accounted for, with exact sums. -/
def account (s : ServerConditioner T) : Nat :=
  s.retired.total + (s.peers.sumBy fun _ p => p.engine.handle.stats.total) + s.peerLimitDrops

structure Unsaturated (s : ServerConditioner T) : Prop where
  retired : s.retired.Unsaturated
  peers : ∀ id p, s.peers.get id = some p → p.engine.handle.stats.Unsaturated
  peerLimit : s.peerLimitDrops < U64_MAX

/-- No handle has used up its revisions. -/
def Room (s : ServerConditioner T) : Prop :=
  ∀ id p, s.peers.get id = some p → p.engine.handle.revision < U64_MAX

/-- An entry of the peer table under settings `config` at time `now`. -/
structure GoodPeer (config : ValidServerConfig) (now : Nat) (id : ServerPeerId)
    (p : Peer T) : Prop where
  tallied : p.engine.Tallied
  behind : p.engine.revision ≤ p.engine.handle.revision
  config : p.engine.handle.config = peerConfig config.packets id
  clock : p.engine.lastNow ≤ now

structure Good (s : ServerConditioner T) : Prop where
  peers : ∀ id p, s.peers.get id = some p → GoodPeer s.config s.now id p
  retired : ∀ d, (s.retired.direction d).queuedPackets = 0 ∧ (s.retired.direction d).queuedBytes = 0
  outage : ∀ till, s.outageUntil = some till → till ≤ Duration.MAX

theorem GoodPeer.mono {config : ValidServerConfig} {now now' : Nat} {id : ServerPeerId} {p : Peer T}
    (h : GoodPeer config now id p) (hle : now ≤ now') : GoodPeer config now' id p :=
  ⟨h.tallied, h.behind, h.config, Nat.le_trans h.clock hle⟩

theorem good_new (config : ValidServerConfig) : Good (new config : ServerConditioner T) := by
  refine ⟨fun id p h => ?_, fun d => ?_, fun till h => ?_⟩
  · cases h
  · cases d <;> exact ⟨rfl, rfl⟩
  · cases h

/-! ## Retirement -/

theorem addDirection_spec {a b : DirectionStats} (ha : a.queuedPackets = 0) (hb : b.queuedPackets = 0)
    (h : (addDirection a b).Unsaturated) :
    a.Unsaturated ∧ b.Unsaturated ∧ (addDirection a b).total = a.total + b.total := by
  have h1 := satAdd_eq_of_lt h.loss
  have h2 := satAdd_eq_of_lt h.outage
  have h3 := satAdd_eq_of_lt h.overflow
  have h4 := satAdd_eq_of_lt h.transition
  obtain ⟨l1, l2, l3, l4⟩ := h
  simp only [addDirection] at l1 l2 l3 l4
  have h5 : satAdd U64_MAX a.queuedPackets b.queuedPackets = 0 := by rw [ha, hb]; rfl
  refine ⟨⟨by omega, by omega, by omega, by omega⟩, ⟨by omega, by omega, by omega, by omega⟩, ?_⟩
  simp only [DirectionStats.total, addDirection]
  omega

theorem flushed_queue (p : Peer T) (d : ConditionerDirection) :
    ((flushed p).engine.handle.stats.direction d).queuedPackets = 0 ∧
      ((flushed p).engine.handle.stats.direction d).queuedBytes = 0 := by
  cases d <;> exact ⟨rfl, rfl⟩

theorem addStats_queue {a b : ConditionerStats}
    (ha : ∀ d, (a.direction d).queuedPackets = 0 ∧ (a.direction d).queuedBytes = 0)
    (hb : ∀ d, (b.direction d).queuedPackets = 0 ∧ (b.direction d).queuedBytes = 0)
    (d : ConditionerDirection) :
    ((addStats a b).direction d).queuedPackets = 0 ∧ ((addStats a b).direction d).queuedBytes = 0 := by
  have h1 := ha d
  have h2 := hb d
  cases d <;> simp only [addStats, addDirection, ConditionerStats.direction] at h1 h2 ⊢ <;>
    rw [h1.1, h1.2, h2.1, h2.2] <;> exact ⟨rfl, rfl⟩

theorem addStats_spec {a b : ConditionerStats} (ha : ∀ d, (a.direction d).queuedPackets = 0)
    (hb : ∀ d, (b.direction d).queuedPackets = 0) (h : (addStats a b).Unsaturated) :
    a.Unsaturated ∧ b.Unsaturated ∧ (addStats a b).total = a.total + b.total := by
  obtain ⟨i1, i2, i3⟩ :=
    addDirection_spec (a := a.incoming) (b := b.incoming) (ha .incoming) (hb .incoming) h.incoming
  obtain ⟨o1, o2, o3⟩ :=
    addDirection_spec (a := a.outgoing) (b := b.outgoing) (ha .outgoing) (hb .outgoing) h.outgoing
  refine ⟨⟨i1, o1⟩, ⟨i2, o2⟩, ?_⟩
  simp only [ConditionerStats.total] at *
  simp only [addStats]
  omega

/-- A part of a call that only retires peers and moves clocks. -/
structure Sheds (s s' : ServerConditioner T) : Prop where
  good : s.Good → s'.Good
  room : s.Room → s'.Room
  balance : s.Good → s'.Unsaturated → s.Unsaturated ∧ s'.account = s.account

theorem Sheds.refl (s : ServerConditioner T) : Sheds s s := ⟨id, id, fun _ h => ⟨h, rfl⟩⟩

theorem Sheds.trans {s s' s'' : ServerConditioner T} (h : Sheds s s') (h' : Sheds s' s'') :
    Sheds s s'' := by
  refine ⟨h'.good ∘ h.good, h'.room ∘ h.room, fun hg hu => ?_⟩
  obtain ⟨hu', he'⟩ := h'.balance (h.good hg) hu
  obtain ⟨hu'', he''⟩ := h.balance hg hu'
  exact ⟨hu'', he'.trans he''⟩

theorem Sheds.foldl {f : ServerConditioner T → ServerPeerId → ServerConditioner T}
    (hf : ∀ s id, Sheds s (f s id)) :
    ∀ (ids : List ServerPeerId) (s : ServerConditioner T), Sheds s (ids.foldl f s)
  | [], s => .refl s
  | id :: ids, s => (hf s id).trans (Sheds.foldl hf ids (f s id))

theorem sheds_retire (s : ServerConditioner T) (id : ServerPeerId) : Sheds s (s.retire id) := by
  unfold retire
  cases hp : s.peers.get id with
  | none => exact .refl s
  | some p =>
    have hget : ∀ id' q, (s.peers.remove id).get id' = some q → s.peers.get id' = some q := by
      intro id' q h
      rw [HashMap.get_remove] at h
      split at h
      · cases h
      · exact h
    refine ⟨fun hg => ⟨?_, ?_, hg.outage⟩, fun hr id' q h => hr id' q (hget id' q h), fun hg hu => ?_⟩
    · exact fun id' q h => hg.peers id' q (hget id' q h)
    · exact addStats_queue hg.retired (flushed_queue p)
    · obtain ⟨hru, hfu, htot⟩ := addStats_spec (fun d => (hg.retired d).1)
        (fun d => (flushed_queue p d).1) hu.retired
      obtain ⟨hpu, hpt⟩ := ConditionerStats.discardQueues_spec hfu
      have hpt' : (flushed p).engine.handle.stats.total = p.engine.handle.stats.total := hpt
      have hsum := HashMap.sumBy_remove hp fun _ p => p.engine.handle.stats.total
      refine ⟨⟨hru, fun id' q h => ?_, hu.peerLimit⟩, ?_⟩
      · by_cases hid : id' = id
        · subst hid; rw [hp] at h; cases h; exact hpu
        · exact hu.peers id' q (by rw [HashMap.get_remove, if_neg hid]; exact h)
      · simp only [account]
        omega

theorem sheds_expirePeer (s : ServerConditioner T) (id : ServerPeerId) : Sheds s (s.expirePeer id) := by
  refine (sheds_retire s id).trans ⟨fun hg => ⟨hg.peers, hg.retired, hg.outage⟩, fun hr => hr, ?_⟩
  exact fun _ hu => ⟨⟨hu.retired, hu.peers, hu.peerLimit⟩, rfl⟩

theorem sheds_cleanup (s : ServerConditioner T) : Sheds s s.cleanup := by
  unfold cleanup
  split
  · refine (Sheds.foldl sheds_expirePeer _ s).trans ⟨fun hg => ?_, fun hr => hr, ?_⟩
    · exact ⟨hg.peers, hg.retired, hg.outage⟩
    · exact fun _ hu => ⟨⟨hu.retired, hu.peers, hu.peerLimit⟩, rfl⟩
  · exact .refl s

theorem sheds_poll (s : ServerConditioner T) (now : Nat) : Sheds s (s.poll now) := by
  have hclamp : Sheds s (s.clamp now) := by
    refine ⟨fun hg => ⟨fun id p h => ?_, hg.retired, fun till h => ?_⟩, fun hr => hr, ?_⟩
    · exact (hg.peers id p h).mono (Nat.le_max_right _ _)
    · simp only [clamp] at h
      split at h
      · cases h
      · exact hg.outage till h
    · exact fun _ hu => ⟨⟨hu.retired, hu.peers, hu.peerLimit⟩, rfl⟩
  exact hclamp.trans (sheds_cleanup _)

theorem sheds_evict : ∀ (n : Nat) (s : ServerConditioner T), Sheds s (s.evict n)
  | 0, s => .refl s
  | n + 1, s => by
    unfold evict
    split
    · split
      · rename_i id _; exact (sheds_retire s id).trans (sheds_evict n _)
      · exact .refl s
    · exact .refl s

/-! ## Calls on the engines -/

/-- What a whole call does: `taken` packets came in and `released` went out. -/
structure Balanced (s s' : ServerConditioner T) (taken released : Nat) : Prop where
  good : s'.Good
  balance : s'.Unsaturated → s.Unsaturated ∧ s'.account + released = s.account + taken

theorem Sheds.balanced {s s' : ServerConditioner T} (h : Sheds s s') (hg : s.Good) :
    Balanced s s' 0 0 := ⟨h.good hg, h.balance hg⟩

theorem Sheds.andThen {s s' s'' : ServerConditioner T} {taken released : Nat} (h : Sheds s s')
    (hg : s.Good) (h' : Balanced s' s'' taken released) : Balanced s s'' taken released := by
  refine ⟨h'.good, fun hu => ?_⟩
  obtain ⟨hu', he'⟩ := h'.balance hu
  obtain ⟨hu'', he''⟩ := h.balance hg hu'
  exact ⟨hu'', by omega⟩

theorem Balanced.andThen {s s' s'' : ServerConditioner T} {taken released : Nat}
    (h : Balanced s s' taken released) (h' : Sheds s' s'') : Balanced s s'' taken released := by
  refine ⟨h'.good h.good, fun hu => ?_⟩
  obtain ⟨hu', he'⟩ := h'.balance h.good hu
  obtain ⟨hu'', he''⟩ := h.balance hu'
  exact ⟨hu'', by omega⟩

/-- An entry whose handle was changed: the change is noticed, since the revision
moved past the engine's. -/
theorem noticed_of_behind {e : PacketConditioner T} (hb : e.revision ≤ e.handle.revision)
    (hr : e.handle.revision < U64_MAX) :
    e.Noticed ∧ e.revision ≤ wrapU64 (e.handle.revision + 1) := by
  unfold PacketConditioner.Noticed
  rw [wrapU64_eq (Nat.succ_le_of_lt hr)]
  exact ⟨by omega, by omega⟩

/-- Reconfiguring every peer moves the queued packets to `transition_drops`. -/
theorem balanced_mapReconfigure {s : ServerConditioner T} (hg : s.Good) (hr : s.Room)
    {config : ValidServerConfig} {outageUntil : Option Nat} {nextCleanup : Nat}
    {f : ServerPeerId → Peer T → ValidConfig}
    (hf : ∀ id p, s.peers.get id = some p → f id p = peerConfig config.packets id)
    (ho : ∀ till, outageUntil = some till → till ≤ Duration.MAX) :
    Balanced s
      { s with
        peers := s.peers.mapVal fun id p =>
          { p with engine.handle := p.engine.handle.reconfigure (f id p) }
        config := config, outageUntil := outageUntil, nextCleanup := nextCleanup } 0 0 := by
  refine ⟨⟨fun id p h => ?_, hg.retired, ho⟩, fun hu => ?_⟩
  · obtain ⟨q, hq, rfl⟩ := Option.map_eq_some_iff.1 ((HashMap.get_mapVal ..).symm.trans h)
    have hgq := hg.peers id q hq
    obtain ⟨hn, hle⟩ := noticed_of_behind hgq.behind (hr id q hq)
    exact ⟨PacketConditioner.tallied_reconfigure hn _, hle, hf id q hq, hgq.clock⟩
  · have hpeer : ∀ id p, s.peers.get id = some p → p.engine.handle.stats.Unsaturated ∧
        (p.engine.handle.reconfigure (f id p)).stats.total = p.engine.handle.stats.total := by
      intro id p h
      have hup := hu.peers id _ (by rw [HashMap.get_mapVal, h]; rfl)
      exact ConditionerStats.discardQueues_spec hup
    refine ⟨⟨hu.retired, fun id p h => (hpeer id p h).1, hu.peerLimit⟩, ?_⟩
    have hsum := HashMap.sumBy_congr (m := s.peers)
      (f := fun id p => (p.engine.handle.reconfigure (f id p)).stats.total)
      (g := fun _ p => p.engine.handle.stats.total) fun id p h => (hpeer id p h).2
    simp only [account, HashMap.sumBy_mapVal]
    omega

theorem balanced_reconfigure {s : ServerConditioner T} (hg : s.Good) (hr : s.Room)
    (config : ValidServerConfig) : Balanced s (s.reconfigure config) 0 0 :=
  (balanced_mapReconfigure hg hr (fun _ _ _ => rfl) (fun _ h => by cases h)).andThen
    (sheds_evict _ _)

theorem balanced_outageAt {s : ServerConditioner T} (hg : s.Good) (hr : s.Room) (duration now : Nat) :
    Balanced s (s.outageAt duration now) 0 0 := by
  have hp := sheds_poll s now
  refine hp.andThen hg (balanced_mapReconfigure (hp.good hg) (hp.room hr)
    (f := fun _ p => p.engine.handle.config) (fun id p h => ((hp.good hg).peers id p h).config)
    fun till h => ?_)
  split at h
  · cases h
  · cases h; exact Nat.min_le_right _ _

theorem balanced_removeOwner {s : ServerConditioner T} (hg : s.Good) (owner : Nat) :
    Balanced s (s.removeOwner owner) 0 0 :=
  (Sheds.foldl sheds_retire _ s).balanced hg

theorem balanced_removePeer {s : ServerConditioner T} (hg : s.Good) (owner : Nat) (id : ServerPeerId) :
    Balanced s (s.removePeer owner id) 0 0 := by
  unfold removePeer
  split
  · exact (sheds_retire s id).balanced hg
  · exact (Sheds.refl s).balanced hg

/-- Announcing an outage to an engine that may or may not have been synced yet. -/
theorem impose_spec {e : PacketConditioner T} (ht : e.Tallied) (hn : e.Noticed)
    (remaining : Option Nat) :
    (impose remaining e).Tallied ∧ (impose remaining e).handle.config = e.handle.config ∧
      ((impose remaining e).handle.stats.Unsaturated → e.handle.stats.Unsaturated ∧
        (impose remaining e).handle.stats.total = e.handle.stats.total) := by
  cases remaining with
  | none => exact ⟨ht, rfl, fun h => ⟨h, rfl⟩⟩
  | some r =>
    exact ⟨PacketConditioner.tallied_outage hn r, rfl, fun h => ConditionerStats.discardQueues_spec h⟩

/-- An engine call after an announced outage. -/
theorem Booked.imposed {e e' : PacketConditioner T} {remaining : Option Nat} {taken released : Nat}
    (ht : e.Tallied) (hn : e.Noticed)
    (h : PacketConditioner.Booked (impose remaining e) e' taken released) :
    e'.Tallied ∧ e'.revision = e'.handle.revision ∧ e'.handle.config = e.handle.config ∧
      (e'.handle.stats.Unsaturated → e.handle.stats.Unsaturated ∧
        e'.handle.stats.total + released = e.handle.stats.total + taken) := by
  obtain ⟨-, hcfg, hbal⟩ := impose_spec ht hn remaining
  refine ⟨h.tallied, h.synced, h.config.trans hcfg, fun hu => ?_⟩
  obtain ⟨hu', he'⟩ := h.total hu
  obtain ⟨hu'', he''⟩ := hbal hu'
  exact ⟨hu'', by omega⟩

theorem lastNow_impose (remaining : Option Nat) (e : PacketConditioner T) :
    (impose remaining e).lastNow = e.lastNow := by cases remaining <;> rfl

theorem lastNow_drainReady (e : PacketConditioner T) (d : ConditionerDirection) (now : Nat) :
    (e.drainReady d now).1.lastNow = max now e.lastNow := (e.sync_frame now).2.2.2.2.1

theorem lastNow_enqueue (e : PacketConditioner T) (delay : Nat → Nat → Nat → Nat)
    (d : ConditionerDirection) (now : Nat) (payload : T) (byteLen : Nat) :
    (e.enqueue delay d now payload byteLen).1.lastNow = max now e.lastNow := by
  rw [← (e.sync_frame now).2.2.2.2.1]
  unfold PacketConditioner.enqueue
  dsimp only
  split
  · rfl
  · split
    · rfl
    · unfold PacketConditioner.impair
      dsimp only
      split
      · rfl
      · split <;> rfl

/-- One peer's turn in `drain_at`. -/
theorem drainPeer_spec {config : ValidServerConfig} {now : Nat} {id : ServerPeerId} {p : Peer T}
    (hg : GoodPeer config now id p) (hr : p.engine.handle.revision < U64_MAX) (owner : Nat)
    (d : ConditionerDirection) (remaining : Option Nat) :
    GoodPeer config now id (drainPeer owner d now remaining p).1 ∧
      ((drainPeer owner d now remaining p).1.engine.handle.stats.Unsaturated →
        p.engine.handle.stats.Unsaturated ∧
        (drainPeer owner d now remaining p).1.engine.handle.stats.total +
          (drainPeer owner d now remaining p).2.length = p.engine.handle.stats.total) := by
  unfold drainPeer
  split
  · have hn := (noticed_of_behind hg.behind hr).1
    have ht := (impose_spec hg.tallied hn remaining).1
    obtain ⟨h1, h2, h3, h4⟩ := Booked.imposed hg.tallied hn
      (PacketConditioner.booked_drainReady ht d now)
    refine ⟨⟨h1, Nat.le_of_eq h2, h3.trans hg.config, ?_⟩, h4⟩
    have hl := lastNow_drainReady (impose remaining p.engine) d now
    rw [lastNow_impose] at hl
    exact Nat.le_of_eq (hl.trans (Nat.max_eq_left hg.clock))
  · exact ⟨hg, fun hu => ⟨hu, rfl⟩⟩

theorem balanced_drainAt {s : ServerConditioner T} (hg : s.Good) (hr : s.Room) (owner : Nat)
    (d : ConditionerDirection) (now : Nat) :
    Balanced s (s.drainAt owner d now).1 0 (s.drainAt owner d now).2.length := by
  have hp := sheds_poll s now
  refine hp.andThen hg ?_
  have hg1 := hp.good hg
  have hr1 := hp.room hr
  simp only [drainAt]
  set s1 := s.poll now
  have hturn := fun id p (h : s1.peers.get id = some p) =>
    drainPeer_spec (hg1.peers id p h) (hr1 id p h) owner d s1.outageRemaining
  refine ⟨⟨fun id p h => ?_, hg1.retired, hg1.outage⟩, fun hu => ?_⟩
  · obtain ⟨q, hq, rfl⟩ := Option.map_eq_some_iff.1 ((HashMap.get_mapVal ..).symm.trans h)
    exact (hturn id q hq).1
  · have hup := fun id p (h : s1.peers.get id = some p) =>
      (hturn id p h).2 (hu.peers id _ (by rw [HashMap.get_mapVal, h]; rfl))
    refine ⟨⟨hu.retired, fun id p h => (hup id p h).1, hu.peerLimit⟩, ?_⟩
    have hsum := HashMap.sumBy_congr (m := s1.peers)
      (f := fun _ p => (drainPeer owner d s1.now s1.outageRemaining p).1.engine.handle.stats.total +
        (drainPeer owner d s1.now s1.outageRemaining p).2.length)
      (g := fun _ p => p.engine.handle.stats.total) fun id p h => (hup id p h).2
    rw [HashMap.sumBy_add] at hsum
    have hlen : (s1.peers.iter.flatMap fun x =>
        (drainPeer owner d s1.now s1.outageRemaining x.2).2.map fun payload => (x.1, payload)).length =
        s1.peers.sumBy fun _ p => (drainPeer owner d s1.now s1.outageRemaining p).2.length := by
      simp [List.length_flatMap, HashMap.sumBy]
    simp only [account, HashMap.sumBy_mapVal, hlen]
    omega

theorem balanced_dropForLimit {s : ServerConditioner T} (hg : s.Good) :
    Balanced s s.dropForLimit 1 0 := by
  refine ⟨⟨hg.peers, hg.retired, hg.outage⟩, fun hu => ?_⟩
  have hsum := satAdd_eq_of_lt hu.peerLimit
  have hlt := hu.peerLimit
  simp only [dropForLimit] at hlt
  refine ⟨⟨hu.retired, hu.peers, by omega⟩, ?_⟩
  simp only [account, dropForLimit]
  omega

variable (delay : Nat → Nat → Nat → Nat)

/-- `defer_at` on the entry of its peer, which is in the table or about to be. -/
theorem balanced_deferTo {s : ServerConditioner T} (hg : s.Good) {owner : Nat} {id : ServerPeerId}
    {p : Peer T} (hn : p.engine.Noticed) (ht : p.engine.Tallied)
    (hcfg : p.engine.handle.config = peerConfig s.config.packets id) (hclk : p.engine.lastNow ≤ s.now)
    (hshare : s.Unsaturated ∧ p.engine.handle.stats.Unsaturated →
      (s.peers.sumBy fun _ q => q.engine.handle.stats.total) =
        p.engine.handle.stats.total +
          (s.peers.remove id).sumBy fun _ q => q.engine.handle.stats.total)
    (hold : ∀ q, s.peers.get id = some q →
      p.engine.handle.stats.Unsaturated → q.engine.handle.stats.Unsaturated)
    (d : ConditionerDirection) (payload : T) (byteLen : Nat) :
    Balanced s (s.deferTo delay owner d id payload byteLen p).1
      (if (s.deferTo delay owner d id payload byteLen p).2 then 1 else 0) 0 := by
  unfold deferTo
  split
  · exact balanced_dropForLimit hg
  · have him := (impose_spec ht hn s.outageRemaining).1
    obtain ⟨h1, h2, h3, h4⟩ := Booked.imposed ht hn
      (PacketConditioner.booked_enqueue him delay d s.now payload byteLen)
    have hl := lastNow_enqueue (impose s.outageRemaining p.engine) delay d s.now payload byteLen
    rw [lastNow_impose] at hl
    dsimp only
    set r := (impose s.outageRemaining p.engine).enqueue delay d s.now payload byteLen
    refine ⟨⟨fun id' q h => ?_, hg.retired, hg.outage⟩, fun hu => ?_⟩
    · dsimp only at h
      rw [HashMap.get_sortedInsert] at h
      split at h
      · rename_i hid; subst hid; cases h
        exact ⟨h1, Nat.le_of_eq h2, h3.trans hcfg, Nat.le_of_eq (hl.trans (Nat.max_eq_left hclk))⟩
      · exact hg.peers id' q h
    · obtain ⟨hpu, hpt⟩ := h4 (hu.peers id _ (by rw [HashMap.get_sortedInsert, if_pos rfl]))
      have hsu : s.Unsaturated := by
        refine ⟨hu.retired, fun id' q h => ?_, hu.peerLimit⟩
        by_cases hid : id' = id
        · subst hid; exact hold q h hpu
        · exact hu.peers id' q (by rw [HashMap.get_sortedInsert, if_neg hid]; exact h)
      refine ⟨hsu, ?_⟩
      have hs := hshare ⟨hsu, hpu⟩
      simp only [account, HashMap.sumBy_sortedInsert]
      omega

theorem balanced_deferAt {s : ServerConditioner T} (hg : s.Good) (hr : s.Room) (owner : Nat)
    (d : ConditionerDirection) (id : ServerPeerId) (payload : T) (byteLen : Nat) (now : Nat) :
    Balanced s (s.deferAt delay owner d id payload byteLen now).1
      (if (s.deferAt delay owner d id payload byteLen now).2 then 1 else 0) 0 := by
  have hp := sheds_poll s now
  refine hp.andThen hg ?_
  have hg1 := hp.good hg
  have hr1 := hp.room hr
  simp only [deferAt]
  set s1 := s.poll now
  split
  · exact (Sheds.refl s1).balanced hg1
  · cases hq : s1.peers.get id with
    | some p =>
      have hgp := hg1.peers id p hq
      refine balanced_deferTo delay hg1 (noticed_of_behind hgp.behind (hr1 id p hq)).1 hgp.tallied
        hgp.config hgp.clock (fun _ => HashMap.sumBy_remove hq _) (fun q hq' => ?_) d payload byteLen
      rw [hq] at hq'; cases hq'; exact fun h => h
    | none =>
      dsimp only
      split
      · exact balanced_dropForLimit hg1
      · refine balanced_deferTo delay hg1 ?_ (PacketConditioner.tallied_new _) rfl (Nat.zero_le _)
          (fun _ => ?_) (fun q hq' => ?_) d payload byteLen
        · simp [PacketConditioner.Noticed, newPeer, PacketConditioner.new, Control.resetSession,
            Control.ofValid, wrapU64, U64_MAX]
        · rw [HashMap.sumBy_remove_of_none hq]
          simp [newPeer, PacketConditioner.new, Control.resetSession, ConditionerStats.total,
            DirectionStats.total]
        · rw [hq] at hq'; cases hq'

/-! ## Which packets bypass the conditioner -/

/-- An outage covers the time a call at `now` is clamped to. -/
def OutageInForce (s : ServerConditioner T) (now : Nat) : Prop :=
  ∃ till, s.outageUntil = some till ∧ max now s.now < till

theorem foldl_frame {f : ServerConditioner T → ServerPeerId → ServerConditioner T}
    (hf : ∀ s id, (f s id).config = s.config ∧ (f s id).now = s.now ∧
      (f s id).outageUntil = s.outageUntil) :
    ∀ (ids : List ServerPeerId) (s : ServerConditioner T), (ids.foldl f s).config = s.config ∧
      (ids.foldl f s).now = s.now ∧ (ids.foldl f s).outageUntil = s.outageUntil
  | [], _ => ⟨rfl, rfl, rfl⟩
  | id :: ids, s => by
    obtain ⟨h1, h2, h3⟩ := foldl_frame hf ids (f s id)
    obtain ⟨g1, g2, g3⟩ := hf s id
    exact ⟨h1.trans g1, h2.trans g2, h3.trans g3⟩

theorem retire_frame (s : ServerConditioner T) (id : ServerPeerId) :
    (s.retire id).config = s.config ∧ (s.retire id).now = s.now ∧
      (s.retire id).outageUntil = s.outageUntil := by
  unfold retire; split <;> exact ⟨rfl, rfl, rfl⟩

/-- `poll` clamps the time and drops an outage that is over. -/
theorem poll_frame (s : ServerConditioner T) (now : Nat) :
    (s.poll now).config = s.config ∧ (s.poll now).now = max now s.now ∧
      (s.poll now).outageUntil =
        if s.outageUntil.any (fun till => max now s.now ≥ till) then none else s.outageUntil := by
  unfold poll cleanup
  split
  · exact foldl_frame (f := expirePeer) (fun t id => retire_frame t id) _ (s.clamp now)
  · exact ⟨rfl, rfl, rfl⟩

/-- What is left of an outage after a `poll` is positive, and there is something
left exactly while the outage is in force. -/
theorem outageRemaining_poll (s : ServerConditioner T) (now : Nat) :
    match (s.poll now).outageRemaining with
    | none => ¬ s.OutageInForce now
    | some r => s.OutageInForce now ∧ 0 < r := by
  obtain ⟨-, hnow, hout⟩ := poll_frame s now
  unfold outageRemaining OutageInForce
  rw [hout, hnow]
  cases s.outageUntil with
  | none => simp
  | some till =>
    by_cases h : max now s.now ≥ till
    · simp only [Option.any_some, decide_eq_true h, if_true, Option.map_none]
      rintro ⟨t, ht, hlt⟩; cases ht; omega
    · simp only [Option.any_some, h, decide_false, Bool.false_eq_true, if_false, Option.map_some]
      exact ⟨⟨till, rfl, by omega⟩, by omega⟩

/-- An engine that was just told of an outage drops the packet. -/
theorem enqueue_imposed {e : PacketConditioner T} (hn : e.Noticed) {now r : Nat} (hr : 0 < r)
    (hclk : e.lastNow ≤ now) (hmax : now < Duration.MAX) (d : ConditionerDirection) (payload : T)
    (byteLen : Nat) :
    ((impose (some r) e).enqueue delay d now payload byteLen).2 = none := by
  have hne : ¬ e.revision = wrapU64 (e.handle.revision + 1) := hn
  have hzero : r ≠ 0 := by omega
  have hend : ¬ now ≥ Duration.saturatingAdd now r := by
    unfold Duration.saturatingAdd satAdd; omega
  have hout : ((impose (some r) e).sync now).outageUntil = some (Duration.saturatingAdd now r) := by
    unfold impose PacketConditioner.sync PacketConditioner.resync PacketConditioner.expire
    simp only [ne_eq, hne, not_false_eq_true, if_true, Control.outage, hzero, if_false,
      Option.map_some, Nat.max_eq_left hclk, Option.any_some, hend, decide_false, Bool.false_eq_true]
  unfold PacketConditioner.enqueue
  dsimp only
  rw [hout]
  rfl

/-- With conditioning enabled an engine never hands a packet back. -/
theorem enqueue_enabled {e : PacketConditioner T} (h : e.handle.config.1.enabled = true)
    (d : ConditionerDirection) (now : Nat) (payload : T) (byteLen : Nat) :
    (e.enqueue delay d now payload byteLen).2 = none := by
  have hcfg : (e.sync now).handle.config.1.enabled = true := by
    rw [(e.sync_frame now).2.1, h]
  unfold PacketConditioner.enqueue
  dsimp only
  split
  · rfl
  · simp [hcfg]

theorem deferTo_true {s : ServerConditioner T} (owner : Nat) {id : ServerPeerId} {p : Peer T}
    (hn : p.engine.Noticed) (hcfg : p.engine.handle.config = peerConfig s.config.packets id)
    (hclk : p.engine.lastNow ≤ s.now)
    (hon : s.config.1.packets.enabled = true ∨
      ∃ r, s.outageRemaining = some r ∧ 0 < r ∧ s.now < Duration.MAX)
    (d : ConditionerDirection) (payload : T) (byteLen : Nat) :
    (s.deferTo delay owner d id payload byteLen p).2 = true := by
  unfold deferTo
  split
  · rfl
  · simp only [Option.isNone_iff_eq_none]
    cases hrem : s.outageRemaining with
    | some r =>
      rcases hon with hon | ⟨r', hr', hpos, hmax⟩
      · refine enqueue_enabled delay ?_ d s.now payload byteLen
        simp only [impose, Control.outage, hcfg, peerConfig, ValidServerConfig.packets, hon]
      · rw [hrem] at hr'; cases hr'
        exact enqueue_imposed delay hn hpos hclk hmax d payload byteLen
    | none =>
      rcases hon with hon | ⟨r', hr', -⟩
      · refine enqueue_enabled delay ?_ d s.now payload byteLen
        simp only [impose, hcfg, peerConfig, ValidServerConfig.packets, hon]
      · rw [hrem] at hr'; cases hr'

/-- A packet bypasses the conditioner exactly when conditioning is disabled and
no outage is in force. -/
theorem deferAt_false_iff {s : ServerConditioner T} (hg : s.Good) (hr : s.Room) (owner : Nat)
    (d : ConditionerDirection) (id : ServerPeerId) (payload : T) (byteLen : Nat) (now : Nat) :
    (s.deferAt delay owner d id payload byteLen now).2 = false ↔
      s.config.1.packets.enabled = false ∧ ¬ s.OutageInForce now := by
  have hp := sheds_poll s now
  have hg1 := hp.good hg
  have hr1 := hp.room hr
  obtain ⟨hcfg, hnow, hout⟩ := poll_frame s now
  have hrem := outageRemaining_poll s now
  have hmax : ∀ r, (s.poll now).outageRemaining = some r → (s.poll now).now < Duration.MAX := by
    intro r h
    rw [h] at hrem
    obtain ⟨till, ht, hlt⟩ := hrem.1
    have := hg.outage till ht
    omega
  simp only [deferAt]
  set s1 := s.poll now
  split
  · rename_i hoff
    rw [hoff.2] at hrem
    exact ⟨fun _ => ⟨hcfg ▸ hoff.1, hrem⟩, fun _ => rfl⟩
  · rename_i hon
    have hon' : s1.config.1.packets.enabled = true ∨
        ∃ r, s1.outageRemaining = some r ∧ 0 < r ∧ s1.now < Duration.MAX := by
      cases hrm : s1.outageRemaining with
      | none =>
        left
        simpa using fun he => hon ⟨he, hrm⟩
      | some r =>
        rw [hrm] at hrem
        exact .inr ⟨r, rfl, hrem.2, hmax r hrm⟩
    have hnot : ¬ (s.config.1.packets.enabled = false ∧ ¬ s.OutageInForce now) := by
      rintro ⟨h1, h2⟩
      rcases hon' with h | ⟨r, h, -, -⟩
      · rw [hcfg, h1] at h; cases h
      · rw [h] at hrem; exact h2 hrem.1
    refine ⟨fun h => ?_, fun h => absurd h hnot⟩
    cases hq : s1.peers.get id with
    | some p =>
      rw [hq] at h
      have hgp := hg1.peers id p hq
      have := deferTo_true delay owner (noticed_of_behind hgp.behind (hr1 id p hq)).1 hgp.config hgp.clock
        hon' d payload byteLen
      simp only [this] at h; cases h
    | none =>
      rw [hq] at h
      dsimp only at h
      split at h
      · cases h
      · have hn : (s1.newPeer owner id).engine.Noticed := by
          simp [PacketConditioner.Noticed, newPeer, PacketConditioner.new, Control.resetSession,
            Control.ofValid, wrapU64, U64_MAX]
        have := deferTo_true delay owner hn rfl (Nat.zero_le _) hon' d payload byteLen
        simp only [this] at h; cases h

/-! ## Reported totals -/

/-- No counter of a reported direction has reached the top. -/
def Below (s : DirectionStats) : Prop := s.Unsaturated ∧ s.queuedPackets < U64_MAX

instance (s : DirectionStats) : Decidable (Below s) :=
  inferInstanceAs (Decidable (s.Unsaturated ∧ s.queuedPackets < U64_MAX))

theorem addDirection_below {a b : DirectionStats} (h : Below (addDirection a b)) :
    Below a ∧ b.Unsaturated ∧ (addDirection a b).total = a.total + b.total := by
  obtain ⟨hu, hq⟩ := h
  have h1 := satAdd_eq_of_lt hu.loss
  have h2 := satAdd_eq_of_lt hu.outage
  have h3 := satAdd_eq_of_lt hu.overflow
  have h4 := satAdd_eq_of_lt hu.transition
  have h5 := satAdd_eq_of_lt hq
  obtain ⟨l1, l2, l3, l4⟩ := hu
  simp only [addDirection] at l1 l2 l3 l4 hq
  refine ⟨⟨⟨?_, ?_, ?_, ?_⟩, ?_⟩, ⟨?_, ?_, ?_, ?_⟩, ?_⟩
  all_goals try omega
  simp only [DirectionStats.total, addDirection]
  omega

/-- Saturating sums below the top are the exact ones. -/
theorem foldl_addStats_below :
    ∀ (xs : List (ServerPeerId × Peer T)) (a : ConditionerStats),
      Below (xs.foldl (fun acc x => addStats acc x.2.engine.handle.stats) a).incoming →
      Below (xs.foldl (fun acc x => addStats acc x.2.engine.handle.stats) a).outgoing →
      a.Unsaturated ∧ (∀ x ∈ xs, x.2.engine.handle.stats.Unsaturated) ∧
        (xs.foldl (fun acc x => addStats acc x.2.engine.handle.stats) a).total =
          a.total + (xs.map fun x => x.2.engine.handle.stats.total).sum ∧
        Below a.incoming ∧ Below a.outgoing
  | [], a, hi, ho => ⟨⟨hi.1, ho.1⟩, fun x hx => absurd hx List.not_mem_nil, by simp, hi, ho⟩
  | x :: xs, a, hi, ho => by
    obtain ⟨-, hxs, htot, hbi, hbo⟩ := foldl_addStats_below xs (addStats a x.2.engine.handle.stats) hi ho
    obtain ⟨ai, bi, ti⟩ := addDirection_below (a := a.incoming) hbi
    obtain ⟨ao, bo, to_⟩ := addDirection_below (a := a.outgoing) hbo
    refine ⟨⟨ai.1, ao.1⟩, fun y hy => ?_, ?_, ai, ao⟩
    · rcases List.mem_cons.1 hy with rfl | hy
      · exact ⟨bi, bo⟩
      · exact hxs y hy
    · have hadd : (addStats a x.2.engine.handle.stats).total =
          a.total + x.2.engine.handle.stats.total := by
        simp only [ConditionerStats.total]
        simp only [addStats]
        omega
      rw [List.foldl_cons, htot, hadd, List.map_cons, List.sum_cons]
      omega

/-- Every counter `stats` reports is below the top. -/
structure ReportsBelow (s : ServerConditioner T) : Prop where
  incoming : Below s.stats.packets.incoming
  outgoing : Below s.stats.packets.outgoing
  peerLimit : s.stats.peerLimitDrops < U64_MAX

instance (s : ServerConditioner T) : Decidable (ReportsBelow s) :=
  decidable_of_iff (Below s.stats.packets.incoming ∧ Below s.stats.packets.outgoing ∧
      s.stats.peerLimitDrops < U64_MAX)
    ⟨fun ⟨hin, hout, hlimit⟩ => ⟨hin, hout, hlimit⟩,
      fun h => ⟨h.incoming, h.outgoing, h.peerLimit⟩⟩

/-- Every counter `stats` reports, and every handle's revision, is below the top. -/
structure CountersBelow (s : ServerConditioner T) : Prop extends ReportsBelow s where
  revisions : s.Room

theorem CountersBelow.exact {s : ServerConditioner T} (h : CountersBelow s) :
    s.Unsaturated ∧ s.stats.packets.total + s.stats.peerLimitDrops = s.account := by
  obtain ⟨hr, hp, htot, -, -⟩ := foldl_addStats_below s.peers.iter s.retired h.incoming h.outgoing
  refine ⟨⟨hr, fun id p hget => hp (id, p) (HashMap.get_eq_some.1 hget), h.peerLimit⟩, ?_⟩
  simp only [ConditionerStats.total] at htot
  simp only [stats, account, ConditionerStats.total, HashMap.sumBy]
  omega

/-! ## The totals of retired peers -/

/-- The totals of retired peers hold nothing that is still queued. -/
def RetiredEmpty (s : ServerConditioner T) : Prop :=
  ∀ d, (s.retired.direction d).queuedPackets = 0 ∧ (s.retired.direction d).queuedBytes = 0

theorem retiredEmpty_retire {s : ServerConditioner T} (h : RetiredEmpty s) (id : ServerPeerId) :
    RetiredEmpty (s.retire id) := by
  unfold retire
  split
  · exact h
  · rename_i p _; exact addStats_queue h (flushed_queue p)

theorem retiredEmpty_foldl {f : ServerConditioner T → ServerPeerId → ServerConditioner T}
    (hf : ∀ s id, RetiredEmpty s → RetiredEmpty (f s id)) :
    ∀ (ids : List ServerPeerId) (s : ServerConditioner T), RetiredEmpty s → RetiredEmpty (ids.foldl f s)
  | [], _, h => h
  | id :: ids, s, h => retiredEmpty_foldl hf ids (f s id) (hf s id h)

theorem retiredEmpty_poll {s : ServerConditioner T} (h : RetiredEmpty s) (now : Nat) :
    RetiredEmpty (s.poll now) := by
  unfold poll cleanup
  split
  · exact retiredEmpty_foldl (f := expirePeer) (fun t id ht => retiredEmpty_retire ht id) _ (s.clamp now) h
  · exact h

theorem retiredEmpty_evict : ∀ (n : Nat) (s : ServerConditioner T), RetiredEmpty s →
    RetiredEmpty (s.evict n)
  | 0, _, h => h
  | n + 1, s, h => by
    unfold evict
    split
    · split
      · rename_i id _; exact retiredEmpty_evict n _ (retiredEmpty_retire h id)
      · exact h
    · exact h

theorem retired_deferTo (s : ServerConditioner T) (owner : Nat) (d : ConditionerDirection)
    (id : ServerPeerId) (payload : T) (byteLen : Nat) (p : Peer T) :
    (s.deferTo delay owner d id payload byteLen p).1.retired = s.retired := by
  unfold deferTo; split <;> rfl

theorem retiredEmpty_deferAt {s : ServerConditioner T} (h : RetiredEmpty s) (owner : Nat)
    (d : ConditionerDirection) (id : ServerPeerId) (payload : T) (byteLen : Nat) (now : Nat) :
    RetiredEmpty (s.deferAt delay owner d id payload byteLen now).1 := by
  have hp := retiredEmpty_poll h now
  unfold deferAt
  dsimp only
  split
  · exact hp
  · split
    · intro x; rw [retired_deferTo]; exact hp x
    · split
      · exact hp
      · intro x; rw [retired_deferTo]; exact hp x

/-! ## Whole runs -/

inductive Op where
  | deferAt (owner : Nat) (direction : ConditionerDirection) (id : ServerPeerId) (bytes : Bytes)
      (now : Nat)
  | drainAt (owner : Nat) (direction : ConditionerDirection) (now : Nat)
  | configure (config : ServerConditionerConfig)
  | outageAt (duration now : Nat)
  | removePeer (owner : Nat) (id : ServerPeerId)
  | removeOwner (owner : Nat)
  | allocateOwner

/-- The conditioner with the packets it took and gave back so far. -/
structure Ledger where
  state : ServerConditioner Bytes
  deferred : Nat
  released : Nat

def Ledger.init (config : ValidServerConfig) : Ledger := ⟨new config, 0, 0⟩

/-- One call. A refused `configure` changes nothing; a panicking `allocate_owner`
ends the run. -/
def Ledger.step (l : Ledger) : Op → Option Ledger
  | .deferAt owner d id bytes now =>
    let r := l.state.deferAt delay owner d id bytes bytes.length now
    some { l with state := r.1, deferred := l.deferred + if r.2 then 1 else 0 }
  | .drainAt owner d now =>
    let r := l.state.drainAt owner d now
    some { l with state := r.1, released := l.released + r.2.length }
  | .configure config =>
    match l.state.configure config with
    | .ok state => some { l with state := state }
    | .error _ => some l
  | .outageAt duration now => some { l with state := l.state.outageAt duration now }
  | .removePeer owner id => some { l with state := l.state.removePeer owner id }
  | .removeOwner owner => some { l with state := l.state.removeOwner owner }
  | .allocateOwner => l.state.allocateOwner.map fun r => { l with state := r.1 }

/-- Runs of one handle, as long as its states satisfy `ok`. -/
def runs (ok : ServerConditioner Bytes → Prop) (config : ValidServerConfig) : LTS Ledger Op where
  init l := l = .init config
  step l op l' := l.step delay op = some l' ∧ ok l'.state

/-- One call books exactly the packets it takes and releases. -/
theorem step_balanced {l l' : Ledger} {op : Op} (hg : l.state.Good) (hr : l.state.Room)
    (h : l.step delay op = some l') :
    ∃ taken released, Balanced l.state l'.state taken released ∧
      l'.deferred = l.deferred + taken ∧ l'.released = l.released + released := by
  cases op with
  | deferAt owner d id bytes now =>
    cases h
    exact ⟨_, 0, balanced_deferAt delay hg hr owner d id bytes bytes.length now, rfl, rfl⟩
  | drainAt owner d now => cases h; exact ⟨0, _, balanced_drainAt hg hr owner d now, rfl, rfl⟩
  | configure config =>
    simp only [Ledger.step, configure] at h
    split at h
    · rename_i state hc
      split at hc
      · cases hc; cases h; exact ⟨0, 0, balanced_reconfigure hg hr _, rfl, rfl⟩
      · cases hc
    · cases h; exact ⟨0, 0, (Sheds.refl _).balanced hg, rfl, rfl⟩
  | outageAt duration now => cases h; exact ⟨0, 0, balanced_outageAt hg hr duration now, rfl, rfl⟩
  | removePeer owner id => cases h; exact ⟨0, 0, balanced_removePeer hg owner id, rfl, rfl⟩
  | removeOwner owner => cases h; exact ⟨0, 0, balanced_removeOwner hg owner, rfl, rfl⟩
  | allocateOwner =>
    simp only [Ledger.step, allocateOwner] at h
    split at h
    · cases h
      exact ⟨0, 0, ⟨⟨hg.peers, hg.retired, hg.outage⟩, fun hu =>
        ⟨⟨hu.retired, hu.peers, hu.peerLimit⟩, rfl⟩⟩, rfl, rfl⟩
    · cases h

/-- The invariant of a run whose counters stay below the top. -/
structure Accounted (l : Ledger) : Prop where
  good : l.state.Good
  below : l.state.CountersBelow
  balance : l.deferred = l.released + l.state.account

theorem countersBelow_new (config : ValidServerConfig) :
    CountersBelow (new config : ServerConditioner T) := by
  have hz : 0 < U64_MAX := by decide
  exact ⟨⟨⟨⟨hz, hz, hz, hz⟩, hz⟩, ⟨⟨hz, hz, hz, hz⟩, hz⟩, hz⟩,
    fun id p h => by cases h⟩

theorem accounted_inductive (config : ValidServerConfig) :
    (runs delay CountersBelow config).Inductive Accounted := by
  refine ⟨fun l hl => ?_, fun l op l' hi hs => ?_⟩
  · cases hl
    exact ⟨good_new config, countersBelow_new config, rfl⟩
  · obtain ⟨hstep, hok⟩ := hs
    obtain ⟨taken, released, hb, hd, hrel⟩ := step_balanced delay hi.good hi.below.revisions hstep
    refine ⟨hb.good, hok, ?_⟩
    have he := (hb.balance hok.exact.1).2
    have hbal := hi.balance
    omega

theorem retiredEmpty_inductive (config : ValidServerConfig) :
    (runs delay (fun _ => True) config).Inductive fun l => l.state.RetiredEmpty := by
  refine ⟨fun l hl => ?_, fun l op l' hi hs => ?_⟩
  · cases hl; intro d; cases d <;> exact ⟨rfl, rfl⟩
  · obtain ⟨h, -⟩ := hs
    cases op with
    | deferAt owner d id bytes now => cases h; exact retiredEmpty_deferAt delay hi owner d id bytes _ now
    | drainAt owner d now => cases h; exact retiredEmpty_poll hi now
    | configure config =>
      simp only [Ledger.step, configure] at h
      split at h
      · rename_i state hc
        split at hc
        · cases hc; cases h; exact retiredEmpty_evict _ _ hi
        · cases hc
      · cases h; exact hi
    | outageAt duration now => cases h; exact retiredEmpty_poll hi now
    | removePeer owner id =>
      cases h
      simp only [removePeer]
      split
      · exact retiredEmpty_retire hi id
      · exact hi
    | removeOwner owner =>
      cases h
      exact retiredEmpty_foldl (fun t id ht => retiredEmpty_retire ht id) _ _ hi
    | allocateOwner =>
      simp only [Ledger.step, allocateOwner] at h
      split at h
      · cases h; exact hi
      · cases h

/-- **No packet disappears unaccounted.** In every run over one handle, by any
number of owners and at any times:

* until a counter reaches the top, the packets taken by `defer_at` are those
  `drain_at` returned plus those `stats` reports as queued or dropped;
* until then, `defer_at` lets a packet through exactly when conditioning is
  disabled and no outage is in force at the clamped time;
* the totals of retired peers never hold a queued packet or byte. -/
theorem packets_accounted (config : ValidServerConfig) :
    (∀ l, (runs delay CountersBelow config).Reachable l →
      l.deferred = l.released + (l.state.stats.packets.total + l.state.stats.peerLimitDrops) ∧
      ∀ owner d id (bytes : Bytes) now,
        (l.state.deferAt delay owner d id bytes bytes.length now).2 = false ↔
          l.state.config.1.packets.enabled = false ∧ ¬ l.state.OutageInForce now) ∧
    (∀ l, (runs delay (fun _ => True) config).Reachable l → l.state.RetiredEmpty) := by
  refine ⟨fun l hl => ?_, fun l hl => (retiredEmpty_inductive delay config).reachable l hl⟩
  have hi := (accounted_inductive delay config).reachable l hl
  refine ⟨by rw [hi.below.exact.2]; exact hi.balance, fun owner d id bytes now => ?_⟩
  exact deferAt_false_iff delay hi.good hi.below.revisions owner d id bytes bytes.length now

/-- Conditioning on, every packet delayed by one second. -/
def delayed : ValidServerConfig :=
  ⟨{ packets := { enabled := true, latency := Duration.fromSecs 1 } }, by decide⟩

/-- The ledger after one packet from client 7 was deferred at time 0. -/
def oneDelayed : Ledger :=
  let r := (new delayed).deferAt (fun latency _ _ => latency) 1 .incoming (.webRtc 7) [1, 2, 3] 3 0
  ⟨r.1, 1, 0⟩

theorem oneDelayed_reachable {ok : ServerConditioner Bytes → Prop} (h : ok oneDelayed.state) :
    (runs (fun latency _ _ => latency) ok delayed).Reachable oneDelayed := by
  have htaken : ((new delayed).deferAt (fun latency _ _ => latency) 1 .incoming (.webRtc 7)
      ([1, 2, 3] : Bytes) 3 0).2 = true := by decide +kernel
  have hstep : (Ledger.init delayed).step (fun latency _ _ => latency)
      (.deferAt 1 .incoming (.webRtc 7) [1, 2, 3] 0) = some oneDelayed := by
    simp only [Ledger.step, Ledger.init, List.length_cons, List.length_nil, htaken, oneDelayed, if_true]
  exact ⟨_, [_], rfl, .cons ⟨hstep, h⟩ (.nil _)⟩

theorem packets_accounted_delayed :
    oneDelayed.deferred = 1 ∧ oneDelayed.state.stats.packets.incoming.queuedPackets = 1 ∧
      oneDelayed.deferred = oneDelayed.released +
        (oneDelayed.state.stats.packets.total + oneDelayed.state.stats.peerLimitDrops) := by
  have hall : ∀ x ∈ oneDelayed.state.peers.iter, x.2.engine.handle.revision < U64_MAX := by
    decide +kernel
  have hbelow : oneDelayed.state.CountersBelow :=
    ⟨by decide +kernel, fun id p h => hall (id, p) (HashMap.get_eq_some.1 h)⟩
  exact ⟨rfl, by decide +kernel,
    ((packets_accounted _ delayed).1 oneDelayed (oneDelayed_reachable hbelow)).1⟩

/-! ## A revision that comes round -/

/-- An entry after `n + 1` times `configure`. -/
def reconfigured (config : ValidServerConfig) (n : Nat) (id : ServerPeerId) (p : Peer T) : Peer T :=
  { p with engine.handle := {
      config := peerConfig config.packets id
      stats := { p.engine.handle.stats.discardQueues with outageActive := false }
      revision := wrapU64 (p.engine.handle.revision + (n + 1))
      pendingOutage := none } }

theorem satAdd_zero_of_satAdd (top a b : Nat) : satAdd top (satAdd top a b) 0 = satAdd top a b := by
  unfold satAdd
  omega

theorem discardQueue_idem (s : DirectionStats) : s.discardQueue.discardQueue = s.discardQueue := by
  simp only [DirectionStats.discardQueue, satAdd_zero_of_satAdd]

theorem evict_of_le {n : Nat} {s : ServerConditioner T} (h : s.peers.len ≤ s.config.1.maxPeers) :
    s.evict n = s := by
  cases n with
  | zero => rfl
  | succ n =>
    unfold evict
    rw [if_neg (Nat.not_lt.2 h)]

/-- The state after `n + 1` times `configure`, if nobody has to go. -/
theorem reconfigure_iterate (config : ValidServerConfig) (s : ServerConditioner T)
    (h : s.peers.len ≤ config.1.maxPeers) (n : Nat) :
    (fun s => s.reconfigure config)^[n + 1] s =
      { s with
        peers := s.peers.mapVal (reconfigured config n)
        config := config
        outageUntil := none
        nextCleanup := 0 } := by
  induction n with
  | zero =>
    simp only [Function.iterate_succ, Function.iterate_zero, Function.comp_apply, id_eq, reconfigure]
    rw [evict_of_le (by simpa using h)]
    rfl
  | succ n ih =>
    rw [Function.iterate_succ_apply', ih]
    unfold reconfigure
    dsimp only
    rw [evict_of_le (by simpa using h), HashMap.mapVal_mapVal]
    congr 2
    funext id p
    simp only [reconfigured, Control.reconfigure, wrapU64_wrapU64_add, ConditionerStats.discardQueues,
      discardQueue_idem]
    rfl

/-- The counters stay where the first of these changes puts them. -/
theorem stats_reconfigure_iterate (config : ValidServerConfig) (s : ServerConditioner T)
    (h : s.peers.len ≤ config.1.maxPeers) (n : Nat) :
    ((fun s => s.reconfigure config)^[n + 1] s).stats = ((fun s => s.reconfigure config)^[1] s).stats := by
  rw [reconfigure_iterate config s h n, reconfigure_iterate config s h 0]
  simp only [stats, HashMap.iter_mapVal, List.foldl_map, HashMap.len_mapVal]
  rfl

theorem ReportsBelow.of_stats {s s' : ServerConditioner T} (h : ReportsBelow s)
    (he : s'.stats = s.stats) :
    ReportsBelow s' := ⟨he ▸ h.incoming, he ▸ h.outgoing, he ▸ h.peerLimit⟩

/-- Any number of such changes can be made. -/
theorem configure_reachable {first config : ValidServerConfig} {l : Ledger}
    (hl : (runs delay ReportsBelow first).Reachable l) (hlen : l.state.peers.len ≤ config.1.maxPeers)
    (hbelow : ReportsBelow ((fun s => s.reconfigure config)^[1] l.state)) (n : Nat) :
    (runs delay ReportsBelow first).Reachable
      { l with state := (fun s => s.reconfigure config)^[n + 1] l.state } := by
  have hstep : ∀ s : ServerConditioner Bytes,
      ({ l with state := s } : Ledger).step delay (.configure config.1) =
        some { l with state := s.reconfigure config } := fun s => by
    simp only [Ledger.step, configure, dif_pos config.2]
  induction n with
  | zero => exact hl.run (.cons ⟨hstep l.state, hbelow⟩ (.nil _))
  | succ n ih =>
    rw [Function.iterate_succ_apply']
    refine ih.run (.cons ⟨hstep _, ?_⟩ (.nil _))
    rw [← Function.iterate_succ_apply' (fun s : ServerConditioner Bytes => s.reconfigure config)]
    exact hbelow.of_stats (stats_reconfigure_iterate config l.state hlen (n + 1))

/-- Conditioning off. -/
def off : ValidServerConfig := ⟨{}, ServerConditionerConfig.validate_default⟩

/-- After one deferred packet, and `2^64 - 2` times the same settings. -/
def comeRound : Ledger :=
  { oneDelayed with
    state := { oneDelayed.state with
      peers := oneDelayed.state.peers.mapVal (reconfigured off (U64_MAX - 2))
      config := off
      outageUntil := none
      nextCleanup := 0 } }

/-- Then an outage of ten nanoseconds. -/
def inTheDark : Ledger := { comeRound with state := comeRound.state.outageAt 10 0 }

/-- When the revision has come round, the engine takes no notice of the outage, and
`defer_at` lets a packet through in the middle of it. No counter has come near the top. -/
theorem let_through_in_outage :
    (runs (fun latency _ _ => latency) ReportsBelow delayed).Reachable inTheDark ∧
      inTheDark.state.OutageInForce 6 ∧
      (inTheDark.state.deferAt (fun latency _ _ => latency) 1 .incoming (.webRtc 7) [2] 1 6).2 = false := by
  have hlen : oneDelayed.state.peers.len ≤ off.1.maxPeers := by decide +kernel
  have hstart : ReportsBelow oneDelayed.state := by decide +kernel
  have honce : ReportsBelow ((fun s => s.reconfigure off)^[1] oneDelayed.state) := by decide +kernel
  have hend : ReportsBelow inTheDark.state := by decide +kernel
  have hround := configure_reachable _ (oneDelayed_reachable hstart) hlen honce (U64_MAX - 2)
  rw [reconfigure_iterate off _ hlen] at hround
  have houtage : comeRound.step (fun latency _ _ => latency) (.outageAt 10 0) = some inTheDark := rfl
  exact ⟨hround.run (.cons ⟨houtage, hend⟩ (.nil _)), ⟨10, by decide +kernel, by decide +kernel⟩,
    by decide +kernel⟩

end ServerConditioner
end RenetCross.L2
