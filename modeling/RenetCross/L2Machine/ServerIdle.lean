import RenetCross.L2Machine.ServerTable

/-!
# Idle peers

`poll` looks for idle peers only when its clock has passed the mark
`next_cleanup`, which it then moves on by at most a second; `configure` takes the
mark back to zero. So a peer can outlive its timeout, by less than one such step.
`IdleInv` keeps that bound between the polls: the mark lies before the moment at
which any peer of the table would have stayed too long.

The log of a run lists for every call the peers its `poll` took out
(`Call.expired`); `expired_peers` is their number, up to `u64::MAX`.
-/
namespace RenetCross.L2

namespace ServerConditioner

variable {T : Type}

/-- How far `poll` moves the mark. -/
def cleanupStep (config : ValidServerConfig) : Nat := min config.1.idleTimeout (Duration.fromSecs 1)

theorem idleTimeout_pos (config : ValidServerConfig) : 0 < config.1.idleTimeout := by
  have h := config.2
  unfold ServerConditionerConfig.validate at h
  split at h
  · cases h
  · rename_i hn
    exact Nat.pos_of_ne_zero fun hzero => hn (.inr (.inr hzero))

/-- The mark, the clock and the peers between two polls. -/
structure IdleInv (s : ServerConditioner T) : Prop where
  mark : s.nextCleanup ≤ s.now + cleanupStep s.config
  seen : ∀ id p, s.peers.get id = some p →
    s.nextCleanup < p.lastSeen + s.config.1.idleTimeout + cleanupStep s.config

/-! ## What a poll takes out -/

theorem mem_idsWhere {s : ServerConditioner T} {f : Peer T → Bool} {id : ServerPeerId} :
    id ∈ s.idsWhere f ↔ ∃ p, s.peers.get id = some p ∧ f p = true := by
  simp only [idsWhere, List.mem_map, List.mem_filter, Prod.exists, exists_and_right, exists_eq_right,
    HashMap.get_eq_some]

theorem mem_expiring {s : ServerConditioner T} {now : Nat} {id : ServerPeerId} :
    id ∈ s.expiring now ↔ s.nextCleanup ≤ max now s.now ∧
      ∃ p, s.peers.get id = some p ∧ s.config.1.idleTimeout ≤ max now s.now - p.lastSeen := by
  unfold expiring
  dsimp only
  split
  · rename_i hdue
    rw [mem_idsWhere]
    simp only [decide_eq_true_eq, ge_iff_le]
    exact ⟨fun h => ⟨hdue, h⟩, And.right⟩
  · rename_i hdue
    exact ⟨fun h => absurd h List.not_mem_nil, fun h => absurd h.1 hdue⟩

theorem nodup_expiring (s : ServerConditioner T) (now : Nat) : (s.expiring now).Nodup := by
  unfold expiring
  dsimp only
  split
  · have hkeys := (s.clamp now).peers.iter_pairwise
    exact List.pairwise_map.2 (hkeys.sublist List.filter_sublist)
  · exact List.nodup_nil

theorem len_foldl_expirePeer :
    ∀ (ids : List ServerPeerId) (s : ServerConditioner T), ids.Nodup →
      (∀ id ∈ ids, ∃ p, s.peers.get id = some p) →
      (ids.foldl expirePeer s).peers.len + ids.length = s.peers.len ∧
        (ids.foldl expirePeer s).expiredPeers =
          ids.foldl (fun n _ => satAdd U64_MAX n 1) s.expiredPeers
  | [], _, _, _ => ⟨rfl, rfl⟩
  | id :: ids, s, hnodup, hmem => by
    obtain ⟨hid, hrest⟩ := List.nodup_cons.1 hnodup
    obtain ⟨p, hp⟩ := hmem id (List.mem_cons_self ..)
    have hlen : (s.expirePeer id).peers.len + 1 = s.peers.len := len_retire hp
    have hsame : (s.expirePeer id).expiredPeers = satAdd U64_MAX s.expiredPeers 1 := by
      simp only [expirePeer, retire, hp]
    obtain ⟨hlen', hcount⟩ := len_foldl_expirePeer ids (s.expirePeer id) hrest (by
      intro id' hid'
      obtain ⟨q, hq⟩ := hmem id' (List.mem_cons_of_mem _ hid')
      refine ⟨q, ?_⟩
      have hget : (s.expirePeer id).peers.get id' = if id' = id then none else s.peers.get id' :=
        get_retire s id id'
      have hne : id' ≠ id := by
        intro heq
        subst heq
        exact hid hid'
      rw [hget, if_neg hne]
      exact hq)
    rw [List.foldl_cons, List.foldl_cons, List.length_cons, hcount, hsame]
    exact ⟨by omega, rfl⟩

theorem foldl_satAdd (ids : List ServerPeerId) :
    ∀ {n m : Nat}, n = min m U64_MAX →
      ids.foldl (fun n _ => satAdd U64_MAX n 1) n = min (m + ids.length) U64_MAX := by
  induction ids with
  | nil => intro n m h; exact h
  | cons id ids ih =>
    intro n m h
    have hnext : satAdd U64_MAX n 1 = min (m + 1) U64_MAX := by unfold satAdd; omega
    rw [List.foldl_cons, ih hnext, List.length_cons]
    omega

/-- A poll takes out the peers it lists and counts them. -/
theorem poll_counts {s : ServerConditioner T} {m : Nat} (hm : s.expiredPeers = min m U64_MAX)
    (now : Nat) :
    (s.poll now).peers.len + (s.expiring now).length = s.peers.len ∧
      (s.poll now).expiredPeers = min (m + (s.expiring now).length) U64_MAX := by
  have hmem : ∀ id ∈ s.expiring now, ∃ p, (s.clamp now).peers.get id = some p := by
    intro id hid
    obtain ⟨-, p, hp, -⟩ := mem_expiring.1 hid
    exact ⟨p, hp⟩
  have hfold := len_foldl_expirePeer (s.expiring now) (s.clamp now) (nodup_expiring s now) hmem
  unfold poll cleanup
  by_cases hdue : (s.clamp now).now ≥ (s.clamp now).nextCleanup
  · have hids : s.expiring now = (s.clamp now).idsWhere fun p =>
        (s.clamp now).now - p.lastSeen ≥ (s.clamp now).config.1.idleTimeout := if_pos hdue
    rw [if_pos hdue, ← hids]
    refine ⟨hfold.1, ?_⟩
    dsimp only
    rw [hfold.2]
    exact foldl_satAdd _ hm
  · have hids : s.expiring now = [] := if_neg hdue
    rw [if_neg hdue, hids]
    exact ⟨rfl, hm⟩

/-- The mark after a poll. -/
theorem poll_mark (s : ServerConditioner T) (now : Nat) :
    (s.poll now).nextCleanup = if s.nextCleanup ≤ max now s.now then
        Duration.saturatingAdd (max now s.now) (cleanupStep s.config)
      else s.nextCleanup := by
  have hframe : ∀ ids : List ServerPeerId, (ids.foldl expirePeer (s.clamp now)).now = max now s.now ∧
      (ids.foldl expirePeer (s.clamp now)).config = s.config := by
    intro ids
    obtain ⟨hcfg, hnow, -⟩ := foldl_frame (f := expirePeer) (fun t id => retire_frame t id) ids
      (s.clamp now)
    exact ⟨hnow, hcfg⟩
  unfold poll cleanup
  by_cases hdue : s.nextCleanup ≤ max now s.now
  · rw [if_pos (show (s.clamp now).now ≥ (s.clamp now).nextCleanup from hdue), if_pos hdue]
    dsimp only
    rw [(hframe _).1, (hframe _).2]
    rfl
  · rw [if_neg (show ¬ (s.clamp now).now ≥ (s.clamp now).nextCleanup from hdue), if_neg hdue]
    rfl

/-- Neither early nor late, right after a poll; and the mark is set for the next. -/
theorem IdleInv.poll {s : ServerConditioner T} (h : s.IdleInv) (now : Nat) :
    (s.poll now).IdleInv ∧ ∀ id p, (s.poll now).peers.get id = some p →
      (s.poll now).now < p.lastSeen + s.config.1.idleTimeout + cleanupStep s.config := by
  obtain ⟨hcfg, hnow, -⟩ := poll_frame s now
  have hpos := idleTimeout_pos s.config
  have hmark := poll_mark s now
  have hbefore := h.mark
  by_cases hdue : s.nextCleanup ≤ max now s.now
  · rw [if_pos hdue] at hmark
    have hle : (s.poll now).nextCleanup ≤ max now s.now + cleanupStep s.config := by
      rw [hmark]; exact satAdd_le _ _ _
    have hkept : ∀ id p, (s.poll now).peers.get id = some p →
        max now s.now < p.lastSeen + s.config.1.idleTimeout := by
      intro id p hp
      obtain ⟨hget, hout⟩ := get_of_poll hp
      by_contra hlong
      exact hout (mem_expiring.2 ⟨hdue, p, hget, by omega⟩)
    refine ⟨⟨by rw [hnow, hcfg]; exact hle, fun id p hp => ?_⟩, fun id p hp => ?_⟩
    · have := hkept id p hp
      rw [hcfg]
      omega
    · have := hkept id p hp
      rw [hnow]
      omega
  · rw [if_neg hdue] at hmark
    refine ⟨⟨by rw [hmark, hnow, hcfg]; omega, fun id p hp => ?_⟩, fun id p hp => ?_⟩
    · rw [hmark, hcfg]
      exact h.seen id p (get_of_poll hp).1
    · have := h.seen id p (get_of_poll hp).1
      rw [hnow]
      omega

/-! ## The calls -/

/-- The clock, the mark and the settings stay, and no peer looks younger. -/
structure Rests (s s' : ServerConditioner T) : Prop where
  config : s'.config = s.config
  now : s'.now = s.now
  nextCleanup : s'.nextCleanup = s.nextCleanup
  expiredPeers : s'.expiredPeers = s.expiredPeers
  seen : ∀ id p', s'.peers.get id = some p' → ∃ p, s.peers.get id = some p ∧ p'.lastSeen = p.lastSeen

theorem Rests.refl (s : ServerConditioner T) : Rests s s :=
  ⟨rfl, rfl, rfl, rfl, fun _ p' hp => ⟨p', hp, rfl⟩⟩

theorem Rests.trans {s s' s'' : ServerConditioner T} (h : Rests s s') (h' : Rests s' s'') :
    Rests s s'' := by
  refine ⟨h'.config.trans h.config, h'.now.trans h.now, h'.nextCleanup.trans h.nextCleanup,
    h'.expiredPeers.trans h.expiredPeers, fun id p'' hp'' => ?_⟩
  obtain ⟨p', hp', he'⟩ := h'.seen id p'' hp''
  obtain ⟨p, hp, he⟩ := h.seen id p' hp'
  exact ⟨p, hp, he'.trans he⟩

theorem Rests.foldl {f : ServerConditioner T → ServerPeerId → ServerConditioner T}
    (hf : ∀ s id, Rests s (f s id)) :
    ∀ (ids : List ServerPeerId) (s : ServerConditioner T), Rests s (ids.foldl f s)
  | [], s => .refl s
  | id :: ids, s => (hf s id).trans (Rests.foldl hf ids (f s id))

theorem Rests.idle {s s' : ServerConditioner T} (h : Rests s s') (hi : s.IdleInv) : s'.IdleInv where
  mark := by rw [h.nextCleanup, h.now, h.config]; exact hi.mark
  seen := by
    intro id p' hp'
    obtain ⟨p, hp, he⟩ := h.seen id p' hp'
    rw [h.nextCleanup, h.config, he]
    exact hi.seen id p hp

theorem rests_retire (s : ServerConditioner T) (id : ServerPeerId) : Rests s (s.retire id) := by
  have hget : ∀ id' p', (s.retire id).peers.get id' = some p' →
      ∃ p, s.peers.get id' = some p ∧ p'.lastSeen = p.lastSeen := by
    intro id' p' hp'
    rw [get_retire] at hp'
    split at hp'
    · cases hp'
    · exact ⟨p', hp', rfl⟩
  refine ⟨(retire_frame s id).1, (retire_frame s id).2.1, ?_, ?_, hget⟩
  · unfold retire; split <;> rfl
  · unfold retire; split <;> rfl

theorem rests_mapVal (s : ServerConditioner T) {f : ServerPeerId → Peer T → Peer T}
    (hf : ∀ id p, (f id p).lastSeen = p.lastSeen) (outageUntil : Option Nat) :
    Rests s { s with peers := s.peers.mapVal f, outageUntil := outageUntil } := by
  refine ⟨rfl, rfl, rfl, rfl, fun id p' hp' => ?_⟩
  rw [HashMap.get_mapVal, Option.map_eq_some_iff] at hp'
  obtain ⟨p, hp, rfl⟩ := hp'
  exact ⟨p, hp, hf id p⟩

theorem idle_deferTo {s : ServerConditioner T} (h : s.IdleInv) (delay : Nat → Nat → Nat → Nat)
    (owner : Nat) (d : ConditionerDirection) (id : ServerPeerId) (payload : T) (byteLen : Nat)
    (p : Peer T) :
    (s.deferTo delay owner d id payload byteLen p).1.IdleInv ∧
      (s.deferTo delay owner d id payload byteLen p).1.expiredPeers = s.expiredPeers := by
  unfold deferTo
  split
  · exact ⟨⟨h.mark, h.seen⟩, rfl⟩
  · refine ⟨⟨h.mark, fun id' p' hp' => ?_⟩, rfl⟩
    dsimp only at hp' ⊢
    rw [HashMap.get_sortedInsert] at hp'
    split at hp'
    · cases hp'
      have := h.mark
      have := idleTimeout_pos s.config
      dsimp only
      omega
    · exact h.seen id' p' hp'

theorem idle_deferAt {s : ServerConditioner T} (h : s.IdleInv) (delay : Nat → Nat → Nat → Nat)
    (owner : Nat) (d : ConditionerDirection) (id : ServerPeerId) (payload : T) (byteLen now : Nat) :
    (s.deferAt delay owner d id payload byteLen now).1.IdleInv ∧
      (s.deferAt delay owner d id payload byteLen now).1.expiredPeers = (s.poll now).expiredPeers := by
  have hp := (h.poll now).1
  unfold deferAt
  dsimp only
  split
  · exact ⟨hp, rfl⟩
  · split
    · exact idle_deferTo hp delay owner d id payload byteLen _
    · split
      · exact ⟨⟨hp.mark, hp.seen⟩, rfl⟩
      · exact idle_deferTo hp delay owner d id payload byteLen _

theorem idle_reconfigure (s : ServerConditioner T) (config : ValidServerConfig) :
    (s.reconfigure config).IdleInv ∧ (s.reconfigure config).expiredPeers = s.expiredPeers := by
  have hevict : ∀ (n : Nat) (t : ServerConditioner T), Rests t (t.evict n) := by
    intro n
    induction n with
    | zero => exact fun t => .refl t
    | succ n ih =>
      intro t
      unfold evict
      split
      · split
        · rename_i id _
          exact (rests_retire t id).trans (ih _)
        · exact .refl t
      · exact .refl t
  have hstart : (s.renewed config).IdleInv := by
    have := idleTimeout_pos config
    refine ⟨Nat.zero_le _, fun id p _ => ?_⟩
    show 0 < p.lastSeen + config.1.idleTimeout + cleanupStep config
    omega
  rw [reconfigure_eq]
  exact ⟨(hevict _ _).idle hstart, (hevict _ _).expiredPeers⟩

/-- A call keeps the bound; only a poll counts reclaimed peers. -/
theorem idle_apply {s : ServerConditioner T} (h : s.IdleInv) {delay : Nat → Nat → Nat → Nat}
    {make : Bytes → T} {op : Op} {r : ServerConditioner T × Bool × List (ServerPeerId × T)}
    (hr : s.apply delay make op = some r) :
    r.1.IdleInv ∧ r.1.expiredPeers =
      match op.reading with
      | some now => (s.poll now).expiredPeers
      | none => s.expiredPeers := by
  cases op with
  | deferAt owner d id bytes now => cases hr; exact idle_deferAt h delay owner d id _ _ now
  | drainAt owner d now =>
    cases hr
    have hrest := rests_mapVal (s.poll now)
      (f := fun _ p => (drainPeer owner d (s.poll now).now (s.poll now).outageRemaining p).1)
      (fun _ p => by unfold drainPeer; split <;> rfl) (s.poll now).outageUntil
    exact ⟨hrest.idle (h.poll now).1, rfl⟩
  | configure config =>
    simp only [apply, configure] at hr
    by_cases hvalid : config.validate = .ok ()
    · rw [dif_pos hvalid] at hr
      cases hr
      exact idle_reconfigure s _
    · rw [dif_neg hvalid] at hr
      cases hr
      exact ⟨h, rfl⟩
  | outageAt duration now =>
    cases hr
    exact ⟨(rests_mapVal (s.poll now) (f := fun _ p => flushed p) (fun _ _ => rfl) _).idle
      (h.poll now).1, rfl⟩
  | removePeer owner id =>
    cases hr
    simp only [removePeer, Op.reading]
    split
    · exact ⟨(rests_retire s id).idle h, (rests_retire s id).expiredPeers⟩
    · exact ⟨h, rfl⟩
  | removeOwner owner =>
    cases hr
    have hrest := Rests.foldl rests_retire (s.idsWhere fun p => p.owner == owner) s
    exact ⟨hrest.idle h, hrest.expiredPeers⟩
  | allocateOwner =>
    obtain ⟨a, ha, rfl⟩ := Option.map_eq_some_iff.1 hr
    simp only [allocateOwner] at ha
    split at ha
    · cases ha
      exact ⟨⟨h.mark, h.seen⟩, rfl⟩
    · cases ha

end ServerConditioner

namespace Trace

open ServerConditioner

variable {T : Type}

/-- How many peers the calls so far have reclaimed. -/
def removals (t : Trace T) : Nat := (t.log.map fun c => c.expired.length).sum

theorem removals_logged (t : Trace T) (op : Op)
    (r : ServerConditioner T × Bool × List (ServerPeerId × T)) :
    (t.logged op r).removals = t.removals + (t.state.reclaimed op).length := by
  simp only [removals, logged, called, List.map_append, List.map_cons, List.map_nil, List.sum_append,
    List.sum_cons, List.sum_nil, Nat.add_zero]

theorem idle_inductive (delay : Nat → Nat → Nat → Nat) (make : Nat → Bytes → T) :
    (runs delay make).Inductive fun t =>
      t.state.IdleInv ∧ t.state.expiredPeers = min t.removals U64_MAX where
  init := by
    intro t h
    obtain ⟨config, rfl⟩ := h
    exact ⟨⟨Nat.zero_le _, fun id p hp => by cases hp⟩, rfl⟩
  step := by
    intro t op t' h hstep
    obtain ⟨r, hr, rfl⟩ := step_eq delay make hstep
    obtain ⟨hidle, hcount⟩ := idle_apply h.1 hr
    refine ⟨hidle, ?_⟩
    rw [removals_logged, reclaimed]
    refine hcount.trans ?_
    cases op.reading with
    | some now => exact (poll_counts h.2 now).2
    | none => exact h.2

/-- A poll never leaves a peer that has been silent for its timeout and a clean-up
step more, nor takes one whose timeout has not run out. What it takes out is what
its call lists, and `expired_peers` is the number of these over the whole run, as
far as a `u64` goes. -/
theorem idle_reclamation (delay : Nat → Nat → Nat → Nat) (u : Trace Bytes)
    (hu : (runs delay fun _ bytes => bytes).Reachable u) :
    (∀ now id p, (u.state.poll now).peers.get id = some p →
      (u.state.poll now).now - p.lastSeen < (u.state.poll now).config.1.idleTimeout +
        min (u.state.poll now).config.1.idleTimeout (Duration.fromSecs 1)) ∧
    (∀ now id p, u.state.peers.get id = some p →
      (u.state.poll now).now - p.lastSeen < u.state.config.1.idleTimeout →
      (u.state.poll now).peers.get id = some p) ∧
    (∀ now id, id ∈ u.state.expiring now ↔
      (u.state.peers.get id).isSome ∧ (u.state.poll now).peers.get id = none) ∧
    (∀ now, (u.state.poll now).peers.len + (u.state.expiring now).length = u.state.peers.len) ∧
    u.state.expiredPeers = min u.removals U64_MAX := by
  obtain ⟨hidle, hcount⟩ := (idle_inductive delay fun _ bytes => bytes).reachable u hu
  refine ⟨fun now id p hp => ?_, fun now id p hp hyoung => ?_, fun now id => ?_, fun now => ?_, hcount⟩
  · have hlate := (hidle.poll now).2 id p hp
    have hstep : 0 < cleanupStep u.state.config :=
      Nat.lt_min.2 ⟨idleTimeout_pos _, by decide⟩
    rw [(poll_frame u.state now).1]
    unfold cleanupStep at hlate hstep
    omega
  · rw [(poll_frame u.state now).2.1] at hyoung
    rw [get_poll, if_neg]
    · exact hp
    · intro hin
      obtain ⟨-, q, hq, hold⟩ := mem_expiring.1 hin
      rw [hp] at hq
      cases hq
      omega
  · constructor
    · intro hin
      obtain ⟨-, q, hq, -⟩ := mem_expiring.1 hin
      exact ⟨by rw [hq]; rfl, by rw [get_poll, if_pos hin]⟩
    · intro hgone
      by_contra hout
      rw [get_poll, if_neg hout] at hgone
      rw [hgone.2] at hgone
      cases hgone.1
  · exact (poll_counts hcount now).1

/-- A peer that is seen once and reclaimed by a later poll. -/
def seenOnce : Trace Bytes :=
  firstQueued.next (.drainAt 1 .incoming late.1.idleTimeout)

theorem idle_reclamation_seenOnce :
    seenOnce.state.expiredPeers = 1 ∧ seenOnce.state.expiredPeers = min seenOnce.removals U64_MAX :=
  ⟨by decide +kernel,
    (idle_reclamation byLatency seenOnce (next_reachable firstQueued_reachable _)).2.2.2.2⟩

/-! ## A run with too many removals to count -/

/-- Peers are idle after one nanosecond. -/
def fleeting : ValidServerConfig :=
  ⟨{ packets := { enabled := true }, idleTimeout := 1 }, by decide +kernel⟩

/-- A peer comes and is entered. -/
theorem come {t : Trace Bytes} (ht : (runs byLatency fun _ bytes => bytes).Reachable t)
    (hempty : t.state.peers.len = 0) (hcfg : t.state.config = fleeting) :
    ∃ t', (runs byLatency fun _ bytes => bytes).Reachable t' ∧ t'.state.peers.len = 1 ∧
      t'.state.config = fleeting ∧ t'.removals = t.removals ∧
      ∃ p, t'.state.peers.get (.webRtc 7) = some p ∧ p.lastSeen = t'.state.now := by
  obtain ⟨hidle, hcount⟩ := (idle_inductive byLatency fun _ bytes => bytes).reachable t ht
  obtain ⟨hlen, -⟩ := poll_counts hcount (t.state.now + 1)
  obtain ⟨hcfg', -, -⟩ := poll_frame t.state (t.state.now + 1)
  have hnone : (t.state.poll (t.state.now + 1)).peers.len = 0 := by omega
  generalize hs : t.state.poll (t.state.now + 1) = s at hlen hcfg' hnone
  have habsent : ServerPeerId.webRtc 7 ∉ s.peers := by
    intro hin
    have := HashMap.len_remove hin
    omega
  have hget : s.peers.get (.webRtc 7) = none := AList.lookup_eq_none.2 habsent
  have hcfgs : s.config = fleeting := hcfg'.trans hcfg
  -- conditioning is on and the table is empty, so the packet enters its peer
  have hdefer : t.state.deferAt byLatency 1 .incoming (.webRtc 7) [] 0 (t.state.now + 1) =
      s.deferTo byLatency 1 .incoming (.webRtc 7) [] 0 (s.newPeer 1 (.webRtc 7)) := by
    unfold deferAt
    dsimp only
    rw [hs, hcfgs, if_neg (by intro h; cases h.1), hget, hnone]
    rfl
  obtain ⟨q, hseen, hstate⟩ : ∃ q : Peer Bytes, q.lastSeen = s.now ∧
      (t.state.deferAt byLatency 1 .incoming (.webRtc 7) [] 0 (t.state.now + 1)).1 =
        { s with peers := s.peers.sortedInsert before (.webRtc 7) q } := by
    have hown : ¬ (s.newPeer 1 (.webRtc 7)).owner ≠ 1 := not_not.2 rfl
    rw [hdefer, deferTo, if_neg hown]
    exact ⟨_, rfl, rfl⟩
  have hstep : t.step byLatency (fun _ bytes => bytes)
      (.deferAt 1 .incoming (.webRtc 7) [] (t.state.now + 1)) = some (t.logged _ _) := rfl
  refine ⟨_, ht.run (.cons hstep (.nil _)), ?_, ?_, ?_, q, ?_, ?_⟩
  · refine (congrArg (fun s => s.peers.len) hstate).trans ?_
    dsimp only
    rw [HashMap.len_sortedInsert, HashMap.len_insert, if_neg habsent, hnone]
  · exact (congrArg ServerConditioner.config hstate).trans hcfgs
  · rw [removals_logged]
    show t.removals + (t.state.expiring (t.state.now + 1)).length = t.removals
    omega
  · refine (congrArg (fun s => s.peers.get (.webRtc 7)) hstate).trans ?_
    dsimp only
    rw [HashMap.get_sortedInsert, if_pos rfl]
  · exact hseen.trans (congrArg ServerConditioner.now hstate).symm

/-- A nanosecond later it is gone. -/
theorem go {t : Trace Bytes} (ht : (runs byLatency fun _ bytes => bytes).Reachable t)
    (hone : t.state.peers.len = 1) (hcfg : t.state.config = fleeting) {p : Peer Bytes}
    (hp : t.state.peers.get (.webRtc 7) = some p) (hseen : p.lastSeen = t.state.now) :
    ∃ t', (runs byLatency fun _ bytes => bytes).Reachable t' ∧ t'.state.peers.len = 0 ∧
      t'.state.config = fleeting ∧ t'.removals = t.removals + 1 := by
  obtain ⟨hidle, hcount⟩ := (idle_inductive byLatency fun _ bytes => bytes).reachable t ht
  obtain ⟨hlen, -⟩ := poll_counts hcount (t.state.now + 1)
  have hmark : t.state.nextCleanup ≤ t.state.now + 1 := by
    have := hidle.mark
    rw [hcfg] at this
    exact this
  have hin : ServerPeerId.webRtc 7 ∈ t.state.expiring (t.state.now + 1) := by
    refine mem_expiring.2 ⟨by omega, p, hp, ?_⟩
    rw [hcfg]
    show 1 ≤ max (t.state.now + 1) t.state.now - p.lastSeen
    omega
  have hpos := List.length_pos_of_mem hin
  have hstep : t.step byLatency (fun _ bytes => bytes) (.drainAt 1 .incoming (t.state.now + 1)) =
      some (t.logged _ _) := rfl
  refine ⟨_, ht.run (.cons hstep (.nil _)), ?_, (poll_frame _ _).1.trans hcfg, ?_⟩
  · have hsame : ((t.state.drainAt 1 .incoming (t.state.now + 1)).1).peers.len =
        (t.state.poll (t.state.now + 1)).peers.len := HashMap.len_mapVal _ _
    exact hsame.trans (by omega)
  · rw [removals_logged]
    show t.removals + (t.state.expiring (t.state.now + 1)).length = t.removals + 1
    omega

theorem peers_come_and_go (n : Nat) :
    ∃ t, (runs byLatency fun _ bytes => bytes).Reachable t ∧ t.state.peers.len = 0 ∧
      t.state.config = fleeting ∧ t.removals = n := by
  induction n with
  | zero => exact ⟨⟨new fleeting, []⟩, ⟨_, [], ⟨fleeting, rfl⟩, .nil _⟩, rfl, rfl, rfl⟩
  | succ n ih =>
    obtain ⟨t, ht, hempty, hcfg, hn⟩ := ih
    obtain ⟨t', ht', hone, hcfg', hn', p, hp, hseen⟩ := come ht hempty hcfg
    obtain ⟨t'', ht'', hempty'', hcfg'', hn''⟩ := go ht' hone hcfg' hp hseen
    exact ⟨t'', ht'', hempty'', hcfg'', by rw [hn'', hn', hn]⟩

/-- After `2^64` removals the counter is one short. -/
theorem expiredPeers_falls_short :
    ∃ u, (runs byLatency fun _ bytes => bytes).Reachable u ∧ u.state.expiredPeers < u.removals := by
  obtain ⟨u, hu, -, -, hn⟩ := peers_come_and_go (U64_MAX + 1)
  refine ⟨u, hu, ?_⟩
  have hcount := ((idle_inductive byLatency fun _ bytes => bytes).reachable u hu).2
  rw [hn] at hcount ⊢
  rw [hcount]
  exact Nat.lt_succ_of_le (Nat.min_le_right _ _)

end Trace
end RenetCross.L2
