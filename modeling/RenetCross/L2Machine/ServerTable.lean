import RenetCross.L2Machine.ServerWrap

/-!
# The peer table of the server's conditioner

Anybody can make the table grow, so it is bounded: a new peer is only entered
below `max_peers`, and `configure` evicts the least recently active peers down to
a smaller limit. The eviction takes the minimum of `last_seen` again and again
from a map that shrinks; among peers last seen at the same time the one with the
smaller id goes first, since a `BTreeMap` iterates in the order of its keys.

* `evict_spec`: what the loop keeps, by induction on its turns.
* `peer_table`: the bound over whole runs, and what `configure` does to a table.
-/
namespace RenetCross

/-! ## The order of the ids -/

/-- The derived order, one octet after the other. -/
theorem Ipv4Addr.compare_eq : (compare : Ipv4Addr → Ipv4Addr → Ordering) =
    compareLex (compareOn Ipv4Addr.a) (compareLex (compareOn Ipv4Addr.b)
      (compareLex (compareOn Ipv4Addr.c) (compareOn Ipv4Addr.d))) := by
  funext x y
  simp only [compare, instOrdIpv4Addr.ord, compareLex, compareOn, Ordering.then_eq]

instance : Std.TransOrd Ipv4Addr := by
  unfold Std.TransOrd
  rw [Ipv4Addr.compare_eq]
  infer_instance

theorem Ipv6Addr.compare_eq : (compare : Ipv6Addr → Ipv6Addr → Ordering) =
    compareLex (compareOn Ipv6Addr.s0) (compareLex (compareOn Ipv6Addr.s1)
      (compareLex (compareOn Ipv6Addr.s2) (compareLex (compareOn Ipv6Addr.s3)
        (compareLex (compareOn Ipv6Addr.s4) (compareLex (compareOn Ipv6Addr.s5)
          (compareLex (compareOn Ipv6Addr.s6) (compareOn Ipv6Addr.s7))))))) := by
  funext x y
  simp only [compare, instOrdIpv6Addr.ord, compareLex, compareOn, Ordering.then_eq]

instance : Std.TransOrd Ipv6Addr := by
  unfold Std.TransOrd
  rw [Ipv6Addr.compare_eq]
  infer_instance

namespace SocketAddr

/-- An address as a tuple, the parts of the other family at their defaults. -/
def family : SocketAddr → Nat
  | .v4 _ _ => 0
  | .v6 _ _ _ _ => 1

def ip4 : SocketAddr → Ipv4Addr
  | .v4 ip _ => ip
  | .v6 _ _ _ _ => default

def ip6 : SocketAddr → Ipv6Addr
  | .v4 _ _ => default
  | .v6 ip _ _ _ => ip

def flowinfo : SocketAddr → UInt32
  | .v4 _ _ => 0
  | .v6 _ _ flowinfo _ => flowinfo

def scopeId : SocketAddr → UInt32
  | .v4 _ _ => 0
  | .v6 _ _ _ scopeId => scopeId

/-- The derived order compares the tuples. -/
theorem compare_eq : (compare : SocketAddr → SocketAddr → Ordering) =
    compareLex (compareOn family) (compareLex (compareOn ip4) (compareLex (compareOn ip6)
      (compareLex (compareOn port) (compareLex (compareOn flowinfo) (compareOn scopeId))))) := by
  funext x y
  change instOrdSocketAddr.ord x y = _
  cases x <;> cases y <;>
    simp [instOrdSocketAddr.ord, compareLex, compareOn, family, ip4, ip6, port, flowinfo, scopeId,
      Std.ReflCmp.compare_self]
  · rfl
  · rfl

instance : Std.TransOrd SocketAddr := by
  unfold Std.TransOrd
  rw [compare_eq]
  infer_instance

end SocketAddr

namespace L2

namespace ServerPeerId

def transport : ServerPeerId → Nat
  | .udp _ => 0
  | .webRtc _ => 1

def addr : ServerPeerId → SocketAddr
  | .udp addr => addr
  | .webRtc _ => default

def client : ServerPeerId → ClientId
  | .udp _ => 0
  | .webRtc clientId => clientId

theorem compare_eq : (compare : ServerPeerId → ServerPeerId → Ordering) =
    compareLex (compareOn transport) (compareLex (compareOn addr) (compareOn client)) := by
  funext x y
  change instOrdServerPeerId.ord x y = _
  cases x <;> cases y <;>
    simp [instOrdServerPeerId.ord, compareLex, compareOn, transport, addr, client,
      Std.ReflCmp.compare_self]
  · rfl
  · rfl

instance : Std.TransOrd ServerPeerId := by
  unfold Std.TransOrd
  rw [compare_eq]
  infer_instance

end ServerPeerId

namespace ServerConditioner

variable {T : Type}

theorem before_refl (a : ServerPeerId) : before a a := by
  have hself : compare a a = .eq := Std.ReflCmp.compare_self
  unfold before
  rw [hself]
  decide

instance : IsTrans ServerPeerId before := ⟨fun _ _ _ => Std.TransCmp.le_trans⟩

instance : Std.Total before := by
  refine ⟨fun a b => ?_⟩
  have hswap : compare b a = (compare a b).swap := Std.OrientedCmp.eq_swap
  unfold before
  rw [hswap]
  cases compare a b <;> decide

/-- The entries are in the order of their keys, as in every `BTreeMap`. -/
def Ordered (s : ServerConditioner T) : Prop := s.peers.keys.Pairwise before

/-! ## The least recently active peer -/

/-- `x` goes before `y`: seen less recently, or at the same time and with the
smaller id. -/
def Older (x y : ServerPeerId × Peer T) : Prop :=
  x.2.lastSeen < y.2.lastSeen ∨ x.2.lastSeen = y.2.lastSeen ∧ before x.1 y.1

theorem Older.trans {x y z : ServerPeerId × Peer T} (h : Older x y) (h' : Older y z) : Older x z := by
  rcases h with h | ⟨h, hb⟩ <;> rcases h' with h' | ⟨h', hb'⟩
  · exact .inl (by omega)
  · exact .inl (by omega)
  · exact .inl (by omega)
  · exact .inr ⟨h.trans h', IsTrans.trans _ _ _ hb hb'⟩

/-- The accumulator of `min_by_key` is the oldest entry so far. -/
theorem foldl_older :
    ∀ (rest : List (ServerPeerId × Peer T)) (x : ServerPeerId × Peer T),
      (x :: rest).Pairwise (fun a b => before a.1 b.1) →
      let best := rest.foldl (fun best y => if y.2.lastSeen < best.2.lastSeen then y else best) x
      best ∈ x :: rest ∧ ∀ y ∈ x :: rest, Older best y := by
  intro rest
  induction rest with
  | nil =>
    intro x _
    refine ⟨List.mem_cons_self .., fun y hy => ?_⟩
    rw [List.mem_singleton.1 hy]
    exact .inr ⟨rfl, before_refl x.1⟩
  | cons z rest ih =>
    intro x hsorted
    obtain ⟨hx, hrest⟩ := List.pairwise_cons.1 hsorted
    by_cases hlt : z.2.lastSeen < x.2.lastSeen
    · obtain ⟨hmem, hold⟩ := ih z hrest
      simp only [List.foldl_cons, if_pos hlt]
      refine ⟨List.mem_cons_of_mem _ hmem, fun y hy => ?_⟩
      rcases List.mem_cons.1 hy with rfl | hy
      · exact (hold z (List.mem_cons_self ..)).trans (.inl hlt)
      · exact hold y hy
    · have hskip : (x :: rest).Pairwise fun a b => before a.1 b.1 :=
        List.pairwise_cons.2 ⟨fun y hy => hx y (List.mem_cons_of_mem _ hy),
          (List.pairwise_cons.1 hrest).2⟩
      obtain ⟨hmem, hold⟩ := ih x hskip
      have hxz : Older x z := by
        rcases Nat.lt_or_eq_of_le (Nat.le_of_not_lt hlt) with h | h
        · exact .inl h
        · exact .inr ⟨h, hx z (List.mem_cons_self ..)⟩
      simp only [List.foldl_cons, if_neg hlt]
      refine ⟨?_, fun y hy => ?_⟩
      · rcases List.mem_cons.1 hmem with h | h
        · rw [h]; exact List.mem_cons_self ..
        · exact List.mem_cons_of_mem _ (List.mem_cons_of_mem _ h)
      · rcases List.mem_cons.1 hy with rfl | hy
        · exact hold y (List.mem_cons_self ..)
        · rcases List.mem_cons.1 hy with rfl | hy
          · exact (hold x (List.mem_cons_self ..)).trans hxz
          · exact hold y (List.mem_cons_of_mem _ hy)

theorem iter_pairwise_before {s : ServerConditioner T} (h : s.Ordered) :
    s.peers.iter.Pairwise fun a b => before a.1 b.1 :=
  List.pairwise_map.2 (List.pairwise_map.1 h)

theorem oldest_spec {s : ServerConditioner T} (h : s.Ordered) (hne : 0 < s.peers.len) :
    ∃ id p, s.oldest = some id ∧ s.peers.get id = some p ∧
      ∀ id' q, s.peers.get id' = some q → Older (id, p) (id', q) := by
  have hsorted := iter_pairwise_before h
  unfold oldest
  cases hiter : s.peers.iter with
  | nil =>
    have hlen : s.peers.iter.length = s.peers.len := List.length_map _
    rw [hiter] at hlen
    simp only [List.length_nil] at hlen
    omega
  | cons x rest =>
    rw [hiter] at hsorted
    obtain ⟨hmem, hold⟩ := foldl_older rest x hsorted
    simp only at hmem hold ⊢
    generalize rest.foldl (fun best y => if y.2.lastSeen < best.2.lastSeen then y else best) x = best
      at hmem hold ⊢
    refine ⟨best.1, best.2, rfl, ?_, fun id' q hq => ?_⟩
    · rw [HashMap.get_eq_some, hiter]
      exact hmem
    · rw [HashMap.get_eq_some, hiter] at hq
      exact hold (id', q) hq

/-! ## The eviction loop -/

/-- A peer that is there is taken out. -/
theorem len_retire {s : ServerConditioner T} {id : ServerPeerId} {p : Peer T}
    (h : s.peers.get id = some p) : (s.retire id).peers.len + 1 = s.peers.len := by
  unfold retire
  rw [h]
  exact HashMap.len_remove (HashMap.mem_iff_get.2 ⟨p, h⟩)

theorem keys_retire (s : ServerConditioner T) (id : ServerPeerId) :
    (s.retire id).peers.keys.Sublist s.peers.keys := by
  unfold retire
  split
  · exact List.Sublist.refl _
  · exact HashMap.keys_remove_sublist _ id

/-- The loop, with at least as many turns as there are peers too many: it ends
with `max_peers` of them, or with all if there were fewer, and whoever went was
older than whoever stayed. -/
theorem evict_spec :
    ∀ (n : Nat) (s : ServerConditioner T), s.Ordered → s.peers.len ≤ n + s.config.1.maxPeers →
      (s.evict n).peers.len = min s.peers.len s.config.1.maxPeers ∧
        ∀ id p id' q, (s.evict n).peers.get id = some p → s.peers.get id' = some q →
          (s.evict n).peers.get id' = none → Older (id', q) (id, p) := by
  intro n
  induction n with
  | zero =>
    intro s _ hn
    rw [Nat.zero_add] at hn
    refine ⟨(Nat.min_eq_left hn).symm, fun id p id' q _ hq hnone => ?_⟩
    rw [show (s.evict 0).peers.get id' = s.peers.get id' from rfl, hq] at hnone
    cases hnone
  | succ n ih =>
    intro s hord hn
    by_cases hmany : s.peers.len > s.config.1.maxPeers
    · obtain ⟨i, pi, hold, hget, holder⟩ := oldest_spec hord (by omega)
      have hstep : s.evict (n + 1) = (s.retire i).evict n := by
        simp only [evict, if_pos hmany, hold]
      have hlen := len_retire hget
      have hcfg := (retire_frame s i).1
      obtain ⟨hcount, horder⟩ := ih (s.retire i) (List.Pairwise.sublist (keys_retire s i) hord)
        (by rw [hcfg]; omega)
      rw [hstep]
      refine ⟨by rw [hcount, hcfg]; omega, fun id p id' q hp hq hnone => ?_⟩
      by_cases hi : id' = i
      · -- the peer of this turn, oldest of all
        subst hi
        have hin := get_evict hp
        rw [get_retire] at hin
        split at hin
        · cases hin
        · rw [hget] at hq
          cases hq
          exact holder id p hin
      · refine horder id p id' q hp ?_ hnone
        rw [get_retire, if_neg hi]
        exact hq
    · have hstop : s.evict (n + 1) = s := by simp only [evict, if_neg hmany]
      rw [hstop]
      refine ⟨(Nat.min_eq_left (by omega)).symm, fun id p id' q _ hq hnone => ?_⟩
      rw [hq] at hnone
      cases hnone

/-- The table between the two loops of `configure`: new settings, nobody evicted. -/
def renewed (s : ServerConditioner T) (config : ValidServerConfig) : ServerConditioner T :=
  { s with
    peers := s.peers.mapVal fun id p =>
      { p with engine.handle := p.engine.handle.reconfigure (peerConfig config.packets id) }
    config := config
    outageUntil := none
    nextCleanup := 0 }

theorem reconfigure_eq (s : ServerConditioner T) (config : ValidServerConfig) :
    s.reconfigure config = (s.renewed config).evict s.peers.len := by
  have hlen : (s.renewed config).peers.len = s.peers.len := HashMap.len_mapVal _ _
  rw [← hlen]
  rfl

theorem ordered_renewed {s : ServerConditioner T} (h : s.Ordered) (config : ValidServerConfig) :
    (s.renewed config).Ordered := by
  unfold Ordered renewed
  rw [HashMap.keys_mapVal]
  exact h

theorem get_renewed (s : ServerConditioner T) (config : ValidServerConfig) (id : ServerPeerId) :
    (s.renewed config).peers.get id = (s.peers.get id).map fun p =>
      { p with engine.handle := p.engine.handle.reconfigure (peerConfig config.packets id) } :=
  HashMap.get_mapVal _ _ id

/-- How many peers `configure` keeps, which, and with which settings. -/
theorem reconfigure_spec {s : ServerConditioner T} (h : s.Ordered) (config : ValidServerConfig) :
    (s.reconfigure config).peers.len = min s.peers.len config.1.maxPeers ∧
      (∀ id p, (s.reconfigure config).peers.get id = some p → ∃ q, s.peers.get id = some q ∧
        p.owner = q.owner ∧ p.lastSeen = q.lastSeen ∧
        p.engine.handle.config = peerConfig config.packets id) ∧
      ∀ id p id' q, (s.reconfigure config).peers.get id = some p → s.peers.get id' = some q →
        (s.reconfigure config).peers.get id' = none → Older (id', q) (id, p) := by
  have hlen : (s.renewed config).peers.len = s.peers.len := HashMap.len_mapVal _ _
  obtain ⟨hcount, horder⟩ := evict_spec s.peers.len (s.renewed config) (ordered_renewed h config)
    (by rw [hlen]; omega)
  rw [reconfigure_eq]
  refine ⟨by rw [hcount, hlen]; rfl, fun id p hp => ?_, fun id p id' q hp hq hnone => ?_⟩
  · have hkept := get_evict hp
    rw [get_renewed, Option.map_eq_some_iff] at hkept
    obtain ⟨q, hq, rfl⟩ := hkept
    exact ⟨q, hq, rfl, rfl, rfl⟩
  · have hout : (s.renewed config).peers.get id' = some
        { q with engine.handle := q.engine.handle.reconfigure (peerConfig config.packets id') } := by
      rw [get_renewed, hq]
      rfl
    have hold := horder id p id' _ hp hout hnone
    exact hold

end ServerConditioner

/-! ## Drop counters -/

/-- The cumulative counters of one direction. -/
inductive Drop where
  | loss
  | outage
  | overflow
  | transition
  deriving DecidableEq, Repr

def DirectionStats.dropped (s : DirectionStats) : Drop → Nat
  | .loss => s.simulatedLossDrops
  | .outage => s.outageDrops
  | .overflow => s.overflowDrops
  | .transition => s.transitionDrops

def ConditionerStats.dropped (s : ConditionerStats) (d : ConditionerDirection) (k : Drop) : Nat :=
  (s.direction d).dropped k

namespace ServerConditioner

variable {T : Type}

theorem addStats_dropped (a b : ConditionerStats) (d : ConditionerDirection) (k : Drop) :
    (addStats a b).dropped d k = satAdd U64_MAX (a.dropped d k) (b.dropped d k) := by
  cases d <;> cases k <;> rfl

/-- One counter over the retired peers and those in the table, not saturated. -/
def dropSum (s : ServerConditioner T) (d : ConditionerDirection) (k : Drop) : Nat :=
  s.retired.dropped d k + s.peers.sumBy fun _ p => p.engine.handle.stats.dropped d k

theorem foldl_addStats (d : ConditionerDirection) (k : Drop) :
    ∀ (l : List (ServerPeerId × Peer T)) (acc : ConditionerStats), acc.dropped d k ≤ U64_MAX →
      (l.foldl (fun acc x => addStats acc x.2.engine.handle.stats) acc).dropped d k =
        min (acc.dropped d k + (l.map fun x => x.2.engine.handle.stats.dropped d k).sum) U64_MAX
  | [], acc, h => by
    simp only [List.foldl_nil, List.map_nil, List.sum_nil, Nat.add_zero]
    omega
  | x :: l, acc, _ => by
    have hone := addStats_dropped acc x.2.engine.handle.stats d k
    unfold satAdd at hone
    rw [List.foldl_cons, foldl_addStats d k l _ (by omega), hone, List.map_cons, List.sum_cons]
    omega

/-- What `stats` reports of a counter, unless the table is empty: then it is what
the retired peers have left. -/
theorem stats_dropped {s : ServerConditioner T} (h : 0 < s.peers.len) (d : ConditionerDirection)
    (k : Drop) : s.stats.packets.dropped d k = min (s.dropSum d k) U64_MAX := by
  have hstats : s.stats.packets.dropped d k =
      (s.peers.iter.foldl (fun acc x => addStats acc x.2.engine.handle.stats) s.retired).dropped d k := by
    cases d <;> rfl
  rw [hstats]
  unfold dropSum HashMap.sumBy
  cases hiter : s.peers.iter with
  | nil =>
    have hlen : s.peers.iter.length = s.peers.len := List.length_map _
    rw [hiter, List.length_nil] at hlen
    omega
  | cons x rest =>
    have hone := addStats_dropped s.retired x.2.engine.handle.stats d k
    unfold satAdd at hone
    rw [List.foldl_cons, foldl_addStats d k rest _ (by omega), hone, List.map_cons, List.sum_cons]
    dsimp only
    omega

/-- Nothing is counted as queued for any peer. -/
def NoneQueued (s : ServerConditioner T) : Prop :=
  ∀ id p, s.peers.get id = some p → ∀ d, (p.engine.handle.stats.direction d).queuedPackets = 0

/-- A peer that is retired takes its counters along. -/
theorem dropSum_retire {s : ServerConditioner T} (h : s.NoneQueued) (id : ServerPeerId)
    (d : ConditionerDirection) (k : Drop) :
    min ((s.retire id).dropSum d k) U64_MAX = min (s.dropSum d k) U64_MAX := by
  unfold retire
  cases hp : s.peers.get id with
  | none => rfl
  | some p =>
    have hflush : (flushed p).engine.handle.stats.dropped d k =
          p.engine.handle.stats.dropped d k ∨
        (flushed p).engine.handle.stats.dropped d k =
          min (p.engine.handle.stats.dropped d k) U64_MAX := by
      have hq := h id p hp d
      cases k with
      | loss => left; cases d <;> rfl
      | outage => left; cases d <;> rfl
      | overflow => left; cases d <;> rfl
      | transition =>
        right
        have hsat : (flushed p).engine.handle.stats.dropped d .transition =
            satAdd U64_MAX (p.engine.handle.stats.dropped d .transition)
              (p.engine.handle.stats.direction d).queuedPackets := by cases d <;> rfl
        rw [hsat, hq]
        rfl
    have hret := addStats_dropped s.retired (flushed p).engine.handle.stats d k
    have hsum := HashMap.sumBy_remove hp fun _ q => q.engine.handle.stats.dropped d k
    simp only [dropSum]
    rw [hret, hsum]
    unfold satAdd
    omega

theorem NoneQueued.retire {s : ServerConditioner T} (h : s.NoneQueued) (id : ServerPeerId) :
    (s.retire id).NoneQueued := by
  intro id' p hp
  rw [get_retire] at hp
  split at hp
  · cases hp
  · exact h id' p hp

theorem dropSum_evict (d : ConditionerDirection) (k : Drop) :
    ∀ (n : Nat) (s : ServerConditioner T), s.NoneQueued →
      min ((s.evict n).dropSum d k) U64_MAX = min (s.dropSum d k) U64_MAX
  | 0, _, _ => rfl
  | n + 1, s, h => by
    unfold evict
    split
    · split
      · rename_i id _
        rw [dropSum_evict d k n _ (h.retire id), dropSum_retire h]
      · rfl
    · rfl

theorem noneQueued_renewed (s : ServerConditioner T) (config : ValidServerConfig) :
    (s.renewed config).NoneQueued := by
  intro id p hp d
  rw [get_renewed, Option.map_eq_some_iff] at hp
  obtain ⟨q, -, rfl⟩ := hp
  cases d <;> rfl

theorem min_sum_le {α : Type} {f g : α → Nat} {top : Nat} (h : ∀ x, min (f x) top ≤ g x) :
    ∀ l : List α, min (l.map f).sum top ≤ (l.map g).sum
  | [] => by simp
  | x :: l => by
    have hx := h x
    have hl := min_sum_le h l
    simp only [List.map_cons, List.sum_cons]
    omega

/-- The first loop of `configure` moves what is queued to the transition drops. -/
theorem dropSum_renewed (s : ServerConditioner T) (config : ValidServerConfig)
    (d : ConditionerDirection) (k : Drop) :
    (k ≠ .transition → (s.renewed config).dropSum d k = s.dropSum d k) ∧
      min (s.dropSum d k) U64_MAX ≤ min ((s.renewed config).dropSum d k) U64_MAX := by
  have hkeep : k ≠ .transition → (s.renewed config).dropSum d k = s.dropSum d k := by
    intro hk
    simp only [dropSum, renewed, HashMap.sumBy_mapVal]
    congr 1
    refine HashMap.sumBy_congr fun id p _ => ?_
    cases k <;> first | exact absurd rfl hk | (cases d <;> rfl)
  refine ⟨hkeep, ?_⟩
  by_cases hk : k = .transition
  · subst hk
    simp only [dropSum, renewed, HashMap.sumBy_mapVal]
    have hle : min (s.peers.sumBy fun _ p => p.engine.handle.stats.dropped d .transition) U64_MAX ≤
        s.peers.sumBy fun id p => (p.engine.handle.reconfigure
          (peerConfig config.packets id)).stats.dropped d .transition := by
      refine min_sum_le (fun x => ?_) _
      have hsat : (x.2.engine.handle.reconfigure (peerConfig config.packets x.1)).stats.dropped d
          .transition = satAdd U64_MAX (x.2.engine.handle.stats.dropped d .transition)
            (x.2.engine.handle.stats.direction d).queuedPackets := by cases d <;> rfl
      dsimp only
      rw [hsat]
      unfold satAdd
      omega
    omega
  · rw [hkeep hk]

theorem maxPeers_pos (config : ValidServerConfig) : 0 < config.1.maxPeers := by
  have h := config.2
  unfold ServerConditionerConfig.validate at h
  split at h
  · cases h
  · rename_i hn
    exact Nat.pos_of_ne_zero fun hzero => hn (.inr (.inl hzero))

/-- `stats` forgets nobody: the counters of evicted peers stay in it, and only
the packets `configure` itself drops are added. -/
theorem stats_reconfigure {s : ServerConditioner T} (h : s.Ordered) (config : ValidServerConfig)
    (d : ConditionerDirection) (k : Drop) :
    (k ≠ .transition → (s.reconfigure config).stats.packets.dropped d k = s.stats.packets.dropped d k) ∧
      s.stats.packets.dropped d k ≤ (s.reconfigure config).stats.packets.dropped d k := by
  rcases Nat.eq_zero_or_pos s.peers.len with hzero | hpos
  · have hsame : (s.reconfigure config).stats.packets.dropped d k = s.stats.packets.dropped d k := by
      rw [reconfigure_eq, hzero]
      have hnil : s.peers.iter = [] := by
        have hlen : s.peers.iter.length = s.peers.len := List.length_map _
        exact List.length_eq_zero_iff.1 (hlen.trans hzero)
      have hnil' : ((s.renewed config).evict 0).peers.iter = [] := by
        refine (HashMap.iter_mapVal _ _).trans ?_
        rw [hnil]
        rfl
      have hstats : ∀ t : ServerConditioner T, t.peers.iter = [] →
          t.stats.packets.dropped d k = t.retired.dropped d k := by
        intro t ht
        have hfold : t.stats.packets.dropped d k = (t.peers.iter.foldl
            (fun acc x => addStats acc x.2.engine.handle.stats) t.retired).dropped d k := by
          cases d <;> rfl
        rw [hfold, ht]
        rfl
      rw [hstats _ hnil', hstats s hnil]
      rfl
    exact ⟨fun _ => hsame, Nat.le_of_eq hsame.symm⟩
  · have hleft : 0 < (s.reconfigure config).peers.len := by
      rw [(reconfigure_spec h config).1]
      have := maxPeers_pos config
      omega
    obtain ⟨hkeep, hle⟩ := dropSum_renewed s config d k
    have hevict := dropSum_evict d k s.peers.len (s.renewed config) (noneQueued_renewed s config)
    rw [← reconfigure_eq] at hevict
    rw [stats_dropped hleft, stats_dropped hpos, hevict]
    exact ⟨fun hk => by rw [hkeep hk], hle⟩

/-! ## Whole runs -/

/-- The table is in order and within its limit. -/
structure TableInv (s : ServerConditioner T) : Prop where
  ordered : s.Ordered
  bound : s.peers.len ≤ s.config.1.maxPeers

/-- Peers were only taken out. -/
structure Shrinks (s s' : ServerConditioner T) : Prop where
  config : s'.config = s.config
  keys : s'.peers.keys.Sublist s.peers.keys

theorem Shrinks.refl (s : ServerConditioner T) : Shrinks s s := ⟨rfl, List.Sublist.refl _⟩

theorem Shrinks.trans {s s' s'' : ServerConditioner T} (h : Shrinks s s') (h' : Shrinks s' s'') :
    Shrinks s s'' := ⟨h'.config.trans h.config, h'.keys.trans h.keys⟩

theorem Shrinks.foldl {f : ServerConditioner T → ServerPeerId → ServerConditioner T}
    (hf : ∀ s id, Shrinks s (f s id)) :
    ∀ (ids : List ServerPeerId) (s : ServerConditioner T), Shrinks s (ids.foldl f s)
  | [], s => .refl s
  | id :: ids, s => (hf s id).trans (Shrinks.foldl hf ids (f s id))

theorem Shrinks.inv {s s' : ServerConditioner T} (h : Shrinks s s') (hi : s.TableInv) :
    s'.TableInv where
  ordered := List.Pairwise.sublist h.keys hi.ordered
  bound := by
    have hlen := h.keys.length_le
    rw [← HashMap.len_eq, ← HashMap.len_eq] at hlen
    rw [h.config]
    exact Nat.le_trans hlen hi.bound

theorem shrinks_retire (s : ServerConditioner T) (id : ServerPeerId) : Shrinks s (s.retire id) :=
  ⟨(retire_frame s id).1, keys_retire s id⟩

theorem shrinks_poll (s : ServerConditioner T) (now : Nat) : Shrinks s (s.poll now) := by
  have hclamp : Shrinks s (s.clamp now) := ⟨rfl, List.Sublist.refl _⟩
  have hexpire : ∀ (t : ServerConditioner T) id, Shrinks t (t.expirePeer id) :=
    fun t id => ⟨(shrinks_retire t id).config, (shrinks_retire t id).keys⟩
  refine hclamp.trans ?_
  unfold poll cleanup
  split
  · obtain ⟨hcfg, hkeys⟩ := Shrinks.foldl hexpire
      ((s.clamp now).idsWhere fun p => (s.clamp now).now - p.lastSeen ≥ (s.clamp now).config.1.idleTimeout)
      (s.clamp now)
    exact ⟨hcfg, hkeys⟩
  · exact .refl _

/-- The entries may change as long as their keys do not. -/
theorem TableInv.sameKeys {s s' : ServerConditioner T} (h : s.TableInv) (hcfg : s'.config = s.config)
    (hkeys : s'.peers.keys = s.peers.keys) : s'.TableInv :=
  Shrinks.inv ⟨hcfg, by rw [hkeys]⟩ h

theorem TableInv.deferTo {s : ServerConditioner T} (h : s.TableInv) (delay : Nat → Nat → Nat → Nat)
    (owner : Nat) (d : ConditionerDirection) (id : ServerPeerId) (payload : T) (byteLen : Nat)
    (p : Peer T) (hroom : id ∈ s.peers ∨ s.peers.len < s.config.1.maxPeers) :
    (s.deferTo delay owner d id payload byteLen p).1.TableInv := by
  unfold ServerConditioner.deferTo
  split
  · exact h.sameKeys rfl rfl
  · refine ⟨HashMap.keys_sortedInsert h.ordered _ _, ?_⟩
    have hbound := h.bound
    dsimp only
    rw [HashMap.len_sortedInsert, HashMap.len_insert]
    rcases hroom with hmem | hlt
    · rw [if_pos hmem]
      exact hbound
    · split <;> omega

theorem TableInv.deferAt {s : ServerConditioner T} (h : s.TableInv) (delay : Nat → Nat → Nat → Nat)
    (owner : Nat) (d : ConditionerDirection) (id : ServerPeerId) (payload : T) (byteLen now : Nat) :
    (s.deferAt delay owner d id payload byteLen now).1.TableInv := by
  have hp := (shrinks_poll s now).inv h
  unfold ServerConditioner.deferAt
  dsimp only
  split
  · exact hp
  · split
    · rename_i p hget
      exact hp.deferTo delay owner d id payload byteLen p (.inl (HashMap.mem_iff_get.2 ⟨p, hget⟩))
    · split
      · exact hp.sameKeys rfl rfl
      · rename_i hroom
        exact hp.deferTo delay owner d id payload byteLen _ (.inr (Nat.lt_of_not_le hroom))

theorem TableInv.reconfigure {s : ServerConditioner T} (h : s.TableInv) (config : ValidServerConfig) :
    (s.reconfigure config).TableInv := by
  have hcfg : (s.reconfigure config).config = config := by
    rw [reconfigure_eq]
    exact (frame_evict s.peers.len (s.renewed config)).1
  refine ⟨?_, ?_⟩
  · have hkeys : ∀ (n : Nat) (t : ServerConditioner T), (t.evict n).peers.keys.Sublist t.peers.keys := by
      intro n
      induction n with
      | zero => exact fun t => List.Sublist.refl _
      | succ n ih =>
        intro t
        unfold evict
        split
        · split
          · rename_i id _
            exact (ih _).trans (keys_retire t id)
          · exact List.Sublist.refl _
        · exact List.Sublist.refl _
    rw [reconfigure_eq]
    exact List.Pairwise.sublist (hkeys _ _) (ordered_renewed h.ordered config)
  · rw [(reconfigure_spec h.ordered config).1, hcfg]
    omega

theorem TableInv.apply {s : ServerConditioner T} (h : s.TableInv) {delay : Nat → Nat → Nat → Nat}
    {make : Bytes → T} {op : Op} {r : ServerConditioner T × Bool × List (ServerPeerId × T)}
    (hr : s.apply delay make op = some r) : r.1.TableInv := by
  cases op with
  | deferAt owner d id bytes now => cases hr; exact h.deferAt delay owner d id _ _ now
  | drainAt owner d now =>
    cases hr
    exact ((shrinks_poll s now).inv h).sameKeys rfl (HashMap.keys_mapVal _ _)
  | configure config =>
    simp only [ServerConditioner.apply, configure] at hr
    by_cases hvalid : config.validate = .ok ()
    · rw [dif_pos hvalid] at hr
      cases hr
      exact h.reconfigure _
    · rw [dif_neg hvalid] at hr
      cases hr
      exact h
  | outageAt duration now =>
    cases hr
    exact ((shrinks_poll s now).inv h).sameKeys rfl (HashMap.keys_mapVal _ _)
  | removePeer owner id =>
    cases hr
    unfold removePeer
    split
    · exact (shrinks_retire s id).inv h
    · exact h
  | removeOwner owner => cases hr; exact (Shrinks.foldl shrinks_retire _ s).inv h
  | allocateOwner =>
    obtain ⟨a, ha, rfl⟩ := Option.map_eq_some_iff.1 hr
    simp only [allocateOwner] at ha
    split at ha
    · cases ha
      exact h.sameKeys rfl rfl
    · cases ha

end ServerConditioner

namespace Trace

open ServerConditioner

variable {T : Type}

theorem tableInv_inductive (delay : Nat → Nat → Nat → Nat) (make : Nat → Bytes → T) :
    (runs delay make).Inductive fun t => t.state.TableInv where
  init := by
    intro t h
    obtain ⟨config, rfl⟩ := h
    exact ⟨List.Pairwise.nil, Nat.zero_le _⟩
  step := by
    intro t op t' h hstep
    obtain ⟨r, hr, rfl⟩ := step_eq delay make hstep
    exact h.apply hr

/-- The table is bounded after every call. `configure` keeps as many peers as the
new limit allows, the most recently active ones (ties go by id), with the new
settings; `stats` still counts what the others had dropped; and nothing that was
queued before it is returned after it, as long as fewer than `2^64 - 1` calls have
dropped what was queued. -/
theorem peer_table (delay : Nat → Nat → Nat → Nat) :
    (∀ u, (runs delay fun _ bytes => bytes).Reachable u →
      u.state.peers.len ≤ u.state.config.1.maxPeers ∧ u.state.Ordered) ∧
    (∀ (s : ServerConditioner Bytes) (config : ValidServerConfig), s.Ordered →
      s.configure config.1 = .ok (s.reconfigure config) ∧
      (s.reconfigure config).peers.len = min s.peers.len config.1.maxPeers ∧
      (∀ id p, (s.reconfigure config).peers.get id = some p → ∃ q, s.peers.get id = some q ∧
        p.owner = q.owner ∧ p.lastSeen = q.lastSeen ∧
        p.engine.handle.config = peerConfig config.packets id) ∧
      (∀ id p id' q, (s.reconfigure config).peers.get id = some p → s.peers.get id' = some q →
        (s.reconfigure config).peers.get id' = none →
        q.lastSeen < p.lastSeen ∨ q.lastSeen = p.lastSeen ∧ before id' id) ∧
      ∀ d k,
        (k ≠ .transition →
          (s.reconfigure config).stats.packets.dropped d k = s.stats.packets.dropped d k) ∧
        s.stats.packets.dropped d k ≤ (s.reconfigure config).stats.packets.dropped d k) ∧
    ∀ u, (runs delay fun _ bytes => bytes).Reachable u → u.flushes < U64_MAX →
      ∃ m, Delivered u.log m ∧ ∀ (q i j : Nat) (c c' : Call Bytes) config, u.log[q]? = some c →
        c.op = .configure config → c.taken = true → q < i → u.log[i]? = some c' →
        j < c'.items.length → q < m i j := by
  refine ⟨fun u hu => ?_, fun s config hord => ?_, fun u hu hn => ?_⟩
  · have hinv := (tableInv_inductive delay fun _ bytes => bytes).reachable u hu
    exact ⟨hinv.bound, hinv.ordered⟩
  · obtain ⟨hlen, hkept, hold⟩ := reconfigure_spec hord config
    exact ⟨dif_pos config.2, hlen, hkept, hold, fun d k => stats_reconfigure hord config d k⟩
  · obtain ⟨m, hm, hfree⟩ := exists_delivered hu
    refine ⟨m, hm, fun q i j c c' config hc hop htaken hqi hc' hj => ?_⟩
    exact hm.after_flush (hfree hn) ((drains_inductive delay fun _ bytes => bytes).reachable u hu) hc
      (by simp only [Call.flushes, hop, htaken]) hqi hc' hj

/-- `late`, with room for one peer. -/
def solitary : ValidServerConfig :=
  ⟨{ packets := { enabled := true, latency := 5 }, maxPeers := 1 }, by decide +kernel⟩

/-- Two peers, first seen in the same nanosecond. -/
def twoPeers : Trace Bytes :=
  (firstQueued.next (.deferAt 1 .incoming (.webRtc 9) [2] 0)).next (.configure late.1)

theorem twoPeers_reachable : (runs byLatency fun _ bytes => bytes).Reachable twoPeers :=
  next_reachable (next_reachable firstQueued_reachable _) _

/-- Of the two the one with the larger id stays, under the settings in force. -/
theorem peer_table_twoPeers :
    (twoPeers.state.reconfigure solitary).peers.len = 1 ∧
      (∃ q, twoPeers.state.peers.get (.webRtc 9) = some q ∧
        ((twoPeers.state.reconfigure solitary).peers.get (.webRtc 9)).map (·.lastSeen) =
          some q.lastSeen) ∧
      ∃ m, Delivered twoPeers.log m := by
  obtain ⟨hbound, hconfigure, hrun⟩ := peer_table byLatency
  obtain ⟨-, hord⟩ := hbound twoPeers twoPeers_reachable
  obtain ⟨-, hlen, hkept, -, -⟩ := hconfigure twoPeers.state solitary hord
  obtain ⟨m, hm, -⟩ := hrun twoPeers twoPeers_reachable (by decide +kernel)
  refine ⟨hlen.trans (by decide +kernel), ?_, m, hm⟩
  have hstays : ((twoPeers.state.reconfigure solitary).peers.get (.webRtc 9)).isSome = true := by
    decide +kernel
  obtain ⟨p, hp⟩ := Option.isSome_iff_exists.1 hstays
  obtain ⟨q, hq, -, hseen, -⟩ := hkept _ p hp
  exact ⟨q, hq, by rw [hp, Option.map_some, hseen]⟩

/-- When the revision comes round, a packet that was pending at the second call, a
`configure`, is released by the last: it was not deferred again in between. -/
theorem pending_survives_configure : ∃ u, (runs byLatency fun _ bytes => bytes).Reachable u ∧
    ∃ (q i : Nat) (c c' : Call Bytes) (config : ServerConditionerConfig), u.log[q]? = some c ∧
      c.op = .configure config ∧ c.taken = true ∧ q < i ∧ u.log[i]? = some c' ∧
      c'.items = [(.webRtc 7, [1])] ∧
      ∀ (k : Nat) (c'' : Call Bytes), q < k → u.log[k]? = some c'' →
        ∀ d now, c''.op ≠ .deferAt 1 d (.webRtc 7) [1] now := by
  refine ⟨firstReturned, firstReturned_reachable, 1, (firstQueued.log ++ between).length,
    applied late.1 0, lastDrain, late.1, ?_⟩
  rw [firstReturned_log]
  refine ⟨firstReturned_second, rfl, rfl, one_lt_length, List.getElem?_concat_length,
    lastDrain_items, fun k c'' hk hc'' d now => ?_⟩
  have hlen := length_firstQueued
  rw [List.append_assoc, List.getElem?_append_right (by omega)] at hc''
  rcases List.mem_append.1 (List.mem_of_getElem? hc'') with hc | hc
  · exact op_of_mem_between hc
  · rw [List.mem_singleton.1 hc]
    intro hop
    cases hop

end Trace
end L2
end RenetCross
