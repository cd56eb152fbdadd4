import RenetCross.L2Machine.ServerDelivery

/-!
# A run in which the revision of a handle comes round

The revision of a peer's handle is a `u64`, and an engine notices a change by
comparing revisions. One packet is queued, the settings are applied `2^64 - 2`
times, an outage begins, and a second packet is offered during the outage. The
outage is announced to the engine once more by that call, so the revision is the
one the engine knows: the engine keeps its queue, takes the second packet, and
returns the first one after the outage.
-/
namespace RenetCross.L2

open ServerConditioner

namespace Trace

/-- The log entry of an accepted `configure`. -/
def applied {T : Type} (config : ServerConditionerConfig) (time : Nat) : Call T where
  op := .configure config
  time := time
  outage := false
  taken := true
  items := []
  expired := []
  evicted := []

theorem evicting_reconfigure {T : Type} {config : ValidServerConfig} {s : ServerConditioner T}
    (h : s.peers.len ≤ config.1.maxPeers) :
    s.evicting (.configure config.1) (s.reconfigure config, true, []) = [] := by
  have hpeers : (s.reconfigure config).peers = s.peers.mapVal (reconfigured config 0) :=
    congrArg ServerConditioner.peers (reconfigure_iterate config s h 0)
  simp only [evicting, if_true, hpeers, HashMap.mem_mapVal, List.filter_eq_nil_iff, decide_eq_true_eq]
  exact fun id hid hnot => hnot (AList.mem_keys.2 hid)

/-- `n + 1` times `configure` with settings under which nobody has to go. -/
theorem configure_iterate {T : Type} (delay : Nat → Nat → Nat → Nat) (make : Nat → Bytes → T)
    {config : ValidServerConfig} {t : Trace T} (h : t.state.peers.len ≤ config.1.maxPeers)
    (ht : (runs delay make).Reachable t) (n : Nat) :
    (runs delay make).Reachable
      ⟨(fun s => s.reconfigure config)^[n + 1] t.state,
        t.log ++ List.replicate (n + 1) (applied config.1 t.state.now)⟩ := by
  have hstep : ∀ t : Trace T, t.step delay make (.configure config.1) =
      some ⟨t.state.reconfigure config,
        t.log ++ [t.state.called (.configure config.1) (t.state.reconfigure config, true, [])]⟩ := by
    intro t
    simp only [step, apply, configure, dif_pos config.2]
    rfl
  have hcalled : ∀ s : ServerConditioner T, s.peers.len ≤ config.1.maxPeers →
      s.called (.configure config.1) (s.reconfigure config, true, []) = applied config.1 s.now := by
    intro s hlen
    obtain ⟨hnow, hout⟩ := reconfigure_frame s config
    simp only [called, applied, reclaimed, Op.reading, hnow, hout, Option.isSome_none,
      evicting_reconfigure hlen]
  induction n with
  | zero =>
    have := ht.run (.cons (hstep t) (.nil _))
    rw [hcalled _ h] at this
    exact this
  | succ n ih =>
    have hnext := ih.run (.cons (hstep _) (.nil _))
    have hlen : ((fun s => s.reconfigure config)^[n + 1] t.state).peers.len ≤ config.1.maxPeers := by
      rw [reconfigure_iterate config t.state h, HashMap.len_mapVal]
      exact h
    rw [hcalled _ hlen] at hnext
    have hnow : ((fun s => s.reconfigure config)^[n + 1] t.state).now = t.state.now := by
      rw [reconfigure_iterate config t.state h]
    rw [hnow, List.append_assoc, ← List.replicate_succ', ← Function.iterate_succ_apply'
      (fun s : ServerConditioner T => s.reconfigure config)] at hnext
    exact hnext

/-! ## The run -/

/-- Conditioning on, every packet delayed by five nanoseconds. -/
def late : ValidServerConfig := ⟨{ packets := { enabled := true, latency := 5 } }, by decide +kernel⟩

def byLatency : Nat → Nat → Nat → Nat := fun latency _ _ => latency

/-- The call `op`, if it does not panic. -/
def next (t : Trace Bytes) (op : Op) : Trace Bytes :=
  (t.step byLatency (fun _ bytes => bytes) op).getD t

theorem next_reachable {t : Trace Bytes} (h : (runs byLatency fun _ bytes => bytes).Reachable t)
    (op : Op) : (runs byLatency fun _ bytes => bytes).Reachable (t.next op) := by
  unfold next
  cases hs : t.step byLatency (fun _ bytes => bytes) op with
  | none => exact h
  | some t' => exact h.run (.cons hs (.nil _))

/-- The first packet, deferred at time 0. -/
def firstQueued : Trace Bytes :=
  next ⟨new late, []⟩ (.deferAt 1 .incoming (.webRtc 7) [1] 0)

theorem firstQueued_reachable : (runs byLatency fun _ bytes => bytes).Reachable firstQueued :=
  next_reachable ⟨_, [], ⟨late, rfl⟩, .nil _⟩ _

/-- The conditioner after `2^64 - 2` times `configure`. -/
def roundState : ServerConditioner Bytes :=
  { firstQueued.state with
    peers := firstQueued.state.peers.mapVal (reconfigured late (U64_MAX - 2))
    config := late
    outageUntil := none
    nextCleanup := 0 }

def round : Trace Bytes :=
  ⟨roundState, firstQueued.log ++ List.replicate (U64_MAX - 1) (applied late.1 0)⟩

theorem round_reachable : (runs byLatency fun _ bytes => bytes).Reachable round := by
  have hlen : firstQueued.state.peers.len ≤ late.1.maxPeers := by decide +kernel
  have h := configure_iterate byLatency _ hlen firstQueued_reachable (U64_MAX - 2)
  rw [reconfigure_iterate late _ hlen] at h
  have hnow : firstQueued.state.now = 0 := by decide +kernel
  have hcount : U64_MAX - 2 + 1 = U64_MAX - 1 := by decide
  rw [hnow, hcount] at h
  exact h

/-- An outage of ten nanoseconds, and the second packet in the middle of it. -/
def secondQueued : Trace Bytes :=
  (round.next (.outageAt 10 0)).next (.deferAt 1 .incoming (.webRtc 7) [2] 6)

theorem secondQueued_reachable : (runs byLatency fun _ bytes => bytes).Reachable secondQueued :=
  next_reachable (next_reachable round_reachable _) _

/-- The drain when the outage is over. -/
def firstReturned : Trace Bytes := secondQueued.next (.drainAt 1 .incoming 10)

theorem firstReturned_reachable : (runs byLatency fun _ bytes => bytes).Reachable firstReturned :=
  next_reachable secondQueued_reachable _

theorem next_log {t : Trace Bytes} {op : Op}
    {r : ServerConditioner Bytes × Bool × List (ServerPeerId × Bytes)}
    (h : t.state.apply byLatency (fun bytes => bytes) op = some r) :
    (t.next op).log = t.log ++ [t.state.called op r] := by
  simp only [next, step, h, Option.map_some, Option.getD_some]
  rfl

/-- The calls after the first, up to the last. -/
def between : List (Call Bytes) :=
  List.replicate (U64_MAX - 1) (applied late.1 0) ++
    [round.state.called (.outageAt 10 0) (round.state.outageAt 10 0, true, []),
      (round.next (.outageAt 10 0)).state.called (.deferAt 1 .incoming (.webRtc 7) [2] 6)
        (((round.next (.outageAt 10 0)).state.deferAt byLatency 1 .incoming (.webRtc 7) [2] 1 6).1,
          ((round.next (.outageAt 10 0)).state.deferAt byLatency 1 .incoming (.webRtc 7) [2] 1 6).2, [])]

/-- The last call. -/
def lastDrain : Call Bytes :=
  secondQueued.state.called (.drainAt 1 .incoming 10)
    ((secondQueued.state.drainAt 1 .incoming 10).1, true, (secondQueued.state.drainAt 1 .incoming 10).2)

/-- It returns the packet from before the outage. -/
theorem lastDrain_items : lastDrain.items = [(.webRtc 7, [1])] := by decide +kernel

theorem firstReturned_log :
    firstReturned.log = firstQueued.log ++ between ++ [lastDrain] := by
  rw [firstReturned, next_log rfl, secondQueued, next_log rfl, next_log rfl]
  simp only [round, between, List.append_assoc, List.cons_append, List.nil_append]
  rfl

theorem length_firstQueued : firstQueued.log.length = 1 := by decide +kernel

theorem getElem?_replicate_append {α : Type} {l : List α} (hl : l.length = 1) (x : α) {n : Nat}
    (hn : 0 < n) (rest : List α) : (l ++ (List.replicate n x ++ rest))[1]? = some x := by
  obtain ⟨k, rfl⟩ := Nat.exists_eq_succ_of_ne_zero (Nat.ne_of_gt hn)
  rw [List.getElem?_append_right (Nat.le_of_eq hl), hl]
  rfl

/-- The second call is a `configure`. -/
theorem firstReturned_second :
    (firstQueued.log ++ between ++ [lastDrain])[1]? = some (applied late.1 0) := by
  rw [List.append_assoc, between, List.append_assoc]
  exact getElem?_replicate_append length_firstQueued _ (by decide) _

theorem one_lt_length_append {α : Type} {l r rest : List α} (hl : l.length = 1) (hrest : rest ≠ []) :
    1 < (l ++ (r ++ rest)).length := by
  have hpos := List.length_pos_iff.2 hrest
  simp only [List.length_append]
  omega

theorem one_lt_length : 1 < (firstQueued.log ++ between).length :=
  one_lt_length_append length_firstQueued (List.cons_ne_nil _ _)

/-- The first packet is deferred nowhere else. -/
theorem op_of_mem_between {c : Call Bytes} (h : c ∈ between) {d : ConditionerDirection} {now : Nat} :
    c.op ≠ .deferAt 1 d (.webRtc 7) [1] now := by
  rcases List.mem_append.1 h with h | h
  · rw [(List.mem_replicate.1 h).2]
    intro hop
    cases hop
  · rcases List.mem_cons.1 h with rfl | h
    · intro hop
      cases hop
    · rw [List.mem_singleton.1 h]
      intro hop
      obtain ⟨-, -, -, hbytes, -⟩ := Op.deferAt.inj hop
      exact absurd hbytes (by decide)

end Trace
end RenetCross.L2
