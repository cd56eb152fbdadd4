import RenetCross.L2Machine.ServerWrap

/-!
# An outage of the server's conditioner

`outage_at` sets one deadline for the whole handle. The engines learn of it when a
call touches them: the rest of the outage is announced to their handle, and `sync`
turns it into a deadline of their own. `Follows` says that the two deadlines agree:
whatever deadline an engine acts by is the handle's, or over.

A call that changes the handle (`configure`, `outage_at`) settles what the outage is
until the next such call (`LastFlush`, `Call.outageEnd`).
-/
namespace RenetCross.L2

open ServerConditioner

/-! ## One engine -/

namespace PacketConditioner

variable {T : Type}

/-- What the next call finds in a queue. -/
def pending (e : PacketConditioner T) (d : ConditionerDirection) : List (Scheduled T) :=
  if e.revision = e.handle.revision then e.queues d else []

/-- The deadline an engine acts by once it has looked at its handle. -/
def deadline (e : PacketConditioner T) (now : Nat) : Option Nat :=
  if e.revision = e.handle.revision then e.outageUntil
  else e.handle.pendingOutage.map fun d => Duration.saturatingAdd now d

theorem sync_outage (e : PacketConditioner T) (now : Nat) :
    (e.sync now).outageUntil =
        (if (e.deadline (max now e.lastNow)).any (fun till => max now e.lastNow ≥ till) then none
          else e.deadline (max now e.lastNow)) ∧
      (e.sync now).handle.pendingOutage =
        if e.revision = e.handle.revision then e.handle.pendingOutage else none := by
  unfold sync resync expire deadline
  by_cases h : e.revision = e.handle.revision
  · simp only [h, ne_eq, not_true_eq_false, if_false, if_true, and_self]
  · simp only [h, ne_eq, not_false_eq_true, if_true, if_false, and_self]

/-- The calls on an engine leave the deadline as `sync` did. -/
theorem enqueue_outage (delay : Nat → Nat → Nat → Nat) (e : PacketConditioner T)
    (d : ConditionerDirection) (now : Nat) (payload : T) (byteLen : Nat) :
    (e.enqueue delay d now payload byteLen).1.outageUntil = (e.sync now).outageUntil ∧
      (e.enqueue delay d now payload byteLen).1.handle.pendingOutage =
        (e.sync now).handle.pendingOutage ∧
      (e.enqueue delay d now payload byteLen).1.lastNow = max now e.lastNow := by
  obtain ⟨-, -, -, -, hnow, -⟩ := sync_frame e now
  have hdid := enqueue_did delay e d now payload byteLen
  generalize e.enqueue delay d now payload byteLen = out at hdid ⊢
  generalize e.queuedAt delay d now byteLen = at_ at hdid
  cases hdid with
  | bypassed _ => exact ⟨rfl, rfl, hnow⟩
  | dropped _ => exact ⟨rfl, rfl, hnow⟩
  | queued _ _ _ => exact ⟨rfl, rfl, hnow⟩

theorem enqueue_in_outage {delay : Nat → Nat → Nat → Nat} {e : PacketConditioner T}
    {d : ConditionerDirection} {now : Nat} {payload : T} {byteLen : Nat}
    (h : (e.sync now).outageUntil.isSome = true) :
    (e.enqueue delay d now payload byteLen).2 = none := by
  unfold enqueue
  dsimp only
  rw [if_pos h]

/-- The engine without its deadline. -/
def settled (e : PacketConditioner T) : PacketConditioner T := { e with outageUntil := none }

theorem resync_of_eq {e : PacketConditioner T} (h : e.revision = e.handle.revision) (now : Nat) :
    e.resync now = e := if_neg (not_not.2 h)

theorem resync_settled {e : PacketConditioner T} (h : e.revision ≠ e.handle.revision) (now : Nat) :
    e.settled.resync now = e.resync now := by
  unfold resync
  rw [if_pos h, if_pos (show e.settled.revision ≠ e.settled.handle.revision from h)]
  rfl

/-- A deadline that is over makes no difference. -/
theorem sync_settled {e : PacketConditioner T} {now : Nat}
    (h : e.revision = e.handle.revision →
      ∀ till, e.outageUntil = some till → till ≤ max now e.lastNow) :
    e.settled.sync now = e.sync now := by
  have hsettled : e.settled.sync now =
      (resync { e with lastNow := max now e.lastNow }.settled (max now e.lastNow)).expire
        (max now e.lastNow) := rfl
  have hsync : e.sync now =
      (resync { e with lastNow := max now e.lastNow } (max now e.lastNow)).expire
        (max now e.lastNow) := rfl
  rw [hsettled, hsync]
  by_cases hrev : e.revision = e.handle.revision
  · have hsame := resync_of_eq (e := { e with lastNow := max now e.lastNow }) hrev (max now e.lastNow)
    have hsame' := resync_of_eq (e := { e with lastNow := max now e.lastNow }.settled) hrev
      (max now e.lastNow)
    rw [hsame, hsame']
    unfold expire settled
    cases hout : e.outageUntil with
    | none => rfl
    | some till =>
      have hle := h hrev till hout
      simp only [Option.any_some, ge_iff_le, hle, decide_true, if_true, Option.any_none,
        Bool.false_eq_true, if_false]
  · rw [resync_settled (e := { e with lastNow := max now e.lastNow }) hrev]

end PacketConditioner

/-! ## The handle and its engines -/

namespace ServerConditioner

variable {T : Type}

/-- An engine and the handle's outage. -/
structure Follows (s : ServerConditioner T) (e : PacketConditioner T) : Prop where
  pending : e.handle.pendingOutage = none
  clock : e.lastNow ≤ s.now
  outage : e.revision = e.handle.revision → ∀ till, e.outageUntil = some till →
    s.outageUntil = some till ∨ till ≤ s.now

/-- A deadline is a `Duration`. -/
def Bounded (s : ServerConditioner T) : Prop :=
  ∀ till, s.outageUntil = some till → till ≤ Duration.MAX

/-- An engine that was told of the rest of the outage, if there is one, has the deadline
of the handle. -/
theorem Follows.synced {s : ServerConditioner T} {e : PacketConditioner T} (h : Follows s e)
    (hs : s.Bounded) {k : Nat} (hlag : e.Lag k) (hk : k < U64_MAX) (now : Nat) :
    ((impose (s.poll now).outageRemaining e).sync (s.poll now).now).outageUntil =
        (s.poll now).outageUntil ∧
      ((impose (s.poll now).outageRemaining e).sync (s.poll now).now).handle.pendingOutage = none := by
  obtain ⟨-, hnow, hout⟩ := poll_frame s now
  have hclock : max (s.poll now).now e.lastNow = (s.poll now).now := by
    have := h.clock
    rw [hnow]
    omega
  have hge : s.now ≤ (s.poll now).now := by
    rw [hnow]
    omega
  cases htill : (s.poll now).outageUntil with
  | none =>
    have hrem : (s.poll now).outageRemaining = none := by rw [outageRemaining, htill]; rfl
    rw [hrem]
    obtain ⟨hdeadline, hpending⟩ := PacketConditioner.sync_outage e (s.poll now).now
    have hdl : (impose none e).sync (s.poll now).now = e.sync (s.poll now).now := rfl
    rw [hdl]
    refine ⟨?_, by rw [hpending, h.pending, ite_self]⟩
    rw [hdeadline, hclock]
    unfold PacketConditioner.deadline
    by_cases hrev : e.revision = e.handle.revision
    · rw [if_pos hrev]
      cases hown : e.outageUntil with
      | none => rfl
      | some till =>
        -- the engine's own deadline is over: the handle's would still be there otherwise
        have hle : till ≤ (s.poll now).now := by
          rcases h.outage hrev till hown with heq | hle
          · rw [htill, heq] at hout
            by_contra hlt
            have hnot : ¬ max now s.now ≥ till := by
              rw [← hnow]
              exact hlt
            rw [Option.any_some, decide_eq_false hnot] at hout
            cases hout
          · exact Nat.le_trans hle hge
        rw [Option.any_some, decide_eq_true hle, if_pos rfl]
    · rw [if_neg hrev, h.pending]
      rfl
  | some till =>
    have hrem : (s.poll now).outageRemaining = some (till - (s.poll now).now) := by
      rw [outageRemaining, htill]
      rfl
    have hforce : s.outageUntil = some till ∧ (s.poll now).now < till := by
      rw [htill] at hout
      split at hout
      · cases hout
      · rename_i hany
        rw [← hout, Option.any_some, decide_eq_true_eq, ← hnow] at hany
        exact ⟨hout.symm, Nat.lt_of_not_le hany⟩
    obtain ⟨hstill, hlt⟩ := hforce
    have hmax := hs till hstill
    rw [hrem]
    have hlag' : (impose (some (till - (s.poll now).now)) e).Lag (k + 1) := hlag.changed rfl
    have hne : ¬ (impose (some (till - (s.poll now).now)) e).revision =
        (impose (some (till - (s.poll now).now)) e).handle.revision :=
      fun heq => absurd ((hlag'.agree hk).1 heq) (Nat.succ_ne_zero k)
    obtain ⟨hdeadline, hpending⟩ := PacketConditioner.sync_outage
      (impose (some (till - (s.poll now).now)) e) (s.poll now).now
    refine ⟨?_, by rw [hpending, if_neg hne]⟩
    have hlast : (impose (some (till - (s.poll now).now)) e).lastNow = e.lastNow := rfl
    rw [hdeadline, hlast, hclock]
    have hpend : (impose (some (till - (s.poll now).now)) e).handle.pendingOutage =
        some (till - (s.poll now).now) := by
      have hpos : ¬ till - (s.poll now).now = 0 := by omega
      simp only [impose, Control.outage, if_neg hpos]
    have hsum : Duration.saturatingAdd (s.poll now).now (till - (s.poll now).now) = till := by
      unfold Duration.saturatingAdd satAdd
      omega
    unfold PacketConditioner.deadline
    rw [if_neg hne, hpend, Option.map_some, hsum, Option.any_some,
      decide_eq_false (Nat.not_le.2 hlt), if_neg Bool.false_ne_true]

/-! ### Clock and outage after a call -/

theorem deferAt_frame (delay : Nat → Nat → Nat → Nat) (s : ServerConditioner T) (owner : Nat)
    (d : ConditionerDirection) (id : ServerPeerId) (payload : T) (byteLen now : Nat) :
    (s.deferAt delay owner d id payload byteLen now).1.now = (s.poll now).now ∧
      (s.deferAt delay owner d id payload byteLen now).1.outageUntil = (s.poll now).outageUntil := by
  unfold deferAt deferTo dropForLimit
  dsimp only
  repeat' split
  all_goals exact ⟨rfl, rfl⟩

/-- After a clock reading an outage is as it was, or over. -/
theorem poll_outage (s : ServerConditioner T) (now : Nat) :
    (s.poll now).outageUntil = s.outageUntil ∨
      (s.poll now).outageUntil = none ∧
        ∃ till, s.outageUntil = some till ∧ till ≤ (s.poll now).now := by
  obtain ⟨-, hnow, hout⟩ := poll_frame s now
  rw [hout, hnow]
  split
  · rename_i hany
    obtain ⟨till, htill, hle⟩ := (Option.any_eq_true _ _).1 hany
    exact .inr ⟨rfl, till, htill, by simpa using hle⟩
  · exact .inl rfl

theorem le_poll (s : ServerConditioner T) (now : Nat) : s.now ≤ (s.poll now).now := by
  rw [(poll_frame s now).2.1]
  exact Nat.le_max_right _ _

theorem foldl_retire_frame (ids : List ServerPeerId) (s : ServerConditioner T) :
    (ids.foldl retire s).now = s.now ∧ (ids.foldl retire s).outageUntil = s.outageUntil :=
  (foldl_frame (fun t id => retire_frame t id) ids s).2

variable {delay : Nat → Nat → Nat → Nat} {make : Bytes → T} {s : ServerConditioner T} {op : Op}
  {r : ServerConditioner T × Bool × List (ServerPeerId × T)}

theorem configured {config : ServerConditionerConfig}
    (hr : s.apply delay make (.configure config) = some r) :
    (∃ valid, r = (s.reconfigure valid, true, [])) ∨ r = (s, false, []) := by
  simp only [apply, configure] at hr
  by_cases hvalid : config.validate = .ok ()
  · rw [dif_pos hvalid] at hr
    exact .inl ⟨_, (Option.some.inj hr).symm⟩
  · rw [dif_neg hvalid] at hr
    exact .inr (Option.some.inj hr).symm

theorem apply_now (hr : s.apply delay make op = some r) : s.now ≤ r.1.now := by
  cases op with
  | deferAt owner d id bytes now =>
    cases hr
    rw [(deferAt_frame ..).1]
    exact le_poll s now
  | drainAt owner d now => cases hr; exact le_poll s now
  | configure config =>
    rcases configured hr with ⟨valid, rfl⟩ | rfl
    · exact Nat.le_of_eq (reconfigure_frame s valid).1.symm
    · exact Nat.le_refl _
  | outageAt duration now => cases hr; exact le_poll s now
  | removePeer owner id =>
    cases hr
    simp only [removePeer]
    split
    · exact Nat.le_of_eq (retire_frame s id).2.1.symm
    · exact Nat.le_refl _
  | removeOwner owner =>
    cases hr
    exact Nat.le_of_eq (foldl_retire_frame _ s).1.symm
  | allocateOwner =>
    obtain ⟨a, ha, rfl⟩ := Option.map_eq_some_iff.1 hr
    simp only [allocateOwner] at ha
    split at ha
    · cases ha
      exact Nat.le_refl _
    · cases ha

end ServerConditioner

/-- When the outage that a call of `outage_at` began ends. -/
def Call.outageEnd {T : Type} (c : Call T) : Option Nat :=
  match c.op with
  | .outageAt duration _ => if duration = 0 then none else some (Duration.saturatingAdd c.time duration)
  | _ => none

namespace ServerConditioner

variable {T : Type} {delay : Nat → Nat → Nat → Nat} {make : Bytes → T} {s : ServerConditioner T}
  {op : Op} {r : ServerConditioner T × Bool × List (ServerPeerId × T)}

/-- A call that changes the handle sets the outage. -/
theorem apply_flush (hr : s.apply delay make op = some r) (hc : (s.called op r).flushes = true) :
    r.1.outageUntil = (s.called op r).outageEnd := by
  cases op with
  | configure config =>
    rcases configured hr with ⟨valid, rfl⟩ | rfl
    · exact (reconfigure_frame s valid).2
    · cases hc
  | outageAt duration now => cases hr; rfl
  | deferAt owner d id bytes now => cases hc
  | drainAt owner d now => cases hc
  | removePeer owner id => cases hc
  | removeOwner owner => cases hc
  | allocateOwner => cases hc

/-- The other calls leave it alone, or find that it is over. -/
theorem apply_outage (hr : s.apply delay make op = some r) (hc : (s.called op r).flushes = false) :
    r.1.outageUntil = s.outageUntil ∨
      r.1.outageUntil = none ∧ ∃ till, s.outageUntil = some till ∧ till ≤ r.1.now := by
  cases op with
  | deferAt owner d id bytes now =>
    cases hr
    obtain ⟨hnow, hout⟩ := deferAt_frame delay s owner d id (make bytes) bytes.length now
    rw [hnow, hout]
    exact poll_outage s now
  | drainAt owner d now => cases hr; exact poll_outage s now
  | configure config =>
    rcases configured hr with ⟨valid, rfl⟩ | rfl
    · cases hc
    · exact .inl rfl
  | outageAt duration now => cases hc
  | removePeer owner id =>
    cases hr
    left
    simp only [removePeer]
    split
    · exact (retire_frame s id).2.2
    · rfl
  | removeOwner owner =>
    cases hr
    exact .inl (foldl_retire_frame _ s).2
  | allocateOwner =>
    obtain ⟨a, ha, rfl⟩ := Option.map_eq_some_iff.1 hr
    simp only [allocateOwner] at ha
    split at ha
    · cases ha
      exact .inl rfl
    · cases ha

theorem Follows.later {e : PacketConditioner T} (h : Follows s e)
    (hr : s.apply delay make op = some r) (hc : (s.called op r).flushes = false) :
    Follows r.1 e where
  pending := h.pending
  clock := Nat.le_trans h.clock (apply_now hr)
  outage := by
    intro hrev till htill
    rcases h.outage hrev till htill with heq | hle
    · rcases apply_outage hr hc with hsame | ⟨-, till', htill', hle⟩
      · exact .inl (hsame.trans heq)
      · rw [heq] at htill'
        cases htill'
        exact .inr hle
    · exact .inr (Nat.le_trans hle (apply_now hr))

end ServerConditioner

/-! ## Whole runs -/

namespace Trace

variable {T : Type}

/-- The entry of one peer, after `n` changes of the handle. -/
structure PeerQuiet (s : ServerConditioner T) (n : Nat) (p : Peer T) : Prop where
  lag : ∃ k ≤ n, p.engine.Lag k
  follows : s.Follows p.engine
  empty : s.outageUntil.isSome = true → ∀ d, p.engine.pending d = []

variable {delay : Nat → Nat → Nat → Nat} {make : Bytes → T} {s : ServerConditioner T} {op : Op}
  {r : ServerConditioner T × Bool × List (ServerPeerId × T)}

/-- An engine that has just been called, with the deadline of the handle. -/
theorem PeerQuiet.called {s' : ServerConditioner T} {n : Nat} {p : Peer T}
    (hrev : p.engine.revision = p.engine.handle.revision) (hle : p.engine.handle.revision ≤ U64_MAX)
    (hpending : p.engine.handle.pendingOutage = none) (hclock : p.engine.lastNow ≤ s'.now)
    (hout : p.engine.outageUntil = s'.outageUntil)
    (hempty : s'.outageUntil.isSome = true → ∀ d, p.engine.queues d = []) : PeerQuiet s' n p where
  lag := ⟨0, Nat.zero_le _, .synced hrev hle⟩
  follows :=
    { pending := hpending
      clock := hclock
      outage := fun _ till htill => .inl (by rw [← hout]; exact htill) }
  empty := fun hsome d => by
    rw [PacketConditioner.pending, if_pos hrev]
    exact hempty hsome d

theorem poll_some {s : ServerConditioner T} {now : Nat} (h : (s.poll now).outageUntil.isSome = true) :
    (s.poll now).outageRemaining ≠ none := by
  obtain ⟨till, htill⟩ := Option.isSome_iff_exists.1 h
  rw [outageRemaining, htill]
  exact Option.some_ne_none _

/-- During an outage a call on an engine finds nothing. -/
theorem sync_nil {e : PacketConditioner T} {k : Nat} (hlag : e.Lag k) (hk : k < U64_MAX) {now : Nat}
    (h : (s.poll now).outageUntil.isSome = true) (d : ConditionerDirection) :
    ((impose (s.poll now).outageRemaining e).sync (s.poll now).now).queues d = [] := by
  rcases hlag.sync_impose hk (s.poll now).outageRemaining (s.poll now).now d with hnil | ⟨hnone, -⟩
  · exact hnil
  · exact absurd hnone (poll_some h)

theorem PeerQuiet.drained {n : Nat} {p : Peer T} (h : PeerQuiet s n p) (hn : n < U64_MAX)
    (hs : s.Bounded) (d : ConditionerDirection) (now : Nat) {s' : ServerConditioner T}
    (hnow : s'.now = (s.poll now).now) (hout : s'.outageUntil = (s.poll now).outageUntil) (n' : Nat) :
    PeerQuiet s' n' { p with
      engine := ((impose (s.poll now).outageRemaining p.engine).drainReady d (s.poll now).now).1 } := by
  obtain ⟨k, hk, hlag⟩ := h.lag
  have hkn := Nat.lt_of_le_of_lt hk hn
  obtain ⟨hdeadline, hpending⟩ := h.follows.synced hs hlag hkn now
  obtain ⟨hrev, hhandle⟩ := PacketConditioner.drainReady_revision
    (impose (s.poll now).outageRemaining p.engine) d (s.poll now).now
  refine .called (hrev.trans hhandle.symm) ?_ hpending ?_ (hdeadline.trans hout.symm) ?_
  · rw [hhandle]
    exact PacketConditioner.handle_impose_le hlag.handle_le _
  · dsimp only
    rw [lastNow_drainReady, lastNow_impose, hnow]
    have := h.follows.clock
    have := le_poll s now
    omega
  · intro hsome d'
    rw [hout] at hsome
    obtain ⟨hkept, -⟩ := PacketConditioner.drainReady_split
      (impose (s.poll now).outageRemaining p.engine) d (s.poll now).now
    have hnil := hkept d'
    rw [sync_nil hlag hkn hsome d'] at hnil
    exact List.sublist_nil.1 hnil

theorem PeerQuiet.deferred {p : Peer T} (hfollows : s.Follows p.engine) {k : Nat}
    (hlag : p.engine.Lag k) (hk : k < U64_MAX) (hs : s.Bounded) (delay : Nat → Nat → Nat → Nat)
    (d : ConditionerDirection) (now : Nat) (payload : T) (byteLen : Nat) {s' : ServerConditioner T}
    (hnow : s'.now = (s.poll now).now) (hout : s'.outageUntil = (s.poll now).outageUntil) (n' : Nat) :
    PeerQuiet s' n' { p with
      lastSeen := (s.poll now).now
      engine := ((impose (s.poll now).outageRemaining p.engine).enqueue delay d (s.poll now).now
        payload byteLen).1 } := by
  obtain ⟨hdeadline, hpending⟩ := hfollows.synced hs hlag hk now
  obtain ⟨hrev, hhandle⟩ := PacketConditioner.enqueue_revision delay
    (impose (s.poll now).outageRemaining p.engine) d (s.poll now).now payload byteLen
  obtain ⟨hafter, hpend, hlast⟩ := PacketConditioner.enqueue_outage delay
    (impose (s.poll now).outageRemaining p.engine) d (s.poll now).now payload byteLen
  refine .called (hrev.trans hhandle.symm) ?_ (hpend.trans hpending) ?_
    (hafter.trans (hdeadline.trans hout.symm)) ?_
  · rw [hhandle]
    exact PacketConditioner.handle_impose_le hlag.handle_le _
  · dsimp only
    rw [hlast, lastNow_impose, hnow]
    have := hfollows.clock
    have := le_poll s now
    omega
  · intro hsome d'
    rw [hout] at hsome
    rcases PacketConditioner.enqueue_queue delay (impose (s.poll now).outageRemaining p.engine) d
      (s.poll now).now payload byteLen d' with hsame | ⟨-, -, hnone, -⟩
    · dsimp only
      rw [hsame]
      exact sync_nil hlag hk hsome d'
    · rw [hdeadline] at hnone
      rw [hnone] at hsome
      cases hsome

theorem PeerQuiet.mono {n n' : Nat} {p : Peer T} (h : PeerQuiet s n p) (hle : n ≤ n') :
    PeerQuiet s n' p := by
  obtain ⟨k, hk, hlag⟩ := h.lag
  exact ⟨⟨k, Nat.le_trans hk hle, hlag⟩, h.follows, h.empty⟩

/-- A call that leaves the entry alone. -/
theorem PeerQuiet.kept {n : Nat} {p : Peer T} (h : PeerQuiet s n p)
    (hr : s.apply delay make op = some r) (hc : (s.called op r).flushes = false) :
    PeerQuiet r.1 n p where
  lag := h.lag
  follows := h.follows.later hr hc
  empty := by
    intro hsome d
    rcases apply_outage hr hc with hsame | ⟨hnone, -⟩
    · exact h.empty (by rw [← hsame]; exact hsome) d
    · rw [hnone] at hsome
      cases hsome

/-- A change of the handle; the engine has yet to notice it. -/
theorem PeerQuiet.flushed {n : Nat} {p : Peer T} (h : PeerQuiet s n p) (hn : n < U64_MAX)
    (config : ValidConfig) {s' : ServerConditioner T} (hnow : s.now ≤ s'.now) :
    PeerQuiet s' (n + 1) { p with engine.handle := p.engine.handle.reconfigure config } := by
  obtain ⟨k, hk, hlag⟩ := h.lag
  have hlag' : PacketConditioner.Lag
      { p.engine with handle := p.engine.handle.reconfigure config } (k + 1) := hlag.changed rfl
  have hne : ¬ p.engine.revision = (p.engine.handle.reconfigure config).revision := by
    intro heq
    exact absurd ((hlag'.agree (by omega)).1 heq) (Nat.succ_ne_zero k)
  exact {
    lag := ⟨k + 1, Nat.succ_le_succ hk, hlag'⟩
    follows :=
      { pending := rfl
        clock := Nat.le_trans h.follows.clock hnow
        outage := fun heq => absurd heq hne }
    empty := fun _ d => if_neg hne }

/-- `c`, at position `q`, is the last call that changed the handle. -/
structure LastFlush (log : List (Call T)) (q : Nat) (c : Call T) : Prop where
  call : log[q]? = some c
  flush : c.flushes = true
  quiet : ∀ (k : Nat) (c' : Call T), q < k → log[k]? = some c' → c'.flushes = false

theorem LastFlush.snoc {log : List (Call T)} {q : Nat} {c c' : Call T}
    (h : LastFlush (log ++ [c']) q c) :
    c'.flushes = true ∧ c = c' ∨ c'.flushes = false ∧ LastFlush log q c := by
  rcases get_snoc h.call with ⟨hq, hcall⟩ | ⟨-, rfl⟩
  · exact .inr ⟨h.quiet log.length c' hq List.getElem?_concat_length, hcall, h.flush,
      fun k c'' hk hget => h.quiet k c'' hk (get_snoc_of_get hget c')⟩
  · exact .inl ⟨h.flush, rfl⟩

/-- The handle's outage is the one its last change began, or that one is over; no
engine has another, and while it lasts nothing waits. -/
structure Quiet (t : Trace T) : Prop where
  peers : ∀ id p, t.state.peers.get id = some p → PeerQuiet t.state t.flushes p
  bounded : t.state.Bounded
  last : ∀ q c, LastFlush t.log q c → t.state.outageUntil = c.outageEnd ∨
    t.state.outageUntil = none ∧ ∃ till, c.outageEnd = some till ∧ till ≤ t.state.now

/-- The engine a packet is offered to, of an entry or of a new peer, whose engine is two
changes behind its handle. -/
theorem Quiet.offered {t : Trace T} (h : Quiet t) (hn : t.flushes < U64_MAX) {now : Nat}
    {id : ServerPeerId} {p : Peer T} (hfrom : (t.state.poll now).peers.get id = some p ∨
      p = (t.state.poll now).newPeer p.owner id) :
    t.state.Follows p.engine ∧ ∃ k < U64_MAX, p.engine.Lag k := by
  rcases hfrom with hget | hnew
  · obtain ⟨hs, -⟩ := get_of_poll hget
    obtain ⟨k, hk, hlag⟩ := (h.peers id p hs).lag
    exact ⟨(h.peers id p hs).follows, k, Nat.lt_of_le_of_lt hk hn, hlag⟩
  · have hround : wrapU64 (0 + 1) = wrapU64 (U64_MAX + 2) := by decide
    rw [hnew]
    exact ⟨⟨rfl, Nat.zero_le _, fun _ till htill => by cases htill⟩, 2, by decide,
      ⟨Nat.le_refl _, hround⟩⟩

theorem Quiet.peer {t : Trace T} (h : Quiet t) (hn : t.flushes < U64_MAX)
    (hr : t.state.apply delay make op = some r) {id : ServerPeerId} {p' : Peer T}
    (hp' : r.1.peers.get id = some p') : PeerQuiet r.1 (t.logged op r).flushes p' := by
  have hcount : (t.logged op r).flushes =
      t.flushes + if (t.state.called op r).flushes then 1 else 0 := by
    simp only [flushes, logged, List.countP_append, List.countP_singleton]
  rw [hcount]
  cases peerStep hr hp' with
  | kept hget hflush hrem hdrain =>
    exact ((h.peers id p' hget).kept hr hflush).mono (Nat.le_add_right _ _)
  | @flushed p config hget hflush hrem =>
    rw [if_pos hflush]
    exact (h.peers id p hget).flushed hn config (apply_now hr)
  | @drained p d now hop hget hrem =>
    obtain ⟨hs, -⟩ := get_of_poll hget
    simp only [called] at hop
    subst hop
    cases hr
    have hframe : (t.state.drainAt p.owner d now).1.now = (t.state.poll now).now ∧
        (t.state.drainAt p.owner d now).1.outageUntil = (t.state.poll now).outageUntil := ⟨rfl, rfl⟩
    exact (h.peers id p hs).drained hn h.bounded d now hframe.1 hframe.2 _
  | @deferred p d bytes now hop hfrom htaken =>
    simp only [called] at hop
    subst hop
    cases hr
    obtain ⟨hnow, hout⟩ := deferAt_frame delay t.state p.owner d id (make bytes) bytes.length now
    obtain ⟨hfollows, k, hk, hlag⟩ := h.offered hn (hfrom.imp_left And.left)
    exact PeerQuiet.deferred hfollows hlag hk h.bounded delay d now (make bytes) bytes.length hnow
      hout _

theorem Quiet.step {t t' : Trace T} {make : Nat → Bytes → T} (h : Quiet t) (hn : t.flushes < U64_MAX)
    (hs : t.step delay make op = some t') : Quiet t' := by
  obtain ⟨r, hr, rfl⟩ := step_eq delay make hs
  refine ⟨fun id p' hp' => h.peer hn hr hp', ?_, fun q c hlast => ?_⟩
  · intro till htill
    have hstate : r.1.outageUntil = some till := htill
    by_cases hflush : (t.state.called op r).flushes = true
    · rw [apply_flush hr hflush] at hstate
      unfold Call.outageEnd at hstate
      split at hstate
      · split at hstate
        · cases hstate
        · cases hstate
          exact Nat.min_le_right _ _
      · cases hstate
    · rcases apply_outage hr (by simpa using hflush) with hsame | ⟨hnone, -⟩
      · rw [hsame] at hstate
        exact h.bounded till hstate
      · rw [hnone] at hstate
        cases hstate
  · rcases hlast.snoc with ⟨hflush, rfl⟩ | ⟨hflush, hlast'⟩
    · exact .inl (apply_flush hr hflush)
    · have hle := apply_now hr
      show r.1.outageUntil = _ ∨ r.1.outageUntil = none ∧ ∃ till, _ ∧ till ≤ r.1.now
      rcases h.last q c hlast' with hforce | ⟨hnone, till, hend, hover⟩
      · rcases apply_outage hr hflush with hsame | ⟨hnone, till, htill, hover⟩
        · exact .inl (hsame.trans hforce)
        · exact .inr ⟨hnone, till, hforce.symm.trans htill, hover⟩
      · rcases apply_outage hr hflush with hsame | ⟨-, till', htill', -⟩
        · exact .inr ⟨hsame.trans hnone, till, hend, Nat.le_trans hover hle⟩
        · rw [hnone] at htill'
          cases htill'

theorem quiet_inductive (delay : Nat → Nat → Nat → Nat) (make : Nat → Bytes → T) :
    (runs delay make).Inductive fun t => t.flushes < U64_MAX → Quiet t where
  init := by
    intro t ht _
    obtain ⟨config, rfl⟩ := ht
    refine ⟨fun id p hp => (by cases hp), fun till htill => (by cases htill), fun q c h => ?_⟩
    have := h.call
    simp at this
  step := by
    intro t op t' h hs hn
    have hlt := Nat.lt_of_le_of_lt (flushes_mono hs) hn
    exact (h hlt).step hlt hs

end Trace
end RenetCross.L2
