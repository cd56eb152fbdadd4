import RenetCross.L2Machine.ServerIdle
import RenetCross.L2Machine.ServerOutage

/-!
# Peers do not disturb each other

Two runs of a conditioner that differ only in the packets of other peers do the same
to the peer `p`: its packets are lost, delayed and dropped alike. The peers share the
clock, the clean-up mark and the deadline of an outage, and another peer's packet moves
all three. `Alike` is what stays: the entry of `p` is the same, and an outage that is
over in one run is over in the other by the next reading.

A full table or an idle `p` would show the others, so both are left out (`attended`).
Idle means that no `defer_at` of its own transport was taken: a packet that another
owner offers for `p` is dropped and does not count (`foreign_packet_shows_others`).
-/
namespace RenetCross.L2

open ServerConditioner

namespace ServerConditioner

variable {T : Type}

/-- The two conditioners agree on all that matters to `p`. -/
structure Alike (p : ServerPeerId) (s s' : ServerConditioner T) : Prop where
  config : s.config = s'.config
  nextOwner : s.nextOwner = s'.nextOwner
  entry : s.peers.get p = s'.peers.get p
  outage : ∀ now, s.now ≤ now → s'.now ≤ now →
    (s.clamp now).outageUntil = (s'.clamp now).outageUntil

/-- A clock reading that goes on from the last one and finds `p`, if tracked, not idle. -/
structure Prompt (p : ServerPeerId) (s : ServerConditioner T) (now : Nat) : Prop where
  later : s.now ≤ now
  recent : ∀ q, s.peers.get p = some q → now - q.lastSeen < s.config.1.idleTimeout

variable {p : ServerPeerId} {s s' : ServerConditioner T} {now : Nat}

namespace Alike

theorem symm (h : Alike p s s') : Alike p s' s :=
  ⟨h.config.symm, h.nextOwner.symm, h.entry.symm, fun now hs hs' => (h.outage now hs' hs).symm⟩

/-- Where one clock has gone on, the other may follow. -/
theorem outage_poll (h : Alike p s s') (hs : s.now ≤ now) (hs' : s'.now ≤ now) :
    (s.poll now).outageUntil = (s'.poll now).outageUntil := by
  rw [(poll_frame s now).2.2, (poll_frame s' now).2.2]
  exact h.outage now hs hs'

end Alike

theorem Prompt.now_poll (h : Prompt p s now) : (s.poll now).now = now := by
  rw [(poll_frame s now).2.1]
  exact Nat.max_eq_left h.later

theorem Prompt.entry_poll (h : Prompt p s now) : (s.poll now).peers.get p = s.peers.get p := by
  rw [get_poll, if_neg]
  intro hin
  obtain ⟨-, q, hq, hold⟩ := mem_expiring.1 hin
  have hrecent := h.recent q hq
  have hlater := h.later
  omega

theorem nextOwner_poll (s : ServerConditioner T) (now : Nat) :
    (s.poll now).nextOwner = s.nextOwner := by
  have hfold : ∀ (ids : List ServerPeerId) (s : ServerConditioner T),
      (ids.foldl expirePeer s).nextOwner = s.nextOwner := by
    intro ids
    induction ids with
    | nil => intro s; rfl
    | cons id ids ih => intro s; exact (ih _).trans (nextOwner_retire s id)
  unfold poll cleanup
  split
  · exact hfold _ _
  · rfl

/-- An earlier reading makes no difference to a later one. -/
theorem outage_clamp_poll (s : ServerConditioner T) {now later : Nat} (hnow : s.now ≤ now)
    (hlater : now ≤ later) : ((s.poll now).clamp later).outageUntil = (s.clamp later).outageUntil := by
  obtain ⟨-, hclock, hout⟩ := poll_frame s now
  have hmax : max now s.now = now := Nat.max_eq_left hnow
  have hmax' : max later s.now = later := Nat.max_eq_left (Nat.le_trans hnow hlater)
  rw [hmax] at hclock hout
  have hmax'' : max later (s.poll now).now = later := by
    rw [hclock]
    exact Nat.max_eq_left hlater
  unfold clamp
  dsimp only
  rw [hmax', hmax'', hout]
  cases s.outageUntil with
  | none => rfl
  | some till =>
    by_cases htill : till ≤ now
    · simp [htill, Nat.le_trans htill hlater]
    · simp [htill]

/-- A poll in one of the runs only. -/
theorem Alike.poll_left (h : Alike p s s') (ht : Prompt p s now) : Alike p (s.poll now) s' where
  config := (poll_frame s now).1.trans h.config
  nextOwner := (nextOwner_poll s now).trans h.nextOwner
  entry := ht.entry_poll.trans h.entry
  outage := by
    intro later hlater hlater'
    rw [ht.now_poll] at hlater
    rw [← h.outage later (Nat.le_trans ht.later hlater) hlater']
    exact outage_clamp_poll s ht.later hlater

/-- A packet of another peer, in one of the runs only. -/
theorem Alike.deferAt_left (h : Alike p s s') (ht : Prompt p s now) (delay : Nat → Nat → Nat → Nat)
    (owner : Nat) (d : ConditionerDirection) {id : ServerPeerId} (hid : id ≠ p) (payload : T)
    (byteLen : Nat) : Alike p (s.deferAt delay owner d id payload byteLen now).1 s' := by
  have hpoll := h.poll_left ht
  have hto : ∀ q : Peer T,
      Alike p ((s.poll now).deferTo delay owner d id payload byteLen q).1 s' := by
    intro q
    unfold deferTo
    split
    · exact ⟨hpoll.config, hpoll.nextOwner, hpoll.entry, hpoll.outage⟩
    · refine ⟨hpoll.config, hpoll.nextOwner, ?_, hpoll.outage⟩
      dsimp only
      rw [HashMap.get_sortedInsert, if_neg (Ne.symm hid)]
      exact hpoll.entry
  unfold deferAt
  dsimp only
  split
  · exact hpoll
  · split
    · exact hto _
    · split
      · exact ⟨hpoll.config, hpoll.nextOwner, hpoll.entry, hpoll.outage⟩
      · exact hto _

/-! ## Calls made in both runs -/

/-- Two conditioners at the same reading. -/
structure Twin (p : ServerPeerId) (s s' : ServerConditioner T) : Prop where
  config : s.config = s'.config
  nextOwner : s.nextOwner = s'.nextOwner
  entry : s.peers.get p = s'.peers.get p
  now : s.now = s'.now
  outage : s.outageUntil = s'.outageUntil

theorem Twin.alike (h : Twin p s s') : Alike p s s' where
  config := h.config
  nextOwner := h.nextOwner
  entry := h.entry
  outage := by
    intro now _ _
    unfold clamp
    dsimp only
    rw [h.outage, h.now]

theorem Twin.remaining (h : Twin p s s') : s.outageRemaining = s'.outageRemaining := by
  unfold outageRemaining
  rw [h.outage, h.now]

theorem Alike.twin (h : Alike p s s') (ht : Prompt p s now) (ht' : Prompt p s' now) :
    Twin p (s.poll now) (s'.poll now) where
  config := (poll_frame s now).1.trans (h.config.trans (poll_frame s' now).1.symm)
  nextOwner := (nextOwner_poll s now).trans (h.nextOwner.trans (nextOwner_poll s' now).symm)
  entry := ht.entry_poll.trans (h.entry.trans ht'.entry_poll.symm)
  now := ht.now_poll.trans ht'.now_poll.symm
  outage := h.outage_poll ht.later ht'.later

theorem Twin.deferTo (h : Twin p s s') (delay : Nat → Nat → Nat → Nat) (owner : Nat)
    (d : ConditionerDirection) (payload : T) (byteLen : Nat) (q : Peer T) :
    Twin p (s.deferTo delay owner d p payload byteLen q).1
        (s'.deferTo delay owner d p payload byteLen q).1 ∧
      (s.deferTo delay owner d p payload byteLen q).2 =
        (s'.deferTo delay owner d p payload byteLen q).2 := by
  unfold ServerConditioner.deferTo
  split
  · exact ⟨⟨h.config, h.nextOwner, h.entry, h.now, h.outage⟩, rfl⟩
  · dsimp only
    rw [h.remaining, h.now]
    refine ⟨⟨h.config, h.nextOwner, ?_, rfl, h.outage⟩, rfl⟩
    dsimp only
    rw [HashMap.get_sortedInsert, if_pos rfl, HashMap.get_sortedInsert, if_pos rfl]

/-- There is room for one more peer. -/
def Roomy (s : ServerConditioner T) : Prop := s.peers.len < s.config.1.maxPeers

theorem Roomy.poll (h : s.Roomy) (now : Nat) : (s.poll now).Roomy := by
  obtain ⟨hcfg, hkeys⟩ := shrinks_poll s now
  unfold Roomy at *
  have hle := hkeys.length_le
  rw [hcfg]
  rw [HashMap.len_eq] at h ⊢
  omega

theorem Twin.deferAt (h : Alike p s s') (ht : Prompt p s now) (ht' : Prompt p s' now) (hroom : s.Roomy)
    (hroom' : s'.Roomy) (delay : Nat → Nat → Nat → Nat) (owner : Nat) (d : ConditionerDirection)
    (payload : T) (byteLen : Nat) :
    Twin p (s.deferAt delay owner d p payload byteLen now).1
        (s'.deferAt delay owner d p payload byteLen now).1 ∧
      (s.deferAt delay owner d p payload byteLen now).2 =
        (s'.deferAt delay owner d p payload byteLen now).2 := by
  have htwin := h.twin ht ht'
  have hfree := Nat.not_le.2 (hroom.poll now)
  have hfree' := Nat.not_le.2 (hroom'.poll now)
  unfold ServerConditioner.deferAt
  dsimp only
  generalize s.poll now = s at *
  generalize s'.poll now = s' at *
  rw [htwin.config, htwin.remaining, htwin.entry]
  split
  · exact ⟨htwin, rfl⟩
  · split
    · rename_i q _
      exact htwin.deferTo delay owner d payload byteLen q
    · rw [htwin.config] at hfree
      rw [if_neg hfree]
      have hnew : s.newPeer owner p = s'.newPeer owner p := by
        unfold newPeer
        rw [htwin.now, htwin.config]
      rw [hnew]
      exact htwin.deferTo delay owner d payload byteLen _

/-- What a drain returns for `p` comes from its entry alone. -/
theorem filter_drainAt (s : ServerConditioner T) (owner : Nat) (d : ConditionerDirection) (now : Nat)
    (p : ServerPeerId) :
    (s.drainAt owner d now).2.filter (fun x => x.1 = p) =
      ((s.poll now).peers.get p).toList.flatMap fun q =>
        (drainPeer owner d (s.poll now).now (s.poll now).outageRemaining q).2.map fun x => (p, x) := by
  have hflat : ∀ (l : List (ServerPeerId × Peer T)) (f : Peer T → List T),
      (l.flatMap fun x => (f x.2).map fun y => (x.1, y)).filter (fun x => x.1 = p) =
        (l.filter fun x => x.1 = p).flatMap fun x => (f x.2).map fun y => (x.1, y) := by
    intro l f
    induction l with
    | nil => rfl
    | cons x l ih =>
      rw [List.flatMap_cons, List.filter_append, ih]
      by_cases hx : x.1 = p
      · rw [List.filter_cons_of_pos (by simpa using hx), List.flatMap_cons, List.filter_eq_self.2]
        intro y hy
        obtain ⟨z, -, rfl⟩ := List.mem_map.1 hy
        simpa using hx
      · rw [List.filter_cons_of_neg (by simpa using hx), List.filter_eq_nil_iff.2, List.nil_append]
        intro y hy
        obtain ⟨z, -, rfl⟩ := List.mem_map.1 hy
        simpa using hx
  unfold drainAt
  dsimp only
  have hdrain := hflat (s.poll now).peers.iter fun q =>
    (drainPeer owner d (s.poll now).now (s.poll now).outageRemaining q).2
  rw [hdrain, HashMap.filter_iter, List.flatMap_map]

theorem Twin.drainAt (h : Alike p s s') (ht : Prompt p s now) (ht' : Prompt p s' now) (owner : Nat)
    (d : ConditionerDirection) :
    Twin p (s.drainAt owner d now).1 (s'.drainAt owner d now).1 ∧
      (s.drainAt owner d now).2.filter (fun x => x.1 = p) =
        (s'.drainAt owner d now).2.filter (fun x => x.1 = p) := by
  have htwin := h.twin ht ht'
  refine ⟨⟨htwin.config, htwin.nextOwner, ?_, htwin.now, htwin.outage⟩, ?_⟩
  · simp only [ServerConditioner.drainAt, HashMap.get_mapVal]
    rw [htwin.entry, htwin.now, htwin.remaining]
  · rw [filter_drainAt, filter_drainAt, htwin.entry, htwin.now, htwin.remaining]

theorem Twin.outageAt (h : Alike p s s') (ht : Prompt p s now) (ht' : Prompt p s' now)
    (duration : Nat) : Twin p (s.outageAt duration now) (s'.outageAt duration now) := by
  have htwin := h.twin ht ht'
  refine ⟨htwin.config, htwin.nextOwner, ?_, htwin.now, ?_⟩
  · simp only [ServerConditioner.outageAt, HashMap.get_mapVal]
    rw [htwin.entry]
  · simp only [ServerConditioner.outageAt]
    rw [htwin.now]

/-- A table that still has room was not shortened. -/
theorem reconfigure_roomy {config : ValidServerConfig} (hord : s.Ordered)
    (h : (s.reconfigure config).Roomy) : s.reconfigure config = s.renewed config := by
  have hlen := (reconfigure_spec hord config).1
  have hcfg : (s.reconfigure config).config = config := by
    rw [reconfigure_eq]
    exact (frame_evict _ _).1
  unfold Roomy at h
  rw [hcfg, hlen] at h
  have hfew : (s.renewed config).peers.len ≤ (s.renewed config).config.1.maxPeers := by
    have hsame : (s.renewed config).peers.len = s.peers.len := HashMap.len_mapVal _ _
    rw [hsame]
    show s.peers.len ≤ config.1.maxPeers
    omega
  rw [reconfigure_eq]
  exact evict_of_le hfew

theorem Alike.reconfigure (h : Alike p s s') (hord : s.Ordered) (hord' : s'.Ordered)
    {config : ValidServerConfig} (hroom : (s.reconfigure config).Roomy)
    (hroom' : (s'.reconfigure config).Roomy) :
    Alike p (s.reconfigure config) (s'.reconfigure config) := by
  rw [reconfigure_roomy hord hroom, reconfigure_roomy hord' hroom']
  refine ⟨rfl, h.nextOwner, ?_, fun _ _ _ => rfl⟩
  rw [get_renewed, get_renewed, h.entry]

/-- The clock, the settings and the outage stay. -/
structure Steady (s t : ServerConditioner T) : Prop where
  config : t.config = s.config
  nextOwner : t.nextOwner = s.nextOwner
  now : t.now = s.now
  outage : t.outageUntil = s.outageUntil

theorem Alike.steady (h : Alike p s s') {t t' : ServerConditioner T} (hs : Steady s t)
    (hs' : Steady s' t') (hentry : t.peers.get p = t'.peers.get p) : Alike p t t' where
  config := hs.config.trans (h.config.trans hs'.config.symm)
  nextOwner := hs.nextOwner.trans (h.nextOwner.trans hs'.nextOwner.symm)
  entry := hentry
  outage := by
    intro now hnow hnow'
    rw [hs.now] at hnow
    rw [hs'.now] at hnow'
    have hsame := h.outage now hnow hnow'
    unfold clamp at *
    dsimp only at *
    rw [hs.outage, hs.now, hs'.outage, hs'.now]
    exact hsame

theorem steady_retire (s : ServerConditioner T) (id : ServerPeerId) : Steady s (s.retire id) := by
  obtain ⟨hcfg, hnow, hout⟩ := retire_frame s id
  exact ⟨hcfg, nextOwner_retire s id, hnow, hout⟩

theorem steady_foldl (ids : List ServerPeerId) :
    ∀ s : ServerConditioner T, Steady s (ids.foldl retire s) := by
  induction ids with
  | nil => intro s; exact ⟨rfl, rfl, rfl, rfl⟩
  | cons id ids ih =>
    intro s
    have hone := steady_retire s id
    have hrest := ih (s.retire id)
    exact ⟨hrest.config.trans hone.config, hrest.nextOwner.trans hone.nextOwner,
      hrest.now.trans hone.now, hrest.outage.trans hone.outage⟩

theorem steady_removePeer (s : ServerConditioner T) (owner : Nat) (id : ServerPeerId) :
    Steady s (s.removePeer owner id) := by
  unfold ServerConditioner.removePeer
  split
  · exact steady_retire s id
  · exact ⟨rfl, rfl, rfl, rfl⟩

theorem Alike.removePeer (h : Alike p s s') (owner : Nat) (id : ServerPeerId) :
    Alike p (s.removePeer owner id) (s'.removePeer owner id) := by
  refine h.steady (steady_removePeer s owner id) (steady_removePeer s' owner id) ?_
  ext q
  rw [get_removePeer, get_removePeer, h.entry]

theorem Alike.removeOwner (h : Alike p s s') (owner : Nat) :
    Alike p (s.removeOwner owner) (s'.removeOwner owner) := by
  refine h.steady (steady_foldl _ s) (steady_foldl _ s') ?_
  ext q
  have hs : (s.removeOwner owner).peers.get p = some q ↔ s.peers.get p = some q ∧ q.owner ≠ owner :=
    get_removeOwner
  have hs' : (s'.removeOwner owner).peers.get p = some q ↔
      s'.peers.get p = some q ∧ q.owner ≠ owner := get_removeOwner
  rw [h.entry] at hs
  exact hs.trans hs'.symm

/-! ## One call -/

/-- The call is not a packet for another peer. -/
def Op.common (p : ServerPeerId) : Op → Bool
  | .deferAt _ _ id _ _ => id = p
  | _ => true

variable {delay : Nat → Nat → Nat → Nat} {make : Bytes → T} {op : Op}
  {r r' : ServerConditioner T × Bool × List (ServerPeerId × T)}

/-- A call the other run does not make. -/
theorem Alike.apply_left (h : Alike p s s') (ht : ∀ now, op.reading = some now → Prompt p s now)
    (hop : op.common p = false) (hr : s.apply delay make op = some r) : Alike p r.1 s' := by
  cases op with
  | deferAt owner d id bytes now =>
    cases hr
    exact h.deferAt_left (ht now rfl) delay owner d (by simpa [Op.common] using hop) _ _
  | drainAt owner d now => cases hop
  | configure config => cases hop
  | outageAt duration now => cases hop
  | removePeer owner id => cases hop
  | removeOwner owner => cases hop
  | allocateOwner => cases hop

/-- A call both runs make. -/
theorem Alike.apply (h : Alike p s s') (ht : ∀ now, op.reading = some now → Prompt p s now)
    (ht' : ∀ now, op.reading = some now → Prompt p s' now) (hop : op.common p = true)
    (hroom : s.Roomy) (hroom' : s'.Roomy) (hord : s.Ordered) (hord' : s'.Ordered)
    (hr : s.apply delay make op = some r) (hr' : s'.apply delay make op = some r')
    (hafter : r.1.Roomy) (hafter' : r'.1.Roomy) :
    Alike p r.1 r'.1 ∧ r.2.1 = r'.2.1 ∧
      r.2.2.filter (fun x => x.1 = p) = r'.2.2.filter (fun x => x.1 = p) := by
  cases op with
  | deferAt owner d id bytes now =>
    cases hr
    cases hr'
    have hid : id = p := by simpa [Op.common] using hop
    subst hid
    obtain ⟨htwin, hsame⟩ := Twin.deferAt h (ht now rfl) (ht' now rfl) hroom hroom' delay owner d
      (make bytes) bytes.length
    exact ⟨htwin.alike, hsame, rfl⟩
  | drainAt owner d now =>
    cases hr
    cases hr'
    obtain ⟨htwin, hsame⟩ := Twin.drainAt h (ht now rfl) (ht' now rfl) owner d
    exact ⟨htwin.alike, rfl, hsame⟩
  | configure config =>
    simp only [ServerConditioner.apply, ServerConditioner.configure] at hr hr'
    by_cases hvalid : config.validate = .ok ()
    · rw [dif_pos hvalid] at hr hr'
      cases hr
      cases hr'
      exact ⟨h.reconfigure hord hord' hafter hafter', rfl, rfl⟩
    · rw [dif_neg hvalid] at hr hr'
      cases hr
      cases hr'
      exact ⟨h, rfl, rfl⟩
  | outageAt duration now =>
    cases hr
    cases hr'
    exact ⟨(Twin.outageAt h (ht now rfl) (ht' now rfl) duration).alike, rfl, rfl⟩
  | removePeer owner id =>
    cases hr
    cases hr'
    exact ⟨h.removePeer owner id, rfl, rfl⟩
  | removeOwner owner =>
    cases hr
    cases hr'
    exact ⟨h.removeOwner owner, rfl, rfl⟩
  | allocateOwner =>
    obtain ⟨a, ha, rfl⟩ := Option.map_eq_some_iff.1 hr
    obtain ⟨a', ha', rfl⟩ := Option.map_eq_some_iff.1 hr'
    simp only [allocateOwner] at ha ha'
    split at ha
    · cases ha
      split at ha'
      · cases ha'
        refine ⟨⟨h.config, ?_, h.entry, h.outage⟩, rfl, rfl⟩
        dsimp only
        rw [h.nextOwner]
      · cases ha'
    · cases ha

end ServerConditioner

/-! ## Two runs -/

namespace Trace

/-- Runs in which the clock readings do not go back, the table never reaches its limit,
and a call with a reading finds `p` `recent`. -/
def attended (delay : Nat → Nat → Nat → Nat) (recent : Trace Bytes → Nat → Bool) :
    LTS (Trace Bytes) Op where
  init t := ∃ config, t = ⟨new config, []⟩
  step t op t' := t.step delay (fun _ bytes => bytes) op = some t' ∧
    (∀ now, op.reading = some now → t.state.now ≤ now ∧ recent t now = true) ∧
    t'.state.peers.len < t'.state.config.1.maxPeers

/-- Less than the idle timeout has passed since `p`'s own transport had a packet taken. -/
def recentlySeen (p : ServerPeerId) (t : Trace Bytes) (now : Nat) : Bool :=
  (t.state.peers.get p).all fun q => now - q.lastSeen < t.state.config.1.idleTimeout

/-- What a call that both runs make shows of `p`. -/
def shown (p : ServerPeerId) (c : Call Bytes) : Option (Bool × List Bytes) :=
  if c.op.common p then some (c.taken, (c.items.filter fun x => x.1 = p).map Prod.snd) else none

variable {delay : Nat → Nat → Nat → Nat} {p : ServerPeerId}

/-- Where the two runs stand. -/
structure Parallel (p : ServerPeerId) (t t' : Trace Bytes) : Prop where
  alike : Alike p t.state t'.state
  roomy : t.state.Roomy
  roomy' : t'.state.Roomy
  ordered : t.state.TableInv
  ordered' : t'.state.TableInv
  shown : t.log.filterMap (shown p) = t'.log.filterMap (shown p)

theorem Parallel.symm {t t' : Trace Bytes} (h : Parallel p t t') : Parallel p t' t :=
  ⟨h.alike.symm, h.roomy', h.roomy, h.ordered', h.ordered, h.shown.symm⟩

theorem prompt_of_recentlySeen {t : Trace Bytes} {now : Nat} (hlater : t.state.now ≤ now)
    (h : recentlySeen p t now = true) : Prompt p t.state now := by
  refine ⟨hlater, fun q hq => ?_⟩
  rw [recentlySeen, hq, Option.all_some] at h
  exact of_decide_eq_true h

/-- One step of one run: it stays parallel to the other. -/
theorem Parallel.step_left {t t' u : Trace Bytes} {op : Op} (h : Parallel p t t')
    (hop : op.common p = false) (hs : (attended delay (recentlySeen p)).step t op u) :
    Parallel p u t' := by
  obtain ⟨hstep, hread, hroom⟩ := hs
  obtain ⟨r, hr, rfl⟩ := step_eq delay _ hstep
  refine ⟨h.alike.apply_left (fun now hnow => ?_) hop hr, hroom, h.roomy', h.ordered.apply hr,
    h.ordered', ?_⟩
  · exact prompt_of_recentlySeen (hread now hnow).1 (hread now hnow).2
  · have hnone : Trace.shown p (t.state.called op r) = none := if_neg (by
      show ¬ op.common p = true
      rw [hop]
      exact Bool.false_ne_true)
    simp only [logged, List.filterMap_append, List.filterMap_cons, hnone, List.filterMap_nil,
      List.append_nil]
    exact h.shown

/-- The same step of both runs. -/
theorem Parallel.step_both {t t' u u' : Trace Bytes} {op : Op} (h : Parallel p t t')
    (hop : op.common p = true) (hs : (attended delay (recentlySeen p)).step t op u)
    (hs' : (attended delay (recentlySeen p)).step t' op u') : Parallel p u u' := by
  obtain ⟨hstep, hread, hroom⟩ := hs
  obtain ⟨hstep', hread', hroom'⟩ := hs'
  obtain ⟨r, hr, rfl⟩ := step_eq delay _ hstep
  obtain ⟨r', hr', rfl⟩ := step_eq delay _ hstep'
  obtain ⟨halike, htaken, hitems⟩ := h.alike.apply
    (fun now hnow => prompt_of_recentlySeen (hread now hnow).1 (hread now hnow).2)
    (fun now hnow => prompt_of_recentlySeen (hread' now hnow).1 (hread' now hnow).2)
    hop h.roomy h.roomy' h.ordered.ordered h.ordered'.ordered hr hr' hroom hroom'
  refine ⟨halike, hroom, hroom', h.ordered.apply hr, h.ordered'.apply hr', ?_⟩
  have hsome : Trace.shown p (t.state.called op r) = Trace.shown p (t'.state.called op r') := by
    unfold Trace.shown called
    rw [if_pos hop, if_pos hop]
    dsimp only
    rw [htaken, hitems]
  simp only [logged, List.filterMap_append, List.filterMap_cons, List.filterMap_nil, hsome, h.shown]

/-- A run of packets for other peers only. -/
theorem Parallel.skip {ops : List Op} {t t' u : Trace Bytes} (h : Parallel p t t')
    (hrun : (attended delay (recentlySeen p)).Run t ops u) (hnone : ops.filter (Op.common p) = []) :
    Parallel p u t' := by
  induction hrun with
  | nil t => exact h
  | @cons t op u ops _ hs _ ih =>
    have hop : op.common p = false := by
      simpa using List.filter_eq_nil_iff.1 hnone op (List.mem_cons_self ..)
    rw [List.filter_cons_of_neg (by rw [hop]; exact Bool.false_ne_true)] at hnone
    exact ih (h.step_left hop hs) hnone

/-- The other run up to its next common call. -/
theorem Parallel.advance {ops : List Op} {t t' u : Trace Bytes} {op : Op} {rest : List Op}
    (h : Parallel p t t') (hrun : (attended delay (recentlySeen p)).Run t ops u)
    (hnext : ops.filter (Op.common p) = op :: rest) :
    ∃ t₁ t₂ ops', Parallel p t₁ t' ∧ (attended delay (recentlySeen p)).step t₁ op t₂ ∧
      (attended delay (recentlySeen p)).Run t₂ ops' u ∧ ops'.filter (Op.common p) = rest := by
  induction hrun with
  | nil t => cases hnext
  | @cons t op' t₂ ops u hs hrest ih =>
    by_cases hop : op'.common p = true
    · rw [List.filter_cons_of_pos hop] at hnext
      cases hnext
      exact ⟨t, t₂, ops, h, hs, hrest, rfl⟩
    · rw [List.filter_cons_of_neg hop] at hnext
      exact ih (h.step_left (by simpa using hop) hs) hnext

/-- Two runs with the same common calls, by induction on the first; the second is
advanced to its next common call. -/
theorem Parallel.run {ops : List Op} {t u : Trace Bytes}
    (hrun : (attended delay (recentlySeen p)).Run t ops u) :
    ∀ {ops' : List Op} {t' u' : Trace Bytes}, Parallel p t t' →
      (attended delay (recentlySeen p)).Run t' ops' u' →
      ops.filter (Op.common p) = ops'.filter (Op.common p) → Parallel p u u' := by
  induction hrun with
  | nil t =>
    intro ops' t' u' h hrun' hsame
    exact (h.symm.skip hrun' hsame.symm).symm
  | @cons t op t₂ ops u hs hrest ih =>
    intro ops' t' u' h hrun' hsame
    by_cases hop : op.common p = true
    · rw [List.filter_cons_of_pos hop] at hsame
      obtain ⟨t₁', t₂', rest', hpar, hs', hrun'', hrest'⟩ := h.symm.advance hrun' hsame.symm
      exact ih (hpar.symm.step_both hop hs hs') hrun'' hrest'.symm
    · rw [List.filter_cons_of_neg hop] at hsame
      exact ih (h.step_left (by simpa using hop) hs) hrun' hsame

/-- Two runs that differ only in packets of other peers show the same of `p`: every
`defer_at` for `p` is answered alike, every common `drain_at` returns the same packets
of `p` in the same order, and its entry, statistics included, is the same. The table
must stay below its limit, and `p` must not be idle. -/
theorem peers_do_not_disturb {config : ValidServerConfig} {ops ops' : List Op} {u u' : Trace Bytes}
    (hrun : (attended delay (recentlySeen p)).Run ⟨new config, []⟩ ops u)
    (hrun' : (attended delay (recentlySeen p)).Run ⟨new config, []⟩ ops' u')
    (hsame : ops.filter (Op.common p) = ops'.filter (Op.common p)) :
    u.log.filterMap (shown p) = u'.log.filterMap (shown p) ∧
      (u.state.peers.get p).map (fun q => q.engine.handle.stats) =
        (u'.state.peers.get p).map fun q => q.engine.handle.stats := by
  have hinv := (tableInv_inductive delay fun _ bytes => bytes).init _ ⟨config, rfl⟩
  have hroom : (new config : ServerConditioner Bytes).Roomy := maxPeers_pos config
  have hstart : Parallel p (⟨new config, []⟩ : Trace Bytes) ⟨new config, []⟩ :=
    ⟨⟨rfl, rfl, rfl, fun _ _ _ => rfl⟩, hroom, hroom, hinv, hinv, rfl⟩
  have hend := Parallel.run hrun hstart hrun' hsame
  exact ⟨hend.shown, by rw [hend.alike.entry]⟩

/-! ## Runs to compare -/

/-- The call `op` is one of an `attended` run. -/
def allows (recent : Trace Bytes → Nat → Bool) (t : Trace Bytes) (op : Op) : Bool :=
  (t.step byLatency (fun _ bytes => bytes) op).any fun t' =>
    op.reading.all (fun now => t.state.now ≤ now && recent t now) &&
      t'.state.peers.len < t'.state.config.1.maxPeers

def allowsAll (recent : Trace Bytes → Nat → Bool) : Trace Bytes → List Op → Bool
  | _, [] => true
  | t, op :: ops => allows recent t op && allowsAll recent (t.next op) ops

theorem attended_next {recent : Trace Bytes → Nat → Bool} {t : Trace Bytes} {op : Op}
    (h : allows recent t op = true) : (attended byLatency recent).step t op (t.next op) := by
  obtain ⟨t', hstep, hok⟩ := (Option.any_eq_true _ _).1 h
  have hnext : t.next op = t' := by rw [next, hstep]; rfl
  obtain ⟨hread, hroom⟩ := Bool.and_eq_true_iff.1 hok
  refine ⟨by rw [hstep, hnext], fun now hnow => ?_, by rw [hnext]; exact of_decide_eq_true hroom⟩
  rw [hnow, Option.all_some, Bool.and_eq_true] at hread
  exact ⟨of_decide_eq_true hread.1, hread.2⟩

theorem attended_run {recent : Trace Bytes → Nat → Bool} {ops : List Op} :
    ∀ {t : Trace Bytes}, allowsAll recent t ops = true →
      (attended byLatency recent).Run t ops (ops.foldl next t) := by
  induction ops with
  | nil => intro t _; exact .nil t
  | cons op ops ih =>
    intro t h
    obtain ⟨hop, hrest⟩ := Bool.and_eq_true_iff.1 h
    exact .cons (attended_next hop) (ih hrest)

/-- The peers are idle after ten nanoseconds. -/
def brief : ValidServerConfig :=
  ⟨{ packets := { enabled := true, latency := 1 }, idleTimeout := 10 }, by decide +kernel⟩

/-- Two packets for one peer, without and with those of another. -/
def alone : List Op :=
  [.deferAt 1 .incoming (.webRtc 7) [1] 0, .deferAt 1 .incoming (.webRtc 7) [2] 6,
    .drainAt 1 .incoming 8]

def inCompany : List Op :=
  [.deferAt 1 .incoming (.webRtc 7) [1] 0, .deferAt 1 .incoming (.webRtc 9) [3] 2,
    .deferAt 1 .incoming (.webRtc 7) [2] 6, .deferAt 2 .outgoing (.webRtc 8) [4] 7,
    .drainAt 1 .incoming 8]

theorem peers_do_not_disturb_inCompany :
    (inCompany.foldl next ⟨new brief, []⟩).log.filterMap (shown (.webRtc 7)) =
      [(true, []), (true, []), (true, [[1], [2]])] := by
  have halone : allowsAll (recentlySeen (.webRtc 7)) ⟨new brief, []⟩ alone = true := by decide +kernel
  have hcompany : allowsAll (recentlySeen (.webRtc 7)) ⟨new brief, []⟩ inCompany = true := by
    decide +kernel
  refine (peers_do_not_disturb (attended_run hcompany) (attended_run halone) ?_).1.trans ?_
  · rfl
  · decide +kernel

/-- The call offers a packet for `p`, whoever makes it. -/
def Op.offers (p : ServerPeerId) : Op → Bool
  | .deferAt _ _ id _ _ => id = p
  | _ => false

/-- Less than the idle timeout has passed since anybody offered a packet for `p`. -/
def recentlyOffered (p : ServerPeerId) (t : Trace Bytes) (now : Nat) : Bool :=
  (t.state.peers.get p).all fun _ =>
    t.log.any fun c => Op.offers p c.op && now - c.time < t.state.config.1.idleTimeout

/-- The second transport offers packets for a peer of the first. -/
def foreign : List Op :=
  [.drainAt 1 .incoming 0, .deferAt 1 .incoming (.webRtc 7) [1] 5,
    .deferAt 2 .incoming (.webRtc 7) [2] 14, .deferAt 2 .incoming (.webRtc 7) [3] 20,
    .drainAt 2 .incoming 21]

/-- The same, with one packet of another peer, which moves the clean-up mark. -/
def foreignInCompany : List Op :=
  [.drainAt 1 .incoming 0, .deferAt 1 .incoming (.webRtc 7) [1] 5,
    .deferAt 1 .incoming (.webRtc 9) [9] 10, .deferAt 2 .incoming (.webRtc 7) [2] 14,
    .deferAt 2 .incoming (.webRtc 7) [3] 20, .drainAt 2 .incoming 21]

/-- Packets of another owner do not keep an entry: with the other peer's packet the entry
is reclaimed in time for the last of them, and without it is not. -/
theorem foreign_packet_shows_others : ∃ (config : ValidServerConfig) (ops ops' : List Op)
    (u u' : Trace Bytes),
    (attended byLatency (recentlyOffered (.webRtc 7))).Run ⟨new config, []⟩ ops u ∧
    (attended byLatency (recentlyOffered (.webRtc 7))).Run ⟨new config, []⟩ ops' u' ∧
    ops.filter (Op.common (.webRtc 7)) = ops'.filter (Op.common (.webRtc 7)) ∧
    u.log.filterMap (shown (.webRtc 7)) ≠ u'.log.filterMap (shown (.webRtc 7)) := by
  have hforeign : allowsAll (recentlyOffered (.webRtc 7)) ⟨new brief, []⟩ foreign = true := by
    decide +kernel
  have hcompany : allowsAll (recentlyOffered (.webRtc 7)) ⟨new brief, []⟩ foreignInCompany = true := by
    decide +kernel
  refine ⟨brief, foreign, foreignInCompany, _, _, attended_run hforeign, attended_run hcompany, rfl, ?_⟩
  decide +kernel

end Trace
end RenetCross.L2
