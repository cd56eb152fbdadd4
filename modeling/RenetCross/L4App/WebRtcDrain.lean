import RenetCross.L4App.Scripted
import RenetCross.L4App.WebRtcSteps

/-!
# str0m's drain contract

str0m wants `poll_output` called until it returns `Output::Timeout` after every
mutation of an `Rtc` and before the next one. The transport mutates an `Rtc` in
three places (a datagram, a timer, a channel write) and drains with a bounded
number of polls; `next_timeout` is its record of a drain that got to the end.

`drain_contract`: along every run, the latest thing that happened to the `Rtc`
of a mutated peer is a poll that returned `Timeout`. The invariant ties
`next_timeout` to the trace: a peer that has one was polled to the end, and
nothing was done to it since, except between a mutation and the drain that
follows it at once (`Drive.dirty`).
-/
namespace RenetCross.L4

open RenetCross.L2

/-- An event of the `Rtc` registered under `c`. -/
def Event.onRtc (c : ClientId) : Event → Bool
  | .added c' => c' = c
  | .polled c' _ => c' = c
  | .input c' _ => c' = c
  | .wrote c' _ => c' = c
  | _ => false

/-- `handle_input` or a channel write on the `Rtc` registered under `c`. -/
def Event.mutates (c : ClientId) : Event → Bool
  | .input c' _ => c' = c
  | .wrote c' _ => c' = c
  | _ => false

/-- The latest event of the `Rtc` registered under `c`. -/
def lastOnRtc (trace : List Event) (c : ClientId) : Option Event := trace.find? (Event.onRtc c)

theorem lastOnRtc_cons (e : Event) (trace : List Event) (c : ClientId) :
    lastOnRtc (e :: trace) c = if e.onRtc c then some e else lastOnRtc trace c := by
  unfold lastOnRtc
  rw [List.find?_cons]
  split <;> rename_i h <;> simp [h]

/-- Every mutation came after a poll that returned `Timeout`, with nothing on
that `Rtc` in between. -/
def Drained (trace : List Event) : Prop :=
  ∀ later e earlier c, trace = later ++ e :: earlier → e.mutates c →
    lastOnRtc earlier c = some (.polled c true)

theorem Drained.cons {e : Event} {trace : List Event} (h : Drained trace)
    (he : ∀ c, e.mutates c → lastOnRtc trace c = some (.polled c true)) : Drained (e :: trace) := by
  intro later e' earlier c heq hm
  cases later with
  | nil =>
    cases heq
    exact he c hm
  | cons x later =>
    cases heq
    exact h later e' earlier c rfl hm

variable {N R S W : Type} [NetcodeServer N] [Rtc R] [RenetServer S]

/-- A peer that `next_timeout` says is drained. -/
def Rests (trace : List Event) (dirty : Option ClientId) (c : ClientId) (p : ServerPeer R) : Prop :=
  p.nextTimeout ≠ none → dirty ≠ some c → lastOnRtc trace c = some (.polled c true)

/-- The part of a configuration the contract is about. -/
structure DrainInv (peers : HashMap ClientId (ServerPeer R)) (drive : Drive R)
    (trace : List Event) : Prop where
  peers : ∀ c p, peers.get c = some p → Rests trace drive.dirty c p
  hand : ∀ c p, drive.hand = some (c, p) → Rests trace drive.dirty c p
  trace : Drained trace

namespace DrainInv

variable {peers : HashMap ClientId (ServerPeer R)} {drive : Drive R} {trace : List Event}

section

omit [Rtc R]

/-- An event that is not on an `Rtc`. -/
theorem log (h : DrainInv peers drive trace) {e : Event} (he : ∀ c, e.onRtc c = false)
    (hm : ∀ c, e.mutates c = false) : DrainInv peers drive (e :: trace) := by
  have hlast : ∀ c, lastOnRtc (e :: trace) c = lastOnRtc trace c := by
    intro c
    rw [lastOnRtc_cons, he c]
    rfl
  refine ⟨fun c p hp h1 h2 => ?_, fun c p hp h1 h2 => ?_, h.trace.cons fun c hc => ?_⟩
  · rw [hlast]; exact h.peers c p hp h1 h2
  · rw [hlast]; exact h.hand c p hp h1 h2
  · rw [hm c] at hc; cases hc

/-- A poll of the peer in hand. -/
theorem poll (h : DrainInv peers drive trace) {c : ClientId} {p : ServerPeer R} (timeout : Bool)
    (hkey : peers.get c = none) (hp : p.nextTimeout ≠ none → timeout = true) :
    DrainInv peers { drive with hand := some (c, p) } (.polled c timeout :: trace) := by
  have hne : ∀ c', c' ≠ c → lastOnRtc (.polled c timeout :: trace) c' = lastOnRtc trace c' := by
    intro c' hc
    rw [lastOnRtc_cons, if_neg (by simpa [Event.onRtc] using hc.symm)]
  refine ⟨fun c' p' hp' h1 h2 => ?_, fun c' p' hp' h1 h2 => ?_, h.trace.cons fun c' hc => by cases hc⟩
  · have hc : c' ≠ c := by
      rintro rfl
      rw [hkey] at hp'
      cases hp'
    rw [hne c' hc]
    exact h.peers c' p' hp' h1 h2
  · cases hp'
    rw [lastOnRtc_cons, if_pos (by simp [Event.onRtc]), hp h1]

/-- A mutation of a drained peer; the peer is dirty until its next drain. -/
theorem mutate (h : DrainInv peers drive trace) {c : ClientId} {p p' : ServerPeer R} {e : Event}
    (hp : peers.get c = some p) (hnone : p.nextTimeout ≠ none) (hdirty : drive.dirty = none)
    (hhand : drive.hand = none) (he : ∀ c', e.onRtc c' = decide (c = c'))
    (hm : ∀ c', e.mutates c' → c = c') :
    DrainInv (peers.insert c p') { drive with dirty := some c } (e :: trace) := by
  refine ⟨fun c' q hq h1 h2 => ?_, fun c' q hq => ?_, h.trace.cons fun c' hc => ?_⟩
  · have hc : c ≠ c' := fun heq => h2 (congrArg some heq)
    rw [HashMap.get_insert, if_neg (Ne.symm hc)] at hq
    rw [lastOnRtc_cons, if_neg (by rw [he c']; simpa using hc)]
    exact h.peers c' q hq h1 (by rw [hdirty]; simp)
  · rw [hhand] at hq
    cases hq
  · rw [← hm c' hc]
    exact h.peers c p hp hnone (by rw [hdirty]; simp)

/-- Fewer peers, the same hand. -/
theorem of_get {peers' : HashMap ClientId (ServerPeer R)} (h : DrainInv peers drive trace)
    (hp : ∀ c p, peers'.get c = some p → peers.get c = some p) : DrainInv peers' drive trace :=
  ⟨fun c p hc => h.peers c p (hp c p hc), h.hand, h.trace⟩

/-- A peer without a `next_timeout` is put into the map. -/
theorem insert (h : DrainInv peers drive trace) {c : ClientId} {p : ServerPeer R}
    (hp : Rests trace drive.dirty c p) : DrainInv (peers.insert c p) drive trace := by
  refine ⟨fun c' q hq => ?_, h.hand, h.trace⟩
  rw [HashMap.get_insert] at hq
  split at hq
  · rename_i heq
    cases hq
    rw [heq]
    exact hp
  · exact h.peers c' q hq

end

end DrainInv

theorem get_of_remove {ν : Type} {m : HashMap ClientId ν} {c₀ c : ClientId} {v : ν}
    (h : (m.remove c₀).get c = some v) : m.get c = some v := by
  rw [HashMap.get_remove] at h
  split at h
  · cases h
  · exact h

theorem drainInv_act {a b : Cfg N R S W} (hk : Keyed a)
    (h : DrainInv a.st.peers a.drive a.st.trace) (hact : Act a b) :
    DrainInv b.st.peers b.drive b.st.trace := by
  cases hact with
  | @gate s d f g sh hg =>
    have ht : sh.trace = s.trace := hg.trace
    rw [← ht] at h
    exact h
  | @stockIn s d f c packet sh hp hg =>
    have ht : sh.trace = s.trace := hg.trace
    rw [← ht] at h
    exact h
  | @stockOut s d f c packet sh hp hg =>
    have ht : sh.trace = s.trace := hg.trace
    rw [← ht] at h
    exact h
  | @pickUp s d f c p hp hhand hf =>
    refine ⟨fun c' q hq => h.peers c' q (get_of_remove hq), fun c' q hq => ?_, h.trace⟩
    cases hq
    exact h.peers c p hp
  | @putDown s d f c p hhand hf hg hd =>
    have h' : DrainInv s.peers { d with hand := none } s.trace :=
      ⟨h.peers, fun c' q hq => (by cases hq), h.trace⟩
    exact h'.insert (h.hand c p hhand)
  | @touchHand s d f c p p' hhand hret =>
    refine ⟨h.peers, fun c' q hq => ?_, h.trace⟩
    cases hq
    exact fun h1 => h.hand c p hhand (hret.nextTimeout ▸ h1)
  | @touchPeer s d f c p p' hp hret =>
    exact h.insert fun h1 => h.peers c p hp (hret.nextTimeout ▸ h1)
  | @startDrain s d f c p hhand hd =>
    refine ⟨fun c' q hq h1 h2 => h.peers c' q hq h1 fun hdirty => ?_, fun c' q hq h1 => ?_, h.trace⟩
    · rcases hd with hd | hd
      · rw [hd] at hdirty
        cases hdirty
      · rw [hd] at hdirty
        cases hdirty
        rw [(hk.hand c p hhand).2.2] at hq
        cases hq
    · cases hq
      exact absurd rfl h1
  | @polled s d f c p rtc hhand hnone =>
    obtain ⟨hid, _, hkey⟩ := hk.hand c p hhand
    rw [hid]
    exact h.poll false hkey fun h1 => absurd hnone h1
  | @polledTimeout s d f c p rtc deadline hhand hnone =>
    obtain ⟨hid, _, hkey⟩ := hk.hand c p hhand
    rw [hid]
    exact h.poll true hkey fun _ => rfl
  | @arrive s d f c p data hhand hparcel =>
    have h' := h.log (e := .arrived ⟨data, s.tagNow p.clientId⟩) (fun _ => rfl) fun _ => rfl
    exact ⟨h'.peers, h'.hand, h'.trace⟩
  | @process s d f c c' p packet r hhand hparcel hc hr hid =>
    have h' := h.log (e := .processed packet) (fun _ => rfl) fun _ => rfl
    exact ⟨h'.peers, h'.hand, h'.trace⟩
  | @processForeign s d f c c' id p packet r hhand hparcel hc hr hid hne =>
    have h' := h.log (e := .processed packet) (fun _ => rfl) fun _ => rfl
    exact ⟨h'.peers, h'.hand, h'.trace⟩
  | @lose s d f c p hhand =>
    have h' := h.log (e := .lost p.clientId (d.gathered.map Outcome.result)) (fun _ => rfl)
      fun _ => rfl
    exact ⟨h'.peers, h'.hand, h'.trace⟩
  | @tearDown s d f c p hhand hg hd =>
    refine ⟨fun c' q hq h1 h2 => h.peers c' q hq h1 fun hdirty => ?_,
      fun c' q hq => (by cases hq), h.trace⟩
    rcases hd with hd | hd
    · rw [hd] at hdirty
      cases hdirty
    · rw [hd] at hdirty
      cases hdirty
      have hq' : s.peers.get c = some q := hq
      rw [(hk.hand c p hhand).2.2] at hq'
      cases hq'
  | @feed s d f c p source input hp hnone hd hhand =>
    exact h.mutate hp hnone hd hhand (fun _ => rfl) fun c' hc => by simpa [Event.mutates] using hc
  | @timeout s d f c p rtc hp hnone hd hhand =>
    exact h.mutate hp hnone hd hhand (fun _ => rfl) fun c' hc => by simpa [Event.mutates] using hc
  | @write s d f c p rtc packet hp hnone hd hhand hout =>
    exact h.mutate hp hnone hd hhand (fun _ => rfl) fun c' hc => by simpa [Event.mutates] using hc
  | @route s d f o addr payload hcur ho hhand => exact h.log (fun _ => rfl) fun _ => rfl
  | @deliver s d f o c payload hcur ho => exact h.log (fun _ => rfl) fun _ => rfl
  | @connect s d f o c addr payload hcur ho hconn =>
    exact h.log (fun _ => rfl) fun _ => rfl
  | @reject s d f o c addr payload hcur ho hconn => exact h.log (fun _ => rfl) fun _ => rfl
  | @expel s d f c =>
    rw [WebRtcState.expelled_peers, WebRtcState.expelled_toShared]
    have h' := h.log (e := .removed c) (fun _ => rfl) fun _ => rfl
    exact h'.of_get fun c' p hc => get_of_remove hc
  | @register s d f c rtc hp hfree hconn hw happ hhand =>
    have hlast : ∀ c', c' ≠ c → lastOnRtc (.added c :: s.trace) c' = lastOnRtc s.trace c' := by
      intro c' hc
      rw [lastOnRtc_cons, if_neg (by simpa [Event.onRtc] using hc.symm)]
    refine ⟨fun c' q hq h1 h2 => ?_, fun c' q hq => ?_, h.trace.cons fun c' hc => by cases hc⟩
    · have hq' : (s.peers.insert c (ServerPeer.new c rtc)).get c' = some q := hq
      rw [HashMap.get_insert] at hq'
      split at hq'
      · cases hq'
        exact absurd rfl h1
      · rename_i hc
        exact (hlast c' hc).trans (h.peers c' q hq' h1 h2)
    · rw [hhand] at hq
      cases hq
  | @release s d f o c addr payload hcur ho =>
    rw [WebRtcState.releaseClient_frame]
    rcases s.releaseClient_cases c addr with ⟨_, _, ht⟩ | ⟨_, _, ht⟩
    · rw [ht]
      exact h.log (fun _ => rfl) fun _ => rfl
    · rw [ht]
      exact h
  | @forget s d f c hdoom hhand => exact h.of_get fun c' p hc => get_of_remove hc
  | @settle s d f c r hspec happ hbet hg =>
    rw [WebRtcState.severed_frame, WebRtcState.severed_trace]
    cases (toOwnedServerResult r.2).disconnects with
    | none => exact h
    | some id => exact h.log (fun _ => rfl) fun _ => rfl
  | @rollNext s d f c rest r hspec happ hcur hdoom hej hroll hg =>
    rw [WebRtcState.severed_frame, WebRtcState.severed_trace]
    cases (toOwnedServerResult r.2).disconnects with
    | none => exact h
    | some id => exact h.log (fun _ => rfl) fun _ => rfl
  | @removeNext s d f c rest hrest => exact h.log (fun _ => rfl) fun _ => rfl
  | @clear s d f hhand => exact h.of_get fun c' p hc => by cases hc
  | _ => exact ⟨h.peers, h.hand, h.trace⟩

variable [World W] [LawfulRtc R] [LawfulNetcode N] [LawfulWorld W]

/-- Whatever the peers, the socket and netcode do, each `handle_input` and each
channel write happens on an `Rtc` whose latest event is a poll that returned
`Timeout`. -/
theorem drain_contract {s : WebRtcState N R S W} (h : (WebRtcState.runs N R S W).Reachable s)
    {later earlier : List Event} {e : Event} {c : ClientId} (ht : s.trace = later ++ e :: earlier)
    (he : e.mutates c) : lastOnRtc earlier c = some (.polled c true) := by
  have hinv := WebRtcState.reachable_invariant
    (I := fun a : Cfg N R S W => Keyed a ∧ DrainInv a.st.peers a.drive a.st.trace)
    (fun s hs => ⟨keyed_fresh hs, ?_⟩)
    (fun a b hi hact => ⟨keyed_act hi.1 hact, drainInv_act hi.1 hi.2 hact⟩)
    (fun s server hi => ⟨⟨hi.1.peers, hi.1.hand⟩, hi.2⟩) h
  · exact hinv.1.2.trace later e earlier c ht he
  · obtain ⟨n, addr, shared, rfl, htrace, _⟩ := hs
    refine ⟨fun c p hc => (by cases hc), fun c p hc => (by cases hc), fun later e earlier c heq => ?_⟩
    have heq' : shared.trace = later ++ e :: earlier := heq
    rw [htrace] at heq'
    simp at heq'

/-- One client connects: the latest mutation of its `Rtc` is the answer to the
handshake, made after a poll that returned `Timeout`. -/
theorem drain_contract_handshake : ∃ (s : Demo) (e : Event) (earlier : List Event),
    (WebRtcState.runs Table Script Connections Sockets).Reachable s ∧
    s.trace = .polled 1 true :: e :: earlier ∧ e.mutates 1 = true ∧
    lastOnRtc earlier 1 = some (.polled 1 true) := by
  obtain ⟨s, hs, hp⟩ := demo_any { webRtc := [([1], lan 11)] }
    [.addPeer 1 { name := 1, onInput := [[opens, brings [1, 1]]] }, .update 9 0 0]
    (P := fun s => (s.trace.head? == some (.polled 1 true)) &&
      (s.trace.tail.head?.any fun e => e.mutates 1)) (by decide +kernel)
  rw [Bool.and_eq_true, beq_iff_eq] at hp
  obtain ⟨hhead, htail⟩ := hp
  cases ht : s.trace with
  | nil => rw [ht] at hhead; cases hhead
  | cons e₀ rest =>
    rw [ht] at hhead htail
    cases hhead
    cases rest with
    | nil => cases htail
    | cons e earlier =>
      refine ⟨s, e, earlier, demo_reachable hs, ht, htail, ?_⟩
      exact drain_contract (demo_reachable hs) (show s.trace = [.polled 1 true] ++ e :: earlier from ht) htail

end RenetCross.L4
