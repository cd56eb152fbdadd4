import Mathlib.Data.ENat.Basic
import RenetCross.L4App.Scripted

/-!
# Result processing ends

The `while` of `apply_pending_results` handles results, and handling one can make
more: a send drains the peer's `Rtc`, the events it delivers are netcode packets,
each processed packet is a result, and a peer that is found dead adds one more. What
pays for a new result is an event that is delivered and never comes back, or a peer
that leaves the table. So a state has a `budget`: for every peer the `ChannelData`
events its `Rtc` has not delivered yet, and one for the peer itself. `Spends` says of a
function that the budget and the results that wait do not grow together, and every turn
of the loop takes at least one result out.

Of str0m it is assumed that polling and writing do not create `ChannelData` events
(`DeliversOnce`); only `handle_input` does, which is not called here.
-/
namespace RenetCross.L4

open RenetCross.L2

/-- How many `ChannelData` events a result of `poll_output` delivers. -/
def delivered : Except RtcError Output → Nat
  | .ok (.event (.channelData _ _ _)) => 1
  | _ => 0

/-- `undelivered` counts the `ChannelData` events an `Rtc` holds, perhaps without end. -/
class DeliversOnce (R : Type) [Rtc R] where
  undelivered : R → ℕ∞
  pollOutput : ∀ r : R,
    undelivered (Rtc.pollOutput r).1 + delivered (Rtc.pollOutput r).2 ≤ undelivered r
  write : ∀ (r : R) id bytes, undelivered (Rtc.write r id bytes).1 ≤ undelivered r
  disconnect : ∀ r : R, undelivered (Rtc.disconnect r) ≤ undelivered r

/-- `p'` is what is left of the peer when `n` events were delivered. -/
def ServerPeer.Delivers {R : Type} [Rtc R] [DeliversOnce R] (p p' : ServerPeer R) (n : Nat) : Prop :=
  DeliversOnce.undelivered p'.rtc + n ≤ DeliversOnce.undelivered p.rtc

/-- What a peer may still cost: its undelivered events and its own end. -/
def ServerPeer.cost {R : Type} [Rtc R] [DeliversOnce R] (p : ServerPeer R) : Nat :=
  (DeliversOnce.undelivered p.rtc).toNat + 1

def ServerPeer.Finite {R : Type} [Rtc R] [DeliversOnce R] (p : ServerPeer R) : Prop :=
  DeliversOnce.undelivered p.rtc ≠ ⊤

namespace ServerPeer

variable {R : Type} [Rtc R] [DeliversOnce R] {p p' p'' : ServerPeer R} {n m : Nat}

theorem Delivers.refl (p : ServerPeer R) : p.Delivers p 0 := by
  simp [Delivers]

theorem Delivers.trans (h : p.Delivers p' n) (h' : p'.Delivers p'' m) : p.Delivers p'' (n + m) := by
  unfold Delivers at *
  calc DeliversOnce.undelivered p''.rtc + ((n + m : Nat) : ℕ∞)
      = DeliversOnce.undelivered p''.rtc + m + n := by
        rw [Nat.cast_add, add_assoc, add_comm (n : ℕ∞)]
    _ ≤ DeliversOnce.undelivered p'.rtc + n := by gcongr
    _ ≤ DeliversOnce.undelivered p.rtc := h

theorem Delivers.finite (h : p.Delivers p' n) (hp : p.Finite) :
    p'.Finite ∧ p'.cost + n ≤ p.cost := by
  unfold Delivers Finite cost at *
  generalize DeliversOnce.undelivered p.rtc = a at *
  generalize DeliversOnce.undelivered p'.rtc = b at *
  lift a to ℕ using hp
  have hb : b ≠ ⊤ := by
    intro htop
    rw [htop, top_add] at h
    exact ENat.natCast_ne_top a (top_le_iff.1 h)
  lift b to ℕ using hb
  have hle : b + n ≤ a := by exact_mod_cast h
  refine ⟨ENat.natCast_ne_top b, ?_⟩
  rw [ENat.toNat_natCast, ENat.toNat_natCast]
  omega

theorem delivers_disconnect (p : ServerPeer R) :
    p.Delivers { p with rtc := Rtc.disconnect p.rtc } 0 := by
  have := DeliversOnce.disconnect p.rtc
  simpa [Delivers] using this

end ServerPeer

namespace WebRtcState

variable {N R S W : Type} [NetcodeServer N] [Rtc R] [DeliversOnce R]

/-! ## Driving one peer -/

/-- A function that has a peer in hand: the table and the results that wait are left
alone, and the results it gathers are paid for by the peer's events. -/
structure Gathers (s : WebRtcState N R S W) (p : ServerPeer R) (results : List Outcome)
    (s' : WebRtcState N R S W) (p' : ServerPeer R) (results' : List Outcome) (n : Nat) : Prop where
  peers : s'.peers = s.peers
  pending : s'.pendingServerResults = s.pendingServerResults
  peer : p.Delivers p' 0
  gathered : results'.length ≤ results.length + n

theorem gathers_processPeerPacket (s : WebRtcState N R S W) (p : ServerPeer R) (packet : Packet)
    (results : List Outcome) :
    let r := s.processPeerPacket p packet results
    Gathers s p results r.1 r.2.1 r.2.2 1 := by
  unfold processPeerPacket
  dsimp only
  split
  · split
    · exact ⟨rfl, rfl, p.delivers_disconnect, Nat.le_succ _⟩
    · exact ⟨rfl, rfl, .refl p, by rw [List.length_append]; rfl⟩
  · exact ⟨rfl, rfl, .refl p, by rw [List.length_append]; rfl⟩

variable [World W]

theorem gathers_receivePacket (s : WebRtcState N R S W) (p : ServerPeer R) (data : Bytes)
    (results : List Outcome) :
    let r := s.receivePacket p data results
    Gathers s p results r.1 r.2.1 r.2.2 1 := by
  unfold receivePacket
  dsimp only
  split
  · exact ⟨rfl, rfl, .refl p, Nat.le_succ _⟩
  · obtain ⟨hpeers, hpending, hpeer, hlen⟩ := gathers_processPeerPacket
      { s.log (.arrived ⟨data, s.tagNow p.clientId⟩) with
        toShared := ((s.log (.arrived ⟨data, s.tagNow p.clientId⟩)).packetGate.defer .incoming
          (.webRtc p.clientId) ⟨data, s.tagNow p.clientId⟩
          (s.log (.arrived ⟨data, s.tagNow p.clientId⟩)).toShared).1 }
      p ⟨data, s.tagNow p.clientId⟩ results
    exact ⟨hpeers, hpending, hpeer, hlen⟩

/-- Only a message on the data channel can make a result. -/
theorem gathers_handlePeerEvent (s : WebRtcState N R S W) (p : ServerPeer R) (event : RtcEvent)
    (results : List Outcome) :
    let r := s.handlePeerEvent p event results
    Gathers s p results r.1 r.2.1 r.2.2 (delivered (.ok (.event event))) := by
  have hkeep : Gathers s p results s p results 0 := ⟨rfl, rfl, .refl p, Nat.le_refl _⟩
  have hcut : Gathers s p results s { p with rtc := Rtc.disconnect p.rtc } results 0 :=
    ⟨rfl, rfl, p.delivers_disconnect, Nat.le_refl _⟩
  unfold handlePeerEvent
  cases event with
  | channelOpen id =>
    dsimp only
    split
    · exact ⟨rfl, rfl, .refl p, Nat.le_refl _⟩
    · exact hkeep
  | channelData id binary data =>
    dsimp only
    split
    · exact ⟨rfl, rfl, .refl p, Nat.le_succ _⟩
    · exact gathers_receivePacket s p data results
  | iceConnectionStateChange disconnected =>
    dsimp only
    split
    · exact hcut
    · exact hkeep
  | channelClose id =>
    dsimp only
    split
    · exact hcut
    · exact hkeep
  | other => exact hkeep

/-- A drain, whatever ends it: `n` events were delivered and gave at most `n` results. -/
structure Drains (s : WebRtcState N R S W) (p : ServerPeer R) (results : List Outcome)
    (s' : WebRtcState N R S W) (p' : ServerPeer R) (results' : List Outcome) : Prop where
  peers : s'.peers = s.peers
  pending : s'.pendingServerResults = s.pendingServerResults
  paid : ∃ n, p.Delivers p' n ∧ results'.length ≤ results.length + n

theorem drains_drainOutput (n : Nat) :
    ∀ (s : WebRtcState N R S W) (p : ServerPeer R) (results : List Outcome),
      let r := drainOutput n s p results
      Drains s p results r.1 r.2.1 r.2.2.1 := by
  induction n with
  | zero => intro s p results; exact ⟨rfl, rfl, 0, .refl p, Nat.le_refl _⟩
  | succ n ih =>
    intro s p results
    have hpoll : p.Delivers { p with rtc := (Rtc.pollOutput p.rtc).1 }
        (delivered (Rtc.pollOutput p.rtc).2) := DeliversOnce.pollOutput p.rtc
    unfold drainOutput
    dsimp only
    cases hout : (Rtc.pollOutput p.rtc).2 with
    | error error =>
      rw [hout] at hpoll
      exact ⟨rfl, rfl, 0, hpoll, Nat.le_refl _⟩
    | ok output =>
      rw [hout] at hpoll
      cases output with
      | timeout deadline => exact ⟨rfl, rfl, 0, hpoll, Nat.le_refl _⟩
      | transmit contents destination =>
        dsimp only
        have hnext : ∀ s' : WebRtcState N R S W, s'.peers = s.peers →
            s'.pendingServerResults = s.pendingServerResults →
            let r := drainOutput n s' { p with rtc := (Rtc.pollOutput p.rtc).1 } results
            Drains s p results r.1 r.2.1 r.2.2.1 := by
          intro s' hpeers hpending
          obtain ⟨hp, hq, k, hk, hlen⟩ := ih s' { p with rtc := (Rtc.pollOutput p.rtc).1 } results
          exact ⟨hp.trans hpeers, hq.trans hpending, 0 + k, hpoll.trans hk, by omega⟩
        split
        · exact hnext _ rfl rfl
        · split
          · exact hnext _ rfl rfl
          · exact ⟨rfl, rfl, 0, hpoll, Nat.le_refl _⟩
      | event event =>
        dsimp only
        have hevent := gathers_handlePeerEvent (s.log (.polled p.clientId false))
          { p with rtc := (Rtc.pollOutput p.rtc).1 } event results
        obtain ⟨hp, hq, k, hk, hlen⟩ := ih _ _ _
        refine ⟨hp.trans hevent.peers, hq.trans hevent.pending,
          delivered (.ok (.event event)) + 0 + k, (hpoll.trans hevent.peer).trans hk, ?_⟩
        have := hevent.gathered
        omega

theorem drivePeer_spec (s : WebRtcState N R S W) (p : ServerPeer R) :
    (s.drivePeer p).1.peers = s.peers ∧ ∃ n, p.Delivers (s.drivePeer p).2 n ∧
      (s.drivePeer p).1.pendingServerResults.length ≤ s.pendingServerResults.length + n := by
  obtain ⟨hpeers, hpending, n, hn, hlen⟩ := drains_drainOutput MAX_WEBRTC_DRAIN_STEPS_PER_PEER s
    { p with nextTimeout := none } []
  unfold drivePeer drivePeerWithLimit
  generalize drainOutput MAX_WEBRTC_DRAIN_STEPS_PER_PEER s { p with nextTimeout := none } [] = d
    at hpeers hpending hn hlen
  dsimp only
  cases hend : d.2.2.2 with
  | none =>
    refine ⟨hpeers, n, hn, ?_⟩
    dsimp only
    rw [List.length_append, hpending]
    simpa using hlen
  | some error =>
    refine ⟨hpeers, n, hn.trans d.2.1.delivers_disconnect, ?_⟩
    show d.1.pendingServerResults.length ≤ _
    rw [hpending]
    exact Nat.le_add_right _ _

/-! ## The budget -/

/-- What all peers may still cost. -/
def budget (s : WebRtcState N R S W) : Nat := s.peers.sumBy fun _ p => p.cost

/-- Every peer holds finitely many events, and the budget together with the results
that wait is at most `n`. -/
structure Within (n : Nat) (s : WebRtcState N R S W) : Prop where
  finite : ∀ c p, s.peers.get c = some p → p.Finite
  total : s.budget + s.pendingServerResults.length ≤ n

namespace Within

variable {n : Nat} {s s' : WebRtcState N R S W}

section

omit [NetcodeServer N] [World W]

/-- Only the peers and the waiting results count. -/
theorem of_eq (h : Within n s) (hpeers : s'.peers = s.peers)
    (hpending : s'.pendingServerResults = s.pendingServerResults) : Within n s' := by
  refine ⟨?_, ?_⟩
  · rw [hpeers]
    exact h.finite
  · unfold budget
    rw [hpeers, hpending]
    exact h.total

/-- A peer leaves the table; its cost is free for that many results. -/
theorem taken (h : Within n s) {c : ClientId} {p : ServerPeer R} (hp : s.peers.get c = some p)
    (hpeers : s'.peers = s.peers.remove c)
    (hpending : s'.pendingServerResults.length ≤ s.pendingServerResults.length + p.cost) :
    Within n s' := by
  refine ⟨fun c' p' hp' => ?_, ?_⟩
  · rw [hpeers, HashMap.get_remove] at hp'
    split at hp'
    · cases hp'
    · exact h.finite c' p' hp'
  · have hsum := HashMap.sumBy_remove hp fun _ (p : ServerPeer R) => p.cost
    have := h.total
    unfold budget at this ⊢
    rw [hpeers]
    omega

/-- A peer's entry is replaced by one that delivered as many events as there are new
results. -/
theorem replaced (h : Within n s) {c : ClientId} {p p' : ServerPeer R}
    (hp : s.peers.get c = some p) {k : Nat} (hd : p.Delivers p' k)
    (hpeers : s'.peers = (s.peers.remove c).insert c p' ∨ s'.peers = s.peers.insert c p')
    (hpending : s'.pendingServerResults.length ≤ s.pendingServerResults.length + k) :
    Within n s' := by
  obtain ⟨hfin, hcost⟩ := hd.finite (h.finite c p hp)
  have hget : ∀ c', s'.peers.get c' = if c' = c then some p' else s.peers.get c' := by
    intro c'
    rcases hpeers with heq | heq
    · rw [heq, HashMap.get_insert, HashMap.get_remove]
      split <;> rfl
    · rw [heq, HashMap.get_insert]
  refine ⟨fun c' q hq => ?_, ?_⟩
  · rw [hget] at hq
    split at hq
    · cases hq
      exact hfin
    · exact h.finite c' q hq
  · have hsum := HashMap.sumBy_remove hp fun _ (p : ServerPeer R) => p.cost
    have hsum' : s'.budget = (s.peers.insert c p').sumBy fun _ (p : ServerPeer R) => p.cost := by
      refine HashMap.sumBy_eq_of_get (fun c' => ?_) _
      rw [hget, HashMap.get_insert]
    rw [HashMap.sumBy_insert] at hsum'
    have := h.total
    unfold budget at this
    omega

/-- Removing an entry, whether or not there is one, and results. -/
theorem shrunk (h : Within n s) {c : ClientId} (hpeers : s'.peers = s.peers.remove c)
    (hpending : s'.pendingServerResults.length ≤ s.pendingServerResults.length) : Within n s' := by
  cases hp : s.peers.get c with
  | some p => exact h.taken hp hpeers (by omega)
  | none =>
    refine ⟨fun c' p' hp' => ?_, ?_⟩
    · rw [hpeers, HashMap.get_remove] at hp'
      split at hp'
      · cases hp'
      · exact h.finite c' p' hp'
    · have hsum := HashMap.sumBy_remove_of_none hp fun _ (p : ServerPeer R) => p.cost
      have := h.total
      unfold budget at this ⊢
      rw [hpeers, hsum]
      omega

end

/-! ## Every function keeps within it -/

theorem flushPeerOutput (h : Within n s) (c : ClientId) : Within n (s.flushPeerOutput c) := by
  have htear : ∀ s : WebRtcState N R S W, (s.tearDown c).peers = s.peers ∧
      (s.tearDown c).pendingServerResults.length = s.pendingServerResults.length + 1 := by
    intro s
    exact ⟨rfl, List.length_append⟩
  unfold WebRtcState.flushPeerOutput
  cases hp : s.peers.get c with
  | none => exact h
  | some p =>
    dsimp only
    split
    · obtain ⟨hpeers, k, hk, hlen⟩ := drivePeer_spec { s with peers := s.peers.remove c } p
      obtain ⟨-, hcost⟩ := hk.finite (h.finite c p hp)
      generalize drivePeer { s with peers := s.peers.remove c } p = d at hpeers hk hlen hcost
      unfold putBack
      split
      · refine h.replaced hp hk (.inl ?_) hlen
        dsimp only
        rw [hpeers]
      · obtain ⟨hsame, hone⟩ := htear d.1
        refine h.taken hp (hsame.trans hpeers) ?_
        have hpos : 1 ≤ d.2.cost := Nat.le_add_left _ _
        dsimp only at hlen
        omega
    · unfold putBack
      split
      · exact h.replaced hp (.refl p) (.inl rfl) (Nat.le_refl _)
      · obtain ⟨hsame, hone⟩ := htear { s with peers := s.peers.remove c }
        refine h.taken hp hsame ?_
        have hpos : 1 ≤ p.cost := Nat.le_add_left _ _
        dsimp only at hone
        omega

theorem sendToPeerBackend (h : Within n s) (c : ClientId) (p : Packet) :
    Within n (s.sendToPeerBackend c p).1 := by
  have hflush := h.flushPeerOutput c
  unfold WebRtcState.sendToPeerBackend
  dsimp only
  generalize s.flushPeerOutput c = s at hflush
  split
  · exact hflush
  · rename_i peer hpeer
    split
    · exact hflush
    · rename_i id _
      have hwrite : peer.Delivers { peer with rtc := (Rtc.write peer.rtc id p.bytes).1 } 0 := by
        have := DeliversOnce.write peer.rtc id p.bytes
        simpa [ServerPeer.Delivers] using this
      have hset : Within n ((s.setRtc c peer (Rtc.write peer.rtc id p.bytes).1).log (.wrote c p)) :=
        hflush.replaced hpeer hwrite (.inr rfl) (Nat.le_refl _)
      have hlast := hset.flushPeerOutput c
      split
      · exact hlast
      · exact hlast

theorem sendToPeerUnconditioned (h : Within n s) (c : ClientId) (p : Packet) :
    Within n (s.sendToPeerUnconditioned c p).1 := by
  unfold WebRtcState.sendToPeerUnconditioned
  dsimp only
  split
  · refine of_eq (sendToPeerBackend (of_eq h ?_ ?_) c p) rfl rfl
    · rfl
    · rfl
  · exact h.of_eq rfl rfl

theorem sendToPeerLossy (h : Within n s) (c : ClientId) (p : Packet) :
    Within n (s.sendToPeerLossy c p) := by
  unfold WebRtcState.sendToPeerLossy sendToPeer
  split
  · dsimp only
    split
    · exact h.of_eq rfl rfl
    · refine sendToPeerUnconditioned (of_eq h ?_ ?_) c p
      · rfl
      · rfl
  · exact h

theorem sendOptional (h : Within n s) (c : ClientId) (tag : Tag) (payload : Option Bytes) :
    Within n (s.sendOptional c tag payload) := by
  cases payload with
  | none => exact h
  | some payload => exact h.sendToPeerLossy c _

theorem removePeer (h : Within n s) (c : ClientId) : Within n (s.removePeer c) := by
  refine h.shrunk (c := c) ?_ ?_
  · rw [removePeer_eq, expelled_peers]
    rfl
  · rw [removePeer_pending]
    exact List.length_filter_le _ _

theorem rejectDuplicate (h : Within n s) (c : ClientId) : Within n (s.rejectDuplicate c) := by
  have hcut : Within n (s.disconnectDuplicate c) := h.of_eq rfl rfl
  unfold WebRtcState.rejectDuplicate
  dsimp only
  exact (hcut.sendOptional c _ _).removePeer c

variable [RenetServer S]

theorem handleServerResult (h : Within n s) (o : Outcome) : Within n (s.handleServerResult o) := by
  unfold WebRtcState.handleServerResult
  cases o.result with
  | none => exact h
  | packetToSend addr payload =>
    dsimp only [dispatch]
    split
    · refine sendToPeerLossy (of_eq h ?_ ?_) _ _
      · rfl
      · rfl
    · exact h.of_eq rfl rfl
  | payload c payload => exact h.of_eq rfl rfl
  | clientConnected c addr payload =>
    dsimp only
    split
    · exact h.rejectDuplicate c
    · have hin : Within n (s.admitClient c addr o.tag) := h.of_eq rfl rfl
      exact hin.sendToPeerLossy c _
  | clientDisconnected c addr payload =>
    have hrel : Within n (s.releaseClient c addr) := by
      refine h.of_eq ?_ ?_
      · rw [releaseClient_frame]
      · rw [releaseClient_frame]
    have hsent := hrel.sendOptional c o.tag payload
    exact hsent.shrunk (c := c) rfl (Nat.le_refl _)

theorem handleAll (results : List Outcome) :
    ∀ {s : WebRtcState N R S W}, Within n s → Within n (handleAll results s) := by
  induction results with
  | nil => intro s h; exact h
  | cons o rest ih =>
    intro s h
    have hone : Within n { s with applying := rest } := h.of_eq rfl rfl
    exact ih (hone.handleServerResult o)

/-- A turn of the loop takes out at least one result. -/
theorem handlePending (h : Within (n + 1) s) (hne : s.pendingServerResults ≠ []) :
    Within n s.handlePending := by
  have hpos := List.length_pos_of_ne_nil hne
  have hstart : Within n
      { s with applying := s.pendingServerResults, pendingServerResults := [] } := by
    refine ⟨h.finite, ?_⟩
    have := h.total
    show s.budget + 0 ≤ n
    omega
  exact handleAll s.pendingServerResults hstart

/-- As many turns as the budget and the waiting results are enough, and more do no harm. -/
theorem applyLoop (n : Nat) :
    ∀ {s : WebRtcState N R S W}, Within n s →
      ∃ s', s'.pendingServerResults = [] ∧ ∀ fuel, n ≤ fuel → applyLoop fuel s = some s' := by
  have hdone : ∀ {s : WebRtcState N R S W}, s.pendingServerResults = [] →
      ∀ fuel, WebRtcState.applyLoop fuel s = some s := by
    intro s hnil fuel
    cases fuel with
    | zero => exact if_pos hnil
    | succ fuel => exact if_pos hnil
  induction n with
  | zero =>
    intro s h
    have hnil : s.pendingServerResults = [] := by
      have := h.total
      exact List.eq_nil_of_length_eq_zero (by omega)
    exact ⟨s, hnil, fun fuel _ => hdone hnil fuel⟩
  | succ n ih =>
    intro s h
    by_cases hnil : s.pendingServerResults = []
    · exact ⟨s, hnil, fun fuel _ => hdone hnil fuel⟩
    · obtain ⟨s', hs', hrun⟩ := ih (h.handlePending hnil)
      refine ⟨s', hs', fun fuel hfuel => ?_⟩
      cases fuel with
      | zero => omega
      | succ fuel =>
        unfold WebRtcState.applyLoop
        rw [if_neg hnil]
        exact hrun fuel (by omega)

end Within

omit [NetcodeServer N] [Rtc R] [DeliversOnce R] in
theorem drainRemovals_frame [RenetServer S] (s : WebRtcState N R S W) :
    s.drainRemovals.peers = s.peers ∧
      s.drainRemovals.pendingServerResults = s.pendingServerResults := by
  have hfold : ∀ (ids : List ClientId) (s : WebRtcState N R S W),
      (ids.foldl removeConnection s).peers = s.peers ∧
        (ids.foldl removeConnection s).pendingServerResults = s.pendingServerResults := by
    intro ids
    induction ids with
    | nil => intro s; exact ⟨rfl, rfl⟩
    | cons c ids ih => intro s; exact ih (s.removeConnection c)
  exact hfold _ _

variable [RenetServer S]

/-- `apply_pending_results` ends in every state whose peers hold finitely many
undelivered events, and leaves no result behind. Its loop makes at most as many turns
as there are peers, undelivered events and waiting results. -/
theorem result_processing_ends (s : WebRtcState N R S W)
    (h : ∀ c p, s.peers.get c = some p → DeliversOnce.undelivered p.rtc ≠ ⊤) :
    ∃ s', s'.pendingServerResults = [] ∧
      ∀ fuel, s.budget + s.pendingServerResults.length ≤ fuel →
        s.applyPendingResults fuel = some s' := by
  have hs : Within (s.budget + s.pendingServerResults.length) s := ⟨h, Nat.le_refl _⟩
  obtain ⟨hpeers, hpending⟩ := drainRemovals_frame s
  exact Within.applyLoop _ (hs.of_eq hpeers hpending)

end WebRtcState

/-! ## A peer that answers what it is sent -/

/-- How many of the prepared outputs are messages on a channel. -/
def messages (out : List (Except RtcError Output)) : Nat := (out.map delivered).sum

instance : DeliversOnce Script where
  undelivered r := messages r.out
  pollOutput r := by
    show (messages r.pollOutput.1.out : ℕ∞) + (delivered r.pollOutput.2 : ℕ∞) ≤
      (messages r.out : ℕ∞)
    rw [← Nat.cast_add, Nat.cast_le]
    unfold Script.pollOutput
    split
    · exact Nat.le_refl _
    · rename_i output rest hout
      simp only [hout, messages, List.map_cons, List.sum_cons]
      omega
  write _ _ _ := le_rfl
  disconnect _ := le_rfl

/-- A peer with a question and a message on its channel, and a packet for it. -/
def answering : Demo :=
  let s := (demoStart {}).addPeer 5 { name := 1, out := [opens, brings [4], brings [1, 5]] }
  { s with pendingServerResults := [⟨.packetToSend (virtualAddrForClient 5) [9], s.tagNow 5⟩] }

/-- Four turns are enough: the packet is sent, which makes two results more. -/
theorem result_processing_ends_answering :
    ∃ s', s'.pendingServerResults = [] ∧ answering.applyPendingResults 4 = some s' := by
  obtain ⟨s', hs', hrun⟩ := answering.result_processing_ends (by
    intro c p _
    exact ENat.natCast_ne_top _)
  exact ⟨s', hs', hrun 4 (by decide +kernel)⟩

end RenetCross.L4
