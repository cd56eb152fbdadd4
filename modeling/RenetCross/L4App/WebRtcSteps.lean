import RenetCross.L4App.WebRtcActs

/-!
# The WebRTC transport's operations as sequences of steps

For every function of the model a lemma `steps_f` says that it is a sequence of
steps of `Act` from the locals it is entered with to those it leaves. `step_steps`
puts them together for the public operations, and `run_invariant` turns an
invariant of `Act` into one of whole runs.
-/
namespace RenetCross.L4

open RenetCross.L2 Relation

variable {N R S W : Type} [NetcodeServer N] [Rtc R] [RenetServer S]

namespace WebRtcState

/-! ## Driving one peer -/

/-- A packet of the peer in hand is one netcode call, and a result that is gathered or, for
another identity, thrown away with the client it connected. -/
theorem steps_processPeerPacket (s : WebRtcState N R S W) (c c' : ClientId) (peer : ServerPeer R)
    (packet : Packet) (results : List Outcome) (f : Frame) (h : c' = c ∨ c' = peer.clientId) :
    SteadySteps ⟨s, { hand := some (c, peer), gathered := results, parcel := some (c', packet) }, f⟩
      ⟨(s.processPeerPacket peer packet results).1,
        { hand := some (c, (s.processPeerPacket peer packet results).2.1)
          gathered := (s.processPeerPacket peer packet results).2.2 }, f⟩ := by
  unfold processPeerPacket
  set r := NetcodeServer.processPacket s.netcodeServer peer.virtualAddr packet.bytes with hr
  dsimp only
  cases hc : (toOwnedServerResult r.2).connects with
  | none =>
    refine .single ⟨.process c c' peer packet r rfl rfl h hr fun id hid => ?_, rfl, rfl⟩
    rw [hc] at hid
    cases hid
  | some id =>
    dsimp only
    by_cases hid : id = peer.clientId
    · rw [if_neg (not_not.2 hid)]
      refine .single ⟨.process c c' peer packet r rfl rfl h hr fun id' hid' => ?_, rfl, rfl⟩
      rw [hc] at hid'
      cases hid'
      exact hid
    · rw [if_pos hid]
      refine .tail (.single ⟨.processForeign c c' id peer packet r rfl rfl h hr hc hid, rfl, rfl⟩) ?_
      exact ⟨.touchHand c peer { peer with rtc := Rtc.disconnect peer.rtc } rfl
        ⟨rfl, rfl, rfl, rfl⟩, rfl, rfl⟩

omit [RenetServer S] in
/-- Processing may disconnect the `Rtc`; the rest of the peer stays. -/
theorem processPeerPacket_retains (s : WebRtcState N R S W) (peer : ServerPeer R) (packet : Packet)
    (results : List Outcome) : peer.Retains (s.processPeerPacket peer packet results).2.1 := by
  unfold processPeerPacket
  dsimp only
  split
  · split <;> exact ⟨rfl, rfl, rfl, rfl⟩
  · exact ⟨rfl, rfl, rfl, rfl⟩

variable [World W]

/-- A message on the channel waits at the gate, or is processed at once. -/
theorem steps_receivePacket (s : WebRtcState N R S W) (c : ClientId) (peer : ServerPeer R)
    (data : Bytes) (results : List Outcome) (f : Frame) :
    SteadySteps ⟨s, { hand := some (c, peer), gathered := results }, f⟩
      ⟨(s.receivePacket peer data results).1,
        { hand := some (c, (s.receivePacket peer data results).2.1)
          gathered := (s.receivePacket peer data results).2.2 }, f⟩ := by
  unfold receivePacket
  dsimp only
  refine .head ⟨.arrive c peer data rfl rfl, rfl, rfl⟩ ?_
  refine .head ⟨.stockIn peer.clientId ⟨data, s.tagNow peer.clientId⟩ _ rfl
    (ServerPacketGate.defer_step _ _ _ _ _), rfl, rfl⟩ ?_
  split
  · exact .single ⟨.discard, rfl, rfl⟩
  · exact steps_processPeerPacket _ c peer.clientId peer _ results f (.inr rfl)

omit [RenetServer S] in
theorem receivePacket_retains (s : WebRtcState N R S W) (peer : ServerPeer R) (data : Bytes)
    (results : List Outcome) : peer.Retains (s.receivePacket peer data results).2.1 := by
  unfold receivePacket
  dsimp only
  split
  · exact ⟨rfl, rfl, rfl, rfl⟩
  · exact processPeerPacket_retains _ _ _ _

omit [RenetServer S] in
theorem handlePeerEvent_retains (s : WebRtcState N R S W) (peer : ServerPeer R) (event : RtcEvent)
    (results : List Outcome) : peer.Retains (s.handlePeerEvent peer event results).2.1 := by
  unfold handlePeerEvent
  cases event with
  | channelData id binary data =>
    dsimp only
    split
    · exact ⟨rfl, rfl, rfl, rfl⟩
    · exact receivePacket_retains s peer data results
  | other => exact ⟨rfl, rfl, rfl, rfl⟩
  | _ => dsimp only; split <;> exact ⟨rfl, rfl, rfl, rfl⟩

omit [World W] in
/-- An event that at most changes the peer. -/
theorem steps_touch (s : WebRtcState N R S W) (c : ClientId) {peer peer' : ServerPeer R}
    (results : List Outcome) (f : Frame) (h : peer.Retains peer') :
    SteadySteps ⟨s, { hand := some (c, peer), gathered := results }, f⟩
      ⟨s, { hand := some (c, peer'), gathered := results }, f⟩ :=
  .single ⟨.touchHand c peer peer' rfl h, rfl, rfl⟩

/-- One case for each event of the `Rtc` that the transport looks at. -/
theorem steps_handlePeerEvent (s : WebRtcState N R S W) (c : ClientId) (peer : ServerPeer R)
    (event : RtcEvent) (results : List Outcome) (f : Frame) :
    SteadySteps ⟨s, { hand := some (c, peer), gathered := results }, f⟩
      ⟨(s.handlePeerEvent peer event results).1,
        { hand := some (c, (s.handlePeerEvent peer event results).2.1)
          gathered := (s.handlePeerEvent peer event results).2.2 }, f⟩ := by
  unfold handlePeerEvent
  cases event with
  | channelData id binary data =>
    dsimp only
    split
    · exact .refl
    · exact steps_receivePacket s c peer data results f
  | other => exact .refl
  | channelOpen id =>
    dsimp only
    split
    · exact steps_touch s c results f ⟨rfl, rfl, rfl, rfl⟩
    · exact .refl
  | channelClose id =>
    dsimp only
    split
    · exact steps_touch s c results f ⟨rfl, rfl, rfl, rfl⟩
    · exact .refl
  | iceConnectionStateChange disconnected =>
    dsimp only
    split
    · exact steps_touch s c results f ⟨rfl, rfl, rfl, rfl⟩
    · exact .refl

/-- By induction on the steps left; the peer is undrained before each poll. -/
theorem steps_drainOutput (c : ClientId) (f : Frame) : ∀ (n : Nat) (s : WebRtcState N R S W)
    (peer : ServerPeer R) (results : List Outcome), peer.nextTimeout = none →
    SteadySteps ⟨s, { hand := some (c, peer), gathered := results }, f⟩
      ⟨(drainOutput n s peer results).1,
        { hand := some (c, (drainOutput n s peer results).2.1)
          gathered := (drainOutput n s peer results).2.2.1 }, f⟩
  | 0, _, _, _, _ => .refl
  | n + 1, s, peer, results, hnone => by
    unfold drainOutput
    dsimp only
    cases hpoll : (Rtc.pollOutput peer.rtc).2 with
    | error error => exact .single ⟨.polled c peer _ rfl hnone, rfl, rfl⟩
    | ok output =>
      cases output with
      | timeout deadline => exact .single ⟨.polledTimeout c peer _ deadline rfl hnone, rfl, rfl⟩
      | transmit contents destination =>
        dsimp only
        refine .head ⟨.polled c peer (Rtc.pollOutput peer.rtc).1 rfl hnone, rfl, rfl⟩ ?_
        refine .head
          ⟨.ambient (World.sendTo .webRtc s.world contents destination).1 s.egress, rfl, rfl⟩ ?_
        split
        · exact steps_drainOutput c f n _ _ results hnone
        · split
          · exact steps_drainOutput c f n _ _ results hnone
          · exact .refl
      | event event =>
        dsimp only
        refine .head ⟨.polled c peer (Rtc.pollOutput peer.rtc).1 rfl hnone, rfl, rfl⟩ ?_
        refine .trans (steps_handlePeerEvent _ c _ event results f) ?_
        refine steps_drainOutput c f n _ _ _ ?_
        rw [(handlePeerEvent_retains _ _ event results).nextTimeout]
        exact hnone

/-- A peer that is not alive is torn down, whatever its drain came to. -/
theorem steps_tearDown (s : WebRtcState N R S W) (c : ClientId) (peer : ServerPeer R) (f : Frame)
    (failed : Bool) {dirty : Option ClientId} (hd : dirty = none ∨ dirty = some c)
    (hdead : Rtc.isAlive peer.rtc = false) :
    SteadySteps ⟨s, { hand := some (c, peer), failed := failed, dirty := dirty }, f⟩
      ⟨s.putBack c peer, {}, f⟩ := by
  unfold putBack
  rw [hdead]
  refine .head ⟨.gate s.packetGate _ (ServerPacketGate.remove_shrinks _ (.webRtc c) _), rfl, rfl⟩ ?_
  exact .single ⟨.tearDown c peer rfl rfl hd, rfl, rfl⟩

/-- The peer returns to the map if it is alive, and is torn down otherwise. -/
theorem steps_putBack (s : WebRtcState N R S W) (c : ClientId) (peer : ServerPeer R) (f : Frame) :
    SteadySteps ⟨s, { hand := some (c, peer) }, f⟩ ⟨s.putBack c peer, {}, f⟩ := by
  cases halive : Rtc.isAlive peer.rtc with
  | false => exact steps_tearDown s c peer f false (.inl rfl) halive
  | true =>
    unfold putBack
    rw [halive]
    exact .single ⟨.putDown c peer rfl rfl rfl rfl, rfl, rfl⟩

variable [LawfulRtc R]

/-- The drain, and the disconnect that follows a failed one. -/
theorem steps_drivePeer (s : WebRtcState N R S W) (c : ClientId) (peer : ServerPeer R) (f : Frame)
    {dirty : Option ClientId} (hd : dirty = none ∨ dirty = some c) :
    SteadySteps ⟨s, { hand := some (c, peer), dirty := dirty }, f⟩
      ⟨(s.drivePeer peer).1.putBack c (s.drivePeer peer).2, {}, f⟩ := by
  refine .head ⟨.startDrain c peer rfl hd, rfl, rfl⟩ ?_
  refine .trans (steps_drainOutput c f MAX_WEBRTC_DRAIN_STEPS_PER_PEER s _ [] rfl) ?_
  unfold drivePeer drivePeerWithLimit
  set r := drainOutput MAX_WEBRTC_DRAIN_STEPS_PER_PEER s { peer with nextTimeout := none } []
  dsimp only
  split
  · exact .head ⟨.commit rfl, rfl, rfl⟩ (steps_putBack _ c _ f)
  · refine .head ⟨.touchHand c _ { r.2.1 with rtc := Rtc.disconnect r.2.1.rtc } rfl
      ⟨rfl, rfl, rfl, rfl⟩, rfl, rfl⟩ ?_
    refine .head ⟨.lose c _ rfl, rfl, rfl⟩ ?_
    exact steps_tearDown _ c { r.2.1 with rtc := Rtc.disconnect r.2.1.rtc } f true (.inl rfl)
      (LawfulRtc.disconnect _)

/-- After a mutation of the peer's `Rtc`, or at any other time. -/
theorem steps_flush (s : WebRtcState N R S W) (c : ClientId) (f : Frame) {dirty : Option ClientId}
    (hd : dirty = none ∨ dirty = some c) (hp : s.peers.get c = none → dirty = none) :
    SteadySteps ⟨s, { dirty := dirty }, f⟩ ⟨s.flushPeerOutput c, {}, f⟩ := by
  unfold flushPeerOutput
  cases hc : s.peers.get c with
  | none => rw [hp hc]
  | some peer =>
    dsimp only
    refine .head ⟨.pickUp c peer hc rfl rfl, rfl, rfl⟩ ?_
    cases halive : Rtc.isAlive peer.rtc with
    | false => exact steps_tearDown _ c peer f false hd halive
    | true => exact steps_drivePeer _ c peer f hd

theorem steps_flushPeerOutput (s : WebRtcState N R S W) (c : ClientId) (f : Frame) :
    SteadySteps ⟨s, {}, f⟩ ⟨s.flushPeerOutput c, {}, f⟩ :=
  steps_flush s c f (.inl rfl) fun _ => rfl

/-! ## Sending -/

omit [LawfulRtc R] in
/-- A channel that may be written to belongs to a drained `Rtc`. -/
theorem openChannel_ok {c : ClientId} {peer : ServerPeer R} {id : Nat}
    (h : openChannel c peer = .ok id) : peer.nextTimeout ≠ none := by
  unfold openChannel at h
  split at h
  · cases h
  · assumption

/-- A flush, a write to the drained `Rtc`, and the flush that the write asks for. -/
theorem steps_sendToPeerBackend (s : WebRtcState N R S W) (c : ClientId) (p : Packet) (f : Frame)
    (h : (c, p) ∈ f.outbox) :
    SteadySteps ⟨s, {}, f⟩ ⟨(s.sendToPeerBackend c p).1, {}, f⟩ := by
  unfold sendToPeerBackend
  dsimp only
  refine .trans (steps_flushPeerOutput s c f) ?_
  cases hc : (s.flushPeerOutput c).peers.get c with
  | none => exact .refl
  | some peer =>
    dsimp only
    cases hopen : openChannel c peer with
    | error error => exact .refl
    | ok id =>
      dsimp only
      refine .head ⟨.write c peer (Rtc.write peer.rtc id p.bytes).1 p hc (openChannel_ok hopen) rfl
        rfl h, rfl, rfl⟩ ?_
      have hflush := steps_flush (((s.flushPeerOutput c).setRtc c peer
        (Rtc.write peer.rtc id p.bytes).1).log (.wrote c p)) c f (.inr (rfl : some c = some c))
        fun hnone => by simp [log, setRtc] at hnone
      split <;> exact hflush

theorem steps_sendToPeerUnconditioned (s : WebRtcState N R S W) (c : ClientId) (p : Packet)
    (f : Frame) (h : (c, p) ∈ f.outbox) :
    SteadySteps ⟨s, {}, f⟩ ⟨(s.sendToPeerUnconditioned c p).1, {}, f⟩ := by
  unfold sendToPeerUnconditioned
  dsimp only
  refine .head ⟨.ambient (World.egressNow s.world).1
    (s.egress.admitAt c p.bytes 0 (World.egressNow s.world).2).1, rfl, rfl⟩ ?_
  split
  · refine .trans (steps_sendToPeerBackend _ c p f h) ?_
    exact .single ⟨.ambient _ _, rfl, rfl⟩
  · exact .refl

theorem steps_sendToPeerLossy (s : WebRtcState N R S W) (c : ClientId) (p : Packet) (f : Frame)
    (h : (c, p) ∈ f.outbox) : SteadySteps ⟨s, {}, f⟩ ⟨s.sendToPeerLossy c p, {}, f⟩ := by
  unfold sendToPeerLossy sendToPeer
  split
  · dsimp only
    refine .head ⟨.stockOut c p _ h (ServerPacketGate.defer_step _ _ _ _ _), rfl, rfl⟩ ?_
    split
    · exact .refl
    · exact steps_sendToPeerUnconditioned _ c p f h
  · exact .refl

theorem steps_sendOptional (s : WebRtcState N R S W) (c : ClientId) (tag : Tag)
    (payload : Option Bytes) (f : Frame)
    (h : ∀ bytes, payload = some bytes → (c, (⟨bytes, tag⟩ : Packet)) ∈ f.outbox) :
    SteadySteps ⟨s, {}, f⟩ ⟨s.sendOptional c tag payload, {}, f⟩ := by
  cases payload with
  | none => exact .refl
  | some bytes => exact steps_sendToPeerLossy s c _ f (h bytes rfl)

/-! ## Netcode results -/

omit [LawfulRtc R] in
theorem steps_removePeer (s : WebRtcState N R S W) (c : ClientId) (f : Frame)
    (h : f.ejected = some c ∨ f.ejected = none ∧ s.applying = []) (hcur : f.current = none) :
    QuietSteps ⟨s, {}, f⟩ ⟨s.removePeer c, {}, { f with ejected := none }⟩ := by
  refine .head ⟨.gate s.packetGate _ (ServerPacketGate.remove_shrinks _ (.webRtc c) _), rfl⟩ ?_
  exact .single ⟨.expel c h rfl rfl rfl hcur, expelled_applying _ c⟩

/-- A frame between two results; `outbox` and the other locals are empty. -/
theorem steps_handleServerResult [LawfulNetcode N] (s : WebRtcState N R S W) (o : Outcome)
    (swept : Bool) (roll : Option (List ClientId)) (inbox : List (ServerPeerId × Packet))
    (h : o.result.connects ≠ none → swept = true ∧ roll = none) :
    QuietSteps ⟨s, {}, { current := some o, swept := swept, roll := roll, inbox := inbox }⟩
      ⟨s.handleServerResult o, {}, { swept := swept, roll := roll, inbox := inbox }⟩ := by
  have hempty : ∀ (t : WebRtcState N R S W) (f : Frame),
      QuietSteps ⟨t, {}, f⟩ ⟨t, {}, { f with outbox := [] }⟩ := fun t f =>
    .single ⟨.outbox [] fun _ x hx => absurd hx List.not_mem_nil, rfl⟩
  obtain ⟨result, tag⟩ := o
  unfold handleServerResult
  cases result with
  | none => exact .single ⟨.dismiss _ rfl rfl rfl, rfl⟩
  | packetToSend addr payload =>
    refine .head ⟨.route _ addr payload rfl rfl rfl, rfl⟩ ?_
    unfold dispatch
    dsimp only
    cases hr : s.addrToClientId.get addr with
    | none => exact .refl
    | some c =>
      exact (steps_sendToPeerLossy _ c ⟨payload, tag⟩ _ (List.mem_singleton.2 rfl)).quiet.trans
        (hempty _ _)
  | payload c payload => exact .single ⟨.deliver _ c payload rfl rfl, rfl⟩
  | clientConnected c addr payload =>
    obtain ⟨rfl, rfl⟩ := h (by simp [OwnedServerResult.connects])
    dsimp only
    cases hconn : RenetServer.isConnected s.server c with
    | false =>
      refine .head ⟨.connect _ c addr payload rfl rfl hconn rfl rfl rfl rfl rfl, rfl⟩ ?_
      exact (steps_sendToPeerLossy _ c ⟨payload, tag⟩ _ (List.mem_singleton.2 rfl)).quiet.trans
        (hempty _ _)
    | true =>
      refine .head ⟨.reject _ c addr payload rfl rfl hconn rfl, rfl⟩ ?_
      set t := s.disconnectDuplicate c with ht
      unfold rejectDuplicate
      dsimp only
      rw [← ht]
      set bye := farewell (toOwnedServerResult (NetcodeServer.disconnect s.netcodeServer c).2)
      refine .head ⟨.outbox (bye.map fun bytes => (c, (⟨bytes, t.tagNow c⟩ : Packet))).toList
        fun _ x hx => ?_, rfl⟩ ?_
      · simp only [Option.mem_toList, Option.map_eq_some_iff] at hx
        obtain ⟨bytes, -, rfl⟩ := hx
        exact .inr (.inr rfl)
      · refine .trans (steps_sendOptional t c (t.tagNow c) bye _ fun bytes hb => ?_).quiet ?_
        · simp [hb]
        · refine .trans (hempty _ _) ?_
          exact steps_removePeer _ c _ (.inl rfl) rfl
  | clientDisconnected c addr payload =>
    dsimp only
    refine .head ⟨.release _ c addr payload rfl rfl, ?_⟩ ?_
    · simp only [releaseClient]
      split <;> rfl
    · refine .trans (steps_sendOptional _ c tag payload _ fun bytes hb => ?_).quiet ?_
      · simp [hb]
      · refine .trans (hempty _ _) ?_
        refine .head ⟨.forget c rfl rfl, rfl⟩ ?_
        exact .single ⟨.gate _ _ (ServerPacketGate.remove_shrinks _ (.webRtc c) _), rfl⟩

variable [LawfulNetcode N]

/-- The frame of a loop over results: `pending_renet_removals` was drained. -/
abbrev sweptFrame (inbox : List (ServerPeerId × Packet)) : Frame := { swept := true, inbox := inbox }

/-- The results of one turn are handled in their order. -/
theorem steps_handleAll (inbox : List (ServerPeerId × Packet)) :
    ∀ (results : List Outcome) (s : WebRtcState N R S W), s.applying = results →
      Steps ⟨s, {}, sweptFrame inbox⟩ ⟨handleAll results s, {}, sweptFrame inbox⟩ ∧
        (handleAll results s).applying = []
  | [], _, hs => ⟨.refl, hs⟩
  | o :: rest, s, hs => by
    have hq := steps_handleServerResult { s with applying := rest } o true none inbox
      fun _ => ⟨rfl, rfl⟩
    obtain ⟨hsteps, hdone⟩ := steps_handleAll inbox rest
      ({ s with applying := rest }.handleServerResult o) hq.applying
    exact ⟨.head (.take o rest hs ⟨rfl, rfl, rfl, rfl⟩) (hq.steps.trans hsteps), hdone⟩

/-- One turn of the loop: the waiting results become the vector that is handled. -/
theorem steps_handlePending (s : WebRtcState N R S W) (inbox : List (ServerPeerId × Packet))
    (hs : s.applying = []) :
    Steps ⟨s, {}, sweptFrame inbox⟩ ⟨s.handlePending, {}, sweptFrame inbox⟩ ∧
      s.handlePending.applying = [] := by
  obtain ⟨hsteps, hdone⟩ := steps_handleAll inbox s.pendingServerResults
    { s with applying := s.pendingServerResults, pendingServerResults := [] } rfl
  exact ⟨.head (.takePending hs ⟨rfl, rfl, rfl, rfl⟩ rfl) hsteps, hdone⟩

omit [World W] [LawfulRtc R] [LawfulNetcode N] in
theorem steps_removals (f : Frame) : ∀ (ids : List ClientId) (s : WebRtcState N R S W),
    Steps ⟨s, {}, { f with removing := ids }⟩
        ⟨ids.foldl removeConnection s, {}, { f with removing := [] }⟩ ∧
      (ids.foldl removeConnection s).applying = s.applying
  | [], _ => ⟨.refl, rfl⟩
  | c :: rest, s => by
    obtain ⟨hsteps, hsame⟩ := steps_removals f rest (s.removeConnection c)
    exact ⟨.head (.removeNext c rest rfl) hsteps, hsame⟩

/-- Induction on the turns; the loop ends with no result waiting. -/
theorem steps_applyLoop (inbox : List (ServerPeerId × Packet)) :
    ∀ (fuel : Nat) (s s' : WebRtcState N R S W), applyLoop fuel s = some s' → s.applying = [] →
      Steps ⟨s, {}, sweptFrame inbox⟩ ⟨s', {}, sweptFrame inbox⟩ ∧ s'.applying = [] ∧
        s'.pendingServerResults = []
  | 0, s, s', h, hs => by
    simp only [applyLoop] at h
    split at h
    · cases h; exact ⟨.refl, hs, by assumption⟩
    · cases h
  | fuel + 1, s, s', h, hs => by
    simp only [applyLoop] at h
    split at h
    · cases h; exact ⟨.refl, hs, by assumption⟩
    · obtain ⟨hsteps, hdone⟩ := steps_handlePending s inbox hs
      obtain ⟨hrest, hend⟩ := steps_applyLoop inbox fuel _ s' h hdone
      exact ⟨hsteps.trans hrest, hend⟩

variable [LawfulWorld W]

omit [LawfulRtc R] [LawfulNetcode N] in
theorem steps_drainRemovals (s : WebRtcState N R S W) (swept : Bool)
    (inbox : List (ServerPeerId × Packet)) :
    Steps ⟨s, {}, { swept := swept, inbox := inbox }⟩ ⟨s.drainRemovals, {}, sweptFrame inbox⟩ ∧
      s.drainRemovals.applying = s.applying := by
  obtain ⟨hsteps, hsame⟩ := steps_removals (sweptFrame inbox)
    (s.inOrder s.pendingRenetRemovals.keys) { s with pendingRenetRemovals := ∅ }
  refine ⟨.head (.sweep (s.inOrder s.pendingRenetRemovals.keys) (fun c => ?_) rfl) hsteps, hsame⟩
  exact (LawfulWorld.order s.world _).mem_iff.trans AList.mem_keys.symm

theorem steps_applyPendingResults {fuel : Nat} {s s' : WebRtcState N R S W}
    (h : s.applyPendingResults fuel = some s') (hs : s.applying = []) (swept : Bool)
    (inbox : List (ServerPeerId × Packet)) :
    Steps ⟨s, {}, { swept := swept, inbox := inbox }⟩ ⟨s', {}, sweptFrame inbox⟩ ∧
      s'.applying = [] ∧ s'.pendingServerResults = [] := by
  obtain ⟨hsteps, hsame⟩ := steps_drainRemovals s swept inbox
  obtain ⟨hrest, hend⟩ := steps_applyLoop inbox fuel _ s' h (hsame.trans hs)
  exact ⟨hsteps.trans hrest, hend⟩

/-! ## The conditioner's queues -/

omit [LawfulNetcode N] [LawfulWorld W] in
theorem steps_releaseIncoming (s : WebRtcState N R S W) (c : ClientId) (peer : ServerPeer R)
    (p : Packet) (f : Frame) (hc : s.peers.get c = some peer) (hp : (.webRtc c, p) ∈ f.inbox) :
    QuietSteps ⟨s, {}, f⟩ ⟨s.releaseIncoming c peer p, {}, f⟩ := by
  unfold releaseIncoming
  dsimp only
  refine .head ⟨.pickUp c peer hc rfl rfl, rfl⟩ ?_
  refine .trans ?_ (steps_flushPeerOutput _ c f).quiet
  set t : WebRtcState N R S W := { s with peers := s.peers.remove c }
  have hprocess : QuietSteps ⟨t, { hand := some (c, peer) }, f⟩
      ⟨(t.processDelayed peer p).1,
        { hand := some (c, (t.processDelayed peer p).2.1)
          gathered := (t.processDelayed peer p).2.2 }, f⟩ := by
    unfold processDelayed
    split
    · refine .head ⟨.unpack c p hp rfl, rfl⟩ ?_
      exact (steps_processPeerPacket t c c peer p [] f (.inl rfl)).quiet
    · exact .refl
  refine hprocess.trans (.head ⟨.commit rfl, rfl⟩ ?_)
  exact .single ⟨.putDown c _ rfl rfl rfl rfl, rfl⟩

/-- Delayed packets are released one by one, and the results of each handled before the
next. -/
theorem steps_drainIncoming {fuel : Nat} (inbox : List (ServerPeerId × Packet)) :
    ∀ (xs : List (ServerPeerId × Packet)) (s s' : WebRtcState N R S W),
      drainIncoming fuel xs s = some s' → (∀ x ∈ xs, x ∈ inbox) → s.applying = [] →
      Steps ⟨s, {}, sweptFrame inbox⟩ ⟨s', {}, sweptFrame inbox⟩ ∧ s'.applying = []
  | [], s, s', h, _, hs => by
    cases h
    exact ⟨.refl, hs⟩
  | (.udp addr, p) :: rest, s, s', h, hsub, hs =>
    steps_drainIncoming inbox rest s s' h (fun x hx => hsub x (List.mem_cons_of_mem _ hx)) hs
  | (.webRtc c, p) :: rest, s, s', h, hsub, hs => by
    have hsub' : ∀ x ∈ rest, x ∈ inbox := fun x hx => hsub x (List.mem_cons_of_mem _ hx)
    unfold drainIncoming at h
    cases hc : s.peers.get c with
    | none =>
      rw [hc] at h
      exact steps_drainIncoming inbox rest s s' h hsub' hs
    | some peer =>
      rw [hc] at h
      dsimp only at h
      have hq := steps_releaseIncoming s c peer p (sweptFrame inbox) hc
        (hsub _ List.mem_cons_self)
      cases happ : (s.releaseIncoming c peer p).applyPendingResults fuel with
      | none => rw [happ] at h; cases h
      | some t =>
        rw [happ] at h
        obtain ⟨hsteps, hdone, _⟩ := steps_applyPendingResults happ (hq.applying.trans hs) true inbox
        obtain ⟨hrest, hend⟩ := steps_drainIncoming inbox rest t s' h hsub' hdone
        exact ⟨hq.steps.trans (hsteps.trans hrest), hend⟩

/-- The packets `drain_conditioned_packets` sends. -/
def toSend (xs : List (ServerPeerId × Packet)) : List (ClientId × Packet) :=
  xs.filterMap fun x =>
    match x.1 with
    | .webRtc c => some (c, x.2)
    | .udp _ => none

omit [LawfulNetcode N] [LawfulWorld W] in
theorem steps_drainOutgoing (f : Frame) : ∀ (xs : List (ServerPeerId × Packet))
    (s : WebRtcState N R S W), (∀ x ∈ toSend xs, x ∈ f.outbox) →
    QuietSteps ⟨s, {}, f⟩ ⟨drainOutgoing xs s, {}, f⟩
  | [], _, _ => .refl
  | (.udp addr, p) :: rest, s, h => steps_drainOutgoing f rest s h
  | (.webRtc c, p) :: rest, s, h => by
    refine (steps_sendToPeerUnconditioned s c p f (h _ List.mem_cons_self)).quiet.trans ?_
    exact steps_drainOutgoing f rest _ fun x hx => h x (List.mem_cons_of_mem _ hx)

omit [LawfulNetcode N] [LawfulWorld W] in
theorem steps_releaseOutgoing (s : WebRtcState N R S W) (swept : Bool)
    (inbox : List (ServerPeerId × Packet)) :
    QuietSteps ⟨s, {}, { swept := swept, inbox := inbox }⟩
      ⟨s.releaseOutgoing, {}, { swept := swept, inbox := inbox }⟩ := by
  unfold releaseOutgoing
  dsimp only
  refine .head ⟨.outbox (toSend (s.packetGate.drain .outgoing s.toShared).2) fun ok x hx => ?_, rfl⟩ ?_
  · obtain ⟨⟨id, p⟩, hmem, hx⟩ := List.mem_filterMap.1 hx
    cases id with
    | udp addr => cases hx
    | webRtc c =>
      cases hx
      exact .inr (.inl (ServerPacketGate.mem_drain ok hmem))
  · refine .head ⟨.gate _ _ (ServerPacketGate.drain_shrinks _ .outgoing _), rfl⟩ ?_
    refine .tail (steps_drainOutgoing _ _ _ fun _ hx => hx) ?_
    exact ⟨.outbox [] fun _ x hx => absurd hx List.not_mem_nil, rfl⟩

theorem steps_drainConditionedPackets {fuel : Nat} {s s' : WebRtcState N R S W}
    (h : s.drainConditionedPackets fuel = some s') (hs : s.applying = []) :
    Steps ⟨s, {}, sweptFrame []⟩ ⟨s', {}, sweptFrame []⟩ ∧ s'.applying = [] ∧
      s'.pendingServerResults = [] := by
  unfold drainConditionedPackets at h
  dsimp only at h
  set drained := s.packetGate.drain .incoming s.toShared with hdr
  cases hin : drainIncoming fuel drained.2 { s with toShared := drained.1 } with
  | none => rw [hin] at h; cases h
  | some t =>
    rw [hin] at h
    obtain ⟨hsteps, hdone⟩ := steps_drainIncoming drained.2 _ _ _ hin (fun _ hx => hx) hs
    have hq := steps_releaseOutgoing t true []
    obtain ⟨hrest, hend⟩ := steps_applyPendingResults h (hq.applying.trans hdone) true []
    refine ⟨?_, hend⟩
    refine .head (.inbox drained.2 fun ok x hx => .inr (ServerPacketGate.mem_drain ok hx)) ?_
    refine .head (.gate _ _ (ServerPacketGate.drain_shrinks _ .incoming _)) ?_
    refine hsteps.trans ?_
    refine .head (.inbox [] fun _ x hx => absurd hx List.not_mem_nil) ?_
    exact hq.steps.trans hrest

/-! ## The socket and the timers -/

section

omit [LawfulNetcode N] [LawfulWorld W]

theorem steps_ingest (s : WebRtcState N R S W) (c : ClientId) (source : SocketAddr) (input : Input)
    (f : Frame) : SteadySteps ⟨s, {}, f⟩ ⟨s.ingest c source input, {}, f⟩ := by
  unfold ingest
  cases hc : s.peers.get c with
  | none => exact steps_flushPeerOutput s c f
  | some peer =>
    dsimp only
    split
    · exact steps_flushPeerOutput s c f
    · rename_i hnone
      refine .head ⟨.feed c peer source input hc hnone rfl rfl, rfl, rfl⟩ ?_
      exact steps_flush _ c f (.inr rfl) fun h => by simp [feedPeer, log, setRtc] at h

/-- Induction on the datagrams that may still be read. -/
theorem steps_routeSocketInput (now : Nat) (f : Frame) : ∀ (n : Nat) (seen : HashMap ClientId Nat)
    (s : WebRtcState N R S W),
    SteadySteps ⟨s, {}, f⟩ ⟨(routeSocketInput now n seen s).1, {}, f⟩
  | 0, _, _ => .refl
  | n + 1, seen, s => by
    unfold routeSocketInput
    dsimp only
    refine .head ⟨.ambient (World.recvFrom .webRtc s.world).1 s.egress, rfl, rfl⟩ ?_
    split
    · exact .refl
    · exact steps_routeSocketInput now f n seen _
    · exact steps_routeSocketInput now f n seen _
    · exact .refl
    · split
      · split
        · exact steps_routeSocketInput now f n seen _
        · split
          · exact steps_routeSocketInput now f n seen _
          · exact (steps_ingest _ _ _ _ f).trans (steps_routeSocketInput now f n _ _)
      · exact steps_routeSocketInput now f n seen _

theorem steps_pumpPeer (now : Nat) (s : WebRtcState N R S W) (c : ClientId) (f : Frame) :
    QuietSteps ⟨s, {}, f⟩ ⟨s.pumpPeer now c, {}, f⟩ := by
  unfold pumpPeer
  refine (steps_flushPeerOutput s c f).quiet.trans ?_
  unfold timeoutPeer
  cases hc : (s.flushPeerOutput c).peers.get c with
  | none => exact (steps_flushPeerOutput _ c f).quiet
  | some peer =>
    dsimp only
    split
    · rename_i hdue
      have hsome : peer.nextTimeout ≠ none := by
        intro hnone
        rw [hnone] at hdue
        simp at hdue
      refine .head ⟨.timeout c peer (afterTimeout (Rtc.handleInput peer.rtc (.timeout now))) hc
        hsome rfl rfl, rfl⟩ ?_
      exact (steps_flush _ c f (.inr rfl) fun h => by simp [log, setRtc] at h).quiet
    · exact (steps_flushPeerOutput _ c f).quiet

end

omit [World W] [LawfulRtc R] [LawfulNetcode N] [LawfulWorld W] in
theorem steps_foldl {g : WebRtcState N R S W → ClientId → WebRtcState N R S W} {f : Frame}
    (hg : ∀ s c, QuietSteps ⟨s, {}, f⟩ ⟨g s c, {}, f⟩) :
    ∀ (ids : List ClientId) (s : WebRtcState N R S W),
      QuietSteps ⟨s, {}, f⟩ ⟨ids.foldl g s, {}, f⟩
  | [], _ => .refl
  | c :: rest, s => (hg s c).trans (steps_foldl hg rest (g s c))

/-! ## Netcode calls outside a drain -/

omit [NetcodeServer N] [Rtc R] [RenetServer S] [World W] [LawfulRtc R] [LawfulNetcode N]
  [LawfulWorld W] in
theorem severed_applying (s : WebRtcState N R S W) (r : N × ServerResult) :
    (s.severed r).applying = s.applying := by
  rw [severed_frame]

omit [LawfulWorld W] in
theorem steps_settle (s : WebRtcState N R S W) (c : ClientId) (r : N × ServerResult)
    (h : ClientSpec s.netcodeServer r.1 c r.2) (hs : s.applying = []) :
    QuietSteps ⟨s, {}, sweptFrame []⟩ ⟨s.settle c r, {}, sweptFrame []⟩ := by
  refine .head ⟨.settle c r h hs ⟨rfl, rfl, rfl, rfl⟩ rfl, severed_applying s r⟩ ?_
  exact steps_handleServerResult (s.severed r) (s.severedOutcome c r) true none []
    fun _ => ⟨rfl, rfl⟩

omit [World W] [LawfulRtc R] [LawfulNetcode N] [LawfulWorld W] in
/-- A loop over clients, each of whose turns is quiet and leaves nothing being handled. -/
theorem steps_settleAll {g : WebRtcState N R S W → ClientId → WebRtcState N R S W}
    (hg : ∀ s c, s.applying = [] → QuietSteps ⟨s, {}, sweptFrame []⟩ ⟨g s c, {}, sweptFrame []⟩) :
    ∀ (ids : List ClientId) (s : WebRtcState N R S W), s.applying = [] →
      QuietSteps ⟨s, {}, sweptFrame []⟩ ⟨ids.foldl g s, {}, sweptFrame []⟩
  | [], _, _ => .refl
  | c :: rest, s, hs =>
    (hg s c hs).trans (steps_settleAll hg rest (g s c) ((hg s c hs).applying.trans hs))

omit [LawfulWorld W] in
/-- The loop of `disconnect_all`. -/
theorem steps_roll : ∀ (ids : List ClientId) (s : WebRtcState N R S W), s.applying = [] →
    QuietSteps ⟨s, {}, { swept := true, roll := some ids }⟩
      ⟨ids.foldl disconnectClient s, {}, { swept := true, roll := some [] }⟩
  | [], _, _ => .refl
  | c :: rest, s, hs => by
    set r := NetcodeServer.disconnect s.netcodeServer c with hr
    have hspec := LawfulNetcode.disconnect s.netcodeServer c
    have hhandle := steps_handleServerResult (s.severed r) (s.severedOutcome c r) true (some rest) []
      fun hne => absurd (ClientSpec.quiet hspec.clientSpec) hne
    refine .head ⟨.rollNext c rest r hspec hs rfl rfl rfl rfl rfl, severed_applying s r⟩ ?_
    refine hhandle.trans (steps_roll rest _ ?_)
    exact (hhandle.applying.trans (severed_applying s r)).trans hs

/-! ## The public operations -/

/-- The part of `update` before the socket is read. -/
theorem steps_updateStart {fuel duration : Nat} {s s' : WebRtcState N R S W}
    (h : s.updateStart fuel duration = some s') (hs : s.applying = []) :
    Steps ⟨s, {}, {}⟩ ⟨s', {}, sweptFrame []⟩ ∧
      s'.applying = [] ∧ s'.pendingServerResults = [] := by
  simp only [updateStart, Option.bind_eq_bind, Option.bind_eq_some_iff] at h
  obtain ⟨s₁, h₁, s₂, h₂, h₃⟩ := h
  obtain ⟨a₁, b₁, _⟩ := steps_applyPendingResults h₁ hs false []
  obtain ⟨a₂, b₂, _⟩ := steps_drainConditionedPackets h₂ b₁
  have hq := steps_foldl (g := flushPeerOutput) (f := sweptFrame [])
    (fun s c => (steps_flushPeerOutput s c _).quiet) (s₂.inOrder s₂.peers.keys) s₂
  obtain ⟨a₃, b₃⟩ := steps_applyPendingResults h₃ (hq.applying.trans b₂) true []
  refine ⟨a₁.trans (.head (.tick _ (LawfulNetcode.update _ duration)) ?_), b₃⟩
  exact a₂.trans (hq.steps.trans a₃)

/-- The part of `update` after it. -/
theorem steps_updateRouted {fuel now : Nat} {s s' : WebRtcState N R S W}
    (h : s.updateRouted fuel now = some s') (hs : s.applying = []) :
    Steps ⟨s, {}, sweptFrame []⟩ ⟨s', {}, sweptFrame []⟩ ∧ s'.applying = [] ∧
      s'.pendingServerResults = [] := by
  simp only [updateRouted, Option.bind_eq_bind, Option.bind_eq_some_iff] at h
  obtain ⟨s₁, h₁, s₂, h₂, h₃⟩ := h
  obtain ⟨a₀, b₀⟩ := steps_handlePending s [] hs
  have hpump := steps_foldl (g := pumpPeer now) (f := sweptFrame [])
    (fun s c => steps_pumpPeer now s c _) (s.handlePending.inOrder s.handlePending.peers.keys)
    s.handlePending
  obtain ⟨a₁, b₁, _⟩ := steps_applyPendingResults h₁ (hpump.applying.trans b₀) true []
  have hadv := steps_settleAll (g := advanceClient)
    (fun s c hs => steps_settle s c _ (LawfulNetcode.updateClient _ c) hs)
    (NetcodeServer.clientsId s₁.netcodeServer) s₁ b₁
  have hdis := steps_settleAll (g := disconnectClient)
    (fun s c hs => steps_settle s c _ (LawfulNetcode.disconnect _ c).clientSpec hs)
    (RenetServer.disconnectionsId
      ((NetcodeServer.clientsId s₁.netcodeServer).foldl advanceClient s₁).server) _
    (hadv.applying.trans b₁)
  obtain ⟨a₂, b₂, _⟩ := steps_applyPendingResults h₂
    (hdis.applying.trans (hadv.applying.trans b₁)) true []
  obtain ⟨a₃, b₃⟩ := steps_drainConditionedPackets h₃ b₂
  exact ⟨a₀.trans (hpump.steps.trans (a₁.trans (hadv.steps.trans (hdis.steps.trans
    (a₂.trans a₃))))), b₃⟩

omit [LawfulWorld W] in
theorem steps_sendPayloads (c : ClientId) : ∀ (packets : List Bytes) (s : WebRtcState N R S W),
    QuietSteps ⟨s, {}, sweptFrame []⟩ ⟨sendPayloads c packets s, {}, sweptFrame []⟩
  | [], _ => .refl
  | packet :: rest, s => by
    unfold sendPayloads
    dsimp only
    refine .head ⟨.tick _ (LawfulNetcode.generatePayloadPacket s.netcodeServer c packet), rfl⟩ ?_
    split
    · rename_i addr payload _
      set t : WebRtcState N R S W := { s with
        netcodeServer := (NetcodeServer.generatePayloadPacket s.netcodeServer c packet).1 }
      refine .head ⟨.outbox [(c, ⟨payload, t.tagNow c⟩)] fun _ x hx => ?_, rfl⟩ ?_
      · rw [List.mem_singleton.1 hx]
        exact .inr (.inr rfl)
      · refine .trans
          (steps_sendToPeerLossy t c ⟨payload, t.tagNow c⟩ _ (List.mem_singleton.2 rfl)).quiet ?_
        refine .head ⟨.outbox [] fun _ x hx => absurd hx List.not_mem_nil, rfl⟩ ?_
        exact steps_sendPayloads c rest _
    · exact .refl

omit [LawfulWorld W] in
theorem steps_sendClient (s : WebRtcState N R S W) (c : ClientId) :
    QuietSteps ⟨s, {}, sweptFrame []⟩ ⟨s.sendClient c, {}, sweptFrame []⟩ := by
  unfold sendClient
  dsimp only
  refine .head ⟨.fetch c, rfl⟩ ?_
  split
  · exact steps_sendPayloads c _ _
  · exact .refl

/-- `update`: after `t`, where no result waits, come the reads of the socket; if they
fail the call ends there, with what they gathered still waiting. -/
theorem steps_updateAt {fuel duration now : Nat} {s : WebRtcState N R S W}
    {r : WebRtcState N R S W × Option TransportError} (h : s.updateAt fuel duration now = some r)
    (hs : s.applying = []) :
    Steps ⟨s, {}, {}⟩ ⟨r.1, {}, sweptFrame []⟩ ∧ r.1.applying = [] ∧
      (r.1.pendingServerResults = [] ∨ r.2 ≠ none ∧ ∃ t : WebRtcState N R S W,
        Steps ⟨s, {}, {}⟩ ⟨t, {}, sweptFrame []⟩ ∧
        t.applying = [] ∧ t.pendingServerResults = [] ∧
        SteadySteps ⟨t, {}, sweptFrame []⟩ ⟨r.1, {}, sweptFrame []⟩) := by
  simp only [updateAt, Option.bind_eq_bind, Option.bind_eq_some_iff] at h
  obtain ⟨t, ht, hr⟩ := h
  obtain ⟨a, b, hpend⟩ := steps_updateStart ht hs
  have hq := steps_routeSocketInput now (sweptFrame []) MAX_WEBRTC_DATAGRAMS_PER_UPDATE ∅ t
  have hdone := hq.quiet.applying.trans b
  split at hr
  · cases hr
    exact ⟨a.trans hq.quiet.steps, hdone, .inr ⟨fun h => (by cases h), t, a, b, hpend, hq⟩⟩
  · obtain ⟨u, hu, rfl⟩ := Option.map_eq_some_iff.1 hr
    obtain ⟨a', b', c'⟩ := steps_updateRouted hu hdone
    exact ⟨a.trans (hq.quiet.steps.trans a'), b', .inl c'⟩

theorem steps_sendPackets {fuel : Nat} {s s' : WebRtcState N R S W}
    (h : s.sendPackets fuel = some s') (hs : s.applying = []) :
    Steps ⟨s, {}, {}⟩ ⟨s', {}, sweptFrame []⟩ ∧
      s'.applying = [] ∧ s'.pendingServerResults = [] := by
  simp only [sendPackets, Option.bind_eq_bind, Option.bind_eq_some_iff] at h
  obtain ⟨s₁, h₁, s₂, h₂, s₃, h₃, h₄⟩ := h
  obtain ⟨a₁, b₁, _⟩ := steps_applyPendingResults h₁ hs false []
  obtain ⟨a₂, b₂, _⟩ := steps_drainConditionedPackets h₂ b₁
  have hq := steps_foldl (g := sendClient) (f := sweptFrame []) steps_sendClient
    (NetcodeServer.clientsId s₂.netcodeServer) s₂
  obtain ⟨a₃, b₃, _⟩ := steps_applyPendingResults h₃ (hq.applying.trans b₂) true []
  obtain ⟨a₄, b₄⟩ := steps_drainConditionedPackets h₄ b₃
  exact ⟨a₁.trans (a₂.trans (hq.steps.trans (a₃.trans a₄))), b₄⟩

theorem steps_disconnectAll {fuel : Nat} {s s' : WebRtcState N R S W}
    (h : s.disconnectAll fuel = some s') (hs : s.applying = []) :
    Steps ⟨s, {}, {}⟩ ⟨s', {}, sweptFrame []⟩ ∧
      s'.applying = [] ∧ s'.pendingServerResults = [] := by
  simp only [disconnectAll, Option.bind_eq_bind, Option.bind_eq_some_iff] at h
  obtain ⟨s₁, h₁, h₂⟩ := h
  obtain ⟨a₁, b₁, c₁⟩ := steps_applyPendingResults h₁ hs false []
  have hq := steps_roll (NetcodeServer.clientsId s₁.netcodeServer) s₁ b₁
  have hdone := hq.applying.trans b₁
  obtain ⟨a₂, b₂⟩ := steps_applyPendingResults h₂ (by exact hdone) true []
  refine ⟨a₁.trans ?_, b₂⟩
  refine .head (.callRoll _ (fun c hc => (LawfulNetcode.clientsId _ c).2 hc) b₁ c₁ rfl
    ⟨rfl, rfl, rfl, rfl⟩) ?_
  refine hq.steps.trans ?_
  refine .head (.clear rfl rfl rfl rfl hdone rfl) ?_
  refine .head (.gate _ _ (ServerPacketGate.reset_shrinks _ _)) ?_
  exact a₂

/-- Steps in which the locals of the functions around a drive stay as they are. -/
abbrev StillSteps : Cfg N R S W → Cfg N R S W → Prop :=
  ReflTransGen fun a b => Act a b ∧ b.frame = a.frame

omit [World W] [LawfulRtc R] [LawfulNetcode N] [LawfulWorld W] in
theorem StillSteps.steps {a b : Cfg N R S W} (h : StillSteps a b) : Steps a b := by
  induction h with
  | refl => exact .refl
  | tail _ hstep ih => exact ih.tail hstep.1

omit [World W] [LawfulRtc R] [LawfulNetcode N] [LawfulWorld W] in
theorem still_of_steady {a b : Cfg N R S W} (h : SteadySteps a b) : StillSteps a b := by
  induction h with
  | refl => exact .refl
  | tail _ hstep ih => exact ih.tail ⟨hstep.1, hstep.2.2⟩

omit [LawfulRtc R] [LawfulNetcode N] [LawfulWorld W] in
/-- `remove_peer` handles no result. -/
theorem still_removePeer (s : WebRtcState N R S W) (c : ClientId) (hs : s.applying = []) :
    StillSteps ⟨s, {}, {}⟩ ⟨s.removePeer c, {}, {}⟩ := by
  refine .head ⟨.gate s.packetGate _ (ServerPacketGate.remove_shrinks _ (.webRtc c) _), rfl⟩ ?_
  exact .single ⟨.expel c (.inr ⟨rfl, hs⟩) rfl rfl rfl rfl, rfl⟩

omit [Rtc R] [RenetServer S] [LawfulRtc R] [LawfulNetcode N] [LawfulWorld W] in
theorem removePeer_applying (s : WebRtcState N R S W) (c : ClientId) :
    (s.removePeer c).applying = s.applying := expelled_applying (s.gateRemove c) c

omit [LawfulRtc R] [LawfulWorld W] in
theorem still_addPeer (s : WebRtcState N R S W) (c : ClientId) (rtc : R) (hs : s.applying = []) :
    StillSteps ⟨s, {}, {}⟩ ⟨s.addPeer c rtc, {}, {}⟩ := by
  refine (still_removePeer s c hs).tail ⟨.register c rtc ?_ ?_ ?_ ?_ ?_ rfl rfl rfl ?_, rfl⟩
  · rw [removePeer_eq, expelled_peers]
    exact HashMap.get_remove_self _ c
  · exact removePeer_free s c
  · rw [removePeer_eq, mem_connected_expelled]
    exact fun h => h.1 rfl
  · exact removePeer_waits s c
  · exact (removePeer_applying s c).trans hs
  · exact removePeer_routes s c

/-- A call that returned leaves the locals empty again. `game` is not a call of
the transport. -/
theorem step_steps {s s' : WebRtcState N R S W} {op : Op R S} (h : s.step op = some s')
    (hop : ∀ server, op ≠ .game server) (hs : s.applying = []) :
    Steps ⟨s, {}, {}⟩ ⟨s', {}, {}⟩ ∧ s'.applying = [] := by
  have hfinish : ∀ {t : WebRtcState N R S W}, Steps ⟨s, {}, {}⟩ ⟨t, {}, sweptFrame []⟩ →
      Steps ⟨s, {}, {}⟩ ⟨t, {}, {}⟩ := fun ht => ht.tail .finish
  cases op with
  | game server => exact absurd rfl (hop server)
  | addPeer c rtc =>
    cases h
    exact ⟨(still_addPeer s c rtc hs).steps, (removePeer_applying s c).trans hs⟩
  | removePeer c =>
    cases h
    exact ⟨(still_removePeer s c hs).steps, (removePeer_applying s c).trans hs⟩
  | update fuel duration now =>
    obtain ⟨r, hr, rfl⟩ := Option.map_eq_some_iff.1 h
    obtain ⟨a, b, _⟩ := steps_updateAt hr hs
    exact ⟨hfinish a, b⟩
  | sendPackets fuel =>
    obtain ⟨a, b, _⟩ := steps_sendPackets h hs
    exact ⟨hfinish a, b⟩
  | disconnectAll fuel =>
    obtain ⟨a, b, _⟩ := steps_disconnectAll h hs
    exact ⟨hfinish a, b⟩
  | setConditioner handle =>
    obtain ⟨⟨gate, shared⟩, hr, rfl⟩ := Option.map_eq_some_iff.1 h
    exact ⟨.single (.gate gate shared (ServerPacketGate.attach_spec hr).1), hs⟩
  | clearConditioner =>
    cases h
    exact ⟨.single (.gate _ _ (ServerPacketGate.detach_shrinks _ _)), hs⟩
  | setEgressLimit config =>
    cases h
    unfold setEgressLimit
    dsimp only
    split
    · exact ⟨.single (.ambient _ _), hs⟩
    · exact ⟨.refl, hs⟩
  | setDataChannel c id =>
    cases h
    unfold setDataChannel
    cases hc : s.peers.get c with
    | none => exact ⟨.refl, hs⟩
    | some peer =>
      exact ⟨.single (.touchPeer c peer { peer with dataChannel := some id } hc
        ⟨rfl, rfl, rfl, rfl⟩), hs⟩

/-! ## Invariants -/

omit [World W] [LawfulRtc R] [LawfulNetcode N] [LawfulWorld W] in
/-- What every act preserves, every operation does. -/
theorem steps_invariant {I : Cfg N R S W → Prop} (hact : ∀ a b, I a → Act a b → I b)
    {a b : Cfg N R S W} (h : Steps a b) (hi : I a) : I b := by
  induction h with
  | refl => exact hi
  | tail _ hstep ih => exact hact _ _ ih hstep

/-- A property of configurations that every step keeps, and that does not depend
on what the game does to its `RenetServer`, holds along every run. -/
theorem run_invariant {I : Cfg N R S W → Prop} (hact : ∀ a b, I a → Act a b → I b)
    (hgame : ∀ (s : WebRtcState N R S W) server,
      I ⟨s, {}, {}⟩ → I ⟨{ s with server := server }, {}, {}⟩)
    {s s' : WebRtcState N R S W} {ops : List (Op R S)} (hrun : (runs N R S W).Run s ops s')
    (hs : s.applying = []) (hi : I ⟨s, {}, {}⟩) : I ⟨s', {}, {}⟩ ∧ s'.applying = [] := by
  induction hrun with
  | nil => exact ⟨hi, hs⟩
  | @cons s op t ops s' hstep _ ih =>
    by_cases hop : ∃ server, op = .game server
    · obtain ⟨server, rfl⟩ := hop
      cases hstep
      exact ih hs (hgame s server hi)
    · obtain ⟨hsteps, ht⟩ := step_steps hstep (fun server h => hop ⟨server, h⟩) hs
      exact ih ht (steps_invariant hact hsteps hi)

/-- And so it holds in every reachable state, whatever the game does in between. -/
theorem reachable_invariant {I : Cfg N R S W → Prop}
    (hinit : ∀ s : WebRtcState N R S W, s.Fresh → I ⟨s, {}, {}⟩)
    (hact : ∀ a b, I a → Act a b → I b)
    (hgame : ∀ (s : WebRtcState N R S W) server,
      I ⟨s, {}, {}⟩ → I ⟨{ s with server := server }, {}, {}⟩)
    {s : WebRtcState N R S W} (hr : (runs N R S W).Reachable s) :
    I ⟨s, {}, {}⟩ ∧ s.applying = [] := by
  obtain ⟨s₀, ops, hfresh, hrun⟩ := hr
  refine run_invariant hact hgame hrun ?_ (hinit s₀ hfresh)
  obtain ⟨n, addr, shared, rfl, _⟩ := hfresh
  rfl

end WebRtcState

/-! ## Peers and their keys -/

/-- Every peer is filed under its own client id and has that client's virtual
address; the peer being driven is not in the map. -/
structure Keyed (a : Cfg N R S W) : Prop where
  peers : ∀ c p, a.st.peers.get c = some p → p.clientId = c ∧ p.virtualAddr = virtualAddrForClient c
  hand : ∀ c p, a.drive.hand = some (c, p) →
    p.clientId = c ∧ p.virtualAddr = virtualAddrForClient c ∧ a.st.peers.get c = none

omit [NetcodeServer N] [Rtc R] [RenetServer S] in
/-- A map whose peers are in `a`'s, or in `a`'s hand, or are such peers changed. -/
theorem Keyed.of_get {a b : Cfg N R S W} (h : Keyed a)
    (hp : ∀ c p, b.st.peers.get c = some p → a.st.peers.get c = some p)
    (hh : ∀ c p, b.drive.hand = some (c, p) → ∃ p₀, a.drive.hand = some (c, p₀) ∧
      p.clientId = p₀.clientId ∧ p.virtualAddr = p₀.virtualAddr) : Keyed b := by
  refine ⟨fun c p hc => h.peers c p (hp c p hc), fun c p hc => ?_⟩
  obtain ⟨p₀, hc₀, h1, h2⟩ := hh c p hc
  obtain ⟨k1, k2, k3⟩ := h.hand c p₀ hc₀
  refine ⟨h1.trans k1, h2.trans k2, ?_⟩
  cases hb : b.st.peers.get c with
  | none => rfl
  | some q =>
    rw [hp c q hb] at k3
    cases k3

omit [NetcodeServer N] [Rtc R] [RenetServer S] in
/-- A peer of the map is changed in place, with no peer in hand. -/
theorem Keyed.insert {a b : Cfg N R S W} (h : Keyed a) {c : ClientId} {p : ServerPeer R}
    (hb : b.st.peers = a.st.peers.insert c p) (hid : p.clientId = c)
    (haddr : p.virtualAddr = virtualAddrForClient c)
    (hhand : ∀ c' p', b.drive.hand = some (c', p') → c' ≠ c ∧ a.drive.hand = some (c', p')) :
    Keyed b := by
  refine ⟨fun c' p' hc => ?_, fun c' p' hc => ?_⟩
  · rw [hb, HashMap.get_insert] at hc
    split at hc
    · rename_i heq
      cases hc
      rw [heq]
      exact ⟨hid, haddr⟩
    · exact h.peers c' p' hc
  · obtain ⟨hne, ha⟩ := hhand c' p' hc
    obtain ⟨k1, k2, k3⟩ := h.hand c' p' ha
    refine ⟨k1, k2, ?_⟩
    rw [hb, HashMap.get_insert, if_neg hne]
    exact k3

theorem keyed_act {a b : Cfg N R S W} (h : Keyed a) (hact : Act a b) : Keyed b := by
  have hsame : ∀ {c : ClientId} {p : ServerPeer R}, b.drive.hand = some (c, p) →
      b.drive.hand = a.drive.hand → ∃ p₀, a.drive.hand = some (c, p₀) ∧
        p.clientId = p₀.clientId ∧ p.virtualAddr = p₀.virtualAddr :=
    fun hc heq => ⟨_, heq ▸ hc, rfl, rfl⟩
  have hremove : ∀ {m : HashMap ClientId (ServerPeer R)} {c₀ c : ClientId} {p : ServerPeer R},
      (m.remove c₀).get c = some p → m.get c = some p := by
    intro m c₀ c p hc
    rw [HashMap.get_remove] at hc
    split at hc
    · cases hc
    · exact hc
  cases hact with
  | @pickUp s d f c p hp hhand hf =>
    refine ⟨fun c' p' hc => h.peers c' p' (hremove hc), fun c' p' hc => ?_⟩
    cases hc
    obtain ⟨k1, k2⟩ := h.peers c p hp
    exact ⟨k1, k2, HashMap.get_remove_self _ c⟩
  | @putDown s d f c p hhand hf hg hd =>
    obtain ⟨k1, k2, _⟩ := h.hand c p hhand
    exact h.insert rfl k1 k2 fun c' p' hc => by cases hc
  | @touchHand s d f c p p' hhand hret =>
    refine h.of_get (fun _ _ hc => hc) fun c' q hc => ?_
    cases hc
    exact ⟨p, hhand, hret.clientId, hret.virtualAddr⟩
  | @touchPeer s d f c p p' hp hret =>
    obtain ⟨k1, k2⟩ := h.peers c p hp
    refine h.insert rfl (hret.clientId.trans k1) (hret.virtualAddr.trans k2) fun c' q hc => ⟨?_, hc⟩
    rintro rfl
    rw [(h.hand c' q hc).2.2] at hp
    cases hp
  | @startDrain s d f c p hhand hd =>
    refine h.of_get (fun _ _ hc => hc) fun c' q hc => ?_
    cases hc
    exact ⟨p, hhand, rfl, rfl⟩
  | @polled s d f c p rtc hhand hnone =>
    refine h.of_get (fun _ _ hc => hc) fun c' q hc => ?_
    cases hc
    exact ⟨p, hhand, rfl, rfl⟩
  | @polledTimeout s d f c p rtc deadline hhand hnone =>
    refine h.of_get (fun _ _ hc => hc) fun c' q hc => ?_
    cases hc
    exact ⟨p, hhand, rfl, rfl⟩
  | @tearDown s d f c p hhand hg hd => exact h.of_get (fun _ _ hc => hc) fun c' q hc => by cases hc
  | @feed s d f c p source input hp hnone hd hhand =>
    obtain ⟨k1, k2⟩ := h.peers c p hp
    refine h.insert (c := c) rfl k1 k2 fun c' q hc => ?_
    rw [hhand] at hc
    cases hc
  | @timeout s d f c p rtc hp hnone hd hhand =>
    obtain ⟨k1, k2⟩ := h.peers c p hp
    refine h.insert (c := c) rfl k1 k2 fun c' q hc => ?_
    rw [hhand] at hc
    cases hc
  | @write s d f c p rtc packet hp hnone hd hhand hout =>
    obtain ⟨k1, k2⟩ := h.peers c p hp
    refine h.insert (c := c) rfl k1 k2 fun c' q hc => ?_
    rw [hhand] at hc
    cases hc
  | @expel s d f c =>
    refine h.of_get (fun c' p' hc => ?_) fun c' q hc => hsame hc rfl
    rw [WebRtcState.expelled_peers] at hc
    exact hremove hc
  | @register s d f c rtc hp hfree hconn hw happ hhand =>
    refine h.insert (c := c) rfl rfl rfl fun c' q hc => ?_
    rw [hhand] at hc
    cases hc
  | @release s d f o c addr payload hcur ho =>
    refine h.of_get (fun c' p' hc => ?_) fun c' q hc => hsame hc rfl
    rw [WebRtcState.releaseClient_frame] at hc
    exact hc
  | @forget s d f c hdoom hhand => exact h.of_get (fun c' p' hc => hremove hc) fun c' q hc => hsame hc rfl
  | @settle s d f c r hspec happ hbet hg =>
    refine h.of_get (fun c' p' hc => ?_) fun c' q hc => hsame hc rfl
    rw [WebRtcState.severed_frame] at hc
    exact hc
  | @rollNext s d f c rest r hspec happ hcur hdoom hej hroll hg =>
    refine h.of_get (fun c' p' hc => ?_) fun c' q hc => hsame hc rfl
    rw [WebRtcState.severed_frame] at hc
    exact hc
  | @clear s d f hhand => exact h.of_get (fun c' p' hc => by cases hc) fun c' q hc => hsame hc rfl
  | _ => exact ⟨h.peers, h.hand⟩

omit [Rtc R] [RenetServer S] in
theorem keyed_fresh {s : WebRtcState N R S W} (h : s.Fresh) : Keyed ⟨s, {}, {}⟩ := by
  obtain ⟨n, addr, shared, rfl, _⟩ := h
  refine ⟨fun c p hc => ?_, fun c p hc => ?_⟩ <;> cases hc

end RenetCross.L4
