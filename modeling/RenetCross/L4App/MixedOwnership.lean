import RenetCross.L4App.MixedPayloads
import RenetCross.L4App.Scripted

/-!
# Each connection is owned by one backend

Both halves of a `MixedServerTransport` add and remove entries of one
`RenetServer`, under ids that either half may accept. `one_backend_per_connection`:
the entry a backend removes, or delivers a packet to, was made by that backend,
and no id is connected in both netcode servers when `update` returns `Ok`.

It holds of the runs whose trace is `clean`. A `ClientConnected` is turned away
only if its id `is_connected`; an entry that was disconnected and not yet removed
does not count, although `add_connection` leaves it as it is. The newcomer's
backend then treats the other's entry as its own. And when the WebRTC half turns a
duplicate away, `remove_peer` drops the duplicate's results from
`pending_server_results`, but not those behind it in the vector being handled.
`entry_changes_hands` has a run of each kind.
-/
namespace RenetCross.L4

open RenetCross.L2 Relation

variable {N R S W : Type} [NetcodeServer N] [Rtc R] [RenetServer S]

/-! ## The WebRTC half, one step -/

structure HalfInv (inside : Prop) (a : Cfg N R S W) : Prop where
  keyed : Keyed a
  words : OwnWords a
  upheld : ∀ c, Upheld a c
  own : OwnInv a
  alone : a.frame.current ≠ none → a.frame.ejected = none
  paid : Paid inside a
  rightful : Rightful a.st.trace

theorem alone_act {a b : Cfg N R S W} (h : a.frame.current ≠ none → a.frame.ejected = none)
    (hact : Act a b) : b.frame.current ≠ none → b.frame.ejected = none := by
  cases hact with
  | @take s d f o rest happ hbet => exact fun _ => hbet.ejected
  | @settle s d f c r hspec happ hbet hg => exact fun _ => hbet.ejected
  | @rollNext s d f c rest r hspec happ hcur hdoom hej hroll hg => exact fun _ => hej
  | @dismiss s d f o hcur h1 h2 => exact fun hne => absurd rfl hne
  | @route s d f o addr payload hcur ho hhand => exact fun hne => absurd rfl hne
  | @deliver s d f o c payload hcur ho => exact fun hne => absurd rfl hne
  | @connect s d f o c addr payload hcur ho hconn => exact fun hne => absurd rfl hne
  | @reject s d f o c addr payload hcur ho hconn hej => exact fun hne => absurd rfl hne
  | @release s d f o c addr payload hcur ho => exact fun hne => absurd rfl hne
  | @expel s d f c hej hhand hg hd hcur => exact fun _ => rfl
  | _ => exact h

omit [NetcodeServer N] [Rtc R] in
/-- An entry that is there and not the UDP half's is this half's. -/
theorem OwnInv.mine {a : Cfg N R S W} (h : OwnInv a) {c : ClientId}
    (hentry : RenetServer.hasConnection a.st.server c = true)
    (hudp : creator a.st.trace c ≠ some .udp) : creator a.st.trace c = some .webRtc := by
  have hsome := h.entered c
  rw [hentry] at hsome
  obtain ⟨b, hb⟩ := Option.isSome_iff_exists.1 hsome.symm
  cases b with
  | udp => exact absurd hb hudp
  | webRtc => exact hb

omit [Rtc R] in
/-- The client whose payload is in hand has no entry of the UDP half. -/
theorem HalfInv.delivers {inside : Prop} {a : Cfg N R S W} (h : HalfInv inside a) {o : Outcome}
    {c : ClientId} {bytes : Bytes} (hcur : a.frame.current = some o)
    (ho : o.result = .payload c bytes) (hdis : dismissed c a.st.trace = false) :
    creator a.st.trace c ≠ some .udp := by
  have hline : a.line = [] ++ o :: (a.st.applying ++ a.st.pendingServerResults ++
      if a.drive.failed then [] else a.drive.gathered) := by
    simp [Cfg.line, hcur]
  rcases h.paid [] o _ c bytes hline ho with hb | ⟨_, he | ⟨hd, _⟩⟩ | ⟨_, hb⟩
  · rw [h.own.connected c (HashMap.has_iff.1 hb)]
    exact fun heq => by cases heq
  · rw [h.alone (by rw [hcur]; exact Option.some_ne_none o)] at he
    cases he
  · rw [hdis] at hd
    cases hd
  · exact hb

theorem rightful_act {inside : Prop} {a b : Cfg N R S W} (h : HalfInv inside a) (hact : Act a b)
    (hclean : clean b.st.trace = true) : Rightful b.st.trace := by
  rcases event_act hact with ht | ⟨e, ht, hcause⟩
  · rw [ht]
    exact h.rightful
  · rw [ht] at hclean ⊢
    refine ⟨?_, h.rightful⟩
    cases e with
    | removeConnection b c entry =>
      obtain ⟨rfl, rfl, hc⟩ := hcause
      refine fun hentry => h.own.mine hentry ?_
      rcases hc with hc | hc
      · exact (h.own.removing c hc).1
      · rw [h.own.connected c hc]
        exact fun heq => by cases heq
    | processPacketFrom b c entry own p =>
      obtain ⟨rfl, rfl, _, o, hcur, _, ho⟩ := hcause
      have hdis : dismissed c a.st.trace = false := by
        simpa [Event.clean] using (clean_tail hclean).1
      exact fun hentry => h.own.mine hentry (h.delivers hcur ho hdis)
    | _ => trivial

/-- The UDP half's entries are as they were. -/
def UdpEntries (trace trace' : List Event) : Prop :=
  ∀ c, creator trace' c = some .udp ↔ creator trace c = some .udp

theorem udpEntries_act {a b : Cfg N R S W} (h : OwnInv a) (hact : Act a b)
    (hclean : clean b.st.trace = true) : UdpEntries a.st.trace b.st.trace := by
  intro c'
  rcases event_act hact with ht | ⟨e, ht, hcause⟩
  · rw [ht]
  · rw [ht] at hclean ⊢
    cases e with
    | addConnection b c entry registered tag =>
      obtain ⟨rfl, hentry, _⟩ := hcause
      have hnew : entry = false := by simpa [Event.clean] using (clean_tail hclean).1
      obtain ⟨hnone, _⟩ := h.absent (hentry.symm.trans hnew)
      rw [hnew, creator_addConnection]
      split
      · rename_i hcc
        rw [← hcc, hnone]
        simp
      · rfl
    | removeConnection b c entry =>
      obtain ⟨rfl, _, hc⟩ := hcause
      have hne : creator a.st.trace c ≠ some .udp := by
        rcases hc with hc | hc
        · exact (h.removing c hc).1
        · rw [h.connected c hc]
          exact fun heq => by cases heq
      rw [creator_removeConnection]
      split
      · rename_i hcc
        rw [← hcc]
        simp [hne]
      · rfl
    | _ => rfl

theorem halfInv_act [LawfulNetcode N] [LawfulRenet S] {inside : Prop} {a b : Cfg N R S W}
    (h : HalfInv inside a) (hact : Act a b) (hclean : clean b.st.trace = true)
    (hin : inside ∨ b.frame.current = none) : HalfInv inside b where
  keyed := keyed_act h.keyed hact
  words := ownWords_act h.keyed h.words hact
  upheld c := upheld_act h.words (h.upheld c) hact
  own := ownInv_act h.own hact hclean
  alone := alone_act h.alone hact
  paid := paid_act h.own h.upheld h.paid hact hin
  rightful := rightful_act h hact hclean

/-! ## The WebRTC half, one call -/

omit [Rtc R] in
theorem HalfInv.enter {a : Cfg N R S W} (h : HalfInv False a) : HalfInv True a := by
  refine ⟨h.keyed, h.words, h.upheld, h.own, h.alone, fun before o behind c bytes heq ho => ?_,
    h.rightful⟩
  exact (h.paid before o behind c bytes heq ho).imp_right (Or.imp_right fun hb => hb.1.elim)

omit [Rtc R] in
/-- No result waits any more. -/
theorem HalfInv.leave {a : Cfg N R S W} (h : HalfInv True a) (hline : a.line = []) :
    HalfInv False a := by
  refine ⟨h.keyed, h.words, h.upheld, h.own, h.alone, fun before o behind c bytes heq ho => ?_,
    h.rightful⟩
  rw [hline] at heq
  simp at heq

theorem trace_suffix_steps {a b : Cfg N R S W} (h : Steps a b) : a.st.trace <:+ b.st.trace := by
  induction h with
  | refl => exact List.suffix_rfl
  | tail _ hact ih => exact ih.trans (trace_suffix hact)

section
variable [LawfulNetcode N] [LawfulRenet S]

theorem halfInv_steps {a b : Cfg N R S W} (h : HalfInv True a) (hsteps : Steps a b)
    (hclean : clean b.st.trace = true) : HalfInv True b ∧ UdpEntries a.st.trace b.st.trace := by
  induction hsteps with
  | refl => exact ⟨h, fun _ => Iff.rfl⟩
  | tail _ hact ih =>
    obtain ⟨hmid, hudp⟩ := ih (clean_suffix (trace_suffix hact) hclean)
    refine ⟨halfInv_act hmid hact hclean (.inl trivial), fun c => ?_⟩
    exact (udpEntries_act hmid.own hact hclean c).trans (hudp c)

/-- Steps between two results. -/
theorem halfInv_still {a b : Cfg N R S W} (h : HalfInv False a) (hcur : a.frame.current = none)
    (hsteps : WebRtcState.StillSteps a b) (hclean : clean b.st.trace = true) :
    HalfInv False b ∧ UdpEntries a.st.trace b.st.trace ∧ b.frame = a.frame := by
  induction hsteps with
  | refl => exact ⟨h, fun _ => Iff.rfl, rfl⟩
  | tail _ hact ih =>
    obtain ⟨hmid, hudp, hframe⟩ := ih (clean_suffix (trace_suffix hact.1) hclean)
    have hcur' := (congrArg Frame.current (hact.2.trans hframe)).trans hcur
    refine ⟨halfInv_act hmid hact.1 hclean (.inr hcur'), fun c => ?_, hact.2.trans hframe⟩
    exact (udpEntries_act hmid.own hact.1 hclean c).trans (hudp c)

theorem HalfInv.finish {inside : Prop} {s : WebRtcState N R S W}
    (h : HalfInv inside ⟨s, {}, WebRtcState.sweptFrame []⟩) (hclean : clean s.trace = true) :
    HalfInv inside ⟨s, {}, {}⟩ := halfInv_act h .finish hclean (.inr rfl)

/-- A call that handles every result it finds or makes. -/
theorem halfInv_call {s s' : WebRtcState N R S W} (h : HalfInv False ⟨s, {}, {}⟩)
    (hsteps : Steps ⟨s, {}, {}⟩ ⟨s', {}, WebRtcState.sweptFrame []⟩) (happ : s'.applying = [])
    (hpend : s'.pendingServerResults = []) (hclean : clean s'.trace = true) :
    HalfInv False ⟨s', {}, WebRtcState.sweptFrame []⟩ ∧ UdpEntries s.trace s'.trace := by
  obtain ⟨hend, hudp⟩ := halfInv_steps h.enter hsteps hclean
  refine ⟨hend.leave ?_, hudp⟩
  simp [Cfg.line, happ, hpend]

variable [World W] [LawfulRtc R] [LawfulWorld W]

theorem halfInv_updateAt {fuel duration now : Nat} {s : WebRtcState N R S W}
    {r : WebRtcState N R S W × Option TransportError} (h : HalfInv False ⟨s, {}, {}⟩)
    (hs : s.applying = []) (hr : s.updateAt fuel duration now = some r)
    (hclean : clean r.1.trace = true) :
    HalfInv False ⟨r.1, {}, {}⟩ ∧ UdpEntries s.trace r.1.trace := by
  obtain ⟨hsteps, happ, hpend | ⟨_, t, htsteps, htapp, htpend, hrest⟩⟩ :=
    WebRtcState.steps_updateAt hr hs
  · obtain ⟨hend, hudp⟩ := halfInv_call h hsteps happ hpend hclean
    exact ⟨hend.finish hclean, hudp⟩
  · have hstill := WebRtcState.still_of_steady hrest
    have htclean := clean_suffix (trace_suffix_steps hstill.steps) hclean
    obtain ⟨hmid, hudp⟩ := halfInv_call h htsteps htapp htpend htclean
    obtain ⟨hend, hudp', _⟩ := halfInv_still hmid rfl hstill hclean
    exact ⟨hend.finish hclean, fun c => (hudp' c).trans (hudp c)⟩

end

/-! ## Both halves -/

/-- What holds between two calls. -/
structure MixedInv (m : MixedState N R S W) : Prop where
  half : HalfInv False ⟨m.webRtcState, {}, {}⟩
  udp : UdpInv m.udpState

/-- What a part of an operation does to the trace and the invariant. -/
structure Evolves (m m' : MixedState N R S W) : Prop where
  trace : m.trace <:+ m'.trace
  applying : m'.webrtc.applying = []
  inv : clean m'.trace = true → MixedInv m → MixedInv m'

section

omit [Rtc R]

theorem Evolves.andThen {m m' m'' : MixedState N R S W} (h : Evolves m m') (h' : Evolves m' m'') :
    Evolves m m'' :=
  ⟨h.trace.trans h'.trace, h'.applying,
    fun hclean hm => h'.inv hclean (h.inv (clean_suffix h'.trace hclean) hm)⟩

/-- The shared state changes under the WebRTC half between two of its calls: with no
vector being handled, what its invariant says about the trace is about entries of
its own. -/
theorem HalfInv.outside {s : WebRtcState N R S W} {shared : Shared S W}
    (h : HalfInv False ⟨s, {}, {}⟩) (hs : s.applying = []) (hentered : Entered shared)
    (hothers : OthersEntries s.trace shared.trace) (hrightful : Rightful shared.trace) :
    HalfInv False ⟨{ s with toShared := shared }, {}, {}⟩ := by
  refine ⟨⟨h.keyed.peers, h.keyed.hand⟩, h.words, h.upheld, ⟨hentered, fun c hc => ?_, fun c hc => ?_,
    fun c hc => absurd hc List.not_mem_nil⟩, h.alone, fun before o behind c bytes heq ho => ?_, hrightful⟩
  · exact (hothers c).2 (h.own.connected c hc)
  · obtain ⟨h1, h2⟩ := h.own.pending c hc
    exact ⟨(hothers c).2 h1, h2⟩
  · rcases h.paid before o behind c bytes heq ho with hb | ⟨_, he | ⟨_, hlt⟩⟩ | ⟨hin, _⟩
    · exact .inl hb
    · cases he
    · simp [Cfg.taken, hs] at hlt
    · exact hin.elim

theorem evolves_udp {m : MixedState N R S W} {s : UdpState N S W} (hm : m.webrtc.applying = [])
    (hsteps : UdpState.Steps m.udpState s) : Evolves m (m.setUdp s) := by
  refine ⟨udp_trace_suffix hsteps, hm, fun hclean h => ?_⟩
  obtain ⟨hudp, hothers⟩ := udpInv_steps h.udp hsteps hclean
  exact ⟨h.half.outside hm hudp.entered hothers hudp.rightful, hudp⟩

/-- The UDP half's invariant after a call of the other. -/
theorem MixedInv.setWebRtc {m : MixedState N R S W} {s : WebRtcState N R S W} (h : MixedInv m)
    (hhalf : HalfInv False ⟨s, {}, {}⟩) (hudp : UdpEntries m.trace s.trace) :
    MixedInv (m.setWebRtc s) :=
  ⟨hhalf, hhalf.own.entered, fun c => (h.udp.held c).trans (hudp c).symm, hhalf.rightful⟩

/-- With every result handled, a client of netcode has an entry of this half. -/
theorem HalfInv.held {s : WebRtcState N R S W} (h : HalfInv False ⟨s, {}, {}⟩) (happ : s.applying = [])
    (hpend : s.pendingServerResults = []) {c : ClientId} (hheld : Held s.netcodeServer c) :
    creator s.trace c = some .webRtc := by
  have hset := (h.upheld c).resolve_left (fun hd => by cases hd.1) hheld
  simp only [Cfg.settled, Cfg.queue, happ, hpend, Option.toList_none, List.append_nil, settles_nil] at hset
  exact h.own.connected c (HashMap.has_iff.1 hset)

theorem mixedInv_fresh {m : MixedState N R S W} (h : m.Fresh) :
    MixedInv m ∧ m.webrtc.applying = [] := by
  obtain ⟨n, n', addr, shared, rfl, htrace, hempty, hfree, hfree'⟩ := h
  have hentered : Entered shared := fun c => by
    rw [hempty, htrace]
    rfl
  have hrightful : Rightful shared.trace := by
    rw [htrace]
    trivial
  refine ⟨⟨⟨⟨?_, ?_⟩, .empty rfl, fun c => .inr fun hheld => absurd (hfree' c) hheld,
    ⟨hentered, ?_, ?_, ?_⟩, fun hne => absurd rfl hne, ?_, hrightful⟩, hentered,
    fun c => ?_, hrightful⟩, rfl⟩
  · exact fun c p hc => by cases hc
  · exact fun c p hc => by cases hc
  · exact fun c hc => absurd hc (AList.notMem_empty c)
  · exact fun c hc => absurd hc (AList.notMem_empty c)
  · exact fun c hc => absurd hc List.not_mem_nil
  · intro before o behind c bytes heq ho
    have heq' : [] = before ++ o :: behind := heq
    simp at heq'
  · have hc : creator shared.trace c ≠ some .udp := by
      rw [htrace]
      exact fun heq => by cases heq
    exact ⟨fun hheld => absurd (hfree c) hheld, fun heq => absurd heq hc⟩

end

section
variable [LawfulNetcode N] [LawfulRenet S]

/-- A call of the WebRTC half that handles every result. -/
theorem evolves_call {m : MixedState N R S W} {s : WebRtcState N R S W}
    (h : Steps ⟨m.webRtcState, {}, {}⟩ ⟨s, {}, WebRtcState.sweptFrame []⟩ ∧ s.applying = [] ∧
      s.pendingServerResults = []) : Evolves m (m.setWebRtc s) := by
  obtain ⟨hsteps, happ, hpend⟩ := h
  refine ⟨trace_suffix_steps hsteps, happ, fun hclean hm => ?_⟩
  obtain ⟨hend, hudp⟩ := halfInv_call hm.half hsteps happ hpend hclean
  exact hm.setWebRtc (hend.finish hclean) hudp

/-- A call of the WebRTC half that handles none. -/
theorem evolves_still {m : MixedState N R S W} {s : WebRtcState N R S W}
    (hsteps : WebRtcState.StillSteps ⟨m.webRtcState, {}, {}⟩ ⟨s, {}, {}⟩) (happ : s.applying = []) :
    Evolves m (m.setWebRtc s) := by
  refine ⟨trace_suffix_steps hsteps.steps, happ, fun hclean hm => ?_⟩
  obtain ⟨hend, hudp, _⟩ := halfInv_still hm.half rfl hsteps hclean
  exact hm.setWebRtc hend hudp

omit [LawfulNetcode N] [Rtc R] in
/-- The game's `disconnect` leaves the entry in place. -/
theorem evolves_disconnect {m : MixedState N R S W} (hm : m.webrtc.applying = []) (c : ClientId) :
    Evolves m { m with server := RenetServer.disconnect m.server c } := by
  refine ⟨List.suffix_rfl, hm, fun _ h => ?_⟩
  have hentered : Entered { m.toShared with server := RenetServer.disconnect m.server c } :=
    fun c' => (LawfulRenet.disconnect m.server c c').trans (h.udp.entered c')
  exact ⟨h.half.outside hm hentered (fun _ => Iff.rfl) h.half.rightful, hentered, h.udp.held,
    h.half.rightful⟩

variable [World W] [LawfulRtc R] [LawfulWorld W]

theorem evolves_updateAt {fuel duration now : Nat} {m : MixedState N R S W}
    {r : WebRtcState N R S W × Option TransportError} (hm : m.webrtc.applying = [])
    (hr : m.webRtcState.updateAt fuel duration now = some r) : Evolves m (m.setWebRtc r.1) := by
  obtain ⟨hsteps, happ, _⟩ := WebRtcState.steps_updateAt hr hm
  refine ⟨trace_suffix_steps hsteps, happ, fun hclean h => ?_⟩
  obtain ⟨hend, hudp⟩ := halfInv_updateAt h.half hm hr hclean
  exact h.setWebRtc hend hudp

variable [PacketLimit N]

theorem evolves_update {fuel duration now : Nat} {m : MixedState N R S W}
    {r : MixedState N R S W × Option TransportError} (hm : m.webrtc.applying = [])
    (hr : m.update fuel duration now = some r) : Evolves m r.1 := by
  unfold MixedState.update at hr
  dsimp only at hr
  have hudp := evolves_udp hm (UdpState.steps_update duration m.udpState)
  split at hr
  · cases hr
    exact hudp
  · obtain ⟨r', hr', rfl⟩ := Option.map_eq_some_iff.1 hr
    exact hudp.andThen (evolves_updateAt hm hr')

theorem evolves_step {m m' : MixedState N R S W} {op : MixedState.Op R} (hm : m.webrtc.applying = [])
    (h : m.step op = some m') : Evolves m m' := by
  cases op with
  | update fuel duration now =>
    obtain ⟨r, hr, rfl⟩ := Option.map_eq_some_iff.1 h
    exact evolves_update hm hr
  | sendPackets fuel =>
    obtain ⟨s, hs, rfl⟩ := Option.map_eq_some_iff.1 h
    exact (evolves_udp hm (.single (.calm (UdpState.sendPackets_calm _)))).andThen
      (evolves_call (WebRtcState.steps_sendPackets hs hm))
  | disconnectAll fuel =>
    obtain ⟨s, hs, rfl⟩ := Option.map_eq_some_iff.1 h
    exact (evolves_udp hm (UdpState.steps_disconnectAll _)).andThen
      (evolves_call (WebRtcState.steps_disconnectAll hs hm))
  | addPeer c rtc =>
    cases h
    exact evolves_still (WebRtcState.still_addPeer _ c rtc hm)
      ((WebRtcState.removePeer_applying _ c).trans hm)
  | removePeer c =>
    cases h
    exact evolves_still (WebRtcState.still_removePeer _ c hm)
      ((WebRtcState.removePeer_applying _ c).trans hm)
  | setConditioner handle =>
    obtain ⟨u, hu, h⟩ := Option.bind_eq_some_iff.1 h
    obtain ⟨s, hs, rfl⟩ := Option.map_eq_some_iff.1 h
    obtain ⟨⟨gate, shared⟩, hr, rfl⟩ := Option.map_eq_some_iff.1 hs
    refine (evolves_udp hm (.single (.calm (UdpState.setConditioner_calm hu)))).andThen
      (evolves_still (.single ⟨?_, rfl⟩) hm)
    exact .gate gate shared (ServerPacketGate.attach_spec hr).1
  | clearConditioner =>
    cases h
    refine (evolves_udp hm (.single (.calm (UdpState.clearConditioner_calm _)))).andThen
      (evolves_still (.single ⟨?_, rfl⟩) hm)
    exact .gate _ _ (ServerPacketGate.detach_shrinks _ _)
  | disconnect c =>
    cases h
    exact evolves_disconnect hm c

theorem mixedInv_reachable {m : MixedState N R S W} (h : (MixedState.runs N R S W).Reachable m) :
    m.webrtc.applying = [] ∧ (clean m.trace = true → MixedInv m) := by
  refine LTS.Inductive.reachable (I := fun m : MixedState N R S W =>
    m.webrtc.applying = [] ∧ (clean m.trace = true → MixedInv m)) ⟨fun m hm => ?_, ?_⟩ m h
  · obtain ⟨hinv, happ⟩ := mixedInv_fresh hm
    exact ⟨happ, fun _ => hinv⟩
  · rintro m op m' ⟨happ, hinv⟩ hstep
    have hev := evolves_step happ hstep
    exact ⟨hev.applying, fun hclean => hev.inv hclean (hinv (clean_suffix hev.trace hclean))⟩

/-- In every run in which no `ClientConnected` is handled for an id whose entry is
still there and no longer connected, and no payload of a client is handled after the
client's duplicate was turned away: the entry a backend removes or delivers a packet
to was made by that backend, and after an `update` that returns `Ok` no id is
connected in both netcode servers. -/
theorem one_backend_per_connection {m : MixedState N R S W}
    (h : (MixedState.runs N R S W).Reachable m) (hclean : clean m.trace = true) :
    (∀ later earlier b c, m.trace = later ++ .removeConnection b c true :: earlier →
      creator earlier c = some b) ∧
    (∀ later earlier b c own p, m.trace = later ++ .processPacketFrom b c true own p :: earlier →
      creator earlier c = some b) ∧
    ∀ fuel duration now m', m.update fuel duration now = some (m', none) →
      clean m'.trace = true → ∀ c, ¬ (NetcodeServer.clientAddr m'.udp.netcodeServer c ≠ none ∧
        NetcodeServer.clientAddr m'.webrtc.netcodeServer c ≠ none) := by
  obtain ⟨happ, hinv⟩ := mixedInv_reachable h
  have hm := hinv hclean
  refine ⟨fun later earlier b c htrace => ?_, fun later earlier b c own p htrace => ?_,
    fun fuel duration now m' hupdate hclean' c => ?_⟩
  · have hr := hm.half.rightful
    rw [show m.webRtcState.trace = _ from htrace] at hr
    exact hr.split rfl
  · have hr := hm.half.rightful
    rw [show m.webRtcState.trace = _ from htrace] at hr
    exact hr.split rfl
  · rintro ⟨hudp, hwebrtc⟩
    have hev := evolves_update happ hupdate
    have hm' := hev.inv hclean' hm
    have hpend : m'.webrtc.pendingServerResults = [] := by
      unfold MixedState.update at hupdate
      dsimp only at hupdate
      split at hupdate
      · cases hupdate
      · obtain ⟨r, hr, heq⟩ := Option.map_eq_some_iff.1 hupdate
        obtain ⟨rfl, hok⟩ := Prod.mk.inj heq
        obtain ⟨_, _, hpend | ⟨hne, _⟩⟩ := WebRtcState.steps_updateAt hr happ
        · exact hpend
        · exact absurd hok hne
    have hmine := hm'.half.held hev.applying hpend hwebrtc
    rw [show m'.webRtcState.trace = m'.trace from rfl, show creator m'.trace c = _ from
      (hm'.udp.held c).1 hudp] at hmine
    cases hmine

end

/-! ## Runs -/

instance : PacketLimit Table where
  maxPacketBytes := 1400

/-- A mixed transport in the small environment. -/
abbrev MixedDemo := MixedState Table Script Connections Sockets

def mixedStart (w : Sockets) : MixedDemo :=
  .new (UdpState.new ⟨∅⟩ (demoShared w)).toUdpTransport
    (WebRtcState.new ⟨∅⟩ (lan 1) (demoShared w)).toWebRtcTransport (demoShared w)

def mixedDemo (w : Sockets) (ops : List (MixedState.Op Script)) : Option MixedDemo :=
  ops.foldlM MixedState.step (mixedStart w)

theorem mixedDemo_reachable {w : Sockets} {ops : List (MixedState.Op Script)} {m : MixedDemo}
    (h : mixedDemo w ops = some m) :
    (MixedState.runs Table Script Connections Sockets).Reachable m :=
  ⟨mixedStart w, ops,
    ⟨⟨∅⟩, ⟨∅⟩, lan 1, demoShared w, rfl, rfl, fun _ => rfl, fun _ => rfl, fun _ => rfl⟩,
    LTS.run_of_foldlM (fun _ _ _ hs => hs) h⟩

theorem mixedDemo_any (w : Sockets) (ops : List (MixedState.Op Script)) {P : MixedDemo → Bool}
    (h : (mixedDemo w ops).any P = true) : ∃ m, mixedDemo w ops = some m ∧ P m = true :=
  (Option.any_eq_true P _).1 h

theorem split_at {events : List Event} {k : Nat} {e : Event} (h : events[k]? = some e) :
    events = events.take k ++ e :: events.drop (k + 1) := by
  obtain ⟨hk, rfl⟩ := List.getElem?_eq_some_iff.1 h
  rw [List.getElem_cons_drop, List.take_append_drop]

/-- A WebRTC client and a UDP client side by side; the UDP client sends a packet and
the game disconnects it. -/
theorem one_backend_per_connection_sideBySide : ∃ m : MixedDemo,
    (MixedState.runs Table Script Connections Sockets).Reachable m ∧ clean m.trace = true ∧
    NetcodeServer.clientAddr m.webrtc.netcodeServer 1 ≠ none ∧
    ∃ later earlier, m.trace = later ++ .removeConnection .udp 2 true :: earlier ∧
      creator earlier 2 = some .udp := by
  obtain ⟨m, hm, hp⟩ := mixedDemo_any
    { webRtc := [([1], lan 11)], udp := [([1, 2], lan 21), ([3, 9], lan 21)] }
    [.addPeer 1 { name := 1, onInput := [[opens, brings [1, 1], brings [3, 9]]] }, .update 9 0 0,
      .disconnect 2, .update 9 0 0]
    (P := fun m => clean m.trace && (NetcodeServer.clientAddr m.webrtc.netcodeServer 1).isSome &&
      m.trace[4]? = some (.removeConnection .udp 2 true)) (by decide +kernel)
  rw [Bool.and_eq_true, Bool.and_eq_true, decide_eq_true_eq] at hp
  obtain ⟨⟨hclean, hheld⟩, hremoved⟩ := hp
  have hreach := mixedDemo_reachable hm
  refine ⟨m, hreach, hclean, Option.isSome_iff_ne_none.1 hheld, _, _, split_at hremoved, ?_⟩
  exact (one_backend_per_connection hreach hclean).1 _ _ _ _ (split_at hremoved)

/-- The game disconnects a WebRTC client, and a UDP client of the same id connects
before the entry is removed: the UDP backend removes the other's entry. And a
WebRTC duplicate of a UDP client brings a packet with its handshake: the packet goes
to the UDP client's entry. -/
theorem entry_changes_hands :
    (∃ m : MixedDemo, (MixedState.runs Table Script Connections Sockets).Reachable m ∧
      ∃ later earlier, m.trace = later ++ .removeConnection .udp 1 true :: earlier ∧
        creator earlier 1 = some .webRtc) ∧
    ∃ m : MixedDemo, (MixedState.runs Table Script Connections Sockets).Reachable m ∧
      ∃ later earlier own p, m.trace = later ++ .processPacketFrom .webRtc 1 true own p :: earlier ∧
        creator earlier 1 = some .udp := by
  constructor
  · -- 256 datagrams are read in one update, so the handshake comes in the second
    obtain ⟨m, hm, hp⟩ := mixedDemo_any
      { webRtc := [([1], lan 11)], udp := List.replicate 256 ([0], lan 9) ++ [([1, 1], lan 21)] }
      [.addPeer 1 { name := 1, onInput := [[opens, brings [1, 1]]] }, .update 9 0 0, .disconnect 1,
        .update 9 0 0]
      (P := fun m => m.trace[4]? = some (.removeConnection .udp 1 true) &&
        creator (m.trace.drop 5) 1 = some .webRtc) (by decide +kernel)
    rw [Bool.and_eq_true, decide_eq_true_eq, decide_eq_true_eq] at hp
    exact ⟨m, mixedDemo_reachable hm, _, _, split_at hp.1, hp.2⟩
  · obtain ⟨m, hm, hp⟩ := mixedDemo_any { webRtc := [([1], lan 11)], udp := [([1, 1], lan 21)] }
      [.addPeer 1 { name := 1, onInput := [[opens, brings [1, 1], brings [3, 9]]] }, .update 9 0 0]
      (P := fun m =>
        m.trace[0]? = some (.processPacketFrom .webRtc 1 true false ⟨[9], ⟨.webRtc 1, 10⟩⟩) &&
          creator (m.trace.drop 1) 1 = some .udp) (by decide +kernel)
    rw [Bool.and_eq_true, decide_eq_true_eq, decide_eq_true_eq] at hp
    exact ⟨m, mixedDemo_reachable hm, _, _, _, _, split_at hp.1, hp.2⟩

end RenetCross.L4
