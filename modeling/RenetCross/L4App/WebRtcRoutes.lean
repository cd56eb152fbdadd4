import RenetCross.L4App.WebRtcLeak

/-!
# Routes

`addr_to_client_id` holds two kinds of addresses in one map: the virtual address
of each peer, under which netcode knows its client, and the source address the
peer's datagrams come from. `peer_act` says what a step can do to the peers and
the routes, `Routed` is where a route can lead, and `Homed` that the virtual
address of each peer leads to it.

A source address is the sender's choice. `output_reaches_own_peer`: netcode's
packets for a registered peer go to that peer, in every run in which no datagram
that a peer takes in comes from the virtual address of a registered peer.
-/
namespace RenetCross.L4

open RenetCross.L2

variable {N R S W : Type} [NetcodeServer N] [Rtc R] [RenetServer S]

/-! ## Who has a peer -/

/-- `p` is the peer of `c`, in the map or in hand. -/
def PeerAt (a : Cfg N R S W) (c : ClientId) (p : ServerPeer R) : Prop :=
  a.st.peers.get c = some p ∨ a.drive.hand = some (c, p)

omit [NetcodeServer N] [Rtc R] [RenetServer S] in
theorem live_iff {a : Cfg N R S W} {c : ClientId} : Live a c ↔ ∃ p, PeerAt a c p := by
  unfold Live PeerAt
  rw [HashMap.mem_iff_get]
  constructor
  · rintro (⟨p, h⟩ | ⟨p, h⟩)
    · exact ⟨p, .inl h⟩
    · exact ⟨p, .inr h⟩
  · rintro ⟨p, h | h⟩
    · exact .inl ⟨p, h⟩
    · exact .inr ⟨p, h⟩

/-- The client `q` has the same peer as before, up to its `Rtc`, or still none. -/
def Kept (a b : Cfg N R S W) (q : ClientId) : Prop :=
  (∀ p, PeerAt a q p → ∃ p', PeerAt b q p' ∧ p'.remoteAddr = p.remoteAddr) ∧
  ∀ p', PeerAt b q p' → ∃ p, PeerAt a q p ∧ p'.remoteAddr = p.remoteAddr

omit [NetcodeServer N] [Rtc R] [RenetServer S] in
theorem Kept.live {a b : Cfg N R S W} {q : ClientId} (h : Kept a b q) : Live b q ↔ Live a q := by
  rw [live_iff, live_iff]
  constructor
  · rintro ⟨p', hp'⟩
    obtain ⟨p, hp, _⟩ := h.2 p' hp'
    exact ⟨p, hp⟩
  · rintro ⟨p, hp⟩
    obtain ⟨p', hp', _⟩ := h.1 p hp
    exact ⟨p', hp'⟩

omit [NetcodeServer N] [Rtc R] [RenetServer S] in
theorem Kept.of_eq {a b : Cfg N R S W} (hp : b.st.peers = a.st.peers)
    (hh : b.drive.hand = a.drive.hand) (q : ClientId) : Kept a b q := by
  unfold Kept PeerAt
  rw [hp, hh]
  exact ⟨fun p h => ⟨p, h, rfl⟩, fun p h => ⟨p, h, rfl⟩⟩

/-- What a step can do to the peers and the routes. -/
inductive PeerStep (a b : Cfg N R S W) : Prop
  | same : (∀ q, Kept a b q) → b.st.addrToClientId = a.st.addrToClientId →
      b.frame.doomed = a.frame.doomed → PeerStep a b
  /-- A peer is torn down, removed or forgotten. -/
  | drop (c : ClientId) : (∀ q, q ≠ c → Kept a b q) → ¬ Live b c →
      b.st.addrToClientId = a.st.addrToClientId.retain (fun _ value => value ≠ c) →
      (b.frame.doomed = a.frame.doomed ∧
          ((Held a.st.netcodeServer c → Farewell c b) ∨ c ∉ b.st.connectedClientIds) ∨
        a.frame.doomed = some c) → PeerStep a b
  | feed (c : ClientId) (p p' : ServerPeer R) (source : SocketAddr) :
      (∀ q, q ≠ c → Kept a b q) → a.st.peers.get c = some p → a.drive.hand = none →
      (∀ q, PeerAt b c q ↔ q = p') → p'.remoteAddr = some source →
      b.st.addrToClientId =
        WebRtcState.learnRoute a.st.addrToClientId c p.remoteAddr source →
      .input c (a.st.peers.keys.any fun q => source = virtualAddrForClient q) ∈ b.st.trace →
      b.frame.doomed = a.frame.doomed → PeerStep a b
  | connect (o : Outcome) (c : ClientId) (addr : SocketAddr) (payload : Bytes) (entry : Bool) :
      a.frame.current = some o → o.result = .clientConnected c addr payload →
      (∀ q, Kept a b q) → b.st.addrToClientId = a.st.addrToClientId.insert addr c →
      .addConnection .webRtc c entry (c ∈ a.st.peers) o.tag ∈ b.st.trace →
      b.frame.doomed = a.frame.doomed → PeerStep a b
  | register (c : ClientId) (rtc : R) : (∀ q, q ≠ c → Kept a b q) →
      (∀ p, PeerAt b c p ↔ p = ServerPeer.new c rtc) →
      (∀ addr, a.st.addrToClientId.get addr ≠ some c) →
      b.st.addrToClientId = a.st.addrToClientId.insert (virtualAddrForClient c) c →
      b.frame.doomed = a.frame.doomed → Sound b c → PeerStep a b
  | release (o : Outcome) (c : ClientId) (addr : SocketAddr) (payload : Option Bytes) :
      a.frame.current = some o → o.result = .clientDisconnected c addr payload →
      (∀ q, Kept a b q) → b.st.addrToClientId = a.st.addrToClientId.remove addr →
      b.frame.doomed = some c → PeerStep a b
  | clear : (∀ q, ¬ Live b q) → b.st.addrToClientId = ∅ → a.frame.roll = some [] → PeerStep a b

section

omit [NetcodeServer N] [Rtc R] [RenetServer S]

/-- The peer in hand changes, but not where its datagrams come from. -/
theorem kept_hand {a b : Cfg N R S W} {c : ClientId} {p p' : ServerPeer R}
    (hp : b.st.peers = a.st.peers) (ha : a.drive.hand = some (c, p))
    (hb : b.drive.hand = some (c, p')) (hr : p'.remoteAddr = p.remoteAddr) (q : ClientId) :
    Kept a b q := by
  unfold Kept PeerAt
  rw [hp, ha, hb]
  constructor
  · rintro r (h | h)
    · exact ⟨r, .inl h, rfl⟩
    · cases h
      exact ⟨p', .inr rfl, hr⟩
  · rintro r (h | h)
    · exact ⟨r, .inl h, rfl⟩
    · cases h
      exact ⟨p, .inr rfl, hr⟩

/-- So does a peer in the map. -/
theorem kept_insert {a b : Cfg N R S W} {c : ClientId} {p p' : ServerPeer R}
    (hp : b.st.peers = a.st.peers.insert c p') (ha : a.st.peers.get c = some p)
    (hh : b.drive.hand = a.drive.hand) (hr : p'.remoteAddr = p.remoteAddr) (q : ClientId) :
    Kept a b q := by
  unfold Kept PeerAt
  rw [hp, hh, HashMap.get_insert]
  by_cases hq : q = c
  · subst hq
    rw [if_pos rfl, ha]
    constructor
    · rintro r (h | h)
      · cases h
        exact ⟨p', .inl rfl, hr⟩
      · exact ⟨r, .inr h, rfl⟩
    · rintro r (h | h)
      · cases h
        exact ⟨p, .inl rfl, hr⟩
      · exact ⟨r, .inr h, rfl⟩
  · rw [if_neg hq]
    exact ⟨fun r h => ⟨r, h, rfl⟩, fun r h => ⟨r, h, rfl⟩⟩

/-- Another client's peer is inserted or removed. -/
theorem kept_other {a b : Cfg N R S W} {q : ClientId} (hp : b.st.peers.get q = a.st.peers.get q)
    (ha : ∀ p, a.drive.hand ≠ some (q, p)) (hb : ∀ p, b.drive.hand ≠ some (q, p)) : Kept a b q := by
  unfold Kept PeerAt
  rw [hp]
  refine ⟨fun r h => ⟨r, .inl (h.resolve_right (ha r)), rfl⟩,
    fun r h => ⟨r, .inl (h.resolve_right (hb r)), rfl⟩⟩

end

omit [Rtc R] [RenetServer S] in
/-- Netcode's answer to the `disconnect` of a torn down peer waits in the queue. -/
theorem tornDown_farewell [LawfulNetcode N] (s : WebRtcState N R S W) (c : ClientId) (d : Drive R)
    (f : Frame) (h : Held s.netcodeServer c) : Farewell c ⟨s.tornDown c, d, f⟩ := by
  have hspec := LawfulNetcode.disconnect s.netcodeServer c
  refine ⟨⟨toOwnedServerResult (NetcodeServer.disconnect s.netcodeServer c).2, s.tagNow c⟩, ?_, ?_⟩
  · exact Cfg.mem_queue.2 (.inr (.inr (.inl (List.mem_append_right _ List.mem_cons_self))))
  · by_contra hne
    exact disconnect_none_held hspec hne h

theorem peer_act [LawfulNetcode N] {a b : Cfg N R S W} (hk : Keyed a) (hact : Act a b) :
    PeerStep a b := by
  cases hact with
  | @pickUp s d f c p hp hhand hf =>
    refine .same (fun q => ?_) rfl rfl
    by_cases hq : q = c
    · subst hq
      refine ⟨fun r h => ⟨r, .inr ?_, rfl⟩, fun r h => ⟨r, .inl ?_, rfl⟩⟩
      · rcases h with h | h
        · rw [hp] at h
          cases h
          rfl
        · rw [show d.hand = none from hhand] at h
          cases h
      · rcases h with h | h
        · rw [show (s.peers.remove q).get q = none from HashMap.get_remove_self _ q] at h
          cases h
        · cases h
          exact hp
    · refine kept_other ?_ (fun r h => ?_) fun r h => ?_
      · exact (HashMap.get_remove _ c q).trans (if_neg hq)
      · rw [show d.hand = none from hhand] at h
        cases h
      · cases h
        exact hq rfl
  | @putDown s d f c p hhand hf hg hd =>
    refine .same (fun q => ?_) rfl rfl
    by_cases hq : q = c
    · subst hq
      refine ⟨fun r h => ⟨r, .inl ?_, rfl⟩, fun r h => ⟨r, .inr ?_, rfl⟩⟩
      · rcases h with h | h
        · rw [(hk.hand q p hhand).2.2] at h
          cases h
        · rw [hhand] at h
          cases h
          exact HashMap.get_insert_self _ q p
      · rcases h with h | h
        · rw [show (s.peers.insert q p).get q = some p from HashMap.get_insert_self _ q p] at h
          cases h
          exact hhand
        · cases h
    · refine kept_other ?_ (fun r h => ?_) fun r h => by cases h
      · exact (HashMap.get_insert _ c q p).trans (if_neg hq)
      · rw [hhand] at h
        cases h
        exact hq rfl
  | @touchHand s d f c p p' hhand hret =>
    exact .same (kept_hand rfl hhand rfl hret.remoteAddr) rfl rfl
  | @touchPeer s d f c p p' hp hret =>
    exact .same (kept_insert rfl hp rfl hret.remoteAddr) rfl rfl
  | @startDrain s d f c p hhand hd => exact .same (kept_hand rfl hhand rfl rfl) rfl rfl
  | @polled s d f c p rtc hhand hnone => exact .same (kept_hand rfl hhand rfl rfl) rfl rfl
  | @polledTimeout s d f c p rtc deadline hhand hnone =>
    exact .same (kept_hand rfl hhand rfl rfl) rfl rfl
  | @timeout s d f c p rtc hp hnone hd hhand => exact .same (kept_insert rfl hp rfl rfl) rfl rfl
  | @write s d f c p rtc packet hp hnone hd hhand hout =>
    exact .same (kept_insert rfl hp rfl rfl) rfl rfl
  | @tearDown s d f c p hhand hg hd =>
    refine .drop c (fun q hq => kept_other rfl (fun r h => ?_) fun r h => by cases h) ?_ rfl
      (.inl ⟨rfl, .inl (tornDown_farewell s c _ f)⟩)
    · rw [hhand] at h
      cases h
      exact hq rfl
    · rintro (h | ⟨r, h⟩)
      · exact HashMap.not_mem_iff_get.2 (hk.hand c p hhand).2.2 h
      · cases h
  | @feed s d f c p source input hp hnone hd hhand =>
    set p' : ServerPeer R := { p with
      remoteAddr := some source
      rtc := WebRtcState.afterReceive (Rtc.handleInput p.rtc input) } with hp'
    have hget : (s.feedPeer c p source input).peers.get c = some p' := HashMap.get_insert_self _ c _
    refine .feed c p p' source (fun q hq => kept_other ?_ (fun r h => ?_) fun r h => ?_) hp hhand
      (fun r => ?_) rfl rfl List.mem_cons_self rfl
    · exact (HashMap.get_insert _ c q _).trans (if_neg hq)
    · rw [hhand] at h
      cases h
    · rw [hhand] at h
      cases h
    · constructor
      · rintro (h | h)
        · rw [hget] at h
          exact (Option.some.inj h).symm
        · rw [hhand] at h
          cases h
      · intro h
        rw [h]
        exact .inl hget
  | @connect s d f o c addr payload hcur ho hconn =>
    exact .connect o c addr payload _ hcur ho (Kept.of_eq rfl rfl) rfl List.mem_cons_self rfl
  | @expel s d f c hej hhand hg hd hcur =>
    refine .drop c (fun q hq => kept_other ?_ (fun r h => ?_) fun r h => ?_) ?_ ?_
      (.inl ⟨rfl, .inr fun hc => (WebRtcState.mem_connected_expelled.1 hc).1 rfl⟩)
    · rw [WebRtcState.expelled_peers, HashMap.get_remove, if_neg hq]
    · rw [hhand] at h
      cases h
    · rw [hhand] at h
      cases h
    · rintro (h | ⟨r, h⟩)
      · rw [WebRtcState.expelled_peers] at h
        exact (HashMap.mem_remove.1 h).1 rfl
      · rw [hhand] at h
        cases h
    · exact s.expelled_routes c
  | @register s d f c rtc hp hfree hconn hw happ hhand hg hcur hroutes =>
    refine .register c rtc (fun q hq => kept_other ?_ (fun r h => ?_) fun r h => ?_)
      (fun r => ?_) hroutes rfl rfl fun _ hs => ?_
    · exact (HashMap.get_insert _ c q _).trans (if_neg hq)
    · rw [hhand] at h
      cases h
    · rw [hhand] at h
      cases h
    · have hget : (s.registered c rtc).peers.get c = some (ServerPeer.new c rtc) :=
        HashMap.get_insert_self _ c _
      constructor
      · rintro (h | h)
        · rw [hget] at h
          exact (Option.some.inj h).symm
        · rw [hhand] at h
          cases h
      · rintro rfl
        exact .inl hget
    · have hout : s.connectedClientIds.has c = false :=
        Bool.eq_false_iff.2 fun hc => hconn (HashMap.has_iff.1 hc)
      simp only [Cfg.settled, Cfg.queue, WebRtcState.registered, WebRtcState.log, hcur, happ, hg,
        hout, Option.toList_none, List.nil_append, List.append_nil] at hs
      rw [settles_false hw] at hs
      cases hs
  | @release s d f o c addr payload hcur ho =>
    refine .release o c addr payload hcur ho (Kept.of_eq ?_ rfl) ?_ rfl
    · rw [WebRtcState.releaseClient_frame]
    · rw [WebRtcState.releaseClient_frame]
  | @forget s d f c hdoom hhand =>
    refine .drop c (fun q hq => kept_other ?_ (fun r h => ?_) fun r h => ?_) ?_ rfl (.inr hdoom)
    · exact (HashMap.get_remove _ c q).trans (if_neg hq)
    · rw [hhand] at h
      cases h
    · rw [hhand] at h
      cases h
    · rintro (h | ⟨r, h⟩)
      · exact (HashMap.mem_remove.1 h).1 rfl
      · rw [hhand] at h
        cases h
  | @settle s d f c r hspec happ hbet hg =>
    rw [WebRtcState.severed_frame]
    exact .same (Kept.of_eq rfl rfl) rfl rfl
  | @rollNext s d f c rest r hspec happ hcur hdoom hej hroll hg =>
    rw [WebRtcState.severed_frame]
    exact .same (Kept.of_eq rfl rfl) rfl rfl
  | @clear s d f hhand hd hcur hdoom happ hroll =>
    refine .clear (fun q => ?_) rfl hroll
    rintro (h | ⟨r, h⟩)
    · exact absurd h (HashMap.not_mem_iff_get.2 rfl)
    · rw [hhand] at h
      cases h
  | _ => exact .same (Kept.of_eq rfl rfl) rfl rfl

/-! ## Routes -/

/-- Every route leads to a peer, from its virtual address or from the source its
datagrams come from. -/
def Routed (a : Cfg N R S W) : Prop :=
  ∀ addr c, a.st.addrToClientId.get addr = some c →
    ∃ p, PeerAt a c p ∧ (addr = virtualAddrForClient c ∨ p.remoteAddr = some addr)

/-- A `ClientConnected` was handled for a client with a peer. -/
def Event.peered : Event → Prop
  | .addConnection _ _ _ registered _ => registered = true
  | _ => True

omit [NetcodeServer N] [Rtc R] [RenetServer S] in
/-- A peer of `a` that is kept serves a route as before. -/
theorem Kept.routed {a b : Cfg N R S W} {q : ClientId} (h : Kept a b q) {addr : SocketAddr}
    (hr : ∃ p, PeerAt a q p ∧ (addr = virtualAddrForClient q ∨ p.remoteAddr = some addr)) :
    ∃ p, PeerAt b q p ∧ (addr = virtualAddrForClient q ∨ p.remoteAddr = some addr) := by
  obtain ⟨p, hp, hr⟩ := hr
  obtain ⟨p', hp', heq⟩ := h.1 p hp
  exact ⟨p', hp', by rw [heq]; exact hr⟩

/-- A route after a datagram: the new one, or an old one that is not the source
the peer left. -/
theorem get_learnRoute {routes : HashMap SocketAddr ClientId} {c q : ClientId}
    {old : Option SocketAddr} {source addr : SocketAddr}
    (h : (WebRtcState.learnRoute routes c old source).get addr = some q) :
    addr = source ∧ q = c ∨
      addr ≠ source ∧ routes.get addr = some q ∧ (old = some addr → q ≠ c) := by
  unfold WebRtcState.learnRoute at h
  dsimp only at h
  rw [HashMap.get_insert] at h
  split at h
  · rename_i heq
    cases h
    exact .inl ⟨heq, rfl⟩
  · rename_i hne
    refine .inr ⟨hne, ?_⟩
    cases old with
    | none => exact ⟨h, fun heq => by cases heq⟩
    | some oldSource =>
      dsimp only at h
      split at h
      · rename_i hc
        rw [HashMap.get_remove] at h
        split at h
        · cases h
        · rename_i hne'
          exact ⟨h, fun heq => absurd (Option.some.inj heq).symm hne'⟩
      · rename_i hc
        refine ⟨h, fun heq hqc => hc ?_⟩
        cases heq
        exact ⟨hne, hqc ▸ h⟩

omit [Rtc R] [RenetServer S] in
theorem honest_current {a : Cfg N R S W} (hi : IdentityInv a) {o : Outcome}
    (hcur : a.frame.current = some o) : o.Honest a.st.trace := hi.queue o (Cfg.mem_queue.2 (.inl hcur))

theorem honest_connected {trace : List Event} {o : Outcome} (h : o.Honest trace) {c : ClientId}
    {addr : SocketAddr} {payload : Bytes} (ho : o.result = .clientConnected c addr payload) :
    addr = virtualAddrForClient c := by
  unfold Outcome.Honest at h
  rw [ho] at h
  exact h.2

theorem honest_disconnected {trace : List Event} {o : Outcome} (h : o.Honest trace) {c : ClientId}
    {addr : SocketAddr} {payload : Option Bytes} (ho : o.result = .clientDisconnected c addr payload) :
    addr = virtualAddrForClient c := by
  unfold Outcome.Honest at h
  rw [ho] at h
  exact h.2

theorem routed_act [LawfulNetcode N] {a b : Cfg N R S W} (hi : IdentityInv a) (h : Routed a)
    (hact : Act a b) (hok : ∀ e ∈ b.st.trace, e.peered) : Routed b := by
  intro addr q hq
  cases peer_act hi.keyed hact with
  | same hkept hroutes =>
    rw [hroutes] at hq
    exact (hkept q).routed (h addr q hq)
  | drop c hkept hdead hroutes =>
    rw [hroutes, HashMap.get_retain, Option.filter_eq_some_iff] at hq
    exact (hkept q (by simpa using hq.2)).routed (h addr q hq.1)
  | feed c p p' source hkept hp hhand hnew hremote hroutes =>
    rw [hroutes] at hq
    rcases get_learnRoute hq with ⟨haddr, hqc⟩ | ⟨_, hget, hold⟩
    · rw [haddr, hqc]
      exact ⟨p', (hnew p').2 rfl, .inr hremote⟩
    · by_cases hqc : q = c
      · subst hqc
        obtain ⟨r, hr, hraddr⟩ := h addr q hget
        rcases hraddr with hraddr | hraddr
        · exact ⟨p', (hnew p').2 rfl, .inl hraddr⟩
        · rcases hr with hr | hr
          · rw [hp] at hr
            cases hr
            exact absurd rfl (hold hraddr)
          · rw [hhand] at hr
            cases hr
      · exact (hkept q hqc).routed (h addr q hget)
  | connect o c addr' payload entry hcur ho hkept hroutes hev =>
    have haddr := honest_connected (honest_current hi hcur) ho
    rw [hroutes, HashMap.get_insert] at hq
    split at hq
    · rename_i heq
      cases hq
      have hpeer : decide (q ∈ a.st.peers) = true := hok _ hev
      obtain ⟨p, hp⟩ := live_iff.1 ((hkept q).live.2 (.inl (of_decide_eq_true hpeer)))
      exact ⟨p, hp, .inl (heq.trans haddr)⟩
    · exact (hkept q).routed (h addr q hq)
  | register c rtc hkept hnew hfree hroutes =>
    rw [hroutes, HashMap.get_insert] at hq
    split at hq
    · rename_i heq
      cases hq
      exact ⟨_, (hnew _).2 rfl, .inl heq⟩
    · have hqc : q ≠ c := fun heq => hfree addr (heq ▸ hq)
      exact (hkept q hqc).routed (h addr q hq)
  | release o c addr' payload hcur ho hkept hroutes =>
    rw [hroutes, HashMap.get_remove] at hq
    split at hq
    · cases hq
    · exact (hkept q).routed (h addr q hq)
  | clear hdead hroutes =>
    rw [hroutes] at hq
    cases hq

/-! ## Virtual addresses -/

/-- No datagram came from the virtual address of a registered peer. -/
def Event.apart : Event → Prop
  | .input _ clash => clash = false
  | _ => True

def Event.isApart : Event → Bool
  | .input _ clash => !clash
  | _ => true

theorem Event.isApart_iff {e : Event} : e.isApart = true ↔ e.apart := by
  cases e with
  | input c clash => simp [isApart, apart]
  | _ => simp [isApart, apart]

/-- No peer's datagrams come from its own virtual address, and the virtual address
of each peer leads to it; a client whose end is being handled is on its way out. -/
structure Homed (a : Cfg N R S W) : Prop where
  apart : ∀ q p, PeerAt a q p → p.remoteAddr ≠ some (virtualAddrForClient q)
  route : ∀ q, Live a q → a.frame.doomed ≠ some q →
    a.st.addrToClientId.get (virtualAddrForClient q) = some q

omit [NetcodeServer N] [Rtc R] [RenetServer S] in
theorem homed_apart {a b : Cfg N R S W} {q : ClientId} (h : Homed a) (hk : Kept a b q)
    {p : ServerPeer R} (hp : PeerAt b q p) : p.remoteAddr ≠ some (virtualAddrForClient q) := by
  obtain ⟨p₀, hp₀, heq⟩ := hk.2 p hp
  rw [heq]
  exact h.apart q p₀ hp₀

/-- A route that a datagram leaves alone. -/
theorem get_learnRoute_of {routes : HashMap SocketAddr ClientId} {c q : ClientId}
    {old : Option SocketAddr} {source addr : SocketAddr} (h : routes.get addr = some q)
    (hne : addr ≠ source) (hold : q = c → old ≠ some addr) :
    (WebRtcState.learnRoute routes c old source).get addr = some q := by
  unfold WebRtcState.learnRoute
  dsimp only
  rw [HashMap.get_insert, if_neg hne]
  cases old with
  | none => exact h
  | some oldSource =>
    dsimp only
    split
    · rename_i hc
      rw [HashMap.get_remove, if_neg]
      · exact h
      · rintro rfl
        rw [h] at hc
        exact hold (Option.some.inj hc.2) rfl
    · exact h

/-- Results are handled one at a time. -/
def OneAtATime (f : Frame) : Prop := f.current ≠ none → f.doomed = none

theorem oneAtATime_act {a b : Cfg N R S W} (h : OneAtATime a.frame) (hact : Act a b) :
    OneAtATime b.frame := by
  cases hact with
  | @take s d f o rest happ hbet => exact fun _ => hbet.doomed
  | @dismiss s d f o hcur => exact fun hne => absurd rfl hne
  | @route s d f o addr payload hcur => exact fun hne => absurd rfl hne
  | @deliver s d f o c payload hcur => exact fun hne => absurd rfl hne
  | @connect s d f o c addr payload hcur => exact fun hne => absurd rfl hne
  | @reject s d f o c addr payload hcur => exact fun hne => absurd rfl hne
  | @release s d f o c addr payload hcur => exact fun hne => absurd rfl hne
  | @forget s d f c => exact fun _ => rfl
  | @settle s d f c r hspec happ hbet => exact fun _ => hbet.doomed
  | @rollNext s d f c rest r hspec happ hcur hdoom => exact fun _ => hdoom
  | _ => exact h

theorem homed_act [LawfulNetcode N] {a b : Cfg N R S W} (hi : IdentityInv a) (hone : OneAtATime a.frame)
    (h : Homed a) (hact : Act a b) (hok : ∀ e ∈ b.st.trace, e.apart) : Homed b := by
  cases peer_act hi.keyed hact with
  | same hkept hroutes hdoom =>
    refine ⟨fun q p hp => homed_apart h (hkept q) hp, fun q hl hd => ?_⟩
    rw [hroutes]
    exact h.route q ((hkept q).live.1 hl) (hdoom ▸ hd)
  | drop c hkept hdead hroutes hdoom =>
    have hne : ∀ {q}, Live b q → q ≠ c := fun hl heq => hdead (heq ▸ hl)
    refine ⟨fun q p hp => ?_, fun q hl hd => ?_⟩
    · exact homed_apart h (hkept q (hne (live_iff.2 ⟨p, hp⟩))) hp
    · have hq := hne hl
      have hget := h.route q ((hkept q hq).live.1 hl) (fun heq => ?_)
      · rw [hroutes, HashMap.get_retain, hget]
        simp [hq]
      · rcases hdoom with ⟨hdoom, _⟩ | hdoom
        · exact hd (hdoom ▸ heq)
        · exact hq (Option.some.inj (heq.symm.trans hdoom))
  | feed c p p' source hkept hp hhand hnew hremote hroutes hev hdoom =>
    have hclash : ∀ q ∈ a.st.peers, source ≠ virtualAddrForClient q := by
      have hev' : (a.st.peers.keys.any fun q => source = virtualAddrForClient q) = false := hok _ hev
      intro q hq heq
      rw [List.any_eq_false] at hev'
      exact hev' q (AList.mem_keys.1 hq) (by simp [heq])
    have hc : c ∈ a.st.peers := HashMap.mem_iff_get.2 ⟨p, hp⟩
    refine ⟨fun q r hr => ?_, fun q hl hd => ?_⟩
    · by_cases hqc : q = c
      · subst hqc
        rw [(hnew r).1 hr, hremote]
        exact fun heq => hclash q hc (Option.some.inj heq)
      · exact homed_apart h (hkept q hqc) hr
    · have hla : Live a q := by
        by_cases hqc : q = c
        · rw [hqc]
          exact .inl hc
        · exact (hkept q hqc).live.1 hl
      have hmem : q ∈ a.st.peers := by
        rcases hla with hla | ⟨r, hla⟩
        · exact hla
        · rw [hhand] at hla
          cases hla
      rw [hroutes]
      refine get_learnRoute_of (h.route q hla (hdoom ▸ hd)) (hclash q hmem).symm fun hqc => ?_
      rw [hqc]
      exact h.apart c p (.inl hp)
  | connect o c addr payload entry hcur ho hkept hroutes hev hdoom =>
    have haddr := honest_connected (honest_current hi hcur) ho
    refine ⟨fun q p hp => homed_apart h (hkept q) hp, fun q hl hd => ?_⟩
    have hget := h.route q ((hkept q).live.1 hl) (hdoom ▸ hd)
    rw [hroutes, HashMap.get_insert]
    split
    · rename_i heq
      rw [virtualAddrForClient_inj (heq.trans haddr)]
    · exact hget
  | register c rtc hkept hnew hfree hroutes hdoom =>
    refine ⟨fun q p hp => ?_, fun q hl hd => ?_⟩
    · by_cases hqc : q = c
      · subst hqc
        rw [(hnew p).1 hp]
        exact fun heq => by cases heq
      · exact homed_apart h (hkept q hqc) hp
    · rw [hroutes, HashMap.get_insert]
      split
      · rename_i heq
        rw [virtualAddrForClient_inj heq]
      · rename_i hne
        have hqc : q ≠ c := fun heq => hne (by rw [heq])
        exact h.route q ((hkept q hqc).live.1 hl) (hdoom ▸ hd)
  | release o c addr payload hcur ho hkept hroutes hdoom =>
    have haddr := honest_disconnected (honest_current hi hcur) ho
    refine ⟨fun q p hp => homed_apart h (hkept q) hp, fun q hl hd => ?_⟩
    have hqc : q ≠ c := fun heq => hd (by rw [hdoom, heq])
    rw [hroutes, HashMap.get_remove, if_neg fun heq => hqc (virtualAddrForClient_inj (heq.trans haddr))]
    refine h.route q ((hkept q).live.1 hl) fun heq => ?_
    rw [hone (by simp [hcur])] at heq
    cases heq
  | clear hdead hroutes =>
    refine ⟨fun q p hp => absurd (live_iff.2 ⟨p, hp⟩) (hdead q), fun q hl => absurd hl (hdead q)⟩

/-! ## Sending -/

/-- What `t` sent or queued to get to `t'` is `p`, on the channel of the client
`route` names. -/
structure SentOnly (t t' : WebRtcState N R S W) (route : Option ClientId) (p : Packet) : Prop where
  wrote : ∃ new, t'.trace = new ++ t.trace ∧ ∀ c x, .wrote c x ∈ new → route = some c ∧ x = p
  queued : ∀ c x, Stock t'.packetGate t'.conds .outgoing (.webRtc c) x →
    Stock t.packetGate t.conds .outgoing (.webRtc c) x ∨ route = some c ∧ x = p

/-- A packet in an outgoing queue was there before, or was about to be sent. -/
theorem stock_act {a b : Cfg N R S W} (ok : GateOk a.st.packetGate a.st.conds) (hact : Act a b)
    {c : ClientId} {x : Packet} (h : Stock b.st.packetGate b.st.conds .outgoing (.webRtc c) x) :
    Stock a.st.packetGate a.st.conds .outgoing (.webRtc c) x ∨ (c, x) ∈ a.frame.outbox := by
  cases hact with
  | @gate s d f g sh hg => exact .inl ((hg.stock ok _ _ _ h).resolve_right fun hn => hn)
  | @stockIn s d f c' packet sh hp hg =>
    rcases hg.stock ok _ _ _ h with h | ⟨hdir, _⟩
    · exact .inl h
    · cases hdir
  | @stockOut s d f c' packet sh hp hg =>
    rcases hg.stock ok _ _ _ h with h | ⟨_, hid, rfl⟩
    · exact .inl h
    · cases hid
      exact .inr hp
  | @expel s d f c' =>
    rw [WebRtcState.expelled_toShared, WebRtcState.expelled_packetGate] at h
    exact .inl h
  | @release s d f o c' addr payload hcur ho =>
    rw [WebRtcState.releaseClient_frame] at h
    exact .inl h
  | @settle s d f c' r hspec happ hbet hg =>
    rw [WebRtcState.severed_frame] at h
    exact .inl h
  | @rollNext s d f c' rest r hspec happ hcur hdoom hej hroll hg =>
    rw [WebRtcState.severed_frame] at h
    exact .inl h
  | _ => exact .inl h

/-- Steps that leave the packets to send alone send no others. -/
theorem sentOnly_steady {a b : Cfg N R S W} {route : Option ClientId} {p : Packet}
    (h : SteadySteps a b) (ok : GateOk a.st.packetGate a.st.conds)
    (hout : ∀ c x, (c, x) ∈ a.frame.outbox → route = some c ∧ x = p) :
    SentOnly a.st b.st route p := by
  suffices SentOnly a.st b.st route p ∧ GateOk b.st.packetGate b.st.conds ∧
      b.frame.outbox = a.frame.outbox from this.1
  induction h with
  | refl =>
    exact ⟨⟨⟨[], rfl, fun c x hx => absurd hx List.not_mem_nil⟩, fun c x hx => .inl hx⟩, ok, rfl⟩
  | @tail b b' _ hstep ih =>
    obtain ⟨ih, okb, hsame⟩ := ih
    have hb : ∀ c x, (c, x) ∈ b.frame.outbox → route = some c ∧ x = p := hsame ▸ hout
    refine ⟨⟨?_, fun c x hx => ?_⟩, gateOk_act okb hstep.1, by rw [hstep.2.2, hsame]⟩
    · obtain ⟨new, ht, hnew⟩ := ih.wrote
      rcases event_act hstep.1 with heq | ⟨e, heq, hcause⟩
      · exact ⟨new, heq.trans ht, hnew⟩
      · refine ⟨e :: new, by rw [heq, ht, List.cons_append], fun c x hx => ?_⟩
        rcases List.mem_cons.1 hx with rfl | hx
        · exact hb c x hcause
        · exact hnew c x hx
    · rcases stock_act okb hstep.1 hx with hx | hx
      · exact ih.queued c x hx
      · exact .inr (hb c x hx)

/-! ## Runs -/

theorem oneAtATime_fresh : OneAtATime {} := fun _ => rfl

variable [World W] [LawfulRtc R] [LawfulNetcode N] [LawfulWorld W]

/-- Every packet of netcode for a registered peer was sent by the route to it. -/
def SentHome (trace : List Event) : Prop :=
  ∀ later earlier q route registered p,
    trace = later ++ .routed (virtualAddrForClient q) route registered p :: earlier →
    q ∈ registered → route = some q

omit [World W] [LawfulRtc R] [LawfulNetcode N] [LawfulWorld W] in
theorem sentHome_act {a b : Cfg N R S W} (hone : OneAtATime a.frame) (h : Homed a)
    (ht : SentHome a.st.trace) (hact : Act a b) : SentHome b.st.trace := by
  intro later earlier q route registered p heq hq
  rcases event_act hact with hsame | ⟨e, hcons, hcause⟩
  · exact ht later earlier q route registered p (hsame.symm.trans heq) hq
  · rw [hcons] at heq
    cases later with
    | nil =>
      rw [List.nil_append, List.cons.injEq] at heq
      obtain ⟨rfl, rfl⟩ := heq
      obtain ⟨hcur, rfl, rfl, _⟩ := hcause
      have hdoom := hone (by simp [hcur])
      exact h.route q (.inl (AList.mem_keys.2 hq)) (by simp [hdoom])
    | cons x later =>
      rw [List.cons_append, List.cons.injEq] at heq
      exact ht later earlier q route registered p heq.2 hq

omit [Rtc R] [RenetServer S] [World W] [LawfulRtc R] [LawfulNetcode N] [LawfulWorld W] in
theorem homed_fresh {s : WebRtcState N R S W} (hs : s.Fresh) :
    Homed ⟨s, {}, {}⟩ ∧ SentHome s.trace := by
  obtain ⟨n, addr, shared, rfl, htrace, _⟩ := hs
  refine ⟨⟨fun q p hp => ?_, fun q hl => ?_⟩, fun later earlier q route registered p heq => ?_⟩
  · rcases hp with hp | hp <;> cases hp
  · rcases hl with hl | ⟨p, hl⟩
    · exact absurd hl (HashMap.not_mem_iff_get.2 rfl)
    · cases hl
  · have heq' : shared.trace = later ++ .routed (virtualAddrForClient q) route registered p :: earlier :=
      heq
    rw [htrace] at heq'
    simp at heq'

theorem homed_reachable {s : WebRtcState N R S W} (h : (WebRtcState.runs N R S W).Reachable s)
    (hok : ∀ e ∈ s.trace, e.apart) : Homed ⟨s, {}, {}⟩ ∧ SentHome s.trace := by
  refine ((WebRtcState.reachable_invariant (I := fun a : Cfg N R S W => (IdentityInv a ∧
    OneAtATime a.frame) ∧ ((∀ e ∈ a.st.trace, e.apart) → Homed a ∧ SentHome a.st.trace))
    (fun s hs => ?_) (fun a b hi hact => ?_) (fun s server hi => ?_) h).1.2) hok
  · exact ⟨⟨identityInv_fresh hs, oneAtATime_fresh⟩, fun _ => homed_fresh hs⟩
  · obtain ⟨⟨hid, hone⟩, ht⟩ := hi
    refine ⟨⟨identityInv_act hid hact, oneAtATime_act hone hact⟩, fun hb => ?_⟩
    obtain ⟨hhome, hsent⟩ := ht fun e he => hb e ((trace_suffix hact).subset he)
    exact ⟨homed_act hid hone hhome hact hb, sentHome_act hone hhome hsent hact⟩
  · obtain ⟨⟨hid, hone⟩, ht⟩ := hi
    exact ⟨⟨identityInv_game hid, hone⟩,
      fun hb => ⟨⟨(ht hb).1.apart, (ht hb).1.route⟩, (ht hb).2⟩⟩

omit [NetcodeServer N] [Rtc R] [RenetServer S] [World W] [LawfulRtc R] [LawfulNetcode N]
  [LawfulWorld W] in
theorem SentOnly.log {t t' : WebRtcState N R S W} {route : Option ClientId} {p : Packet} {e : Event}
    (h : SentOnly (t.log e) t' route p) (he : ∀ c x, e ≠ .wrote c x) : SentOnly t t' route p := by
  obtain ⟨new, ht, hnew⟩ := h.wrote
  refine ⟨⟨new ++ [e], ?_, fun c x hx => ?_⟩, h.queued⟩
  · rw [ht, List.append_assoc]
    rfl
  · rcases List.mem_append.1 hx with hx | hx
    · exact hnew c x hx
    · exact absurd (List.mem_singleton.1 hx).symm (he c x)

omit [LawfulNetcode N] [LawfulWorld W] in
theorem sentOnly_dispatch (t : WebRtcState N R S W) (addr : SocketAddr) (p : Packet)
    (ok : GateOk t.packetGate t.conds) :
    SentOnly t (t.dispatch addr p) (t.addrToClientId.get addr) p := by
  unfold WebRtcState.dispatch
  dsimp only
  cases hroute : t.addrToClientId.get addr with
  | none =>
    refine SentOnly.log (e := .routed addr none t.peers.keys p) ?_ fun c x h => by cases h
    exact ⟨⟨[], rfl, fun c x hx => absurd hx List.not_mem_nil⟩, fun c x hx => .inl hx⟩
  | some c =>
    refine SentOnly.log (e := .routed addr (some c) t.peers.keys p) ?_ fun c x h => by cases h
    refine sentOnly_steady (WebRtcState.steps_sendToPeerLossy _ c p { outbox := [(c, p)] }
      (List.mem_singleton.2 rfl)) ok fun c' x hx => ?_
    cases List.mem_singleton.1 hx
    exact ⟨rfl, rfl⟩

/-- The virtual address of each registered peer is routed to that peer; whenever a
`PacketToSend` for the virtual address of a peer registered then was handled, it
went by the route to that peer; and the handler sends and queues nothing but that
payload, on the channel of the client the route names and no other. -/
theorem output_reaches_own_peer {s : WebRtcState N R S W}
    (h : (WebRtcState.runs N R S W).Reachable s) (hok : ∀ e ∈ s.trace, e.apart) :
    (∀ q ∈ s.peers, s.addrToClientId.get (virtualAddrForClient q) = some q) ∧
    (∀ later earlier q route registered p,
      s.trace = later ++ .routed (virtualAddrForClient q) route registered p :: earlier →
      q ∈ registered → route = some q) ∧
    ∀ (t : WebRtcState N R S W) addr payload tag, GateOk t.packetGate t.conds →
      SentOnly t (t.handleServerResult ⟨.packetToSend addr payload, tag⟩)
        (t.addrToClientId.get addr) ⟨payload, tag⟩ := by
  obtain ⟨hhome, hsent⟩ := homed_reachable h hok
  exact ⟨fun q hq => hhome.route q (.inl hq) (by simp), hsent,
    fun t addr payload tag ok => sentOnly_dispatch t addr ⟨payload, tag⟩ ok⟩

/-- A client asks netcode for an answer and gets it. -/
theorem output_reaches_own_peer_answer : ∃ s : Demo,
    (WebRtcState.runs Table Script Connections Sockets).Reachable s ∧
    (∀ e ∈ s.trace, e.apart) ∧ 1 ∈ s.peers ∧
    s.addrToClientId.get (virtualAddrForClient 1) = some 1 := by
  obtain ⟨s, hs, hp⟩ := demo_any { webRtc := [([1], lan 11), ([1], lan 12)] }
    [.addPeer 1 { name := 1, onInput := [[opens, brings [4]]] }, .update 9 0 0]
    (P := fun s => s.peers.has 1 && s.trace.all Event.isApart) (by decide +kernel)
  rw [Bool.and_eq_true, HashMap.has_iff, List.all_eq_true] at hp
  have hok : ∀ e ∈ s.trace, e.apart := fun e he => Event.isApart_iff.1 (hp.2 e he)
  exact ⟨s, demo_reachable hs, hok, hp.1, (output_reaches_own_peer (demo_reachable hs) hok).1 1 hp.1⟩

/-- Peer 2 sends from the virtual address of client 1: netcode's answer to client
1, whose peer is registered, is written to the channel of peer 2. -/
theorem virtual_source_diverts_output : ∃ s : Demo,
    (WebRtcState.runs Table Script Connections Sockets).Reachable s ∧
    ∃ registered p, .routed (virtualAddrForClient 1) (some 2) registered p ∈ s.trace ∧
      1 ∈ registered ∧ .wrote 2 p ∈ s.trace := by
  obtain ⟨s, hs, hp⟩ := demo_any
    { webRtc := [([1], lan 11), ([2], virtualAddrForClient 1), ([1], lan 11)] }
    [.addPeer 1 { name := 1, onInput := [[opens], [brings [4]]] },
      .addPeer 2 { name := 2, onInput := [[opens]] }, .update 9 0 0]
    (P := fun s => s.trace.contains
        (.routed (virtualAddrForClient 1) (some 2) [1, 2] ⟨[5], ⟨.webRtc 1, 14⟩⟩) &&
      s.trace.contains (.wrote 2 ⟨[5], ⟨.webRtc 1, 14⟩⟩)) (by decide +kernel)
  rw [Bool.and_eq_true, List.contains_iff_mem, List.contains_iff_mem] at hp
  exact ⟨s, demo_reachable hs, _, _, hp.1, List.mem_cons_self, hp.2⟩

end RenetCross.L4
