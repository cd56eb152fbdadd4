import RenetCross.L4App.WebRtcRoutes

/-!
# Connections, routes and peers

Three tables of the transport have to agree: `peers`, `connected_client_ids` and
`addr_to_client_id`. A peer that goes away takes its routes along and leaves a
`ClientDisconnected` in the queue, and `ChannelInv` follows that result until the
client is out of `connected_client_ids`.

`channel_behind_every_route`: when no results are pending, each connected client
and each route has a registered peer, in every run in which no failed drain loses
a `ClientDisconnected` and no `ClientConnected` is handled for a client that has
no peer. The handler of `ClientConnected` does not look: a peer that reconnects
in the drain that its own `ClientDisconnected` causes is gone when its
`ClientConnected` comes up.
-/
namespace RenetCross.L4

open RenetCross.L2

variable {N R S W : Type} [NetcodeServer N] [Rtc R] [RenetServer S]

/-! ## Connected clients -/

theorem Frame.Between.not_ends {f : Frame} (h : f.Between) (c : ClientId) : ¬ f.Ends c := by
  rintro (hd | he | ⟨o, hc, _⟩)
  · rw [h.doomed] at hd
    cases hd
  · rw [h.ejected] at he
    cases he
  · rw [h.current] at hc
    cases hc

/-- The result at hand does not end `c`, and is done. -/
theorem Frame.ends_handled {f f' : Frame} {c : ClientId} {o : Outcome} (hcur : f.current = some o)
    (hne : o.result.disconnects ≠ some c) (hd : f'.doomed = f.doomed)
    (he : ∀ q, f.ejected = some q → f'.ejected = some q) (h : f.Ends c) : f'.Ends c := by
  rcases h with h | h | ⟨o', hc, ho'⟩
  · exact .inl (hd.trans h)
  · exact .inr (.inl (he c h))
  · rw [hcur] at hc
    cases hc
    exact absurd ho' hne

/-- A client's end is over when its peer is gone. -/
theorem ends_act {a b : Cfg N R S W} {c : ClientId} (hone : OneAtATime a.frame)
    (h : a.frame.Ends c) (hact : Act a b) : b.frame.Ends c ∨ ¬ Live b c := by
  cases hact with
  | @take s d f o rest happ hbet => exact absurd h (hbet.not_ends c)
  | @dismiss s d f o hcur h1 h2 => exact .inl (Frame.ends_handled hcur (by simp [h2]) rfl (fun _ h => h) h)
  | @route s d f o addr payload hcur ho =>
    have hne : o.result.disconnects ≠ some c := by simp [ho, OwnedServerResult.disconnects]
    exact .inl (Frame.ends_handled hcur hne rfl (fun _ h => h) h)
  | @deliver s d f o c₁ payload hcur ho =>
    have hne : o.result.disconnects ≠ some c := by simp [ho, OwnedServerResult.disconnects]
    exact .inl (Frame.ends_handled hcur hne rfl (fun _ h => h) h)
  | @connect s d f o c₁ addr payload hcur ho =>
    have hne : o.result.disconnects ≠ some c := by simp [ho, OwnedServerResult.disconnects]
    exact .inl (Frame.ends_handled hcur hne rfl (fun _ h => h) h)
  | @reject s d f o c₁ addr payload hcur ho hconn hej =>
    have hne : o.result.disconnects ≠ some c := by simp [ho, OwnedServerResult.disconnects]
    refine .inl (Frame.ends_handled hcur hne rfl (fun q hq => ?_) h)
    rw [show f.ejected = none from hej] at hq
    cases hq
  | @expel s d f c₁ hej hhand hg hd hcur =>
    rcases h with h | h | ⟨o, hc, _⟩
    · exact .inl (.inl h)
    · rcases hej with hej | ⟨hej, _⟩
      · obtain rfl : c = c₁ := Option.some.inj (h.symm.trans hej)
        refine .inr ?_
        rintro (hl | ⟨p, hl⟩)
        · rw [WebRtcState.expelled_peers] at hl
          exact (HashMap.mem_remove.1 hl).1 rfl
        · rw [hhand] at hl
          cases hl
      · rw [show f.ejected = none from hej] at h
        cases h
    · rw [show f.current = none from hcur] at hc
      cases hc
  | @release s d f o c₁ addr payload hcur ho =>
    rcases h with h | h | ⟨o', hc, ho'⟩
    · rw [hone (by simp [hcur])] at h
      cases h
    · exact .inl (.inr (.inl h))
    · rw [hcur] at hc
      cases hc
      rw [ho] at ho'
      exact .inl (.inl ho')
  | @forget s d f c₁ hdoom hhand =>
    rcases h with h | h | h
    · obtain rfl : c = c₁ := Option.some.inj (h.symm.trans hdoom)
      refine .inr ?_
      rintro (hl | ⟨p, hl⟩)
      · exact (HashMap.mem_remove.1 hl).1 rfl
      · rw [hhand] at hl
        cases hl
    · exact .inl (.inr (.inl h))
    · exact .inl (.inr (.inr h))
  | @settle s d f c₁ r hspec happ hbet => exact absurd h (hbet.not_ends c)
  | @rollNext s d f c₁ rest r hspec happ hcur hdoom hej hroll =>
    rcases h with h | h | ⟨o, hc, _⟩
    · rw [show f.doomed = none from hdoom] at h
      cases h
    · rw [show f.ejected = none from hej] at h
      cases h
    · rw [show f.current = none from hcur] at hc
      cases hc
  | _ => exact .inl h

/-- A client gets a peer by being registered. -/
theorem live_act [LawfulNetcode N] {a b : Cfg N R S W} {c : ClientId} (hk : Keyed a) (hact : Act a b)
    (h : Live b c) : Live a c ∨ Sound b c := by
  cases peer_act hk hact with
  | same hkept => exact .inl ((hkept c).live.1 h)
  | drop c₁ hkept hdead => exact .inl ((hkept c fun heq => hdead (heq ▸ h)).live.1 h)
  | feed c₁ p p' source hkept hp =>
    by_cases hcc : c = c₁
    · rw [hcc]
      exact .inl (.inl (HashMap.mem_iff_get.2 ⟨p, hp⟩))
    · exact .inl ((hkept c hcc).live.1 h)
  | connect o c₁ addr payload entry hcur ho hkept => exact .inl ((hkept c).live.1 h)
  | register c₁ rtc hkept hnew hfree hroutes hdoom hsound =>
    by_cases hcc : c = c₁
    · rw [hcc]
      exact .inr hsound
    · exact .inl ((hkept c hcc).live.1 h)
  | release o c₁ addr payload hcur ho hkept => exact .inl ((hkept c).live.1 h)
  | clear hdead => exact absurd h (hdead c)

/-- A client with a peer, whose end is not being handled, is sound. -/
def Backed (a : Cfg N R S W) (c : ClientId) : Prop := Live a c → ¬ a.frame.Ends c → Sound a c

theorem backed_act [LawfulNetcode N] {a b : Cfg N R S W} {c : ClientId} (hk : Keyed a)
    (he : EjectInv a) (hone : OneAtATime a.frame) (h : Backed a c) (hact : Act a b)
    (hok : ∀ e ∈ b.st.trace, e.keepsDisconnects) : Backed b c := by
  intro hl hends
  rcases live_act hk hact hl with hla | hs
  · have hna : ¬ a.frame.Ends c := fun hea =>
      (ends_act hone hea hact).elim hends fun hn => hn hl
    rcases sound_act he (h hla hna) hact hok with hs | ⟨_, hb | hb⟩
    · exact hs
    · exact absurd hb hends
    · exact absurd hl hb
  · exact hs

omit [Rtc R] [RenetServer S] in
/-- A connected client without a `ClientDisconnected` in the queue is held by
netcode. -/
theorem Sound.held {a : Cfg N R S W} {c : ClientId} (h : Sound a c) (hej : a.frame.ejected ≠ some c)
    (hc : c ∈ a.st.connectedClientIds) (hf : ¬ Farewell c a) : Held a.st.netcodeServer c := by
  refine h hej ?_
  unfold Cfg.settled
  rw [HashMap.has_iff.2 hc]
  exact settles_true fun o ho hd => hf ⟨o, ho, hd⟩

/-- What `connected_client_ids` has to do with peers. `anchored`: each connected
client has a peer or is about to be released; a duplicate that is being rejected
is about to be removed. `roll`: so is each client that `disconnect_all` has passed. -/
structure ChannelInv (a : Cfg N R S W) : Prop where
  doomed : ∀ c, a.frame.doomed = some c → c ∉ a.st.connectedClientIds
  anchored : ∀ c ∈ a.st.connectedClientIds, a.frame.ejected ≠ some c → Live a c ∨ Farewell c a
  roll : ∀ rest, a.frame.roll = some rest → ∀ c ∈ a.st.connectedClientIds, c ∈ rest ∨ Farewell c a

/-- Only `connect` adds to `connected_client_ids`. -/
theorem connected_back {a b : Cfg N R S W} {c : ClientId} (hact : Act a b)
    (hok : ∀ e ∈ b.st.trace, e.peered) (h : c ∈ b.st.connectedClientIds) :
    c ∈ a.st.connectedClientIds ∨ c ∈ b.st.peers ∧ b.frame.roll = none ∧ b.frame.doomed = none := by
  cases hact with
  | @connect s d f o c₁ addr payload hcur ho hconn hsw hrem hroll hdoom hhand =>
    rcases HashMap.mem_insert.1 h with rfl | h
    · have hpeer : decide (c ∈ s.peers) = true := hok _ List.mem_cons_self
      exact .inr ⟨of_decide_eq_true hpeer, hroll, hdoom⟩
    · exact .inl h
  | @expel s d f c₁ => exact .inl (WebRtcState.mem_connected_expelled.1 h).2
  | @release s d f o c₁ addr payload hcur ho =>
    exact .inl (WebRtcState.mem_connected_releaseClient.1 h).2
  | @settle s d f c₁ r hspec happ hbet hg => rw [WebRtcState.severed_frame] at h; exact .inl h
  | @rollNext s d f c₁ rest r hspec happ hcur hdoom hej hroll hg =>
    rw [WebRtcState.severed_frame] at h; exact .inl h
  | _ => exact .inl h

theorem doomed_act {a b : Cfg N R S W} {c : ClientId} (hact : Act a b)
    (h : b.frame.doomed = some c) : a.frame.doomed = some c ∨ c ∉ b.st.connectedClientIds := by
  cases hact with
  | @release s d f o c₁ addr payload hcur ho =>
    cases h
    exact .inr fun hc => (WebRtcState.mem_connected_releaseClient.1 hc).1 rfl
  | @forget s d f c₁ => cases h
  | _ => exact .inl h

theorem ejected_act {a b : Cfg N R S W} {c : ClientId} (hact : Act a b)
    (h : a.frame.ejected = some c) : b.frame.ejected = some c ∨ c ∉ b.st.connectedClientIds := by
  cases hact with
  | @reject s d f o c₁ addr payload hcur ho hconn hej =>
    rw [show f.ejected = none from hej] at h
    cases h
  | @expel s d f c₁ hej =>
    rcases hej with hej | ⟨hej, _⟩
    · obtain rfl : c = c₁ := Option.some.inj (h.symm.trans hej)
      exact .inr fun hc => (WebRtcState.mem_connected_expelled.1 hc).1 rfl
    · rw [show f.ejected = none from hej] at h
      cases h
  | _ => exact .inl h

theorem anchored_act [LawfulNetcode N] {a b : Cfg N R S W} {c : ClientId} (hk : Keyed a)
    (h : ChannelInv a) (hb : Backed a c) (hact : Act a b)
    (hok : ∀ e ∈ b.st.trace, e.keepsDisconnects ∧ e.peered) (hc : c ∈ b.st.connectedClientIds)
    (hej : b.frame.ejected ≠ some c) : Live b c ∨ Farewell c b := by
  rcases connected_back hact (fun e he => (hok e he).2) hc with hca | ⟨hpeer, _⟩
  swap
  · exact .inl (.inl hpeer)
  have hfare : Farewell c a → Live b c ∨ Farewell c b := fun hf =>
    .inr ((farewell_act hf hact fun e he => (hok e he).1).resolve_right fun hn => hn hc)
  have heja : a.frame.ejected ≠ some c := fun heq =>
    (ejected_act hact heq).elim hej fun hn => hn hc
  rcases h.anchored c hca heja with hl | hf
  swap
  · exact hfare hf
  cases peer_act hk hact with
  | same hkept => exact .inl ((hkept c).live.2 hl)
  | drop c₁ hkept hdead hroutes hdoom =>
    by_cases hcc : c = c₁
    · subst hcc
      rcases hdoom with ⟨_, hfree | hout⟩ | hdoom
      · by_cases hends : a.frame.Ends c
        · rcases hends with hd | he | ⟨o, hcur, hd⟩
          · exact absurd hca (h.doomed c hd)
          · exact absurd he heja
          · exact hfare ⟨o, Cfg.mem_queue.2 (.inl hcur), hd⟩
        · by_cases hf : Farewell c a
          · exact hfare hf
          · exact .inr (hfree ((hb hl hends).held heja hca hf))
      · exact absurd hc hout
      · exact absurd hca (h.doomed c hdoom)
    · exact .inl ((hkept c hcc).live.2 hl)
  | feed c₁ p p' source hkept hp hhand hnew =>
    by_cases hcc : c = c₁
    · rw [hcc]
      exact .inl (live_iff.2 ⟨p', (hnew p').2 rfl⟩)
    · exact .inl ((hkept c hcc).live.2 hl)
  | connect o c₁ addr payload entry hcur ho hkept => exact .inl ((hkept c).live.2 hl)
  | register c₁ rtc hkept hnew =>
    by_cases hcc : c = c₁
    · rw [hcc]
      exact .inl (live_iff.2 ⟨_, (hnew _).2 rfl⟩)
    · exact .inl ((hkept c hcc).live.2 hl)
  | release o c₁ addr payload hcur ho hkept => exact .inl ((hkept c).live.2 hl)
  | clear hdead hroutes hroll =>
    exact hfare ((h.roll [] hroll c hca).resolve_left List.not_mem_nil)

theorem roll_act {a b : Cfg N R S W} {c : ClientId} {rest : List ClientId}
    (h : ChannelInv a) (hb : Backed a c) (hact : Act a b)
    (hok : ∀ e ∈ b.st.trace, e.keepsDisconnects ∧ e.peered) (hroll : b.frame.roll = some rest)
    (hc : c ∈ b.st.connectedClientIds) : c ∈ rest ∨ Farewell c b := by
  have hca : c ∈ a.st.connectedClientIds := by
    rcases connected_back hact (fun e he => (hok e he).2) hc with hca | ⟨_, hnone, _⟩
    · exact hca
    · rw [hnone] at hroll
      cases hroll
  have hfare : Farewell c a → Farewell c b := fun hf =>
    (farewell_act hf hact fun e he => (hok e he).1).resolve_right fun hn => hn hc
  cases hact with
  | @callRoll s d f ids hids happ hpend hd hbet =>
    cases hroll
    have hf : ¬ Farewell c ⟨s, d, f⟩ := by
      rintro ⟨o, ho, _⟩
      rw [Cfg.mem_queue] at ho
      simp [hbet.current, happ, hpend, hd] at ho
    have hej : f.ejected ≠ some c := by simp [hbet.ejected]
    have hl := (h.anchored c hca hej).resolve_right hf
    exact .inl (hids c ((hb hl (hbet.not_ends c)).held hej hca hf))
  | @rollNext s d f c₁ rest₁ r hspec happ hcur hdoom hej hroll₁ hg =>
    cases hroll
    rcases h.roll (c₁ :: rest) hroll₁ c hca with hmem | hf
    · rcases List.mem_cons.1 hmem with rfl | hmem
      · refine .inr ?_
        by_cases hdis : (toOwnedServerResult r.2).disconnects = some c
        · exact ⟨_, Cfg.mem_queue.2 (.inl rfl), hdis⟩
        · by_cases hf : Farewell c ⟨s, d, f⟩
          · exact hfare hf
          · have hej' : f.ejected ≠ some c := by simp [hej]
            have hl := (h.anchored c hca hej').resolve_right hf
            have hends : ¬ f.Ends c := by
              rintro (hx | hx | ⟨o, hx, _⟩)
              · simp [hdoom] at hx
              · exact hej' hx
              · simp [hcur] at hx
            exact absurd ((hb hl hends).held hej' hca hf) (disconnect_none_held hspec hdis)
      · exact .inl hmem
    · exact .inr (hfare hf)
  | @clear s d f => cases hroll
  | _ => exact (h.roll rest hroll c hca).imp_right hfare

theorem channelInv_act [LawfulNetcode N] {a b : Cfg N R S W} (hk : Keyed a) (h : ChannelInv a)
    (hb : ∀ c, Backed a c) (hact : Act a b)
    (hok : ∀ e ∈ b.st.trace, e.keepsDisconnects ∧ e.peered) : ChannelInv b := by
  refine ⟨fun c hd hc => ?_, fun c hc hej => anchored_act hk h (hb c) hact hok hc hej,
    fun rest hroll c hc => roll_act h (hb c) hact hok hroll hc⟩
  rcases doomed_act hact hd with hda | hn
  · rcases connected_back hact (fun e he => (hok e he).2) hc with hca | ⟨_, _, hnone⟩
    · exact h.doomed c hda hca
    · rw [hnone] at hd
      cases hd
  · exact hn hc

/-! ## Runs -/

/-- None of the two things that leave a connection or a route without a peer. -/
def Event.Rooted (e : Event) : Prop := e.keepsDisconnects ∧ e.peered

def Event.isRooted : Event → Bool
  | .lost _ results => results.all fun r => r.disconnects = none
  | .addConnection _ _ _ registered _ => registered
  | _ => true

theorem Event.isRooted_iff {e : Event} : e.isRooted = true ↔ e.Rooted := by
  cases e with
  | lost c results => simp [isRooted, Rooted, keepsDisconnects, peered]
  | addConnection b c entry registered tag => simp [isRooted, Rooted, keepsDisconnects, peered]
  | _ => simp [isRooted, Rooted, keepsDisconnects, peered]

theorem rooted_before {a b : Cfg N R S W} (hact : Act a b) (h : ∀ e ∈ b.st.trace, e.Rooted) :
    ∀ e ∈ a.st.trace, e.Rooted := fun e he => h e ((trace_suffix hact).subset he)

structure TableInv (a : Cfg N R S W) : Prop where
  backed : ∀ c, Backed a c
  channel : ChannelInv a
  routed : Routed a

omit [Rtc R] [RenetServer S] in
theorem tableInv_fresh {s : WebRtcState N R S W} (hs : s.Fresh) : TableInv ⟨s, {}, {}⟩ := by
  have hsound := fun c => (sound_fresh hs c).2
  obtain ⟨n, addr, shared, rfl, _⟩ := hs
  refine ⟨fun c _ _ => hsound c,
    ⟨fun c hc => (by cases hc), fun c hc => ?_, fun rest hr => (by cases hr)⟩,
    fun addr c hc => (by cases hc)⟩
  exact absurd hc (HashMap.not_mem_iff_get.2 rfl)

variable [World W] [LawfulRtc R] [LawfulNetcode N] [LawfulWorld W]

omit [World W] [LawfulRtc R] [LawfulWorld W] in
theorem tableInv_act {a b : Cfg N R S W} (hi : IdentityInv a) (he : EjectInv a)
    (hone : OneAtATime a.frame) (h : TableInv a) (hact : Act a b)
    (hok : ∀ e ∈ b.st.trace, e.Rooted) : TableInv b :=
  ⟨fun c => backed_act hi.keyed he hone (h.backed c) hact fun e he => (hok e he).1,
    channelInv_act hi.keyed h.channel h.backed hact hok,
    routed_act hi h.routed hact fun e he => (hok e he).2⟩

theorem tableInv_reachable {s : WebRtcState N R S W} (h : (WebRtcState.runs N R S W).Reachable s)
    (hok : ∀ e ∈ s.trace, e.Rooted) : TableInv ⟨s, {}, {}⟩ := by
  refine ((WebRtcState.reachable_invariant (I := fun a : Cfg N R S W => (IdentityInv a ∧
    EjectInv a ∧ OneAtATime a.frame) ∧ ((∀ e ∈ a.st.trace, e.Rooted) → TableInv a))
    (fun s hs => ?_) (fun a b hi hact => ?_) (fun s server hi => ?_) h).1.2) hok
  · exact ⟨⟨identityInv_fresh hs, (sound_fresh hs 0).1, oneAtATime_fresh⟩,
      fun _ => tableInv_fresh hs⟩
  · obtain ⟨⟨hid, hej, hone⟩, ht⟩ := hi
    refine ⟨⟨identityInv_act hid hact, ejectInv_act hej hact, oneAtATime_act hone hact⟩, fun hb => ?_⟩
    exact tableInv_act hid hej hone (ht (rooted_before hact hb)) hact hb
  · obtain ⟨⟨hid, hej, hone⟩, ht⟩ := hi
    refine ⟨⟨identityInv_game hid, hej, hone⟩, fun hb => ?_⟩
    have := ht hb
    exact ⟨this.backed, ⟨this.channel.doomed, this.channel.anchored, this.channel.roll⟩, this.routed⟩

/-- When no results are pending: each connected client has a registered peer; each
route leads to a registered peer, from its virtual address or from the source its
datagrams come from; so at most two routes lead to one client. -/
theorem channel_behind_every_route {s : WebRtcState N R S W}
    (h : (WebRtcState.runs N R S W).Reachable s) (hok : ∀ e ∈ s.trace, e.Rooted)
    (hpend : s.pendingServerResults = []) :
    (∀ c ∈ s.connectedClientIds, c ∈ s.peers) ∧
    (∀ addr c, s.addrToClientId.get addr = some c → ∃ p, s.peers.get c = some p ∧
      (addr = p.virtualAddr ∨ p.remoteAddr = some addr)) ∧
    ∀ c, (s.addrToClientId.retain fun _ value => value = c).len ≤ 2 := by
  obtain ⟨hid, happ⟩ := identityInv_reachable h
  have ht := tableInv_reachable h hok
  have hroutes : ∀ addr c, s.addrToClientId.get addr = some c → ∃ p, s.peers.get c = some p ∧
      (addr = p.virtualAddr ∨ p.remoteAddr = some addr) := by
    intro addr c hc
    obtain ⟨p, hp | hp, haddr⟩ := ht.routed addr c hc
    · refine ⟨p, hp, ?_⟩
      rw [(hid.keyed.peers c p hp).2]
      exact haddr
    · cases hp
  refine ⟨fun c hc => ?_, hroutes, fun c => ?_⟩
  · rcases ht.channel.anchored c hc (by simp) with (hl | ⟨p, hl⟩) | ⟨o, ho, _⟩
    · exact hl
    · cases hl
    · rw [Cfg.mem_queue] at ho
      simp [happ, hpend] at ho
  · cases hp : s.peers.get c with
    | none =>
      refine (HashMap.len_le_of_mem [] fun addr haddr => ?_).trans (by simp)
      obtain ⟨q, hq⟩ := HashMap.mem_iff_get.1 haddr
      rw [HashMap.get_retain, Option.filter_eq_some_iff] at hq
      obtain rfl : q = c := by simpa using hq.2
      obtain ⟨p, hp', _⟩ := hroutes addr q hq.1
      rw [hp] at hp'
      cases hp'
    | some peer =>
      refine (HashMap.len_le_of_mem (peer.virtualAddr :: peer.remoteAddr.toList)
        fun addr haddr => ?_).trans ?_
      · obtain ⟨q, hq⟩ := HashMap.mem_iff_get.1 haddr
        rw [HashMap.get_retain, Option.filter_eq_some_iff] at hq
        obtain rfl : q = c := by simpa using hq.2
        obtain ⟨p, hp', haddr'⟩ := hroutes addr q hq.1
        rw [hp] at hp'
        cases hp'
        exact List.mem_cons.2 (haddr'.imp_right fun h => by simp [h])
      · cases peer.remoteAddr <;> simp

/-- A client connects and its datagrams come from two addresses, one after the
other. -/
theorem channel_behind_every_route_roaming : ∃ s : Demo,
    (WebRtcState.runs Table Script Connections Sockets).Reachable s ∧
    (∀ e ∈ s.trace, e.Rooted) ∧ s.pendingServerResults = [] ∧ 1 ∈ s.connectedClientIds ∧
    1 ∈ s.peers ∧ (s.addrToClientId.retain fun _ value => value = 1).len ≤ 2 := by
  obtain ⟨s, hs, hp⟩ := demo_any { webRtc := [([1], lan 11), ([1], lan 12)] }
    [.addPeer 1 { name := 1, onInput := [[opens, brings [1, 1]]] }, .update 9 0 0]
    (P := fun s => s.connectedClientIds.has 1 && s.pendingServerResults.isEmpty &&
      s.trace.all Event.isRooted) (by decide +kernel)
  rw [Bool.and_eq_true, Bool.and_eq_true, HashMap.has_iff, List.isEmpty_iff, List.all_eq_true] at hp
  have hok : ∀ e ∈ s.trace, e.Rooted := fun e he => Event.isRooted_iff.1 (hp.2 e he)
  obtain ⟨h1, _, h3⟩ := channel_behind_every_route (demo_reachable hs) hok hp.1.2
  exact ⟨s, demo_reachable hs, hok, hp.1.2, hp.1.1, h1 1 hp.1.1, h3 1⟩

/-- One drain brings the client's handshake, its disconnect packet and a second
handshake. The middle result removes the peer, so that the client of the last one is
connected and routed, and has no peer. -/
theorem reconnect_without_channel : ∃ s : Demo,
    (WebRtcState.runs Table Script Connections Sockets).Reachable s ∧
    s.pendingServerResults = [] ∧ 1 ∈ s.connectedClientIds ∧ 1 ∉ s.peers ∧
    s.addrToClientId.get (virtualAddrForClient 1) = some 1 := by
  obtain ⟨s, hs, hp⟩ := demo_any { webRtc := [([1], lan 11)] }
    [.addPeer 1 {
        name := 1
        onInput := [[opens, brings [1, 1], brings [2], brings [1, 1]]] }, .update 9 0 0]
    (P := fun s => s.connectedClientIds.has 1 && s.pendingServerResults.isEmpty &&
      !s.peers.has 1 && s.addrToClientId.get (virtualAddrForClient 1) == some 1) (by decide +kernel)
  rw [Bool.and_eq_true, Bool.and_eq_true, Bool.and_eq_true, HashMap.has_iff, List.isEmpty_iff,
    Bool.not_eq_true', beq_iff_eq] at hp
  refine ⟨s, demo_reachable hs, hp.1.1.2, hp.1.1.1, fun hc => ?_, hp.2⟩
  rw [HashMap.has_iff.2 hc] at hp
  cases hp.1.2

end RenetCross.L4
