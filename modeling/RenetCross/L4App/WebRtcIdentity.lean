import RenetCross.L4App.Scripted
import RenetCross.L4App.WebRtcTrace

/-!
# A signaling peer acts under its own identity only

A peer's data channel may carry any bytes, including a netcode handshake for
another client. `process_peer_packet` is the one place that compares the
identity netcode found with the peer's own. `peer_acts_as_itself` follows what
comes of it through the immediate path, the conditioner's queues, the vectors of
results and netcode's own table: every `add_connection(c)` and every
`process_packet_from(_, c)` is caused by a packet that arrived on the data
channel of the peer registered under `c`, and every connected client sits at its
own virtual address. It rests on `virtualAddrForClient_inj`.
-/
namespace RenetCross.L4

open RenetCross.L2

variable {N R S W : Type} [NetcodeServer N] [Rtc R] [RenetServer S]

/-! ## The netcode table -/

/-- Every connected client sits at its own virtual address. -/
def AtHome (n : N) : Prop :=
  ∀ c addr, NetcodeServer.clientAddr n c = some addr → addr = virtualAddrForClient c

theorem AtHome.same {n n' : N} (h : AtHome n) (hs : SameClients n n') : AtHome n' :=
  fun c addr hc => h c addr ((hs c).symm.trans hc)

theorem AtHome.sets {n n' : N} (h : AtHome n) {c : ClientId} {addr : Option SocketAddr}
    (hs : SetsClient n n' c addr) (ha : ∀ x, addr = some x → x = virtualAddrForClient c) :
    AtHome n' := by
  intro c' x hx
  rw [hs c'] at hx
  split at hx
  · rename_i heq
    rw [heq]
    exact ha x hx
  · exact h c' x hx

theorem AtHome.frees {n n' : N} (h : AtHome n) {c : ClientId} (hs : SetsClient n n' c none) :
    AtHome n' := h.sets hs fun x hx => by cases hx

theorem AtHome.call {n n' : N} (h : AtHome n) {c : ClientId} {r : ServerResult}
    (hs : ClientSpec n n' c r) : AtHome n' := by
  cases r with
  | none => exact h.same hs
  | packetToSend addr payload => exact h.same hs.2
  | clientDisconnected id addr payload => exact h.frees hs.2.2
  | payload id payload => exact hs.elim
  | clientConnected id addr userData payload => exact hs.elim

/-- A packet of the peer `c`, unless it connects somebody else. -/
theorem AtHome.packet {n n' : N} (h : AtHome n) {c : ClientId} {r : ServerResult}
    (hs : PacketSpec n n' (virtualAddrForClient c) r)
    (hid : ∀ id, (toOwnedServerResult r).connects = some id → id = c) : AtHome n' := by
  cases r with
  | none => exact h.same hs
  | packetToSend addr payload => exact h.same hs.2
  | payload id payload => exact h.same hs.2
  | clientDisconnected id addr payload => exact h.frees hs.2.2
  | clientConnected id addr userData payload =>
    refine h.sets hs.2.2 fun x hx => ?_
    cases hx
    rw [hid id rfl]

/-- A packet that connects somebody else, and the disconnection that follows. -/
theorem AtHome.foreign [LawfulNetcode N] {n n' : N} (h : AtHome n) {addr : SocketAddr} {id : ClientId}
    {r : ServerResult} (hs : PacketSpec n n' addr r)
    (hid : (toOwnedServerResult r).connects = some id) :
    AtHome (NetcodeServer.disconnect n' id).1 := by
  cases r with
  | clientConnected id' addr' userData payload =>
    simp only [toOwnedServerResult, OwnedServerResult.connects, Option.some.injEq] at hid
    subst hid
    intro c x hx
    rw [setsClient_disconnect n' id' c] at hx
    split at hx
    · cases hx
    · rename_i hne
      rw [hs.2.2 c, if_neg hne] at hx
      exact h c x hx
  | _ => cases hid

theorem atHome_act [LawfulNetcode N] {a b : Cfg N R S W} (hk : Keyed a) (h : AtHome a.st.netcodeServer)
    (hact : Act a b) : AtHome b.st.netcodeServer := by
  cases hact with
  | @tick s d f n hn => exact h.same hn
  | @process s d f c c' p packet r hhand hparcel hc hr hid =>
    obtain ⟨k1, k2, _⟩ := hk.hand c p hhand
    have hs := LawfulNetcode.processPacket s.netcodeServer p.virtualAddr packet.bytes
    rw [← hr, k2, ← k1] at hs
    exact h.packet hs hid
  | @processForeign s d f c c' id p packet r hhand hparcel hc hr hid hne =>
    have hs := LawfulNetcode.processPacket s.netcodeServer p.virtualAddr packet.bytes
    rw [← hr] at hs
    exact h.foreign hs hid
  | @tearDown s d f c p hhand hg hd => exact h.frees (setsClient_disconnect _ c)
  | @reject s d f o c addr payload hcur ho hconn => exact h.frees (setsClient_disconnect _ c)
  | @expel s d f c =>
    rw [WebRtcState.expelled_netcodeServer]
    exact h.frees (setsClient_disconnect _ c)
  | @release s d f o c addr payload hcur ho => rw [WebRtcState.releaseClient_frame]; exact h
  | @settle s d f c r hspec happ hbet hg =>
    rw [WebRtcState.severed_frame]
    exact h.call hspec
  | @rollNext s d f c rest r hspec happ hcur hdoom hej hroll hg =>
    rw [WebRtcState.severed_frame]
    exact h.call hspec.clientSpec
  | _ => exact h

/-! ## Packets and results -/

/-- `p` arrived on the data channel of the peer registered under `c`. -/
def Arrived (trace : List Event) (c : ClientId) (tag : Tag) : Prop :=
  tag.peer = .webRtc c ∧ ∃ p, .arrived p ∈ trace ∧ p.tag = tag

theorem Arrived.mono {trace trace' : List Event} {c : ClientId} {tag : Tag}
    (h : Arrived trace c tag) (hs : trace <:+ trace') : Arrived trace' c tag := by
  obtain ⟨h1, p, hp, h2⟩ := h
  exact ⟨h1, p, hs.subset hp, h2⟩

/-- What a result says about its cause. -/
def Outcome.Honest (trace : List Event) (o : Outcome) : Prop :=
  match o.result with
  | .none => True
  | .packetToSend addr _ => ∃ c, o.tag.peer = .webRtc c ∧ addr = virtualAddrForClient c
  | .payload c _ => Arrived trace c o.tag
  | .clientConnected c addr _ => Arrived trace c o.tag ∧ addr = virtualAddrForClient c
  | .clientDisconnected c addr _ => o.tag.peer = .webRtc c ∧ addr = virtualAddrForClient c

theorem Outcome.Honest.mono {trace trace' : List Event} {o : Outcome} (h : o.Honest trace)
    (hs : trace <:+ trace') : o.Honest trace' := by
  unfold Honest at h ⊢
  split
  · trivial
  · rename_i heq; rw [heq] at h; exact h
  · rename_i heq; rw [heq] at h; exact h.mono hs
  · rename_i heq; rw [heq] at h; exact ⟨h.1.mono hs, h.2⟩
  · rename_i heq; rw [heq] at h; exact h

/-- A call of the transport on the `RenetServer` that its cause allows. -/
def Event.Honest (earlier : List Event) : Event → Prop
  | .addConnection .webRtc c _ _ tag => Arrived earlier c tag
  | .processPacketFrom .webRtc c _ _ p => Arrived earlier c p.tag
  | _ => True

structure IdentityInv (a : Cfg N R S W) : Prop where
  keyed : Keyed a
  gate : GateOk a.st.packetGate a.st.conds
  netcode : AtHome a.st.netcodeServer
  carried : ∀ c p, Carried a c p → Arrived a.st.trace c p.tag
  queue : ∀ o ∈ a.queue, o.Honest a.st.trace
  trace : ∀ later e earlier, a.st.trace = later ++ e :: earlier → e.Honest earlier

omit [Rtc R] [RenetServer S] in
theorem IdentityInv.born [LawfulNetcode N] {a b : Cfg N R S W} (h : IdentityInv a) {o : Outcome}
    (hb : Born a b o) : o.Honest a.st.trace := by
  cases hb with
  | packet k c peer p r hhand hparcel hc hr hid ho =>
    subst ho
    obtain ⟨k1, k2, _⟩ := h.keyed.hand k peer hhand
    have harr := h.carried c p (.inl hparcel)
    have hck : c = k := hc.elim id fun hc => hc.trans k1
    rw [hck] at harr
    have hs := LawfulNetcode.processPacket a.st.netcodeServer peer.virtualAddr p.bytes
    rw [← hr, k2] at hs
    have hhome : ∀ id addr, NetcodeServer.clientAddr a.st.netcodeServer id = some addr →
        addr = virtualAddrForClient k → id = k := fun id addr hi ha =>
      virtualAddrForClient_inj ((h.netcode id addr hi).symm.trans ha)
    obtain ⟨n', result⟩ := r
    cases result with
    | none => trivial
    | packetToSend addr payload => exact ⟨k, harr.1, hs.1⟩
    | payload id payload =>
      rw [← hhome id _ hs.1 rfl] at harr
      exact harr
    | clientConnected id addr userData payload =>
      have hidk : id = k := (hid id rfl).trans k1
      rw [← hidk] at harr hs
      exact ⟨harr, hs.1⟩
    | clientDisconnected id addr payload =>
      have hidk := hhome id _ hs.2.1 rfl
      rw [← hidk] at harr hs
      exact ⟨harr.1, hs.1⟩
  | call c r hspec hr htag _ _ =>
    unfold Outcome.Honest
    rw [hr]
    obtain ⟨n', result⟩ := r
    cases result with
    | none => trivial
    | packetToSend addr payload => exact ⟨c, htag, h.netcode c addr hspec.1⟩
    | clientDisconnected id addr payload =>
      obtain ⟨rfl, haddr, _⟩ := hspec
      exact ⟨htag, h.netcode id addr haddr⟩
    | payload id payload => exact hspec.elim
    | clientConnected id addr userData payload => exact hspec.elim

omit [Rtc R] in
theorem IdentityInv.cause {a : Cfg N R S W} (h : IdentityInv a) {e : Event} (hc : Cause a e) :
    e.Honest a.st.trace := by
  cases e with
  | addConnection b c entry registered tag =>
    obtain ⟨rfl, _, _, _, _, o, addr, payload, hcur, rfl, ho⟩ := hc
    have := h.queue o (Cfg.mem_queue.2 (.inl hcur))
    unfold Outcome.Honest at this
    rw [ho] at this
    exact this.1
  | processPacketFrom b c entry own p =>
    obtain ⟨rfl, _, _, o, hcur, htag, ho⟩ := hc
    have := h.queue o (Cfg.mem_queue.2 (.inl hcur))
    unfold Outcome.Honest at this
    rw [ho, htag] at this
    exact this
  | _ => trivial

theorem identityInv_act [LawfulNetcode N] {a b : Cfg N R S W} (h : IdentityInv a) (hact : Act a b) :
    IdentityInv b := by
  have hs := trace_suffix hact
  refine ⟨keyed_act h.keyed hact, gateOk_act h.gate hact, atHome_act h.keyed h.netcode hact, ?_, ?_, ?_⟩
  · intro c p hp
    rcases carried_act h.gate hact hp with hp | ⟨_, htag, ht⟩
    · exact (h.carried c p hp).mono hs
    · rw [ht]
      exact ⟨by rw [htag]; rfl, p, List.mem_cons_self, rfl⟩
  · intro o ho
    rcases queue_act hact ho with ho | ho
    · exact (h.queue o ho).mono hs
    · exact (h.born ho).mono hs
  · intro later e earlier heq
    rcases event_act hact with ht | ⟨e', ht, hcause⟩
    · exact h.trace later e earlier (ht.symm.trans heq)
    · rw [ht] at heq
      cases later with
      | nil =>
        cases heq
        exact h.cause hcause
      | cons x later =>
        rw [List.cons_append, List.cons.injEq] at heq
        exact h.trace later e earlier heq.2

omit [Rtc R] [RenetServer S] in
theorem identityInv_fresh {s : WebRtcState N R S W} (hs : s.Fresh) : IdentityInv ⟨s, {}, {}⟩ := by
  have hkeyed := keyed_fresh hs
  obtain ⟨n, addr, shared, rfl, htrace, hfree, hown⟩ := hs
  refine ⟨hkeyed, ⟨hown, fun h owner hg => by cases hg⟩, fun c addr hc => ?_, fun c p hp => ?_,
    fun o ho => ?_, fun later e earlier heq => ?_⟩
  · have hc' : NetcodeServer.clientAddr n c = some addr := hc
    rw [hfree c] at hc'
    cases hc'
  · rcases hp with hp | hp | hp
    · cases hp
    · exact absurd hp List.not_mem_nil
    · exact absurd hp stock_none
  · exact absurd ho List.not_mem_nil
  · have heq' : shared.trace = later ++ e :: earlier := heq
    rw [htrace] at heq'
    simp at heq'

variable [World W] [LawfulRtc R] [LawfulNetcode N] [LawfulWorld W]

omit [Rtc R] [RenetServer S] [World W] [LawfulRtc R] [LawfulNetcode N] [LawfulWorld W] in
theorem identityInv_game {s : WebRtcState N R S W} {server : S} (h : IdentityInv ⟨s, {}, {}⟩) :
    IdentityInv (⟨{ s with server := server }, {}, {}⟩ : Cfg N R S W) :=
  ⟨⟨h.keyed.peers, h.keyed.hand⟩, h.gate, h.netcode, h.carried, h.queue, h.trace⟩

theorem identityInv_reachable {s : WebRtcState N R S W}
    (h : (WebRtcState.runs N R S W).Reachable s) : IdentityInv ⟨s, {}, {}⟩ ∧ s.applying = [] :=
  WebRtcState.reachable_invariant (fun _ hs => identityInv_fresh hs)
    (fun _ _ hi hact => identityInv_act hi hact) (fun _ _ hi => identityInv_game hi) h

/-- In every reachable state each connected client is at its own virtual
address, and each call that connected a client of the `RenetServer` or delivered
a packet in its name was caused by a packet that had arrived on the data channel
of the peer registered under that client id. -/
theorem peer_acts_as_itself {s : WebRtcState N R S W}
    (h : (WebRtcState.runs N R S W).Reachable s) :
    (∀ c addr, NetcodeServer.clientAddr s.netcodeServer c = some addr →
      addr = virtualAddrForClient c) ∧
    (∀ later earlier c entry registered tag,
      s.trace = later ++ .addConnection .webRtc c entry registered tag :: earlier →
      tag.peer = .webRtc c ∧ ∃ p, .arrived p ∈ earlier ∧ p.tag = tag) ∧
    ∀ later earlier c entry own p,
      s.trace = later ++ .processPacketFrom .webRtc c entry own p :: earlier →
      p.tag.peer = .webRtc c ∧ ∃ q, .arrived q ∈ earlier ∧ q.tag = p.tag := by
  obtain ⟨hi, _⟩ := identityInv_reachable h
  refine ⟨hi.netcode, fun later earlier c entry registered tag ht => ?_,
    fun later earlier c entry own p ht => ?_⟩
  · exact hi.trace later _ earlier ht
  · exact hi.trace later _ earlier ht

/-- Peer 2 sends the handshake of client 1, then peer 1 its own: client 1 sits at
its own virtual address, and what connected it came in on its own channel. -/
theorem peer_acts_as_itself_impostor : ∃ s : Demo,
    (WebRtcState.runs Table Script Connections Sockets).Reachable s ∧
    (∀ addr, NetcodeServer.clientAddr s.netcodeServer 1 = some addr → addr = virtualAddrForClient 1) ∧
    NetcodeServer.clientAddr s.netcodeServer 1 ≠ none ∧
    (∃ later earlier entry registered tag,
      s.trace = later ++ .addConnection .webRtc 1 entry registered tag :: earlier ∧
      tag.peer = .webRtc 1 ∧ ∃ p, .arrived p ∈ earlier ∧ p.tag = tag) := by
  obtain ⟨s, hs, hp⟩ := demo_any { webRtc := [([2], lan 12), ([1], lan 11)] }
    [.addPeer 1 { name := 1, onInput := [[opens, brings [1, 1]]] },
      .addPeer 2 { name := 2, onInput := [[opens, brings [1, 1]]] }, .update 9 0 0]
    (P := fun s => (NetcodeServer.clientAddr s.netcodeServer 1).isSome &&
      s.trace.contains (.addConnection .webRtc 1 false true ⟨.webRtc 1, 15⟩)) (by decide +kernel)
  rw [Bool.and_eq_true, List.contains_iff_mem] at hp
  obtain ⟨hhome, hadd, _⟩ := peer_acts_as_itself (demo_reachable hs)
  obtain ⟨later, earlier, ht⟩ := List.mem_iff_append.1 hp.2
  exact ⟨s, demo_reachable hs, hhome 1, Option.isSome_iff_ne_none.1 hp.1,
    later, earlier, _, _, _, ht, hadd later earlier 1 _ _ _ ht⟩

end RenetCross.L4
