import RenetCross.L4App.MixedServer

/-!
# What the WebRTC half of a mixed transport answers for

Two invariants of the steps of `Act`, for a `RenetServer` that another backend uses
as well. `Upheld`: a client that netcode has is in `connected_client_ids`, or will be
once the queued results are handled. `OwnInv`: the ids of `connected_client_ids` and
`pending_renet_removals` have entries that this backend made; it holds as long as
the trace is `clean`.
-/
namespace RenetCross.L4

open RenetCross.L2 Relation

variable {N R S W : Type} [NetcodeServer N] [Rtc R] [RenetServer S]

/-! ## Netcode's clients -/

/-- A packet that leaves `c` with a slot connected it, or left it alone. -/
theorem PacketSpec.held_after {n n' : N} {addr : SocketAddr} {r : ServerResult} {c : ClientId}
    (h : PacketSpec n n' addr r) (hheld : Held n' c) :
    (toOwnedServerResult r).connects = some c ∨
      Held n c ∧ (toOwnedServerResult r).disconnects ≠ some c := by
  cases r with
  | none => exact .inr ⟨(SameClients.held h).1 hheld, fun hd => by cases hd⟩
  | packetToSend addr' payload => exact .inr ⟨(SameClients.held h.2).1 hheld, fun hd => by cases hd⟩
  | payload id payload => exact .inr ⟨(SameClients.held h.2).1 hheld, fun hd => by cases hd⟩
  | clientConnected id addr' userData payload =>
    by_cases hc : c = id
    · exact .inl (congrArg some hc.symm)
    · exact .inr ⟨(h.2.2.held_of_ne hc).1 hheld, fun hd => by cases hd⟩
  | clientDisconnected id addr' payload =>
    have hc : c ≠ id := by
      rintro rfl
      exact hheld ((h.2.2 c).trans (if_pos rfl))
    exact .inr ⟨(h.2.2.held_of_ne hc).1 hheld, fun hd => hc (Option.some.inj hd).symm⟩

theorem ClientSpec.held_after {n n' : N} {c' : ClientId} {r : ServerResult} {c : ClientId}
    (h : ClientSpec n n' c' r) (hheld : Held n' c) :
    Held n c ∧ (toOwnedServerResult r).disconnects ≠ some c := by
  cases r with
  | none => exact ⟨(SameClients.held h).1 hheld, fun hd => by cases hd⟩
  | packetToSend addr' payload => exact ⟨(SameClients.held h.2).1 hheld, fun hd => by cases hd⟩
  | payload id payload => exact h.elim
  | clientConnected id addr' userData payload => exact h.elim
  | clientDisconnected id addr' payload =>
    obtain ⟨rfl, _, hset⟩ := h
    have hc : c ≠ id := by
      rintro rfl
      exact hheld ((hset c).trans (if_pos rfl))
    exact ⟨(hset.held_of_ne hc).1 hheld, fun hd => hc (Option.some.inj hd).symm⟩

/-- What a freed slot leaves. -/
theorem SetsClient.held_after {n n' : N} {c c' : ClientId} (h : SetsClient n n' c' none)
    (hheld : Held n' c) : c ≠ c' ∧ Held n c := by
  have hc : c ≠ c' := by
    rintro rfl
    exact hheld ((h c).trans (if_pos rfl))
  exact ⟨hc, (h.held_of_ne hc).1 hheld⟩

/-- The peer in hand will be torn down: its drain failed. -/
def Cfg.Dying (a : Cfg N R S W) (c : ClientId) : Prop :=
  a.drive.failed = true ∧ ∃ p, a.drive.hand = some (c, p)

/-- What a drain gathers connects only the client of the peer in hand. -/
def OwnWords (a : Cfg N R S W) : Prop :=
  ∀ o ∈ a.drive.gathered, ∀ c, o.result.connects = some c → ∃ p, a.drive.hand = some (c, p)

omit [NetcodeServer N] [Rtc R] [RenetServer S] in
theorem OwnWords.of_eq {a b : Cfg N R S W} (h : OwnWords a)
    (hg : ∀ o ∈ b.drive.gathered, o ∈ a.drive.gathered)
    (hh : ∀ c p, a.drive.hand = some (c, p) → ∃ p', b.drive.hand = some (c, p')) : OwnWords b := by
  intro o ho c hc
  obtain ⟨p, hp⟩ := h o (hg o ho) c hc
  exact hh c p hp

omit [NetcodeServer N] [Rtc R] [RenetServer S] in
theorem OwnWords.empty {a : Cfg N R S W} (h : a.drive.gathered = []) : OwnWords a := by
  intro o ho
  rw [h] at ho
  exact absurd ho List.not_mem_nil

theorem ownWords_act {a b : Cfg N R S W} (hk : Keyed a) (h : OwnWords a) (hact : Act a b) :
    OwnWords b := by
  -- the peer in hand changes and stays the same client's
  have hand : ∀ {c : ClientId} {p p' : ServerPeer R}, a.drive.hand = some (c, p) →
      ∀ c₁ p₁, a.drive.hand = some (c₁, p₁) → ∃ p₂, some (c, p') = some (c₁, p₂) := by
    intro c p p' hp c₁ p₁ hp₁
    rw [hp] at hp₁
    cases hp₁
    exact ⟨p', rfl⟩
  cases hact with
  | @pickUp s d f c p hp hhand hf =>
    refine h.of_eq (fun _ ho => ho) fun c₁ p₁ hp₁ => ?_
    rw [show d.hand = none from hhand] at hp₁
    cases hp₁
  | @putDown s d f c p hhand hf hg hd => exact .empty hg
  | @touchHand s d f c p p' hhand hret => exact h.of_eq (fun _ ho => ho) (hand hhand)
  | @startDrain s d f c p hhand hd => exact h.of_eq (fun _ ho => ho) (hand hhand)
  | @polled s d f c p rtc hhand hnone => exact h.of_eq (fun _ ho => ho) (hand hhand)
  | @polledTimeout s d f c p rtc deadline hhand hnone => exact h.of_eq (fun _ ho => ho) (hand hhand)
  | @process s d f c c' p packet r hhand hparcel hc hr hid =>
    intro o ho c₁ hc₁
    rcases List.mem_append.1 ho with ho | ho
    · exact h o ho c₁ hc₁
    · rw [List.mem_singleton.1 ho] at hc₁
      rw [hid c₁ hc₁, (hk.hand c p hhand).1]
      exact ⟨p, hhand⟩
  | @commit s d f hf => exact .empty rfl
  | @lose s d f c p hhand => exact .empty rfl
  | @tearDown s d f c p hhand hg hd => exact .empty hg
  | _ => exact h.of_eq (fun _ ho => ho) fun _ p hp => ⟨p, hp⟩

/-- A client of netcode is in `connected_client_ids`, or will be when the queued
results are handled. -/
def Upheld (a : Cfg N R S W) (c : ClientId) : Prop :=
  a.Dying c ∨ (Held a.st.netcodeServer c → a.settled c = true)

omit [Rtc R] [RenetServer S] in
theorem Upheld.of_eq {a b : Cfg N R S W} {c : ClientId} (h : Upheld a c)
    (hd : a.Dying c → b.Dying c) (hheld : Held b.st.netcodeServer c → Held a.st.netcodeServer c)
    (hset : a.settled c = true → b.settled c = true) : Upheld b c :=
  h.imp hd fun h hb => hset (h (hheld hb))

/-- The replay of a result that leaves a client connected. -/
theorem leaves_of_upheld {r : OwnedServerResult} {c : ClientId} {was : Bool} (hwas : was = true)
    (h : r.disconnects ≠ some c) : r.leaves c was = true := by
  simp [OwnedServerResult.leaves, hwas, h]

omit [Rtc R] [RenetServer S] in
/-- A netcode call outside a drain. -/
theorem upheld_severed {s : WebRtcState N R S W} {d : Drive R} {f : Frame} (f' : Frame)
    {c c' : ClientId} {r : N × ServerResult} (h : Upheld ⟨s, d, f⟩ c)
    (hspec : ClientSpec s.netcodeServer r.1 c' r.2) (happ : s.applying = []) (hcur : f.current = none)
    (hg : d.gathered = []) (hcur' : f'.current = some (s.severedOutcome c' r)) :
    Upheld ⟨s.severed r, d, f'⟩ c := by
  refine h.imp (fun hd => hd) fun h hheld => ?_
  rw [WebRtcState.severed_frame] at hheld ⊢
  obtain ⟨hbefore, hne⟩ := hspec.held_after hheld
  have hset := h hbefore
  simp only [Cfg.settled, Cfg.queue, hcur, hcur', happ, hg, Option.toList_some, Option.toList_none,
    List.append_nil, List.cons_append, List.nil_append, settles_cons] at hset ⊢
  rwa [leaves_of_ne]
  · intro hc
    rw [show (s.severedOutcome c' r).result.connects = none from hspec.quiet] at hc
    cases hc
  · exact hne

theorem upheld_act [LawfulNetcode N] {a b : Cfg N R S W} {c : ClientId} (hw : OwnWords a)
    (h : Upheld a c) (hact : Act a b) : Upheld b c := by
  -- the peer in hand changes and stays the same client's
  have hand : ∀ {c₁ : ClientId} {p p' : ServerPeer R}, a.drive.hand = some (c₁, p) →
      (∃ q, a.drive.hand = some (c, q)) → ∃ q, some (c₁, p') = some (c, q) := by
    rintro c₁ p p' hp ⟨q, hq⟩
    rw [hp] at hq
    cases hq
    exact ⟨p', rfl⟩
  cases hact with
  | @tick s d f n hn => exact h.of_eq (fun hd => hd) (SameClients.held hn).1 fun hs => hs
  | @pickUp s d f c₁ p hp hhand hf =>
    refine h.of_eq (fun hd => ?_) (fun hh => hh) fun hs => hs
    have hf' : d.failed = true := hd.1
    rw [hf] at hf'
    cases hf'
  | @putDown s d f c₁ p hhand hf hg hd =>
    refine h.of_eq (fun hd => ?_) (fun hh => hh) fun hs => hs
    have hf' : d.failed = true := hd.1
    rw [hf] at hf'
    cases hf'
  | @touchHand s d f c₁ p p' hhand hret =>
    exact h.of_eq (fun hd => ⟨hd.1, hand hhand hd.2⟩) (fun hh => hh) fun hs => hs
  | @startDrain s d f c₁ p hhand hd =>
    exact h.of_eq (fun hd => ⟨hd.1, hand hhand hd.2⟩) (fun hh => hh) fun hs => hs
  | @polled s d f c₁ p rtc hhand hnone =>
    exact h.of_eq (fun hd => ⟨hd.1, hand hhand hd.2⟩) (fun hh => hh) fun hs => hs
  | @polledTimeout s d f c₁ p rtc deadline hhand hnone =>
    exact h.of_eq (fun hd => ⟨hd.1, hand hhand hd.2⟩) (fun hh => hh) fun hs => hs
  | @process s d f c₁ c₂ p packet r hhand hparcel hc hr hid =>
    refine h.imp (fun hd => hd) fun h hheld => ?_
    have hs := LawfulNetcode.processPacket s.netcodeServer p.virtualAddr packet.bytes
    rw [← hr] at hs
    have hset : (Cfg.settled (⟨{ s with netcodeServer := r.1 }.log (.processed packet), { d with
        parcel := none
        gathered := d.gathered ++ [⟨toOwnedServerResult r.2, packet.tag⟩] }, f⟩ : Cfg N R S W) c) =
        (toOwnedServerResult r.2).leaves c (Cfg.settled ⟨s, d, f⟩ c) := by
      simp only [Cfg.settled, Cfg.queue, WebRtcState.log, settles_append, settles_cons, settles_nil]
    rw [hset]
    rcases hs.held_after hheld with hc | ⟨hbefore, hne⟩
    · simp [OwnedServerResult.leaves, hc]
    · exact leaves_of_upheld (h hbefore) hne
  | @processForeign s d f c₁ c₂ id p packet r hhand hparcel hc hr hid hne =>
    have hs := LawfulNetcode.processPacket s.netcodeServer p.virtualAddr packet.bytes
    rw [← hr] at hs
    refine h.of_eq (fun hd => hd) (fun hheld => ?_) fun hs => hs
    obtain ⟨hcid, hmid⟩ := (setsClient_disconnect r.1 id).held_after hheld
    rcases hs.held_after hmid with hc | hc
    · rw [hid] at hc
      exact absurd (Option.some.inj hc).symm hcid
    · exact hc.1
  | @commit s d f hf =>
    refine h.of_eq (fun hd => hd) (fun hh => hh) fun hs => ?_
    simpa only [Cfg.settled, Cfg.queue, settles_append, settles_nil] using hs
  | @lose s d f c₁ p hhand =>
    by_cases hcc : c = c₁
    · exact .inl ⟨rfl, p, by rw [hcc]; exact hhand⟩
    · refine h.of_eq (fun hd => ⟨rfl, hd.2⟩) (fun hh => hh) fun hs => ?_
      simp only [Cfg.settled, Cfg.queue, settles_append, settles_nil, WebRtcState.log] at hs ⊢
      -- nothing of what is lost could have connected `c`
      have hsilent : waits c d.gathered = false := by
        simp only [waits, List.any_eq_false, decide_eq_true_eq]
        intro o ho hc
        obtain ⟨q, hq⟩ := hw o ho c hc
        rw [show d.hand = some (c₁, p) from hhand] at hq
        cases hq
        exact hcc rfl
      by_contra hfalse
      rw [Bool.not_eq_true] at hfalse
      rw [hfalse, settles_false hsilent] at hs
      cases hs
  | @tearDown s d f c₁ p hhand hg hd =>
    have hspec := LawfulNetcode.disconnect s.netcodeServer c₁
    refine .inr fun hheld => ?_
    obtain ⟨hcc, _⟩ := (setsClient_disconnect s.netcodeServer c₁).held_after hheld
    obtain ⟨hbefore, hne⟩ := hspec.clientSpec.held_after hheld
    have hset := h.resolve_left (fun hdy => ?_) hbefore
    · simp only [Cfg.settled, Cfg.queue, WebRtcState.tornDown, WebRtcState.dropRoutes, hg,
        settles_append, settles_cons, settles_nil] at hset ⊢
      exact leaves_of_upheld hset hne
    · obtain ⟨q, hq⟩ := hdy.2
      rw [show d.hand = some (c₁, p) from hhand] at hq
      cases hq
      exact hcc rfl
  | @takePending s d f happ hbet hg =>
    refine h.of_eq (fun hd => hd) (fun hh => hh) fun hs => ?_
    simpa only [Cfg.settled, Cfg.queue, happ, hg, settles_append, settles_nil] using hs
  | @take s d f o rest happ hbet =>
    refine h.of_eq (fun hd => hd) (fun hh => hh) fun hs => ?_
    simpa only [Cfg.settled, Cfg.queue, happ, hbet.current, Option.toList_none, Option.toList_some,
      settles_append, settles_nil, settles_cons] using hs
  | @dismiss s d f o hcur h1 h2 =>
    refine h.of_eq (fun hd => hd) (fun hh => hh) fun hs => ?_
    refine Eq.trans (settled_handled s s hcur rfl rfl rfl ?_) hs
    exact (leaves_of_ne _ (by simp [h1]) (by simp [h2])).symm
  | @route s d f o addr payload hcur ho hhand =>
    refine h.of_eq (fun hd => hd) (fun hh => hh) fun hs => ?_
    refine Eq.trans (settled_handled s _ hcur rfl rfl rfl ?_) hs
    rw [ho]
    rfl
  | @deliver s d f o c₁ payload hcur ho =>
    refine h.of_eq (fun hd => hd) (fun hh => hh) fun hs => ?_
    refine Eq.trans (settled_handled s _ hcur rfl rfl rfl ?_) hs
    rw [ho]
    rfl
  | @connect s d f o c₁ addr payload hcur ho hconn =>
    refine h.of_eq (fun hd => hd) (fun hh => hh) fun hs => ?_
    refine Eq.trans (settled_handled s (s.admitClient c₁ addr o.tag) hcur rfl rfl rfl ?_) hs
    rw [ho, leaves_connected]
  | @reject s d f o c₁ addr payload hcur ho hconn hej =>
    refine h.imp (fun hd => hd) fun h hheld => ?_
    obtain ⟨hcc, hbefore⟩ := (setsClient_disconnect s.netcodeServer c₁).held_after hheld
    have hs := h hbefore
    refine Eq.trans (settled_handled s (s.disconnectDuplicate c₁) hcur rfl rfl rfl ?_) hs
    rw [ho, leaves_of_ne]
    · rfl
    · exact fun heq => hcc (Option.some.inj heq).symm
    · exact fun heq => by cases heq
  | @expel s d f c₁ hej hhand hg hd hcur =>
    refine h.imp (fun hd => hd) fun h hheld => ?_
    rw [WebRtcState.expelled_netcodeServer] at hheld
    obtain ⟨hcc, hbefore⟩ := (setsClient_disconnect s.netcodeServer c₁).held_after hheld
    have hs := h hbefore
    rwa [settled_expelled hcc rfl]
  | @release s d f o c₁ addr payload hcur ho =>
    refine h.of_eq (fun hd => hd) (fun hh => ?_) fun hs => ?_
    · rw [WebRtcState.releaseClient_frame] at hh
      exact hh
    · have happ : (s.releaseClient c₁ addr).applying = s.applying := by
        rw [WebRtcState.releaseClient_frame]
      have hpend : (s.releaseClient c₁ addr).pendingServerResults = s.pendingServerResults := by
        rw [WebRtcState.releaseClient_frame]
      rwa [settled_handled s _ hcur rfl happ hpend (by rw [ho, leaves_disconnected])]
  | @settle s d f c₁ r hspec happ hbet hg =>
    exact upheld_severed { f with current := some (s.severedOutcome c₁ r) } h hspec happ hbet.current hg
      rfl
  | @rollNext s d f c₁ rest r hspec happ hcur hdoom hej hroll hg =>
    exact upheld_severed { f with current := some (s.severedOutcome c₁ r), roll := some rest } h
      hspec.clientSpec happ hcur hg rfl
  | _ => exact h.of_eq (fun hd => hd) (fun hh => hh) fun hs => hs

/-! ## The entries of the WebRTC half -/

/-- The clients this half answers for have entries that it made, and no client is
in two of its tables. While a removal is under way its entry may be gone already. -/
structure OwnInv (a : Cfg N R S W) : Prop where
  entered : Entered a.st.toShared
  connected : ∀ c ∈ a.st.connectedClientIds, creator a.st.trace c = some .webRtc
  pending : ∀ c ∈ a.st.pendingRenetRemovals,
    creator a.st.trace c = some .webRtc ∧ c ∉ a.st.connectedClientIds
  removing : ∀ c ∈ a.frame.removing, creator a.st.trace c ≠ some .udp ∧
    c ∉ a.st.connectedClientIds ∧ c ∉ a.st.pendingRenetRemovals

section

omit [NetcodeServer N] [Rtc R]

theorem OwnInv.of_eq {a b : Cfg N R S W} (h : OwnInv a)
    (hentries : ∀ c, RenetServer.hasConnection b.st.server c = RenetServer.hasConnection a.st.server c)
    (hcreator : ∀ c, creator b.st.trace c = creator a.st.trace c)
    (hconn : ∀ c, c ∈ b.st.connectedClientIds → c ∈ a.st.connectedClientIds)
    (hpend : ∀ c, c ∈ b.st.pendingRenetRemovals → c ∈ a.st.pendingRenetRemovals)
    (hrem : ∀ c ∈ b.frame.removing, c ∈ a.frame.removing) : OwnInv b := by
  refine ⟨fun c => ?_, fun c hc => ?_, fun c hc => ?_, fun c hc => ?_⟩
  · rw [hentries, hcreator]
    exact h.entered c
  · rw [hcreator]
    exact h.connected c (hconn c hc)
  · rw [hcreator]
    obtain ⟨h1, h2⟩ := h.pending c (hpend c hc)
    exact ⟨h1, fun hc => h2 (hconn c hc)⟩
  · rw [hcreator]
    obtain ⟨h1, h2, h3⟩ := h.removing c (hrem c hc)
    exact ⟨h1, fun hc => h2 (hconn c hc), fun hc => h3 (hpend c hc)⟩

/-- A step that touches neither the `RenetServer` nor the tables. -/
theorem OwnInv.same {a b : Cfg N R S W} (h : OwnInv a) (hserver : b.st.server = a.st.server)
    (hcreator : ∀ c, creator b.st.trace c = creator a.st.trace c)
    (hconn : b.st.connectedClientIds = a.st.connectedClientIds)
    (hpend : b.st.pendingRenetRemovals = a.st.pendingRenetRemovals)
    (hrem : b.frame.removing = a.frame.removing) : OwnInv b :=
  h.of_eq (fun c => by rw [hserver]) hcreator (fun c hc => hconn ▸ hc) (fun c hc => hpend ▸ hc)
    fun c hc => hrem ▸ hc

/-- A client without an entry is in none of the tables. -/
theorem OwnInv.absent {a : Cfg N R S W} (h : OwnInv a) {c : ClientId}
    (hentry : RenetServer.hasConnection a.st.server c = false) :
    creator a.st.trace c = none ∧ c ∉ a.st.connectedClientIds ∧ c ∉ a.st.pendingRenetRemovals := by
  have hnone : creator a.st.trace c = none := by
    have hsome := h.entered c
    rw [hentry] at hsome
    simpa using hsome.symm
  refine ⟨hnone, fun hc => ?_, fun hc => ?_⟩
  · rw [h.connected c hc] at hnone
    cases hnone
  · rw [(h.pending c hc).1] at hnone
    cases hnone

/-- `remove_connection(c)` for a client that is in no table any more. -/
theorem OwnInv.removed [LawfulRenet S] {a b : Cfg N R S W} (h : OwnInv a) {c : ClientId} {entry : Bool}
    (hserver : b.st.server = RenetServer.removeConnection a.st.server c)
    (htrace : b.st.trace = .removeConnection .webRtc c entry :: a.st.trace)
    (hconn : ∀ c', c' ∈ b.st.connectedClientIds → c' ≠ c ∧ c' ∈ a.st.connectedClientIds)
    (hpend : ∀ c', c' ∈ b.st.pendingRenetRemovals → c' ≠ c ∧ c' ∈ a.st.pendingRenetRemovals)
    (hrem : ∀ c' ∈ b.frame.removing, c' ∈ a.frame.removing) : OwnInv b := by
  have hcr : ∀ c', c' ≠ c → creator b.st.trace c' = creator a.st.trace c' := fun c' hne => by
    rw [htrace, creator_removeConnection, if_neg (Ne.symm hne)]
  have hself : creator b.st.trace c = none := by
    rw [htrace, creator_removeConnection, if_pos rfl]
  refine ⟨fun c' => ?_, fun c' hc => ?_, fun c' hc => ?_, fun c' hc => ?_⟩
  · rw [hserver, LawfulRenet.removeConnection]
    by_cases hcc : c' = c
    · rw [hcc, hself]
      simp
    · rw [hcr c' hcc, h.entered c']
      simp [hcc]
  · obtain ⟨hne, hc⟩ := hconn c' hc
    rw [hcr c' hne]
    exact h.connected c' hc
  · obtain ⟨hne, hc⟩ := hpend c' hc
    rw [hcr c' hne]
    exact ⟨(h.pending c' hc).1, fun hcon => (h.pending c' hc).2 (hconn c' hcon).2⟩
  · obtain ⟨h1, h2, h3⟩ := h.removing c' (hrem c' hc)
    refine ⟨?_, fun hcon => h2 (hconn c' hcon).2, fun hp => h3 (hpend c' hp).2⟩
    by_cases hcc : c' = c
    · rw [hcc, hself]
      exact fun heq => by cases heq
    · rw [hcr c' hcc]
      exact h1

end

omit [NetcodeServer N] [Rtc R] [RenetServer S] in
theorem creator_severed (s : WebRtcState N R S W) (r : N × ServerResult) (c : ClientId) :
    creator (s.severed r).trace c = creator s.trace c := by
  rw [WebRtcState.severed_trace]
  split <;> rfl

theorem ownInv_act [LawfulRenet S] {a b : Cfg N R S W} (h : OwnInv a) (hact : Act a b)
    (hclean : clean b.st.trace = true) : OwnInv b := by
  cases hact with
  | @fetch s d f c =>
    exact h.of_eq (LawfulRenet.getPacketsToSend s.server c) (fun _ => rfl) (fun _ hc => hc)
      (fun _ hc => hc) fun _ hc => hc
  | @gate s d f g sh hg => exact h.same hg.server (fun c => by rw [hg.trace]) rfl rfl rfl
  | @stockIn s d f c packet sh hp hg => exact h.same hg.server (fun c => by rw [hg.trace]) rfl rfl rfl
  | @stockOut s d f c packet sh hp hg => exact h.same hg.server (fun c => by rw [hg.trace]) rfl rfl rfl
  | @deliver s d f o c payload hcur ho =>
    exact h.of_eq (LawfulRenet.processPacketFrom s.server payload c) (fun _ => rfl) (fun _ hc => hc)
      (fun _ hc => hc) fun _ hc => hc
  | @connect s d f o c addr payload hcur ho hconn hsw hrem =>
    have hentry : RenetServer.hasConnection s.server c = false := by
      simpa [Event.clean, WebRtcState.admitClient, WebRtcState.log] using (clean_tail hclean).1
    obtain ⟨hnone, hnc, hnp⟩ := h.absent hentry
    have hcr : ∀ c', creator (s.admitClient c addr o.tag).trace c' =
        if c = c' then some .webRtc else creator s.trace c' := fun c' => by
      show creator (.addConnection .webRtc c (RenetServer.hasConnection s.server c) _ _ :: s.trace) c' = _
      rw [hentry, creator_addConnection]
    refine ⟨fun c' => ?_, fun c' hc => ?_, fun c' hc => ?_, fun c' hc => ?_⟩
    · rw [hcr, show (s.admitClient c addr o.tag).server = RenetServer.addConnection s.server c from rfl,
        LawfulRenet.addConnection, h.entered c']
      by_cases hcc : c = c'
      · simp [hcc]
      · simp [hcc, Ne.symm hcc]
    · rw [hcr]
      split
      · rfl
      · rename_i hcc
        rcases HashMap.mem_insert.1 hc with hc | hc
        · exact absurd hc.symm hcc
        · exact h.connected c' hc
    · have hcc : c ≠ c' := fun heq => hnp (heq ▸ hc)
      rw [hcr, if_neg hcc]
      refine ⟨(h.pending c' hc).1, fun hcon => ?_⟩
      rcases HashMap.mem_insert.1 hcon with hcon | hcon
      · exact hcc hcon.symm
      · exact (h.pending c' hc).2 hcon
    · have hc' : c' ∈ f.removing := hc
      rw [hrem] at hc'
      exact absurd hc' List.not_mem_nil
  | @expel s d f c hej hhand hg hd hcur =>
    have hcr : ∀ c', creator (s.expelled c).trace c' = creator s.trace c' := fun c' => by
      rw [WebRtcState.expelled_toShared]
      rfl
    refine ⟨fun c' => ?_, fun c' hc => ?_, fun c' hc => ?_, fun c' hc => ?_⟩
    · rw [hcr, WebRtcState.expelled_toShared]
      exact h.entered c'
    · rw [hcr]
      exact h.connected c' (WebRtcState.mem_connected_expelled.1 hc).2
    · rw [hcr, WebRtcState.mem_connected_expelled]
      rcases WebRtcState.mem_removals_expelled.1 hc with hc | ⟨rfl, hc⟩
      · exact ⟨(h.pending c' hc).1, fun hcon => (h.pending c' hc).2 hcon.2⟩
      · exact ⟨h.connected c' hc, fun hcon => hcon.1 rfl⟩
    · rw [hcr, WebRtcState.mem_connected_expelled, WebRtcState.mem_removals_expelled]
      obtain ⟨h1, h2, h3⟩ := h.removing c' hc
      refine ⟨h1, fun hcon => h2 hcon.2, ?_⟩
      rintro (hp | ⟨rfl, hp⟩)
      · exact h3 hp
      · exact h2 hp
  | @release s d f o c addr payload hcur ho =>
    rcases s.releaseClient_cases c addr with ⟨hc, hserver, htrace⟩ | ⟨hc, hserver, htrace⟩
    · refine h.removed hserver htrace (fun c' hc' => WebRtcState.mem_connected_releaseClient.1 hc')
        (fun c' hc' => ?_) fun _ hc => hc
      rw [WebRtcState.releaseClient_frame] at hc'
      exact ⟨fun heq => (h.pending c' hc').2 (heq ▸ hc), hc'⟩
    · refine h.of_eq (fun c' => by rw [hserver]) (fun c' => by rw [htrace])
        (fun c' hc' => (WebRtcState.mem_connected_releaseClient.1 hc').2) (fun c' hc' => ?_)
        fun _ hc => hc
      rw [WebRtcState.releaseClient_frame] at hc'
      exact hc'
  | @settle s d f c r hspec happ hbet hg =>
    refine h.same ?_ (creator_severed s r) ?_ ?_ rfl <;> rw [WebRtcState.severed_frame]
  | @rollNext s d f c rest r hspec happ hcur hdoom hej hroll hg =>
    refine h.same ?_ (creator_severed s r) ?_ ?_ rfl <;> rw [WebRtcState.severed_frame]
  | @sweep s d f ids hids hrem =>
    refine ⟨h.entered, h.connected, fun c hc => absurd hc (AList.notMem_empty c), fun c hc => ?_⟩
    obtain ⟨h1, h2⟩ := h.pending c ((hids c).1 hc)
    refine ⟨?_, h2, AList.notMem_empty c⟩
    rw [h1]
    exact fun heq => by cases heq
  | @removeNext s d f c rest hrest =>
    have hmem : c ∈ f.removing := by
      rw [hrest]
      exact List.mem_cons_self
    obtain ⟨_, hnc, hnp⟩ := h.removing c hmem
    refine h.removed rfl rfl (fun c' hc => ⟨fun heq => hnc (heq ▸ hc), hc⟩)
      (fun c' hc => ⟨fun heq => hnp (heq ▸ hc), hc⟩) fun c' hc => ?_
    show c' ∈ f.removing
    rw [hrest]
    exact List.mem_cons_of_mem _ hc
  | _ => exact h.same rfl (fun _ => rfl) rfl rfl rfl

end RenetCross.L4
