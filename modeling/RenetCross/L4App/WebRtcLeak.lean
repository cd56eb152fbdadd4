import RenetCross.L4App.WebRtcReplace

/-!
# Leaked connections of the `RenetServer`

A client that netcode lets go must be removed from the `RenetServer`. Netcode's
table changes at once; the matching `ClientDisconnected` travels through the
vector of a drain, `pending_server_results` and the handler. `settled` is what
`connected_client_ids` will say about a client once the queued results are
handled; a client is `Sound` if netcode still has it whenever `settled` says so.

Two things break this. A drain that fails throws away the results it gathered,
a `ClientDisconnected` among them, and the `disconnect` that follows finds the
client gone already (`Event.lost`). And a `ClientDisconnected` that is handled at
once, outside the queue, overtakes a `ClientConnected` of the same client that
still waits there (`Event.severed`). `connection_never_leaks`: in every run in
which neither happens, each id of `connected_client_ids` is connected in netcode
or has its `ClientDisconnected` waiting.
-/
namespace RenetCross.L4

open RenetCross.L2

variable {N R S W : Type} [NetcodeServer N] [Rtc R] [RenetServer S]

/-! ## Replaying the queue -/

/-- Whether `c` is in `connected_client_ids` after a result is handled, if it was
(`was`) before. -/
def OwnedServerResult.leaves (c : ClientId) (was : Bool) (r : OwnedServerResult) : Bool :=
  if r.connects = some c then true else if r.disconnects = some c then false else was

def settles (c : ClientId) (was : Bool) (queue : List Outcome) : Bool :=
  queue.foldl (fun was o => o.result.leaves c was) was

@[simp] theorem settles_nil (c : ClientId) (was : Bool) : settles c was [] = was := rfl

@[simp] theorem settles_cons (c : ClientId) (was : Bool) (o : Outcome) (queue : List Outcome) :
    settles c was (o :: queue) = settles c (o.result.leaves c was) queue := rfl

@[simp] theorem settles_append (c : ClientId) (was : Bool) (q q' : List Outcome) :
    settles c was (q ++ q') = settles c (settles c was q) q' := List.foldl_append

theorem leaves_of_ne {r : OwnedServerResult} {c : ClientId} (was : Bool) (h1 : r.connects ≠ some c)
    (h2 : r.disconnects ≠ some c) : r.leaves c was = was := by
  simp [OwnedServerResult.leaves, h1, h2]

/-- A queue that does not disconnect `c` leaves it connected. -/
theorem settles_true {c : ClientId} : ∀ {queue : List Outcome},
    (∀ o ∈ queue, o.result.disconnects ≠ some c) → settles c true queue = true
  | [], _ => rfl
  | o :: queue, h => by
    have hl : o.result.leaves c true = true := by
      simp [OwnedServerResult.leaves, h o List.mem_cons_self]
    rw [settles_cons, hl]
    exact settles_true fun o' ho' => h o' (List.mem_cons_of_mem _ ho')

/-- A queue that does not connect `c` leaves it disconnected. -/
theorem settles_false {c : ClientId} : ∀ {queue : List Outcome}, waits c queue = false →
    settles c false queue = false
  | [], _ => rfl
  | o :: queue, h => by
    simp only [waits, List.any_cons, Bool.or_eq_false_iff, decide_eq_false_iff_not] at h
    have hl : o.result.leaves c false = false := by
      simp [OwnedServerResult.leaves, h.1]
    rw [settles_cons, hl]
    exact settles_false h.2

/-- Results of another client do not matter. -/
theorem settles_filter {c c' : ClientId} (hne : c ≠ c') :
    ∀ (queue : List Outcome) (was : Bool),
      settles c was (queue.filter fun o => !o.result.concerns c') = settles c was queue
  | [], _ => rfl
  | o :: queue, was => by
    rw [List.filter_cons]
    split
    · rw [settles_cons, settles_cons]
      exact settles_filter hne queue _
    · rename_i hc
      rw [settles_cons, leaves_of_ne, settles_filter hne queue]
      · intro h
        refine hc ?_
        obtain ⟨result, tag⟩ := o
        cases result with
        | clientConnected id addr payload =>
          cases h
          simp [OwnedServerResult.concerns, hne]
        | _ => cases h
      · intro h
        refine hc ?_
        obtain ⟨result, tag⟩ := o
        cases result with
        | clientDisconnected id addr payload =>
          cases h
          simp [OwnedServerResult.concerns, hne]
        | _ => cases h

/-! ## Soundness of one client -/

/-- What `connected_client_ids` will say about `c`. -/
def Cfg.settled (a : Cfg N R S W) (c : ClientId) : Bool :=
  settles c (a.st.connectedClientIds.has c) a.queue

/-- Netcode has a slot for `c`. -/
def Held (n : N) (c : ClientId) : Prop := NetcodeServer.clientAddr n c ≠ none

/-- Netcode still has `c` if `connected_client_ids` will; a duplicate that is
being rejected is on its way out of both. -/
def Sound (a : Cfg N R S W) (c : ClientId) : Prop :=
  a.frame.ejected ≠ some c → a.settled c = true → Held a.st.netcodeServer c

/-- No failed drain lost a `ClientDisconnected`. -/
def Event.keepsDisconnects : Event → Prop
  | .lost _ results => ∀ r ∈ results, r.disconnects = none
  | _ => True

/-- A duplicate is rejected while another `ClientConnected` of its client waits
only if the trace says so. -/
def EjectInv (a : Cfg N R S W) : Prop :=
  ∀ c, a.frame.ejected = some c → waits c a.st.applying = true → .severed c true ∈ a.st.trace

theorem ejectInv_act {a b : Cfg N R S W} (h : EjectInv a) (hact : Act a b) : EjectInv b := by
  have hmono : ∀ {c : ClientId}, .severed c true ∈ a.st.trace → .severed c true ∈ b.st.trace :=
    fun hm => (trace_suffix hact).subset hm
  cases hact with
  | @takePending s d f happ hbet hg =>
    intro c hc
    rw [hbet.ejected] at hc
    cases hc
  | @take s d f o rest happ hbet =>
    intro c hc
    rw [show f.ejected = none from hbet.ejected] at hc
    cases hc
  | @reject s d f o c addr payload hcur ho hconn hej =>
    intro c' hc hw
    cases hc
    have hw' : waits c s.applying = true := hw
    refine List.mem_cons.2 (.inl ?_)
    rw [hw']
  | @expel s d f c =>
    intro c' hc
    cases hc
  | @release s d f o c addr payload hcur ho =>
    intro c' hc hw
    refine hmono (h c' hc ?_)
    rw [WebRtcState.releaseClient_frame] at hw
    exact hw
  | @settle s d f c r hspec happ hbet hg =>
    intro c' hc hw
    refine hmono (h c' hc ?_)
    rw [WebRtcState.severed_frame] at hw
    exact hw
  | @rollNext s d f c rest r hspec happ hcur hdoom hej hroll hg =>
    intro c' hc hw
    refine hmono (h c' hc ?_)
    rw [WebRtcState.severed_frame] at hw
    exact hw
  | _ => exact fun c hc hw => hmono (h c hc hw)

/-- The client whose end is being handled. -/
def Frame.Ends (f : Frame) (c : ClientId) : Prop :=
  f.doomed = some c ∨ f.ejected = some c ∨ ∃ o, f.current = some o ∧ o.result.disconnects = some c

/-- `c` has a peer, in the map or in hand. -/
def Live (a : Cfg N R S W) (c : ClientId) : Prop :=
  c ∈ a.st.peers ∨ ∃ p, a.drive.hand = some (c, p)

theorem SameClients.held {n n' : N} (h : SameClients n n') {c : ClientId} :
    Held n' c ↔ Held n c := by
  unfold Held
  rw [h c]

theorem SetsClient.held_of_ne {n n' : N} {c c' : ClientId} {addr : Option SocketAddr}
    (h : SetsClient n n' c' addr) (hne : c ≠ c') : Held n' c ↔ Held n c := by
  unfold Held
  rw [h c, if_neg hne]

omit [Rtc R] [RenetServer S] in
/-- The queue, `connected_client_ids` and netcode's table say the same about `c`
as before. -/
theorem Sound.of_eq {a b : Cfg N R S W} {c : ClientId} (h : Sound a c)
    (hej : b.frame.ejected = a.frame.ejected) (hset : b.settled c = true → a.settled c = true)
    (hheld : Held a.st.netcodeServer c → Held b.st.netcodeServer c) : Sound b c :=
  fun he hs => hheld (h (hej ▸ he) (hset hs))

omit [Rtc R] [RenetServer S] in
/-- A result at the end of the queue with the change of netcode's table it
stands for. -/
theorem sound_result {a b : Cfg N R S W} {c : ClientId} {o : Outcome} (h : Sound a c)
    (hej : b.frame.ejected = a.frame.ejected)
    (hset : b.settled c = o.result.leaves c (a.settled c))
    (hsame : o.result.connects ≠ some c → o.result.disconnects ≠ some c →
      (Held a.st.netcodeServer c → Held b.st.netcodeServer c))
    (hconn : o.result.connects = some c → Held b.st.netcodeServer c) : Sound b c := by
  intro he hs
  rw [hset] at hs
  by_cases h1 : o.result.connects = some c
  · exact hconn h1
  · by_cases h2 : o.result.disconnects = some c
    · simp [OwnedServerResult.leaves, h1, h2] at hs
    · rw [leaves_of_ne _ h1 h2] at hs
      exact hsame h1 h2 (h (hej ▸ he) hs)

/-- A packet's result says what it did to netcode's table. -/
theorem PacketSpec.held {n n' : N} {addr : SocketAddr} {r : ServerResult} (h : PacketSpec n n' addr r)
    {c : ClientId} :
    ((toOwnedServerResult r).connects ≠ some c → (toOwnedServerResult r).disconnects ≠ some c →
      (Held n c → Held n' c)) ∧ ((toOwnedServerResult r).connects = some c → Held n' c) := by
  cases r with
  | none => exact ⟨fun _ _ => (SameClients.held h).2, fun hc => by cases hc⟩
  | packetToSend addr' payload => exact ⟨fun _ _ => (SameClients.held h.2).2, fun hc => by cases hc⟩
  | payload id payload => exact ⟨fun _ _ => (SameClients.held h.2).2, fun hc => by cases hc⟩
  | clientConnected id addr' userData payload =>
    refine ⟨fun hne _ => (SetsClient.held_of_ne h.2.2 fun heq => hne ?_).2, fun hc => ?_⟩
    · rw [heq]
      rfl
    · cases hc
      unfold Held
      rw [h.2.2 c, if_pos rfl]
      exact Option.some_ne_none addr
  | clientDisconnected id addr' payload =>
    refine ⟨fun _ hne => (SetsClient.held_of_ne h.2.2 fun heq => hne ?_).2, fun hc => by cases hc⟩
    rw [heq]
    rfl

/-- So does the result of a call for one client. -/
theorem ClientSpec.held {n n' : N} {c' : ClientId} {r : ServerResult} (h : ClientSpec n n' c' r)
    {c : ClientId} (hne : (toOwnedServerResult r).disconnects ≠ some c) : Held n c → Held n' c := by
  cases r with
  | none => exact (SameClients.held h).2
  | packetToSend addr payload => exact (SameClients.held h.2).2
  | clientDisconnected id addr payload =>
    refine (SetsClient.held_of_ne h.2.2 fun heq => hne ?_).2
    rw [heq, ← h.1]
    rfl
  | payload id payload => exact h.elim
  | clientConnected id addr userData payload => exact h.elim

theorem disconnect_none_held {n n' : N} {c : ClientId} {r : ServerResult}
    (h : DisconnectSpec n n' c r) (hr : (toOwnedServerResult r).disconnects ≠ some c) :
    ¬ Held n c := by
  cases r with
  | none => exact fun hn => hn h.1
  | clientDisconnected id addr payload => exact absurd (congrArg some h.1) hr
  | packetToSend addr payload => exact h.elim
  | payload id payload => exact h.elim
  | clientConnected id addr userData payload => exact h.elim

omit [Rtc R] [RenetServer S] in
/-- A call outside a drain is overtaken only by a `ClientConnected` that waits. -/
theorem sound_severed {s : WebRtcState N R S W} {d : Drive R} {f : Frame} (f' : Frame)
    {c c' : ClientId} {r : N × ServerResult} (h : Sound ⟨s, d, f⟩ c)
    (hspec : ClientSpec s.netcodeServer r.1 c' r.2) (happ : s.applying = [])
    (hcur : f.current = none) (hg : d.gathered = [])
    (hcur' : f'.current = some (s.severedOutcome c' r)) (hej : f'.ejected = f.ejected) :
    Sound ⟨s.severed r, d, f'⟩ c ∨ .severed c true ∈ (s.severed r).trace ∧ f'.Ends c := by
  by_cases hd : (toOwnedServerResult r.2).disconnects = some c
  · cases hw : waits c s.pendingServerResults with
    | true =>
      refine .inr ⟨?_, .inr (.inr ⟨_, hcur', hd⟩)⟩
      rw [WebRtcState.severed_trace, hd]
      exact List.mem_cons.2 (.inl (by rw [hw]))
    | false =>
      refine .inl fun _ hs => ?_
      rw [WebRtcState.severed_frame] at hs
      simp only [Cfg.settled, Cfg.queue, hcur', happ, hg, Option.toList_some, List.append_nil,
        List.cons_append, List.nil_append, settles_cons] at hs
      rw [show (s.severedOutcome c' r).result.leaves c (s.connectedClientIds.has c) = false by
        simp [OwnedServerResult.leaves, WebRtcState.severedOutcome, hd, hspec.quiet]] at hs
      rw [settles_false hw] at hs
      cases hs
  · refine .inl (h.of_eq hej (fun hs => ?_) fun hh => ?_)
    · rw [WebRtcState.severed_frame] at hs
      simp only [Cfg.settled, Cfg.queue, hcur, hcur', happ, hg, Option.toList_some,
        Option.toList_none, List.append_nil, List.cons_append, List.nil_append, settles_cons] at hs ⊢
      rwa [leaves_of_ne] at hs
      · intro hc
        rw [show (s.severedOutcome c' r).result.connects = none from hspec.quiet] at hc
        cases hc
      · exact hd
    · rw [WebRtcState.severed_frame]
      exact hspec.held hd hh

omit [NetcodeServer N] [Rtc R] in
/-- Handling a `ClientConnected` does what the replay says. -/
theorem leaves_connected (s : WebRtcState N R S W) (c c' : ClientId) (addr : SocketAddr)
    (payload : Bytes) (tag : Tag) :
    (s.admitClient c' addr tag).connectedClientIds.has c =
      (OwnedServerResult.clientConnected c' addr payload).leaves c (s.connectedClientIds.has c) := by
  rw [Bool.eq_iff_iff]
  by_cases hcc : c = c'
  · subst hcc
    simp [OwnedServerResult.leaves, OwnedServerResult.connects, WebRtcState.admitClient,
      WebRtcState.log, HashMap.mem_insert]
  · simp [OwnedServerResult.leaves, OwnedServerResult.connects, OwnedServerResult.disconnects,
      WebRtcState.admitClient, WebRtcState.log, HashMap.mem_insert, hcc, Ne.symm hcc]

omit [NetcodeServer N] [Rtc R] in
/-- So does handling a `ClientDisconnected`. -/
theorem leaves_disconnected (s : WebRtcState N R S W) (c c' : ClientId) (addr : SocketAddr)
    (payload : Option Bytes) :
    (OwnedServerResult.clientDisconnected c' addr payload).leaves c (s.connectedClientIds.has c) =
      (s.releaseClient c' addr).connectedClientIds.has c := by
  rw [Bool.eq_iff_iff]
  by_cases hcc : c = c'
  · subst hcc
    simp [OwnedServerResult.leaves, OwnedServerResult.connects, OwnedServerResult.disconnects,
      WebRtcState.mem_connected_releaseClient]
  · simp [OwnedServerResult.leaves, OwnedServerResult.connects, OwnedServerResult.disconnects,
      WebRtcState.mem_connected_releaseClient, hcc, Ne.symm hcc]

omit [NetcodeServer N] [Rtc R] [RenetServer S] in
/-- The result in hand is handled and `connected_client_ids` follows it. -/
theorem settled_handled (s s' : WebRtcState N R S W) {d : Drive R} {f g : Frame} {o : Outcome}
    {c : ClientId} (hcur : f.current = some o) (hcur' : g.current = none)
    (happ : s'.applying = s.applying) (hpend : s'.pendingServerResults = s.pendingServerResults)
    (hhas : s'.connectedClientIds.has c = o.result.leaves c (s.connectedClientIds.has c)) :
    Cfg.settled ⟨s', d, g⟩ c = Cfg.settled ⟨s, d, f⟩ c := by
  simp only [Cfg.settled, Cfg.queue, hcur, hcur', happ, hpend, hhas, Option.toList_none,
    Option.toList_some, settles_append, settles_nil, settles_cons]

omit [Rtc R] [RenetServer S] in
/-- `remove_peer` of another client. -/
theorem settled_expelled {s : WebRtcState N R S W} {d : Drive R} {f g : Frame} {c c₁ : ClientId}
    (hcc : c ≠ c₁) (hcur : g.current = f.current) :
    Cfg.settled ⟨s.expelled c₁, d, g⟩ c = Cfg.settled ⟨s, d, f⟩ c := by
  have hhas : (s.expelled c₁).connectedClientIds.has c = s.connectedClientIds.has c := by
    rw [Bool.eq_iff_iff]
    simp [WebRtcState.mem_connected_expelled, hcc]
  simp only [Cfg.settled, Cfg.queue, WebRtcState.expelled_applying, WebRtcState.expelled_pending,
    settles_append, settles_filter hcc, hhas, hcur]

theorem sound_act [LawfulNetcode N] {a b : Cfg N R S W} {c : ClientId} (he : EjectInv a)
    (h : Sound a c) (hact : Act a b) (hok : ∀ e ∈ b.st.trace, e.keepsDisconnects) :
    Sound b c ∨ .severed c true ∈ b.st.trace ∧ (b.frame.Ends c ∨ ¬ Live b c) := by
  cases hact with
  | @tick s d f n hn => exact .inl (h.of_eq rfl (fun hs => hs) (SameClients.held hn).2)
  | @process s d f c₁ c₂ p packet r hhand hparcel hc hr hid =>
    have hs := LawfulNetcode.processPacket s.netcodeServer p.virtualAddr packet.bytes
    rw [← hr] at hs
    obtain ⟨h1, h2⟩ := hs.held (c := c)
    refine .inl (sound_result (o := ⟨toOwnedServerResult r.2, packet.tag⟩) h rfl ?_ h1 h2)
    simp only [Cfg.settled, Cfg.queue, WebRtcState.log, settles_append, settles_cons, settles_nil]
  | @processForeign s d f c₁ c₂ id p packet r hhand hparcel hc hr hid hne =>
    have hs := LawfulNetcode.processPacket s.netcodeServer p.virtualAddr packet.bytes
    rw [← hr] at hs
    obtain ⟨n', result⟩ := r
    cases result with
    | clientConnected id' addr userData payload =>
      cases hid
      refine .inl (h.of_eq rfl (fun hs => hs) fun hheld => ?_)
      have hcid : c ≠ id := fun heq => hheld (heq ▸ hs.2.1)
      exact (SetsClient.held_of_ne (setsClient_disconnect n' id) hcid).2
        ((SetsClient.held_of_ne hs.2.2 hcid).2 hheld)
    | _ => cases hid
  | @commit s d f hf =>
    refine .inl (h.of_eq rfl (fun hs => ?_) fun hh => hh)
    simpa only [Cfg.settled, Cfg.queue, settles_append, settles_nil] using hs
  | @lose s d f c₁ p hhand =>
    refine .inl (h.of_eq rfl (fun hs => ?_) fun hh => hh)
    have hlost := hok _ List.mem_cons_self
    simp only [Cfg.settled, Cfg.queue, settles_append, settles_nil, WebRtcState.log] at hs ⊢
    rw [hs]
    refine settles_true fun o ho => ?_
    rw [hlost o.result (List.mem_map_of_mem ho)]
    exact fun hc => by cases hc
  | @tearDown s d f c₁ p hhand hg hd =>
    have hspec := LawfulNetcode.disconnect s.netcodeServer c₁
    set r := NetcodeServer.disconnect s.netcodeServer c₁ with hr
    refine .inl (sound_result (o := ⟨toOwnedServerResult r.2, s.tagNow c₁⟩) h rfl ?_ ?_ ?_)
    · simp only [Cfg.settled, Cfg.queue, WebRtcState.tornDown, WebRtcState.dropRoutes, hg, ← hr,
        settles_append, settles_cons, settles_nil, WebRtcState.tagNow]
    · exact fun _ h2 hh => hspec.clientSpec.held h2 hh
    · intro hc
      rw [show (toOwnedServerResult r.2).connects = none from hspec.clientSpec.quiet] at hc
      cases hc
  | @takePending s d f happ hbet hg =>
    refine .inl (h.of_eq rfl (fun hs => ?_) fun hh => hh)
    simpa only [Cfg.settled, Cfg.queue, happ, hg, settles_append, settles_nil] using hs
  | @take s d f o rest happ hbet =>
    refine .inl (h.of_eq rfl (fun hs => ?_) fun hh => hh)
    simpa only [Cfg.settled, Cfg.queue, happ, hbet.current, Option.toList_none, Option.toList_some,
      settles_append, settles_nil, settles_cons] using hs
  | @dismiss s d f o hcur h1 h2 =>
    refine .inl (h.of_eq rfl (fun hs => ?_) fun hh => hh)
    refine Eq.trans (Eq.symm (settled_handled s s hcur rfl rfl rfl ?_)) hs
    exact (leaves_of_ne _ (by simp [h1]) (by simp [h2])).symm
  | @route s d f o addr payload hcur ho hhand =>
    refine .inl (h.of_eq rfl (fun hs => ?_) fun hh => hh)
    refine Eq.trans (Eq.symm (settled_handled s _ hcur rfl rfl rfl ?_)) hs
    rw [ho]
    rfl
  | @deliver s d f o c₁ payload hcur ho =>
    refine .inl (h.of_eq rfl (fun hs => ?_) fun hh => hh)
    refine Eq.trans (Eq.symm (settled_handled s _ hcur rfl rfl rfl ?_)) hs
    rw [ho]
    rfl
  | @connect s d f o c₁ addr payload hcur ho hconn =>
    refine .inl (h.of_eq rfl (fun hs => ?_) fun hh => hh)
    refine Eq.trans (Eq.symm (settled_handled s (s.admitClient c₁ addr o.tag) hcur rfl rfl rfl ?_)) hs
    rw [ho, leaves_connected]
  | @reject s d f o c₁ addr payload hcur ho hconn hej =>
    refine .inl fun hne hs => ?_
    have hcc : c ≠ c₁ := fun heq => hne (by rw [heq])
    refine (SetsClient.held_of_ne (setsClient_disconnect s.netcodeServer c₁) hcc).2 (h (by simp [hej]) ?_)
    refine Eq.trans (Eq.symm (settled_handled s (s.disconnectDuplicate c₁) hcur rfl rfl rfl ?_)) hs
    rw [ho, leaves_of_ne]
    · rfl
    · exact fun heq => hcc (Option.some.inj heq).symm
    · exact fun heq => by cases heq
  | @expel s d f c₁ hej hhand hg hd hcur =>
    by_cases hcc : c = c₁
    · subst hcc
      by_cases hw : waits c s.applying = true
      · have hej' : f.ejected = some c := by
          rcases hej with hej | ⟨_, happ⟩
          · exact hej
          · rw [happ] at hw
            cases hw
        refine .inr ⟨?_, .inr ?_⟩
        · rw [WebRtcState.expelled_toShared]
          exact List.mem_cons_of_mem _ (he c hej' hw)
        · rintro (hl | ⟨p, hl⟩)
          · rw [WebRtcState.expelled_peers] at hl
            exact (HashMap.mem_remove.1 hl).1 rfl
          · rw [hhand] at hl
            cases hl
      · refine .inl fun _ hs => ?_
        have hout : c ∉ (s.expelled c).connectedClientIds := fun hc =>
          (WebRtcState.mem_connected_expelled.1 hc).1 rfl
        have hpend := WebRtcState.waits_filter c s.pendingServerResults
        have hout' : (s.expelled c).connectedClientIds.has c = false :=
          Bool.eq_false_iff.2 fun hc => hout (HashMap.has_iff.1 hc)
        simp only [Cfg.settled, Cfg.queue, hcur, hg, hout', Option.toList_none, settles_append,
          settles_nil, WebRtcState.expelled_applying, WebRtcState.expelled_pending,
          settles_false (Bool.not_eq_true _ ▸ hw), settles_false hpend] at hs
        cases hs
    · refine .inl fun _ hs => ?_
      rw [WebRtcState.expelled_netcodeServer]
      refine (SetsClient.held_of_ne (setsClient_disconnect s.netcodeServer c₁) hcc).2 (h ?_ ?_)
      · rcases hej with hej | ⟨hej, _⟩
        · exact fun heq => hcc (Option.some.inj (heq.symm.trans hej))
        · exact fun heq => by rw [show f.ejected = none from hej] at heq; cases heq
      · rwa [settled_expelled hcc rfl] at hs
  | @release s d f o c₁ addr payload hcur ho =>
    refine .inl (h.of_eq rfl (fun hs => ?_) fun hh => ?_)
    · have happ : (s.releaseClient c₁ addr).applying = s.applying := by
        rw [WebRtcState.releaseClient_frame]
      have hpend : (s.releaseClient c₁ addr).pendingServerResults = s.pendingServerResults := by
        rw [WebRtcState.releaseClient_frame]
      rwa [settled_handled s _ hcur rfl happ hpend (by rw [ho, leaves_disconnected])] at hs
    · rw [WebRtcState.releaseClient_frame]
      exact hh
  | @settle s d f c₁ r hspec happ hbet hg =>
    rcases sound_severed { f with current := some (s.severedOutcome c₁ r) } h hspec happ
      hbet.current hg rfl rfl with h | ⟨h1, h2⟩
    · exact .inl h
    · exact .inr ⟨h1, .inl h2⟩
  | @rollNext s d f c₁ rest r hspec happ hcur hdoom hej hroll hg =>
    rcases sound_severed { f with current := some (s.severedOutcome c₁ r), roll := some rest } h
      hspec.clientSpec happ hcur hg rfl rfl with h | ⟨h1, h2⟩
    · exact .inl h
    · exact .inr ⟨h1, .inl h2⟩
  | _ => exact .inl (h.of_eq rfl (fun hs => hs) fun hh => hh)

/-! ## The way out -/

/-- The `ClientDisconnected` of `c` is on its way to the handler. -/
def Farewell (c : ClientId) (a : Cfg N R S W) : Prop := ∃ o ∈ a.queue, o.result.disconnects = some c

omit [NetcodeServer N] [Rtc R] [RenetServer S] in
/-- The result at hand is handled and does not disconnect `c`. -/
theorem mem_queue_handled {a b : Cfg N R S W} {c : ClientId} {o o' : Outcome} (ho' : o' ∈ a.queue)
    (hd : o'.result.disconnects = some c) (hcur : a.frame.current = some o)
    (hne : o.result.disconnects ≠ some c) (happ : b.st.applying = a.st.applying)
    (hpend : b.st.pendingServerResults = a.st.pendingServerResults)
    (hgath : b.drive.gathered = a.drive.gathered) : o' ∈ b.queue := by
  rw [Cfg.mem_queue] at ho' ⊢
  rw [happ, hpend, hgath]
  rcases ho' with ho' | ho'
  · rw [hcur] at ho'
    cases ho'
    exact absurd hd hne
  · exact .inr ho'

/-- It leaves the queue only when `c` leaves `connected_client_ids`. -/
theorem farewell_act {c : ClientId} {a b : Cfg N R S W} (h : Farewell c a) (hact : Act a b)
    (hok : ∀ e ∈ b.st.trace, e.keepsDisconnects) :
    Farewell c b ∨ c ∉ b.st.connectedClientIds := by
  obtain ⟨o, ho, hdis⟩ := h
  have hkeep : (o ∈ a.queue → o ∈ b.queue) → Farewell c b ∨ c ∉ b.st.connectedClientIds :=
    fun hq => .inl ⟨o, hq ho, hdis⟩
  cases hact with
  | @process s d f c₁ c₂ p packet r hhand hparcel hc hr hid =>
    refine hkeep fun ho => ?_
    rw [Cfg.mem_queue] at ho ⊢
    exact ho.imp_right (Or.imp_right (Or.imp_right (List.mem_append_left _)))
  | @commit s d f hf =>
    refine hkeep fun ho => ?_
    rw [Cfg.mem_queue] at ho ⊢
    exact ho.imp_right (Or.imp_right fun h => .inl (List.mem_append.2 h))
  | @lose s d f c₁ p hhand =>
    have hlost := hok _ List.mem_cons_self
    refine hkeep fun ho => ?_
    rw [Cfg.mem_queue] at ho ⊢
    rcases ho with ho | ho | ho | ho
    · exact .inl ho
    · exact .inr (.inl ho)
    · exact .inr (.inr (.inl ho))
    · rw [hlost o.result (List.mem_map_of_mem ho)] at hdis
      cases hdis
  | @tearDown s d f c₁ p hhand hgath hd =>
    refine hkeep fun ho => ?_
    rw [Cfg.mem_queue] at ho ⊢
    exact ho.imp_right (Or.imp_right (Or.imp_left (List.mem_append_left _)))
  | @takePending s d f happ hbet hgath =>
    refine hkeep fun ho => ?_
    rw [Cfg.mem_queue] at ho ⊢
    simp only [happ, hgath, List.not_mem_nil, false_or, or_false] at ho ⊢
    exact ho
  | @take s d f o₁ rest happ hbet =>
    refine hkeep fun ho => ?_
    rw [Cfg.mem_queue] at ho ⊢
    rcases ho with ho | ho | ho
    · rw [show f.current = none from hbet.current] at ho
      cases ho
    · rw [happ] at ho
      rcases List.mem_cons.1 ho with rfl | ho
      · exact .inl rfl
      · exact .inr (.inl ho)
    · exact .inr (.inr ho)
  | @dismiss s d f o₁ hcur h1 h2 =>
    exact hkeep fun ho => mem_queue_handled ho hdis hcur (by simp [h2]) rfl rfl rfl
  | @route s d f o₁ addr payload hcur ho₁ hhand =>
    have hne : o₁.result.disconnects ≠ some c := by simp [ho₁, OwnedServerResult.disconnects]
    exact hkeep fun ho => mem_queue_handled ho hdis hcur hne rfl rfl rfl
  | @deliver s d f o₁ c₁ payload hcur ho₁ =>
    have hne : o₁.result.disconnects ≠ some c := by simp [ho₁, OwnedServerResult.disconnects]
    exact hkeep fun ho => mem_queue_handled ho hdis hcur hne rfl rfl rfl
  | @connect s d f o₁ c₁ addr payload hcur ho₁ hconn =>
    have hne : o₁.result.disconnects ≠ some c := by simp [ho₁, OwnedServerResult.disconnects]
    exact hkeep fun ho => mem_queue_handled ho hdis hcur hne rfl rfl rfl
  | @reject s d f o₁ c₁ addr payload hcur ho₁ hconn hej =>
    have hne : o₁.result.disconnects ≠ some c := by simp [ho₁, OwnedServerResult.disconnects]
    exact hkeep fun ho => mem_queue_handled ho hdis hcur hne rfl rfl rfl
  | @expel s d f c₁ hej hhand hgath hd hcur =>
    by_cases hcc : c = c₁
    · exact .inr fun hc => (WebRtcState.mem_connected_expelled.1 hc).1 hcc
    · refine hkeep fun ho => ?_
      rw [Cfg.mem_queue] at ho ⊢
      simp only [WebRtcState.expelled_applying, WebRtcState.expelled_pending]
      refine ho.imp_right (Or.imp_right (Or.imp_left fun ho => List.mem_filter.2 ⟨ho, ?_⟩))
      obtain ⟨result, tag⟩ := o
      cases result with
      | clientDisconnected id addr payload =>
        cases hdis
        simp [OwnedServerResult.concerns, hcc]
      | _ => cases hdis
  | @release s d f o₁ c₁ addr payload hcur ho₁ =>
    by_cases hcc : c = c₁
    · exact .inr fun hc => (WebRtcState.mem_connected_releaseClient.1 hc).1 hcc
    · have hne : o₁.result.disconnects ≠ some c := by
        simp [ho₁, OwnedServerResult.disconnects, Ne.symm hcc]
      refine hkeep fun ho => mem_queue_handled ho hdis hcur hne ?_ ?_ rfl
      · rw [WebRtcState.releaseClient_frame]
      · rw [WebRtcState.releaseClient_frame]
  | @settle s d f c₁ r hspec happ hbet hgath =>
    rw [WebRtcState.severed_frame] at hkeep ⊢
    refine hkeep fun ho => ?_
    rw [Cfg.mem_queue] at ho ⊢
    refine .inr (ho.resolve_left fun hc => ?_)
    rw [show f.current = none from hbet.current] at hc
    cases hc
  | @rollNext s d f c₁ rest r hspec happ hcur hdoom hej hroll hgath =>
    rw [WebRtcState.severed_frame] at hkeep ⊢
    refine hkeep fun ho => ?_
    rw [Cfg.mem_queue] at ho ⊢
    refine .inr (ho.resolve_left fun hc => ?_)
    rw [show f.current = none from hcur] at hc
    cases hc
  | _ => exact hkeep fun ho => ho

/-- The removal of `c` from the `RenetServer` was made since `g`, or is listed. -/
def Parting (c : ClientId) (g : Nat) (a : Cfg N R S W) : Prop :=
  RemovedSince c g a.st.trace ∨ c ∈ a.frame.removing ∨ c ∈ a.st.pendingRenetRemovals

theorem parting_act {c : ClientId} {g : Nat} {a b : Cfg N R S W} (hg : g ≤ a.st.trace.length)
    (h : Parting c g a) (hact : Act a b) : Parting c g b := by
  rcases h with ⟨entry, h⟩ | h
  · exact .inl ⟨entry, h.mono (trace_suffix hact)⟩
  cases hact with
  | @expel s d f c₁ =>
    exact .inr (h.imp_right fun h => WebRtcState.mem_removals_expelled.2 (.inl h))
  | @release s d f o c₁ addr payload hcur ho => rw [WebRtcState.releaseClient_frame]; exact .inr h
  | @settle s d f c₁ r hspec happ hbet hgath => rw [WebRtcState.severed_frame]; exact .inr h
  | @rollNext s d f c₁ rest r hspec happ hcur hdoom hej hroll hgath =>
    rw [WebRtcState.severed_frame]; exact .inr h
  | @sweep s d f ids hids hrem =>
    rcases h with h | h
    · rw [show f.removing = [] from hrem] at h
      exact absurd h List.not_mem_nil
    · exact .inr (.inl ((hids c).2 h))
  | @removeNext s d f c₁ rest hrest =>
    rcases h with h | h
    · rw [show f.removing = c₁ :: rest from hrest] at h
      rcases List.mem_cons.1 h with rfl | h
      · exact .inl ⟨_, [], s.trace, rfl, hg⟩
      · exact .inr (.inl h)
    · exact .inr (.inr h)
  | _ => exact .inr h

/-- A client leaves `connected_client_ids` with its removal made or listed. -/
theorem connected_act {c : ClientId} {g : Nat} {a b : Cfg N R S W} (hg : g ≤ a.st.trace.length)
    (h : c ∈ a.st.connectedClientIds) (hact : Act a b) :
    c ∈ b.st.connectedClientIds ∨ Parting c g b := by
  cases hact with
  | @connect s d f o c₁ addr payload hcur ho hconn => exact .inl (HashMap.mem_insert.2 (.inr h))
  | @expel s d f c₁ =>
    by_cases hcc : c = c₁
    · exact .inr (.inr (.inr (WebRtcState.mem_removals_expelled.2 (.inr ⟨hcc, hcc ▸ h⟩))))
    · exact .inl (WebRtcState.mem_connected_expelled.2 ⟨hcc, h⟩)
  | @release s d f o c₁ addr payload hcur ho =>
    by_cases hcc : c = c₁
    · subst hcc
      rcases s.releaseClient_cases c addr with ⟨_, _, ht⟩ | ⟨hnc, _, _⟩
      · exact .inr (.inl ⟨_, [], s.trace, ht, hg⟩)
      · exact absurd h hnc
    · exact .inl (WebRtcState.mem_connected_releaseClient.2 ⟨hcc, h⟩)
  | @settle s d f c₁ r hspec happ hbet hgath => rw [WebRtcState.severed_frame]; exact .inl h
  | @rollNext s d f c₁ rest r hspec happ hcur hdoom hej hroll hgath =>
    rw [WebRtcState.severed_frame]; exact .inl h
  | _ => exact .inl h

/-- The removal of `c` was made, or is on its way: listed, or in the queue. -/
def Leaving (c : ClientId) (g : Nat) (a : Cfg N R S W) : Prop :=
  Parting c g a ∨ c ∈ a.st.connectedClientIds ∧ Farewell c a

theorem leaving_act {c : ClientId} {g : Nat} {a b : Cfg N R S W} (hg : g ≤ a.st.trace.length)
    (h : Leaving c g a) (hact : Act a b) (hok : ∀ e ∈ b.st.trace, e.keepsDisconnects) :
    Leaving c g b := by
  rcases h with h | ⟨hc, hf⟩
  · exact .inl (parting_act hg h hact)
  · rcases connected_act hg hc hact with hc | hp
    · exact .inr ⟨hc, (farewell_act hf hact hok).resolve_right fun hn => hn hc⟩
    · exact .inl hp

/-! ## Runs -/

/-- Neither of the two things that lose a connection. -/
def Event.Orderly (e : Event) : Prop := e.keepsDisconnects ∧ ∀ c, e ≠ .severed c true

def Event.isOrderly : Event → Bool
  | .lost _ results => results.all fun r => r.disconnects = none
  | .severed _ stale => !stale
  | _ => true

theorem Event.isOrderly_iff {e : Event} : e.isOrderly = true ↔ e.Orderly := by
  cases e with
  | lost c results => simp [isOrderly, Orderly, keepsDisconnects]
  | severed c stale => simp [isOrderly, Orderly, keepsDisconnects]
  | _ => simp [isOrderly, Orderly, keepsDisconnects]

theorem orderly_before {a b : Cfg N R S W} (hact : Act a b) (h : ∀ e ∈ b.st.trace, e.Orderly) :
    ∀ e ∈ a.st.trace, e.Orderly := fun e he => h e ((trace_suffix hact).subset he)

omit [Rtc R] [RenetServer S] in
theorem sound_fresh {s : WebRtcState N R S W} (hs : s.Fresh) (c : ClientId) :
    EjectInv ⟨s, {}, {}⟩ ∧ Sound ⟨s, {}, {}⟩ c := by
  obtain ⟨n, addr, shared, rfl, _⟩ := hs
  exact ⟨fun c hc => (by cases hc), fun _ h => (by cases h)⟩

variable [World W] [LawfulRtc R] [LawfulNetcode N] [LawfulWorld W]

theorem sound_reachable {s : WebRtcState N R S W} (h : (WebRtcState.runs N R S W).Reachable s)
    (hok : ∀ e ∈ s.trace, e.Orderly) (c : ClientId) : Sound ⟨s, {}, {}⟩ c := by
  refine ((WebRtcState.reachable_invariant (I := fun a : Cfg N R S W => EjectInv a ∧
    ((∀ e ∈ a.st.trace, e.Orderly) → Sound a c)) (fun s hs => ?_) (fun a b hi hact => ?_)
    (fun s server hi => ?_) h).1.2) hok
  · exact ⟨(sound_fresh hs c).1, fun _ => (sound_fresh hs c).2⟩
  · refine ⟨ejectInv_act hi.1 hact, fun hb => ?_⟩
    rcases sound_act hi.1 (hi.2 (orderly_before hact hb)) hact fun e he => (hb e he).1 with h | ⟨h, _⟩
    · exact h
    · exact absurd rfl ((hb _ h).2 c)
  · exact ⟨hi.1, fun hb => (hi.2 hb).of_eq rfl (fun hs => hs) fun hh => hh⟩

theorem leaving_run {s s' : WebRtcState N R S W} {ops : List (WebRtcState.Op R S)}
    (hrun : (WebRtcState.runs N R S W).Run s ops s') (hs : s.applying = [])
    (hok : ∀ e ∈ s'.trace, e.Orderly) {c : ClientId} (h : Leaving c s.trace.length ⟨s, {}, {}⟩) :
    Leaving c s.trace.length ⟨s', {}, {}⟩ := by
  refine ((WebRtcState.run_invariant (I := fun a : Cfg N R S W => s.trace.length ≤ a.st.trace.length ∧
    ((∀ e ∈ a.st.trace, e.Orderly) → Leaving c s.trace.length a)) (fun a b hi hact => ?_)
    (fun s server hi => hi) hrun hs ⟨Nat.le_refl _, fun _ => h⟩).1.2) hok
  refine ⟨hi.1.trans (trace_suffix hact).length_le, fun hb => ?_⟩
  exact leaving_act hi.1 (hi.2 (orderly_before hact hb)) hact fun e he => (hb e he).1

/-- In every run in which no failed drain loses a `ClientDisconnected` and netcode
lets no client go whose `ClientConnected` still waits: each id of
`connected_client_ids` is connected in netcode or its `ClientDisconnected` waits;
and one that netcode has dropped is removed from the `RenetServer` by the time the
queue is empty, or is listed for removal. -/
theorem connection_never_leaks {s : WebRtcState N R S W}
    (h : (WebRtcState.runs N R S W).Reachable s) (hok : ∀ e ∈ s.trace, e.Orderly) :
    (∀ c ∈ s.connectedClientIds, NetcodeServer.clientAddr s.netcodeServer c ≠ none ∨
      ∃ o ∈ s.pendingServerResults, o.result.disconnects = some c) ∧
    ∀ ops s', (WebRtcState.runs N R S W).Run s ops s' → (∀ e ∈ s'.trace, e.Orderly) →
      s'.pendingServerResults = [] → ∀ c ∈ s.connectedClientIds,
      NetcodeServer.clientAddr s.netcodeServer c = none →
      RemovedSince c s.trace.length s'.trace ∨ c ∈ s'.pendingRenetRemovals := by
  have happ := (identityInv_reachable h).2
  have hfirst : ∀ c ∈ s.connectedClientIds, NetcodeServer.clientAddr s.netcodeServer c ≠ none ∨
      ∃ o ∈ s.pendingServerResults, o.result.disconnects = some c := by
    intro c hc
    by_cases hd : ∃ o ∈ s.pendingServerResults, o.result.disconnects = some c
    · exact .inr hd
    · refine .inl (sound_reachable h hok c (fun he => by cases he) ?_)
      simp only [Cfg.settled, Cfg.queue, happ, HashMap.has_iff.2 hc, Option.toList_none,
        List.nil_append, List.append_nil]
      exact settles_true fun o ho hdis => hd ⟨o, ho, hdis⟩
  refine ⟨hfirst, fun ops s' hrun hok' hpend c hc hfree => ?_⟩
  obtain ⟨o, ho, hdis⟩ := (hfirst c hc).resolve_left fun hne => hne hfree
  have hleave : Leaving c s.trace.length ⟨s, {}, {}⟩ :=
    .inr ⟨hc, o, Cfg.mem_queue.2 (.inr (.inr (.inl ho))), hdis⟩
  have happ' := (identityInv_reachable (h.run hrun)).2
  rcases leaving_run hrun happ hok' hleave with (hl | hl | hl) | ⟨_, o', ho', _⟩
  · exact .inl hl
  · exact absurd hl List.not_mem_nil
  · exact .inr hl
  · rw [Cfg.mem_queue] at ho'
    simp only [happ', hpend, List.not_mem_nil, or_false] at ho'
    cases ho'

/-- A client connects and stays: the run is orderly, and netcode has the client. -/
theorem connection_never_leaks_handshake : ∃ s : Demo,
    (WebRtcState.runs Table Script Connections Sockets).Reachable s ∧
    (∀ e ∈ s.trace, e.Orderly) ∧ 1 ∈ s.connectedClientIds ∧
    (NetcodeServer.clientAddr s.netcodeServer 1 ≠ none ∨
      ∃ o ∈ s.pendingServerResults, o.result.disconnects = some 1) := by
  obtain ⟨s, hs, hp⟩ := demo_any { webRtc := [([1], lan 11)] }
    [.addPeer 1 { name := 1, onInput := [[opens, brings [1, 1]]] }, .update 9 0 0]
    (P := fun s => s.connectedClientIds.has 1 && s.trace.all Event.isOrderly) (by decide +kernel)
  rw [Bool.and_eq_true, HashMap.has_iff, List.all_eq_true] at hp
  have hok : ∀ e ∈ s.trace, e.Orderly := fun e he => Event.isOrderly_iff.1 (hp.2 e he)
  exact ⟨s, demo_reachable hs, hok, hp.1, (connection_never_leaks (demo_reachable hs) hok).1 1 hp.1⟩

/-- The drain after the second datagram brings the client's disconnect packet and
then fails: the client stays in `connected_client_ids` for good. -/
theorem failed_drain_leaks_connection : ∃ s : Demo,
    (WebRtcState.runs Table Script Connections Sockets).Reachable s ∧ 1 ∈ s.connectedClientIds ∧
    NetcodeServer.clientAddr s.netcodeServer 1 = none ∧
    ¬ ∃ o ∈ s.pendingServerResults, o.result.disconnects = some 1 := by
  obtain ⟨s, hs, hp⟩ := demo_any { webRtc := [([1], lan 11), ([1], lan 11)] }
    [.addPeer 1 {
        name := 1
        onInput := [[opens, brings [1, 1]], [brings [2], .error .other]] }, .update 9 0 0]
    (P := fun s => s.connectedClientIds.has 1 &&
      (NetcodeServer.clientAddr s.netcodeServer 1).isNone && s.pendingServerResults.isEmpty)
    (by decide +kernel)
  rw [Bool.and_eq_true, Bool.and_eq_true, HashMap.has_iff, Option.isNone_iff_eq_none,
    List.isEmpty_iff] at hp
  refine ⟨s, demo_reachable hs, hp.1.1, hp.1.2, fun ⟨o, ho, _⟩ => ?_⟩
  rw [hp.2] at ho
  exact absurd ho List.not_mem_nil

end RenetCross.L4
