import RenetCross.L4App.SdpHook

/-!
# The front door of a WebRTC server

The bootstrap service and the WebRTC transport together: sessions are created and
offers claimed by any number of threads (`Threads`), the hook registers the peers of
claimed offers, and in between the server drives the transport. A peer comes in
through the hook only; `add_peer` is not called from elsewhere.

A call holds the transport from its claim to the end of the hook. Here anything may
run in between, which only adds runs.

`admissions` records the offers that were answered, the latest first, each with the
limit the hook read.
-/
namespace RenetCross.L4

open RenetCross.L2 RenetCross.L3

structure Admission where
  call : Nat
  clientId : ClientId
  session : Nat
  limit : Nat
  deriving DecidableEq, Repr

structure FrontDoor (A N R S W : Type) where
  calls : Threads A
  transport : WebRtcState N R S W
  admissions : List Admission

inductive DoorStep (R S : Type) where
  | service (l : ThreadStep)
  /-- call `k` goes on from its claim to the hook -/
  | hook (k : Nat) (config : SdpHttpHookConfig) (now : Nat)
  | transport (op : WebRtcState.Op R S)
  | setMaxClients (limit : Nat)

namespace FrontDoor

variable {A N R S W : Type} [SessionIdAllocator A] [World W] [NetcodeServer N] [ClientLimit N] [Rtc R]
  [RenetServer S]

/-- The offer of call `k`, which has claimed session `n`, goes through the hook. -/
def enterHook (host : Host) (lib : Signaling R) (s : FrontDoor A N R S W) (k : Nat) (c : ClientId)
    (n : Nat) (offer : BootstrapService.SdpHttpOfferRequest) (config : SdpHttpHookConfig) (now : Nat) :
    Option (FrontDoor A N R S W) :=
  let r := s.transport.acceptOfferAndAddPeer lib c offer config now
  (s.calls.step host (.process k r.2.isOk)).map fun calls =>
    { calls := calls
      transport := r.1
      admissions := if r.2.isOk then ⟨k, c, n, s.transport.maxClients⟩ :: s.admissions else s.admissions }

def step (host : Host) (lib : Signaling R) (s : FrontDoor A N R S W) :
    DoorStep R S → Option (FrontDoor A N R S W)
  | .service (.process _ _) => none
  | .service l => (s.calls.step host l).map fun calls => { s with calls := calls }
  | .hook k config now =>
    match s.calls.threads[k]? with
    | some ⟨.acceptOffer _ c offer, .claimed _ n⟩ => s.enterHook host lib k c n offer config now
    | _ => none
  | .transport (.addPeer _ _) => none
  | .transport op => (s.transport.step op).map fun t => { s with transport := t }
  | .setMaxClients limit => some { s with transport := s.transport.setMaxClients limit }

/-- The four things a step can be. -/
theorem step_cases {host : Host} {lib : Signaling R} {s t : FrontDoor A N R S W} {l : DoorStep R S}
    (h : s.step host lib l = some t) :
    (∃ l' calls, l = .service l' ∧ (∀ k ok, l' ≠ .process k ok) ∧
      s.calls.step host l' = some calls ∧ t = { s with calls := calls }) ∨
    (∃ k c c' n policy offer config now, l = .hook k config now ∧
      s.calls.threads[k]? = some ⟨.acceptOffer policy c offer, .claimed c' n⟩ ∧
      s.enterHook host lib k c n offer config now = some t) ∨
    (∃ op u, l = .transport op ∧ (∀ c rtc, op ≠ .addPeer c rtc) ∧ s.transport.step op = some u ∧
      t = { s with transport := u }) ∨
    ∃ limit, l = .setMaxClients limit ∧ t = { s with transport := s.transport.setMaxClients limit } := by
  cases l with
  | service l =>
    refine .inl ?_
    have hl : ∀ k ok, l ≠ .process k ok := by rintro k ok rfl; cases h
    have heq : s.step host lib (.service l) =
        (s.calls.step host l).map fun calls => { s with calls := calls } := by
      cases l with
      | process k ok => exact absurd rfl (hl k ok)
      | _ => rfl
    obtain ⟨calls, hcalls, rfl⟩ := Option.map_eq_some_iff.1 (heq ▸ h)
    exact ⟨l, calls, rfl, hl, hcalls, rfl⟩
  | hook k config now =>
    refine .inr (.inl ?_)
    simp only [step] at h
    split at h
    · rename_i policy c offer c' n hk
      exact ⟨k, c, c', n, policy, offer, config, now, rfl, hk, h⟩
    · cases h
  | transport op =>
    refine .inr (.inr (.inl ?_))
    have hop : ∀ c rtc, op ≠ .addPeer c rtc := by rintro c rtc rfl; cases h
    have heq : s.step host lib (.transport op) =
        (s.transport.step op).map fun u => { s with transport := u } := by
      cases op with
      | addPeer c rtc => exact absurd rfl (hop c rtc)
      | _ => rfl
    obtain ⟨u, hu, rfl⟩ := Option.map_eq_some_iff.1 (heq ▸ h)
    exact ⟨op, u, rfl, hop, hu, rfl⟩
  | setMaxClients limit =>
    cases h
    exact .inr (.inr (.inr ⟨limit, rfl, rfl⟩))

/-- A fresh service and a fresh transport. -/
def runs (A N R S W : Type) [SessionIdAllocator A] [World W] [NetcodeServer N] [ClientLimit N] [Rtc R]
    [RenetServer S] (host : Host) (lib : Signaling R) : LTS (FrontDoor A N R S W) (DoorStep R S) :=
  .ofFn (fun s => (Threads.runs A host).init s.calls ∧ s.transport.Fresh ∧ s.admissions = [])
    (step host lib)

/-! ## The log of the calls -/

/-- A step of the calls adds to their log; only a hook adds a `reached`. -/
theorem log_did {host : Host} {s s' : Threads A} {l : ThreadStep} (h : Threads.Did host s l s')
    (hl : ∀ k ok, l ≠ .process k ok) : s.log <:+ s'.log ∧
      ∀ c n, s'.log.countP (Event.reaches c n) = s.log.countP (Event.reaches c n) := by
  cases h with
  | issued t t' hk ha hprep hvac hv hconf =>
    exact ⟨List.suffix_cons _ _, fun c n => List.countP_cons_of_neg (by simp [Event.reaches])⟩
  | claimed hk hcl hv hconf =>
    exact ⟨List.suffix_cons _ _, fun c n => List.countP_cons_of_neg (by simp [Event.reaches])⟩
  | processed ok hk => exact absurd rfl (hl _ ok)
  | _ => exact ⟨List.suffix_refl _, fun c n => rfl⟩

/-- Sessions are numbered from one. -/
def Numbered (log : List L3.Event) : Prop :=
  ∀ k c n d now m, .issued k c n d now m ∈ log → 0 < n

theorem numbered_did {host : Host} {s s' : Threads A} {l : ThreadStep} (hs : Numbered s.log)
    (h : Threads.Did host s l s') : Numbered s'.log := by
  cases h with
  | issued t t' hk ha hprep hvac hv hconf =>
    intro k c n d now m hmem
    rcases List.mem_cons.1 hmem with heq | hmem
    · cases heq; exact Nat.succ_pos _
    · exact hs k c n d now m hmem
  | claimed hk hcl hv hconf =>
    intro k c n d now m hmem
    exact hs k c n d now m ((List.mem_cons.1 hmem).resolve_left (by simp))
  | processed ok hk =>
    intro k c n d now m hmem
    exact hs k c n d now m ((List.mem_cons.1 hmem).resolve_left (by simp))
  | _ => exact hs

/-! ## The invariant -/

/-- The admission is of session `n` of `c`. -/
def Admission.of (c : ClientId) (n : Nat) (a : Admission) : Bool := a.clientId == c && a.session == n

structure DoorInv (s : FrontDoor A N R S W) : Prop where
  claims : ClaimInv s.calls
  numbered : Numbered s.calls.log
  identity : IdentityInv ⟨s.transport, {}, {}⟩
  introduced : Introduced ⟨s.transport, {}, {}⟩
  idle : s.transport.applying = []
  registered : registrations s.transport.trace = s.admissions.map Admission.clientId
  reached : ∀ a ∈ s.admissions, .reached a.call a.clientId a.session true ∈ s.calls.log
  once : ∀ c n, s.admissions.countP (Admission.of c n) ≤ s.calls.log.countP (Event.reaches c n)
  /-- the limit the latest admission has read -/
  within : s.transport.peers.len ≤ (s.admissions.head?.map Admission.limit).getD 0

namespace DoorInv

variable {host : Host} {lib : Signaling R} {s t : FrontDoor A N R S W}

section

omit [World W] [ClientLimit N] [Rtc R] [RenetServer S]

theorem service {calls : Threads A} {l : ThreadStep} (h : DoorInv s)
    (hstep : s.calls.step host l = some calls) (hl : ∀ k ok, l ≠ .process k ok) :
    DoorInv { s with calls := calls } := by
  have hdid := Threads.step_did hstep
  obtain ⟨hlog, hcount⟩ := log_did hdid hl
  exact { h with
    claims := h.claims.did hdid
    numbered := numbered_did h.numbered hdid
    reached := fun a ha => hlog.subset (h.reached a ha)
    once := fun c n => (h.once c n).trans (hcount c n).ge }

omit [SessionIdAllocator A] in
/-- A call claims a session of the client it was made for. -/
theorem claimant (h : DoorInv s) {k n : Nat} {policy : SessionAuthPolicy} {c c' : ClientId}
    {offer : BootstrapService.SdpHttpOfferRequest}
    (hk : s.calls.threads[k]? = some ⟨.acceptOffer policy c offer, .claimed c' n⟩) : c' = c := by
  obtain ⟨now, found, hmem⟩ := h.claims.calls.holding k _ c' n hk
  obtain ⟨policy', offer', p, hk', -, -⟩ := h.claims.calls.claimant k c' n now found hmem
  rw [hk] at hk'
  cases hk'
  rfl

end

variable [LawfulNetcode N] [LawfulRtc R] [LawfulWorld W]

omit [SessionIdAllocator A] [ClientLimit N] in
/-- What every call on the transport keeps. -/
theorem drive {u : WebRtcState N R S W} {op : WebRtcState.Op R S} (h : DoorInv s)
    (hstep : s.transport.step op = some u) : IdentityInv ⟨u, {}, {}⟩ ∧ Introduced ⟨u, {}, {}⟩ ∧
      u.applying = [] := by
  have hrun : (WebRtcState.runs N R S W).Run s.transport [op] u := .cons hstep (.nil u)
  obtain ⟨⟨hid, hin⟩, happ⟩ := WebRtcState.run_invariant
    (I := fun a => IdentityInv a ∧ Introduced a)
    (fun a b hi hact => ⟨identityInv_act hi.1 hact, introduced_act hi.2 hact⟩)
    (fun u server hi => ⟨identityInv_game hi.1, introduced_game hi.2⟩) hrun h.idle
    ⟨h.identity, h.introduced⟩
  exact ⟨hid, hin, happ⟩

omit [SessionIdAllocator A] [ClientLimit N] in
theorem transport {u : WebRtcState N R S W} {op : WebRtcState.Op R S} (h : DoorInv s)
    (hop : ∀ c rtc, op ≠ .addPeer c rtc) (hstep : s.transport.step op = some u) :
    DoorInv { s with transport := u } := by
  obtain ⟨hid, hin, happ⟩ := h.drive hstep
  have hnone := WebRtcState.noNewPeer_step hstep hop
  exact { h with
    identity := hid
    introduced := hin
    idle := happ
    registered := hnone.trace.trans h.registered
    within := hnone.len_le.trans h.within }

omit [SessionIdAllocator A] [LawfulRtc R] [LawfulWorld W] [World W] in
theorem setMaxClients [LawfulClientLimit N] (h : DoorInv s) (limit : Nat) :
    DoorInv { s with transport := s.transport.setMaxClients limit } := by
  have hact : Act ⟨s.transport, {}, {}⟩ ⟨s.transport.setMaxClients limit, {}, {}⟩ :=
    .tick _ (LawfulClientLimit.setMaxClients _ limit)
  exact { h with
    identity := identityInv_act h.identity hact
    introduced := introduced_act h.introduced hact
    within := h.within }

/-- The log after the hook. -/
theorem process_log {calls calls' : Threads A} {k : Nat} {job : Job} {c : ClientId} {n : Nat}
    {ok : Bool} (hk : calls.threads[k]? = some ⟨job, .claimed c n⟩)
    (h : calls.step host (.process k ok) = some calls') :
    calls'.log = .reached k c n ok :: calls.log := by
  simp only [Threads.step, hk] at h
  cases h
  rfl

theorem hook {k n : Nat} {policy : SessionAuthPolicy} {c c' : ClientId}
    {offer : BootstrapService.SdpHttpOfferRequest} {config : SdpHttpHookConfig} {now : Nat}
    (h : DoorInv s) (hk : s.calls.threads[k]? = some ⟨.acceptOffer policy c offer, .claimed c' n⟩)
    (hstep : s.enterHook host lib k c n offer config now = some t) : DoorInv t := by
  have hc := h.claimant hk
  subst hc
  obtain ⟨calls, hcalls, rfl⟩ := Option.map_eq_some_iff.1 hstep
  have hlog := process_log hk hcalls
  have hclaims := h.claims.did (Threads.step_did hcalls)
  have hnumbered := numbered_did h.numbered (Threads.step_did hcalls)
  rcases s.transport.acceptOfferAndAddPeer_cases lib c' offer config now with
    ⟨e, hout⟩ | ⟨rtc, answer, hout, hfree, hroom, -⟩
  · rw [hout] at hlog ⊢
    refine { h with
      claims := hclaims, numbered := hnumbered, reached := fun a ha => ?_, once := fun c n => ?_ }
    · rw [hlog]; exact List.mem_cons_of_mem _ (h.reached a ha)
    · rw [hlog]
      exact (h.once c n).trans (List.Sublist.countP_le (List.sublist_cons_self _ _))
  · rw [hout] at hlog ⊢
    obtain ⟨hpeers, hreg⟩ := s.transport.addPeer_registers c' rtc
    have hadd : s.transport.step (.addPeer c' rtc) = some (s.transport.addPeer c' rtc) := rfl
    obtain ⟨hid, hin, happ⟩ := h.drive hadd
    refine
      { claims := hclaims
        numbered := hnumbered
        identity := hid
        introduced := hin
        idle := happ
        registered := hreg.trans (congrArg _ h.registered)
        reached := fun a ha => ?_
        once := fun c n => ?_
        within := ?_ }
    · rw [hlog]
      rcases List.mem_cons.1 ha with rfl | ha
      · exact List.mem_cons_self
      · exact List.mem_cons_of_mem _ (h.reached a ha)
    · have hold := h.once c n
      rw [hlog]
      show List.countP _ (_ :: s.admissions) ≤ _
      rw [List.countP_cons, List.countP_cons]
      exact Nat.add_le_add hold (le_of_eq rfl)
    · show (s.transport.addPeer c' rtc).peers.len ≤ s.transport.maxClients
      have hle := HashMap.len_le_of_mem (c' :: s.transport.peers.keys) fun x hx => by
        rcases (hpeers x).1 hx with rfl | ⟨hx, -⟩
        · exact List.mem_cons_self
        · exact List.mem_cons_of_mem _ (AList.mem_keys.1 hx)
      rw [List.length_cons, ← HashMap.len_eq] at hle
      exact hle.trans hroom

end DoorInv

/-! ## Admissions and sessions -/

variable {host : Host} {lib : Signaling R} {s : FrontDoor A N R S W}

/-- The client was registered before, by a call that had rightly claimed a session of
its own for it, and whose offer was answered. -/
def Admitted (s : FrontDoor A N R S W) (earlier : List Event) (c : ClientId) : Prop :=
  .added c ∈ earlier ∧ ∃ a ∈ s.admissions, a.clientId = c ∧
    .reached a.call c a.session true ∈ s.calls.log ∧ ReachedRightly s.calls a.call c a.session

/-- The sessions of the admissions of `c`. -/
def sessionsOf (c : ClientId) (admissions : List Admission) : List Nat :=
  (admissions.filter fun a => a.clientId == c).map Admission.session

theorem count_sessionsOf (c : ClientId) (n : Nat) (admissions : List Admission) :
    (sessionsOf c admissions).count n = admissions.countP (Admission.of c n) := by
  rw [sessionsOf, List.count_eq_countP, List.countP_map, List.countP_filter]
  refine List.countP_congr fun a _ => ?_
  simp only [Function.comp_apply, Admission.of, Bool.and_comm]

section

omit [SessionIdAllocator A] [World W] [ClientLimit N] [Rtc R] [RenetServer S]

theorem DoorInv.admission (h : DoorInv s) {c : ClientId} (hc : c ∈ registrations s.transport.trace) :
    ∃ a ∈ s.admissions, a.clientId = c ∧ .reached a.call c a.session true ∈ s.calls.log ∧
      ReachedRightly s.calls a.call c a.session := by
  rw [h.registered] at hc
  obtain ⟨a, ha, rfl⟩ := List.mem_map.1 hc
  have hreach := h.reached a ha
  exact ⟨a, ha, rfl, hreach, h.claims.reachedRightly hreach⟩

theorem DoorInv.admitted (h : DoorInv s) {later earlier : List Event} {e : Event} {c : ClientId}
    {tag : Tag} (ht : s.transport.trace = later ++ e :: earlier) (harr : Arrived earlier c tag) :
    Admitted s earlier c := by
  obtain ⟨hpeer, p, hp, rfl⟩ := harr
  obtain ⟨l₁, l₂, rfl⟩ := List.mem_iff_append.1 hp
  have hsplit : s.transport.trace = (later ++ e :: l₁) ++ .arrived p :: l₂ := by
    rw [ht, List.append_assoc, List.cons_append]
  have hadd := h.introduced.arrived _ p l₂ c hsplit hpeer
  refine ⟨List.mem_append_right _ (List.mem_cons_of_mem _ hadd), h.admission (mem_registrations.2 ?_)⟩
  rw [hsplit]
  exact List.mem_append_right _ (List.mem_cons_of_mem _ hadd)

theorem DoorInv.session_le (h : DoorInv s) {c : ClientId} {n : Nat}
    (hn : n ∈ sessionsOf c s.admissions) : n ∈ List.range' 1 (sessionNo c s.calls.log) := by
  obtain ⟨a, hfilter, rfl⟩ := List.mem_map.1 hn
  obtain ⟨ha, hid⟩ := List.mem_filter.1 hfilter
  obtain rfl : a.clientId = c := beq_iff_eq.1 hid
  obtain ⟨-, now, found, hclaim⟩ := h.claims.calls.reached _ _ _ _ (h.reached a ha)
  obtain ⟨policy, offer, p, -, -, hright⟩ := h.claims.calls.claimant _ _ _ _ _ hclaim
  obtain ⟨k, d, now₀, m, hissued, -⟩ := hright.issued
  have hpos := h.numbered _ _ _ _ _ _ hissued
  have hle : a.session ≤ sessionNo a.clientId s.calls.log := by
    by_contra hlt
    have hnone := h.claims.sessions.ahead a.clientId a.session (Nat.lt_of_not_le hlt)
    exact List.countP_eq_zero.1 hnone _ hclaim (by simp [Event.claims])
  rw [List.mem_range'_1]
  omega

end

/-! ## Whole runs -/

variable [LawfulNetcode N] [LawfulRtc R] [LawfulWorld W] [LawfulClientLimit N]

theorem doorInv_inductive (host : Host) (lib : Signaling R) :
    (runs A N R S W host lib).Inductive DoorInv where
  init := by
    rintro s ⟨hcalls, hfresh, hnone⟩
    have hclaims := (claimInv_inductive host).init s.calls hcalls
    obtain ⟨v, -, hbegin⟩ := hcalls
    have hlog : s.calls.log = [] := by rw [hbegin]; rfl
    have hid := identityInv_fresh hfresh
    have hin := introduced_fresh hfresh
    obtain ⟨n, addr, shared, ht, htrace, -, -⟩ := hfresh
    refine
      { claims := hclaims
        numbered := fun k c n d now m hmem => by rw [hlog] at hmem; exact absurd hmem List.not_mem_nil
        identity := hid
        introduced := hin
        idle := by rw [ht]; rfl
        registered := by rw [hnone, ht]; exact congrArg registrations htrace
        reached := fun a ha => by rw [hnone] at ha; exact absurd ha List.not_mem_nil
        once := fun c n => by rw [hnone]; exact Nat.zero_le _
        within := by rw [ht]; exact Nat.zero_le _ }
  step := by
    intro s l t h hstep
    rcases step_cases hstep with ⟨l, calls, rfl, hl, hcalls, rfl⟩ |
      ⟨k, c, c', n, policy, offer, config, now, rfl, hk, hhook⟩ |
      ⟨op, u, rfl, hop, hu, rfl⟩ | ⟨limit, rfl, rfl⟩
    · exact h.service hcalls hl
    · exact h.hook hk hhook
    · exact h.transport hop hu
    · exact h.setMaxClients limit

/-- **Nobody gets in but through the front door.** In every run, every connection the
transport adds to the `RenetServer`, and every packet it delivers in a client's name,
is of a client that was registered before by a rightly claimed session of its own:
one that was issued to it, pending and unexpired, and, under a secure policy, shown
the token it was issued with. -/
theorem connected_through_front_door (h : (runs A N R S W host lib).Reachable s) :
    (∀ later earlier c entry registered tag,
      s.transport.trace = later ++ .addConnection .webRtc c entry registered tag :: earlier →
        Admitted s earlier c) ∧
      ∀ later earlier c entry own p,
        s.transport.trace = later ++ .processPacketFrom .webRtc c entry own p :: earlier →
          Admitted s earlier c := by
  have hinv := (doorInv_inductive host lib).reachable s h
  refine ⟨fun later earlier c entry registered tag ht => ?_, fun later earlier c entry own p ht => ?_⟩
  · exact hinv.admitted ht (hinv.identity.trace later _ earlier ht)
  · exact hinv.admitted ht (hinv.identity.trace later _ earlier ht)

/-- **One peer a session.** In every run no session has two offers answered, so a
client is registered at most as often as sessions were issued to it. -/
theorem session_admits_once (h : (runs A N R S W host lib).Reachable s) :
    (∀ c n, s.admissions.countP (Admission.of c n) ≤ 1) ∧
      ∀ c, (registrations s.transport.trace).count c ≤ sessionNo c s.calls.log := by
  have hinv := (doorInv_inductive host lib).reachable s h
  have honce : ∀ c n, s.admissions.countP (Admission.of c n) ≤ 1 := fun c n =>
    (hinv.once c n).trans (hinv.claims.calls.once c n)
  refine ⟨honce, fun c => ?_⟩
  have hnodup : (sessionsOf c s.admissions).Nodup := List.nodup_iff_count_le_one.2 fun n => by
    rw [count_sessionsOf]; exact honce c n
  have hlen := (hnodup.subperm fun n hn => hinv.session_le hn).length_le
  have hcount : (registrations s.transport.trace).count c = (sessionsOf c s.admissions).length := by
    rw [hinv.registered, sessionsOf, List.length_map, ← List.countP_eq_length_filter,
      List.count_eq_countP, List.countP_map]
    rfl
  rw [List.length_range'] at hlen
  rw [hcount]
  exact hlen

/-- **Negotiations are bounded.** In every run the peers of a server, those still
negotiating included, are never more than the `max_clients` that the latest answered
offer read, and each of them was admitted. -/
theorem peers_within_limit (h : (runs A N R S W host lib).Reachable s) :
    s.transport.peers.len ≤ (s.admissions.head?.map Admission.limit).getD 0 ∧
      ∀ c ∈ s.transport.peers, Admitted s s.transport.trace c := by
  have hinv := (doorInv_inductive host lib).reachable s h
  refine ⟨hinv.within, fun c hc => ?_⟩
  have hadd := hinv.introduced.held c (.inl hc)
  exact ⟨hadd, hinv.admission (mem_registrations.2 hadd)⟩

/-! ## A run -/

instance : ClientLimit Table where
  maxClients _ := 2
  setMaxClients n _ := n

instance : LawfulClientLimit Table where
  setMaxClients _ _ _ := rfl

/-- An offer without text is none; every answered peer opens its channel and sends a
handshake of client 1. -/
def tidySignaling : Signaling Script where
  Offer := Unit
  Candidate := Unit
  fromSdpString sdp := if sdp.isEmpty then .error "empty" else .ok ()
  build _ := { name := 1, onInput := [[opens, brings [1, 1]]] }
  host _ := .ok ()
  addLocalCandidate r _ := r
  acceptOffer r _ := (r, .ok [9])
  jsonLength _ := some 40

abbrev DemoDoor := FrontDoor MonotonicClientIdAllocator Table Script Connections Sockets

/-- The session of client 1 is issued and its offer answered; then the client
connects. -/
def arenaDoorSteps : List (DoorStep Script Connections) :=
  let policy := arenaPolicy.toPolicy arenaLib (List.replicate 32 1)
  let now := some (Duration.fromSecs 40)
  let token := some (Base64.encode (List.replicate 32 1))
  [.service (.call (.create policy arenaRequest)), .service (.readWall 0 now 3),
    .service (.readMonotonic 0 4), .service (.enter 0 5 5),
    .service (.call (.acceptOffer policy 1 ⟨[118], token⟩)), .service (.readWall 1 now 6),
    .setMaxClients 2, .service (.enter 1 7 7), .transport (.sendPackets 9), .hook 1 ⟨lan 1⟩ 8,
    .transport (.update 9 0 0)]

def arenaDoorStart : DemoDoor where
  calls := .begin (arenaService shortBase)
  transport := demoStart { webRtc := [([1], lan 11)] }
  admissions := []

def arenaDoor : Option DemoDoor := arenaDoorSteps.foldlM (step arenaHost tidySignaling) arenaDoorStart

theorem arenaDoor_reachable {s : DemoDoor} (h : arenaDoor = some s) :
    (runs MonotonicClientIdAllocator Table Script Connections Sockets arenaHost tidySignaling).Reachable s :=
  ⟨arenaDoorStart, arenaDoorSteps, ⟨⟨_, .inl ⟨_, _, rfl⟩, rfl⟩, demoStart_fresh _, rfl⟩,
    LTS.run_of_foldlM (fun _ _ _ h => h) h⟩

theorem arenaDoor_any {P : DemoDoor → Bool} (h : arenaDoor.any P = true) :
    ∃ s, arenaDoor = some s ∧ P s = true := (Option.any_eq_true P _).1 h

theorem connected_through_front_door_arena : ∃ s : DemoDoor, arenaDoor = some s ∧
    ∃ later earlier tag, s.transport.trace = later ++ .addConnection .webRtc 1 false true tag :: earlier ∧
      Admitted s earlier 1 := by
  obtain ⟨s, hs, hp⟩ := arenaDoor_any
    (P := fun s => s.transport.trace.contains (.addConnection .webRtc 1 false true ⟨.webRtc 1, 6⟩))
    (by decide +kernel)
  obtain ⟨later, earlier, ht⟩ := List.mem_iff_append.1 (List.contains_iff_mem.1 hp)
  exact ⟨s, hs, later, earlier, _, ht,
    (connected_through_front_door (arenaDoor_reachable hs)).1 later earlier 1 _ _ _ ht⟩

theorem session_admits_once_arena : ∃ s : DemoDoor, arenaDoor = some s ∧
    s.admissions = [⟨1, 1, 1, 2⟩] ∧
    (registrations s.transport.trace).count 1 ≤ sessionNo 1 s.calls.log := by
  obtain ⟨s, hs, hp⟩ :=
    arenaDoor_any (P := fun s => s.admissions = [⟨1, 1, 1, 2⟩]) (by decide +kernel)
  exact ⟨s, hs, of_decide_eq_true hp, (session_admits_once (arenaDoor_reachable hs)).2 1⟩

theorem peers_within_limit_arena : ∃ s : DemoDoor, arenaDoor = some s ∧ s.transport.peers.len = 1 ∧
    s.transport.peers.len ≤ (s.admissions.head?.map Admission.limit).getD 0 := by
  obtain ⟨s, hs, hp⟩ := arenaDoor_any (P := fun s => s.transport.peers.len = 1) (by decide +kernel)
  exact ⟨s, hs, of_decide_eq_true hp, (peers_within_limit (arenaDoor_reachable hs)).1⟩

end FrontDoor
end RenetCross.L4
