import RenetCross.L3Protocol.BootstrapThreads
import RenetCross.L3Protocol.SecureSession

/-!
# An offer claim is single-use

Over every interleaving of the calls' steps, with any policies, any allocator and
any clock readings. `SessionInv` ties the registry to the log: a pending session
is the latest issued under its id, its details carry what was issued, and as long
as `offer_claimed` is unset nobody has claimed it. `CallInv` ties the calls to
the log: a claim is held by the one call that made it, and that call reaches
`accept_offer_and_add_peer` once.
-/
namespace RenetCross.L3

/-- A predicate met at most once singles out its element. -/
theorem eq_of_countP_le_one {α : Type} {p : α → Bool} : ∀ {l : List α} {a b : α},
    l.countP p ≤ 1 → a ∈ l → b ∈ l → p a = true → p b = true → a = b
  | [], _, _, _, ha, _, _, _ => absurd ha List.not_mem_nil
  | x :: rest, a, b, h, ha, hb, hpa, hpb => by
    have hnone : p x = true → ∀ y ∈ rest, ¬ p y = true := by
      intro hx y hy hpy
      rw [List.countP_cons_of_pos hx] at h
      have hpos : 0 < rest.countP p := List.countP_pos_iff.2 ⟨y, hy, hpy⟩
      omega
    rcases List.mem_cons.1 ha with ha | ha
    · rcases List.mem_cons.1 hb with hb | hb
      · rw [ha, hb]
      · exact absurd hpb (hnone (ha ▸ hpa) b hb)
    · rcases List.mem_cons.1 hb with hb | hb
      · exact absurd hpa (hnone (hb ▸ hpb) a ha)
      · have hle := List.Sublist.countP_le (p := p) (List.sublist_cons_self x rest)
        exact eq_of_countP_le_one (Nat.le_trans hle h) ha hb hpa hpb

/-! ## Sessions and the log -/

section log

variable {c c' : ClientId} {log : List Event} {n : Nat}

@[simp] theorem sessionNo_issued {k session now m : Nat} {d : SessionDetails} :
    sessionNo c (.issued k c' session d now m :: log) =
      if c' = c then sessionNo c log + 1 else sessionNo c log := by
  by_cases h : c' = c
  · rw [if_pos h]; exact List.countP_cons_of_pos (by simp [Event.issuedFor, h])
  · rw [if_neg h]; exact List.countP_cons_of_neg (by simp [Event.issuedFor, h])

@[simp] theorem sessionNo_claimed {k session now : Nat} {found : Registry} :
    sessionNo c (.claimed k c' session now found :: log) = sessionNo c log :=
  List.countP_cons_of_neg (by simp [Event.issuedFor])

@[simp] theorem sessionNo_reached {k session : Nat} {ok : Bool} :
    sessionNo c (.reached k c' session ok :: log) = sessionNo c log :=
  List.countP_cons_of_neg (by simp [Event.issuedFor])

/-- How often a session was claimed. -/
def claimCount (c : ClientId) (n : Nat) (log : List Event) : Nat := log.countP (Event.claims c n)

@[simp] theorem claimCount_issued {k session now m : Nat} {d : SessionDetails} :
    claimCount c n (.issued k c' session d now m :: log) = claimCount c n log :=
  List.countP_cons_of_neg (by simp [Event.claims])

@[simp] theorem claimCount_reached {k session : Nat} {ok : Bool} :
    claimCount c n (.reached k c' session ok :: log) = claimCount c n log :=
  List.countP_cons_of_neg (by simp [Event.claims])

@[simp] theorem claimCount_claimed {k session now : Nat} {found : Registry} :
    claimCount c n (.claimed k c' session now found :: log) =
      if c' = c ∧ session = n then claimCount c n log + 1 else claimCount c n log := by
  by_cases h : c' = c ∧ session = n
  · rw [if_pos h]; exact List.countP_cons_of_pos (by simp [Event.claims, h])
  · rw [if_neg h]
    refine List.countP_cons_of_neg fun hc => h ?_
    simpa [Event.claims] using hc

end log

/-- The details `d` are those of the latest session issued under `c`. -/
structure Backed (log : List Event) (c : ClientId) (d : SessionDetails) : Prop where
  issued : ∃ k d₀ now m, .issued k c (sessionNo c log) d₀ now m ∈ log ∧ d.token = d₀.token ∧
    d.grant = d₀.grant
  unclaimed : d.offerClaimed = false → claimCount c (sessionNo c log) log = 0

structure SessionInv (r : Registry) (log : List Event) : Prop where
  registry : r.Inv
  held : ∀ c ∈ r.pending, ∃ d, r.details.get c = some d ∧ Backed log c d
  once : ∀ c n, claimCount c n log ≤ 1
  /-- sessions that are not issued yet are not claimed -/
  ahead : ∀ c n, sessionNo c log < n → claimCount c n log = 0

namespace SessionInv

variable {r : Registry} {log : List Event}

theorem cleanup (h : SessionInv r log) (t : Nat) : SessionInv (r.cleanupAt t) log :=
  { h with
    registry := h.registry.cleanup t
    held := fun c hc => by
      obtain ⟨d, hd, hb⟩ := h.held c (Registry.mem_pending_cleanup hc)
      exact ⟨d, (Registry.get_details_cleanup (.inl hc)).trans hd, hb⟩ }

theorem swept {r' : Registry} {t : Nat} (h : SessionInv r log) (hs : Threads.Swept r r' t) :
    SessionInv r' log := by
  rcases hs with rfl | ⟨u, -, rfl⟩
  · exact h
  · exact h.cleanup u

theorem issue (h : SessionInv r log) {c : ClientId} {t : Nat} {p : Prepared} (hvac : r.Vacant c)
    (hroom : ∀ key fence, p.replay = some (key, fence) → r.usedGrants.len < r.limits.replayGrants)
    (k now m : Nat) :
    SessionInv (r.issued c t p) (.issued k c (sessionNo c log + 1) p.details now m :: log) where
  registry := h.registry.issue hvac hroom
  held c' hc' := by
    by_cases he : c' = c
    · subst he
      refine ⟨p.details, HashMap.get_insert_self .., ?_, fun _ => ?_⟩
      · rw [sessionNo_issued, if_pos rfl]
        exact ⟨k, p.details, now, m, List.mem_cons_self .., rfl, rfl⟩
      · rw [sessionNo_issued, if_pos rfl, claimCount_issued]
        exact h.ahead c' _ (Nat.lt_succ_self _)
    · obtain ⟨d, hd, hb⟩ := h.held c' ((HashMap.mem_insert.1 hc').resolve_left he)
      obtain ⟨⟨k', d₀, now', m', hmem, ht, hg⟩, hun⟩ := hb
      refine ⟨d, ?_, ?_, ?_⟩
      · simp only [Registry.issued, HashMap.get_insert, if_neg he, hd]
      · rw [sessionNo_issued, if_neg (Ne.symm he)]
        exact ⟨k', d₀, now', m', List.mem_cons_of_mem _ hmem, ht, hg⟩
      · rw [sessionNo_issued, if_neg (Ne.symm he), claimCount_issued]
        exact hun
  once c' n := by rw [claimCount_issued]; exact h.once c' n
  ahead c' n hn := by
    rw [claimCount_issued]
    rw [sessionNo_issued] at hn
    apply h.ahead
    split at hn <;> omega

theorem claim (h : SessionInv r log) {c : ClientId} {d : SessionDetails} (hp : c ∈ r.pending)
    (hd : r.details.get c = some d) (hun : d.offerClaimed = false) (k now : Nat) (found : Registry) :
    SessionInv (r.claimed c d) (.claimed k c (sessionNo c log) now found :: log) where
  registry := h.registry.claim hp
  held c' hc' := by
    obtain ⟨d', hd', ⟨k', d₀, now', m', hmem, ht, hg⟩, hun'⟩ := h.held c' hc'
    by_cases he : c' = c
    · subst he
      rw [hd] at hd'; cases hd'
      refine ⟨{ d with offerClaimed := true }, HashMap.get_insert_self .., ?_, fun hf => ?_⟩
      · rw [sessionNo_claimed]
        exact ⟨k', d₀, now', m', List.mem_cons_of_mem _ hmem, ht, hg⟩
      · cases hf
    · refine ⟨d', ?_, ?_, fun hf => ?_⟩
      · simp only [Registry.claimed, HashMap.get_insert, if_neg he, hd']
      · rw [sessionNo_claimed]
        exact ⟨k', d₀, now', m', List.mem_cons_of_mem _ hmem, ht, hg⟩
      · rw [sessionNo_claimed, claimCount_claimed, if_neg fun hc => he hc.1.symm]
        exact hun' hf
  once c' n := by
    rw [claimCount_claimed]
    split
    · rename_i he
      -- the flag was unset, so this is the session's first claim
      obtain ⟨rfl, rfl⟩ := he
      obtain ⟨d', hd', -, hfree⟩ := h.held c hp
      rw [hd] at hd'; cases hd'
      rw [hfree hun]
    · exact h.once c' n
  ahead c' n hn := by
    rw [sessionNo_claimed] at hn
    rw [claimCount_claimed, if_neg]
    · exact h.ahead c' n hn
    · intro he
      obtain ⟨rfl, rfl⟩ := he
      exact Nat.lt_irrefl _ hn

theorem activate (h : SessionInv r log) {c : ClientId} (hp : c ∈ r.pending)
    (hroom : r.active.len < r.limits.activeSessions) : SessionInv (r.activated c) log :=
  { h with
    registry := h.registry.activate hp hroom
    held := fun c' hc' => h.held c' (HashMap.mem_remove.1 hc').2 }

theorem deactivate (h : SessionInv r log) (c : ClientId) : SessionInv (r.deactivate c) log :=
  { h with
    registry := h.registry.deactivate c
    held := fun c' hc' => by
      obtain ⟨hne, hc'⟩ := HashMap.mem_remove.1 hc'
      obtain ⟨d, hd, hb⟩ := h.held c' hc'
      refine ⟨d, ?_, hb⟩
      simp only [Registry.deactivate, HashMap.get_remove, if_neg hne, hd] }

theorem reach (h : SessionInv r log) (k : Nat) (c : ClientId) (n : Nat) (ok : Bool) :
    SessionInv r (.reached k c n ok :: log) where
  registry := h.registry
  held c' hc' := by
    obtain ⟨d, hd, ⟨k', d₀, now, m, hmem, ht, hg⟩, hun⟩ := h.held c' hc'
    refine ⟨d, hd, ?_, ?_⟩
    · rw [sessionNo_reached]
      exact ⟨k', d₀, now, m, List.mem_cons_of_mem _ hmem, ht, hg⟩
    · rw [sessionNo_reached, claimCount_reached]
      exact hun
  once c' n' := by rw [claimCount_reached]; exact h.once c' n'
  ahead c' n' hn := by
    rw [claimCount_reached]
    rw [sessionNo_reached] at hn
    exact h.ahead c' n' hn

end SessionInv

/-! ## Calls and the log -/

/-- What held when session `n` of client `c` was claimed with the offer, by a
call that had read the wall time `now` and found, past its own clean-up, the registry
`found`. -/
structure Rightful (log : List Event) (policy : SessionAuthPolicy) (c : ClientId) (n : Nat)
    (offer : BootstrapService.SdpHttpOfferRequest) (now : Nat) (found : Registry) : Prop where
  pending : c ∈ found.pending
  inactive : c ∉ found.active
  issued : ∃ k d now₀ m, .issued k c n d now₀ m ∈ log ∧
    (∀ g, d.grant = some g → Duration.asSecs now < g.expiresAt.toNat) ∧
    policy.verifyIssuedOffer c offer.sessionToken d.token now = .ok ()

theorem Rightful.cons {log : List Event} {policy : SessionAuthPolicy} {c : ClientId} {n : Nat}
    {offer : BootstrapService.SdpHttpOfferRequest} {now : Nat} {found : Registry}
    (h : Rightful log policy c n offer now found) (e : Event) :
    Rightful (e :: log) policy c n offer now found := by
  obtain ⟨k, d, now₀, m, hmem, hrest⟩ := h.issued
  exact { h with issued := ⟨k, d, now₀, m, List.mem_cons_of_mem _ hmem, hrest⟩ }

structure CallInv (threads : List Thread) (log : List Event) : Prop where
  /-- a claim was made by an `accept_offer` call, which holds it or has returned -/
  claimant : ∀ k c n now found, .claimed k c n now found ∈ log →
    ∃ policy offer p, threads[k]? = some ⟨.acceptOffer policy c offer, p⟩ ∧
      (p = .claimed c n ∨ p = .done) ∧ Rightful log policy c n offer now found
  holding : ∀ k job c n, threads[k]? = some ⟨job, .claimed c n⟩ →
    ∃ now found, .claimed k c n now found ∈ log
  reached : ∀ k c n ok, .reached k c n ok ∈ log →
    (∃ job, threads[k]? = some ⟨job, .done⟩) ∧ ∃ now found, .claimed k c n now found ∈ log
  once : ∀ c n, log.countP (Event.reaches c n) ≤ 1

/-- The threads after one has moved on. -/
theorem getElem?_advance {threads : List Thread} {k k' : Nat} {th th' : Thread}
    (h : threads[k]? = some th) :
    (threads.set k th')[k']? = if k = k' then some th' else threads[k']? := by
  obtain ⟨hlt, -⟩ := List.getElem?_eq_some_iff.1 h
  rw [List.getElem?_set, if_pos hlt]

namespace CallInv

variable {threads : List Thread} {log : List Event} {k : Nat} {job : Job} {p : Phase}

theorem begin (h : CallInv threads log) (job : Job) : CallInv (threads ++ [⟨job, job.begin⟩]) log := by
  refine
    { claimant := fun k c n now found hmem => ?_
      holding := fun k job' c n hk => ?_
      reached := fun k c n ok hmem => ?_
      once := h.once }
  · obtain ⟨policy, offer, p, hk, hrest⟩ := h.claimant k c n now found hmem
    exact ⟨policy, offer, p, get_snoc_of_get hk _, hrest⟩
  · rcases get_snoc hk with ⟨-, hk⟩ | ⟨-, hth⟩
    · exact h.holding k job' c n hk
    · -- the new call has claimed nothing
      exact absurd (congrArg Thread.phase hth).symm (job.begin_ne_claimed c n)
  · obtain ⟨⟨job', hk⟩, hcl⟩ := h.reached k c n ok hmem
    exact ⟨⟨job', get_snoc_of_get hk _⟩, hcl⟩

/-- No call still underway is in the log. -/
theorem not_claimed (h : CallInv threads log) (hk : threads[k]? = some ⟨job, p⟩) (hp : p.Underway)
    (c : ClientId) (n now : Nat) (found : Registry) : .claimed k c n now found ∉ log := by
  intro hmem
  obtain ⟨policy, offer, p', hk', hp', -⟩ := h.claimant k c n now found hmem
  rw [hk] at hk'
  cases hk'
  rcases hp' with rfl | rfl
  · exact hp
  · exact hp

/-- A call underway goes on, without a claim. -/
theorem settle (h : CallInv threads log) (hk : threads[k]? = some ⟨job, p⟩) (hp : p.Underway)
    {p' : Phase} (hp' : ∀ c n, p' ≠ .claimed c n) : CallInv (threads.set k ⟨job, p'⟩) log where
  claimant k' c n now found hmem := by
    obtain ⟨policy, offer, q, hk', hrest⟩ := h.claimant k' c n now found hmem
    refine ⟨policy, offer, q, ?_, hrest⟩
    rw [getElem?_advance hk, if_neg]
    · exact hk'
    · intro he
      subst he
      exact h.not_claimed hk hp c n now found hmem
  holding k' job' c n hk' := by
    rw [getElem?_advance hk] at hk'
    split at hk'
    · cases hk'; exact absurd rfl (hp' c n)
    · exact h.holding k' job' c n hk'
  reached k' c n ok hmem := by
    obtain ⟨⟨job', hk'⟩, now, found, hcl⟩ := h.reached k' c n ok hmem
    refine ⟨⟨job', ?_⟩, now, found, hcl⟩
    rw [getElem?_advance hk, if_neg]
    · exact hk'
    · intro he
      subst he
      exact h.not_claimed hk hp c n now found hcl
  once := h.once

/-- A session was issued. -/
theorem note (h : CallInv threads log) (c : ClientId) (n : Nat) (d : SessionDetails)
    (now m : Nat) : CallInv threads (.issued k c n d now m :: log) where
  claimant k' c' n' now' found hmem := by
    have hmem' := (List.mem_cons.1 hmem).resolve_left (by simp)
    obtain ⟨policy, offer, q, hk, hq, hr⟩ := h.claimant k' c' n' now' found hmem'
    exact ⟨policy, offer, q, hk, hq, hr.cons _⟩
  holding k' job' c' n' hk := by
    obtain ⟨now', found, hmem⟩ := h.holding k' job' c' n' hk
    exact ⟨now', found, List.mem_cons_of_mem _ hmem⟩
  reached k' c' n' ok hmem := by
    have hmem' := (List.mem_cons.1 hmem).resolve_left (by simp)
    obtain ⟨hk, now', found, hcl⟩ := h.reached k' c' n' ok hmem'
    exact ⟨hk, now', found, List.mem_cons_of_mem _ hcl⟩
  once c' n' := by
    rw [List.countP_cons_of_neg (by simp [Event.reaches])]
    exact h.once c' n'

/-- A call underway claims a session. -/
theorem claim (h : CallInv threads log) {policy : SessionAuthPolicy} {c : ClientId}
    {offer : BootstrapService.SdpHttpOfferRequest}
    (hk : threads[k]? = some ⟨.acceptOffer policy c offer, p⟩) (hp : p.Underway) {n now : Nat}
    {found : Registry} (hr : Rightful log policy c n offer now found) :
    CallInv (threads.set k ⟨.acceptOffer policy c offer, .claimed c n⟩)
      (.claimed k c n now found :: log) where
  claimant k' c' n' now' found' hmem := by
    rcases List.mem_cons.1 hmem with he | hmem
    · cases he
      refine ⟨policy, offer, .claimed c n, ?_, .inl rfl, hr.cons _⟩
      rw [getElem?_advance hk, if_pos rfl]
    · obtain ⟨policy', offer', q, hk', hq, hr'⟩ := h.claimant k' c' n' now' found' hmem
      refine ⟨policy', offer', q, ?_, hq, hr'.cons _⟩
      rw [getElem?_advance hk, if_neg]
      · exact hk'
      · intro he
        subst he
        exact h.not_claimed hk hp c' n' now' found' hmem
  holding k' job' c' n' hk' := by
    rw [getElem?_advance hk] at hk'
    split at hk'
    · rename_i he
      subst he
      cases hk'
      exact ⟨now, found, List.mem_cons_self ..⟩
    · obtain ⟨now', found', hmem⟩ := h.holding k' job' c' n' hk'
      exact ⟨now', found', List.mem_cons_of_mem _ hmem⟩
  reached k' c' n' ok hmem := by
    have hmem' := (List.mem_cons.1 hmem).resolve_left (by simp)
    obtain ⟨⟨job', hk'⟩, now', found', hcl⟩ := h.reached k' c' n' ok hmem'
    refine ⟨⟨job', ?_⟩, now', found', List.mem_cons_of_mem _ hcl⟩
    rw [getElem?_advance hk, if_neg]
    · exact hk'
    · intro he
      subst he
      exact h.not_claimed hk hp c' n' now' found' hcl
  once c' n' := by
    rw [List.countP_cons_of_neg (by simp [Event.reaches])]
    exact h.once c' n'

/-- The call that holds a claim has not reached the transport yet, and no other
call reaches it with that session. -/
theorem not_reached (h : CallInv threads log) (hone : ∀ c n, claimCount c n log ≤ 1) {c : ClientId}
    {n : Nat} (hk : threads[k]? = some ⟨job, .claimed c n⟩) : log.countP (Event.reaches c n) = 0 := by
  rw [List.countP_eq_zero]
  intro e he hreach
  cases e with
  | issued => simp [Event.reaches] at hreach
  | claimed => simp [Event.reaches] at hreach
  | reached k' c' n' ok =>
    simp only [Event.reaches, Bool.and_eq_true, beq_iff_eq] at hreach
    obtain ⟨rfl, rfl⟩ := hreach
    obtain ⟨⟨job', hdone⟩, now', found', hcl'⟩ := h.reached k' c' n' ok he
    obtain ⟨now, found, hcl⟩ := h.holding k job c' n' hk
    have hsame := eq_of_countP_le_one (hone c' n') hcl hcl' (by simp [Event.claims])
      (by simp [Event.claims])
    cases hsame
    rw [hk] at hdone
    cases hdone

/-- The call that holds a claim has its offer processed. -/
theorem process (h : CallInv threads log) (hone : ∀ c n, claimCount c n log ≤ 1) {c : ClientId}
    {n : Nat} (hk : threads[k]? = some ⟨job, .claimed c n⟩) (ok : Bool) :
    CallInv (threads.set k ⟨job, .done⟩) (.reached k c n ok :: log) where
  claimant k' c' n' now' found' hmem := by
    have hmem' := (List.mem_cons.1 hmem).resolve_left (by simp)
    obtain ⟨policy, offer, q, hk', hq, hr⟩ := h.claimant k' c' n' now' found' hmem'
    by_cases he : k = k'
    · subst he
      rw [hk] at hk'
      cases hk'
      exact ⟨policy, offer, .done, by rw [getElem?_advance hk, if_pos rfl], .inr rfl, hr.cons _⟩
    · exact ⟨policy, offer, q, by rw [getElem?_advance hk, if_neg he, hk'], hq, hr.cons _⟩
  holding k' job' c' n' hk' := by
    rw [getElem?_advance hk] at hk'
    split at hk'
    · cases hk'
    · obtain ⟨now', found', hmem⟩ := h.holding k' job' c' n' hk'
      exact ⟨now', found', List.mem_cons_of_mem _ hmem⟩
  reached k' c' n' ok' hmem := by
    rcases List.mem_cons.1 hmem with he | hmem
    · cases he
      obtain ⟨now, found, hcl⟩ := h.holding _ _ _ _ hk
      exact ⟨⟨job, by rw [getElem?_advance hk, if_pos rfl]⟩, now, found, List.mem_cons_of_mem _ hcl⟩
    · obtain ⟨⟨job', hk'⟩, now', found', hcl⟩ := h.reached k' c' n' ok' hmem
      refine ⟨?_, now', found', List.mem_cons_of_mem _ hcl⟩
      by_cases he : k = k'
      · exact ⟨job, by rw [getElem?_advance hk, if_pos he]⟩
      · exact ⟨job', by rw [getElem?_advance hk, if_neg he, hk']⟩
  once c' n' := by
    by_cases he : c = c' ∧ n = n'
    · obtain ⟨rfl, rfl⟩ := he
      rw [List.countP_cons_of_pos (by simp [Event.reaches]), h.not_reached hone hk]
    · rw [List.countP_cons_of_neg]
      · exact h.once c' n'
      · simpa [Event.reaches] using he

end CallInv

/-! ## Whole runs -/

section runs

variable {A : Type} [SessionIdAllocator A] {host : Host} {s s' : Threads A}

omit [SessionIdAllocator A] in
structure ClaimInv (s : Threads A) : Prop where
  sessions : SessionInv s.service.registry s.log
  calls : CallInv s.threads s.log

theorem ClaimInv.did {l : ThreadStep} (h : ClaimInv s) (hd : Threads.Did host s l s') :
    ClaimInv s' := by
  cases hd with
  | begun job => exact ⟨h.sessions, h.calls.begin job⟩
  | waited t hk hp hp' => exact ⟨h.sessions, h.calls.settle hk hp hp'⟩
  | refused u hk hp hswept _ =>
    exact ⟨h.sessions.swept hswept, h.calls.settle hk hp (by simp)⟩
  | @issued k policy request now m c p v _ _ hk _ hprep hvac hv _ =>
    have hroom : ∀ key fence, p.replay = some (key, fence) →
        (s.service.registry.cleanupAt m).usedGrants.len <
          (s.service.registry.cleanupAt m).limits.replayGrants :=
      fun key fence hr => prepare_room hprep hr
    have hs := (h.sessions.cleanup m).issue (t := m) hvac hroom k now m
    rw [← hv] at hs
    exact ⟨hs, (h.calls.settle hk trivial (by simp)).note c _ p.details now m⟩
  | @claimed _ k policy c offer now t d v hk hcl hv _ =>
    have hs := (h.sessions.cleanup t).claim hcl.pending hcl.detail hcl.unclaimed k now
      (s.service.registry.cleanupAt t)
    rw [← hv] at hs
    have hinactive := (h.sessions.cleanup t).registry.disjoint c hcl.pending
    obtain ⟨d', hd', ⟨k₀, d₀, now₀, m₀, hmem, htok, hgr⟩, -⟩ :=
      (h.sessions.cleanup t).held c hcl.pending
    rw [hcl.detail] at hd'
    cases hd'
    refine ⟨hs, h.calls.claim hk trivial ⟨hcl.pending, hinactive, ?_⟩⟩
    refine ⟨k₀, d₀, now₀, m₀, hmem, ?_, ?_⟩
    · rw [← hgr]; exact hcl.unexpired
    · rw [← htok]; exact hcl.verified
  | activated u hk hp hpend hroom hv _ =>
    have hs := (h.sessions.cleanup _).activate hpend hroom
    rw [← hv] at hs
    exact ⟨hs, h.calls.settle hk hp (by simp)⟩
  | processed ok hk => exact ⟨h.sessions.reach _ _ _ ok, h.calls.process h.sessions.once hk ok⟩
  | swept t => exact ⟨h.sessions.cleanup t, h.calls⟩
  | disconnected c => exact ⟨h.sessions.deactivate c, h.calls⟩

theorem claimInv_inductive (host : Host) : (Threads.runs A host).Inductive ClaimInv where
  init := by
    intro s hs
    obtain ⟨v, hv, rfl⟩ := hs
    have hinv := (registryInv_inductive host).init v hv
    obtain ⟨ttl, limits, hr⟩ := BootstrapService.calls_init hv
    have hempty : ∀ c, c ∉ v.registry.pending := by
      rw [hr]; exact fun c => AList.notMem_empty c
    refine ⟨⟨hinv, fun c hc => absurd hc (hempty c), fun c n => Nat.zero_le _, fun c n _ => rfl⟩, ?_⟩
    exact
      { claimant := fun k c n now found hmem => absurd hmem List.not_mem_nil
        holding := fun k job c n hk => absurd hk (by simp [Threads.begin])
        reached := fun k c n ok hmem => absurd hmem List.not_mem_nil
        once := fun c n => Nat.zero_le _ }
  step := by
    intro s l s' h hstep
    exact h.did (Threads.step_did hstep)

/-- Call `k` went on to `accept_offer_and_add_peer` for session `n` of `c`: it had
claimed that session when it was pending, also after the clean-up of that call's own
reading, not active, and its grant unexpired at the wall time the call had read; a
secure policy was shown the issued token. -/
def ReachedRightly (s : Threads A) (k : Nat) (c : ClientId) (n : Nat) : Prop :=
  ∃ policy offer p now found k₀ d now₀ m,
    s.threads[k]? = some ⟨.acceptOffer policy c offer, p⟩ ∧
    .claimed k c n now found ∈ s.log ∧ .issued k₀ c n d now₀ m ∈ s.log ∧
    c ∈ found.pending ∧ c ∉ found.active ∧
    (∀ g, d.grant = some g → Duration.asSecs now < g.expiresAt.toNat) ∧
    ∀ lib random, ∀ secure : SecureSessionAuthPolicy, policy = secure.toPolicy lib random →
      ∃ token, d.token = some token ∧ offer.sessionToken = some token

/-- A step of an `accept_offer` call up to and with its critical section. -/
def OfferStep (s : Threads A) : ThreadStep → Prop
  | .call (.acceptOffer _ _ _) => True
  | .readWall k _ _ | .enter k _ _ =>
    ∃ policy c offer p, s.threads[k]? = some ⟨.acceptOffer policy c offer, p⟩
  | _ => False

/-- The monotonic reading an offer takes under the lock. -/
def ThreadStep.reading : ThreadStep → Nat
  | .enter _ t _ => t
  | _ => 0

/-- The secure policy accepts the issued token only. -/
theorem verifyIssuedOffer_ok {c : ClientId} {token issued : Option Bytes}
    (h : SecureSessionAuthPolicy.verifyIssuedOffer c token issued = .ok ()) :
    ∃ t, issued = some t ∧ token = some t := by
  unfold SecureSessionAuthPolicy.verifyIssuedOffer at h
  split at h
  · cases h
  · cases h
  · split at h
    · rename_i he; exact ⟨_, rfl, by rw [he]⟩
    · cases h

omit [SessionIdAllocator A] in
theorem ClaimInv.reachedRightly (h : ClaimInv s) {k : Nat} {c : ClientId} {n : Nat} {ok : Bool}
    (hmem : .reached k c n ok ∈ s.log) : ReachedRightly s k c n := by
  obtain ⟨-, now, found, hcl⟩ := h.calls.reached k c n ok hmem
  obtain ⟨policy, offer, p, hk, -, hr⟩ := h.calls.claimant k c n now found hcl
  obtain ⟨k₀, d, now₀, m, hiss, hexp, hver⟩ := hr.issued
  refine ⟨policy, offer, p, now, found, k₀, d, now₀, m, hk, hcl, hiss, hr.pending, hr.inactive,
    hexp, ?_⟩
  intro lib random secure hpol
  rw [hpol] at hver
  exact verifyIssuedOffer_ok hver

omit [SessionIdAllocator A] in
/-- A clean-up changes no answer to a later offer. -/
theorem acceptOffer_cleanup (v : BootstrapService A) {u t : Nat} (h : u ≤ t)
    (policy : SessionAuthPolicy) (c : ClientId) (offer : BootstrapService.SdpHttpOfferRequest)
    (now : Option Nat) :
    (BootstrapService.acceptOffer { v with registry := v.registry.cleanupAt u } policy c offer now t).2 =
      (v.acceptOffer policy c offer now t).2 := by
  unfold BootstrapService.acceptOffer Registry.isPendingAt
  split
  · rfl
  · cases now with
    | none => rfl
    | some n => simp only [Registry.cleanupAt_of_le h]

/-- A step of an offer that claims nothing leaves at most a clean-up. -/
theorem OfferStep.unclaimed {l : ThreadStep} (ho : OfferStep s l) (h : s.step host l = some s')
    (hlog : s'.log = s.log) : s'.service = s.service ∨
      s'.service = { s.service with registry := s.service.registry.cleanupAt l.reading } := by
  cases l with
  | call job => cases h; exact .inl rfl
  | readWall k now t =>
    simp only [Threads.step] at h
    split at h
    · cases h; exact .inl rfl
    · cases h
  | enter k t t' =>
    obtain ⟨policy, c, offer, p, hk⟩ := ho
    simp only [Threads.step, hk] at h
    split at h
    · rename_i hth; cases hth
    · rename_i hth
      cases hth
      cases h
      rcases s.enterOffer_cases k _ _ _ _ t with ⟨v, hout, hv⟩ | ⟨d, -, hout⟩
      · rw [hout]; exact hv
      · -- a claim would be in the log
        rw [hout] at hlog
        exact absurd hlog (List.cons_ne_self _ _)
    · rename_i hth; cases hth
    · cases h
  | _ => exact absurd ho id

/-- **An offer claim is single-use.** In every run: for every session at most one
call reaches `accept_offer_and_add_peer`, and it did so rightly; no session is
claimed twice, whether or not the offer succeeds; a step of an offer that claims
nothing changes no answer to a later offer; and the processing of an offer does
not touch the service. -/
theorem offer_claim_single_use (host : Host) (s : Threads A) (h : (Threads.runs A host).Reachable s) :
    (∀ c n, s.log.countP (Event.reaches c n) ≤ 1) ∧
      (∀ k c n ok, .reached k c n ok ∈ s.log → ReachedRightly s k c n) ∧
      (∀ c n, s.log.countP (Event.claims c n) ≤ 1) ∧
      (∀ l s₁, OfferStep s l → s.step host l = some s₁ → s₁.log = s.log →
        ∀ policy c offer now t, l.reading ≤ t →
          (s₁.service.acceptOffer policy c offer now t).2 =
            (s.service.acceptOffer policy c offer now t).2) ∧
      ∀ k ok s₁, s.step host (.process k ok) = some s₁ → s₁.service = s.service := by
  have hinv := (claimInv_inductive host).reachable s h
  refine ⟨hinv.calls.once, fun k c n ok hmem => hinv.reachedRightly hmem, hinv.sessions.once, ?_, ?_⟩
  · intro l s₁ ho hstep hlog policy c offer now t hle
    rcases ho.unclaimed hstep hlog with hv | hv
    · rw [hv]
    · rw [hv]; exact acceptOffer_cleanup s.service hle policy c offer now
  · intro k ok s₁ hstep
    simp only [Threads.step] at hstep
    split at hstep
    · cases hstep; rfl
    · cases hstep

end runs

/-- The session of client 1 is issued, asked for with a wrong token, and claimed
with the right one; that offer fails. -/
def arenaSteps : List ThreadStep :=
  let policy := arenaPolicy.toPolicy arenaLib (List.replicate 32 1)
  let now := some (Duration.fromSecs 40)
  [.call (.create policy arenaRequest), .readWall 0 now 3, .readMonotonic 0 4, .enter 0 5 5,
    .call (.acceptOffer policy 1 ⟨[], some []⟩),
    .call (.acceptOffer policy 1 ⟨[], some (Base64.encode (List.replicate 32 1))⟩),
    .readWall 2 now 6, .readWall 1 now 7, .enter 1 8 8, .enter 2 9 9, .process 2 false]

def arenaOffers : Option (Threads MonotonicClientIdAllocator) :=
  arenaSteps.foldlM (Threads.step arenaHost) (.begin (arenaService shortBase))

theorem offer_claim_single_use_arena :
    ∃ s, arenaOffers = some s ∧ s.log.length = 3 ∧ s.log.countP (Event.reaches 1 1) = 1 ∧
      s.log.countP (Event.claims 1 1) ≤ 1 ∧ ∀ c n, s.log.countP (Event.reaches c n) ≤ 1 := by
  have hlog : arenaOffers.map (fun s => (s.log.length, s.log.countP (Event.reaches 1 1))) =
      some (3, 1) := by decide +kernel
  obtain ⟨s, hs, hl⟩ := Option.map_eq_some_iff.1 hlog
  have hreach : (Threads.runs MonotonicClientIdAllocator arenaHost).Reachable s :=
    ⟨.begin (arenaService shortBase), arenaSteps, ⟨_, .inl ⟨_, _, rfl⟩, rfl⟩,
      LTS.run_of_foldlM (fun _ _ _ h => h) hs⟩
  obtain ⟨hone, -, hclaim, -, -⟩ := offer_claim_single_use arenaHost s hreach
  exact ⟨s, hs, congrArg Prod.fst hl, congrArg Prod.snd hl, hclaim 1 1, hone⟩

end RenetCross.L3
