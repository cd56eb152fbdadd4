import RenetCross.L3Protocol.SessionRegistry

/-!
# Concurrent bootstrap calls

Any number of threads call one `BootstrapService`. What a call does before it
holds the registry's lock is a step of its own: the checks of its arguments, the
reading of the wall clock, for `create_session_with_request` also the reading of
the monotonic clock (the other calls take theirs under the lock). A critical
section is one step, and so is the processing of an offer after it. Between two
steps of one call, the steps of all others may run.

Call `k` is `threads[k]`. The log, latest event first, tells what the calls have
brought about; a session is named by its client id and its number among the
sessions issued under that id. `time` is the monotonic time of the last reading
and `swept` the latest reading any clean-up has used.
-/
namespace RenetCross.L3

/-- A call that looks at the clock before it asks for the lock. -/
inductive Job where
  | create (policy : SessionAuthPolicy) (request : SessionCreateRequest)
  | acceptOffer (policy : SessionAuthPolicy) (clientId : ClientId)
      (offer : BootstrapService.SdpHttpOfferRequest)
  | activate (clientId : ClientId) (userData : Option Bytes)

/-- How far a call has come. -/
inductive Phase where
  | begun
  | wall (now : Nat)
  | ready (now monotonic : Nat)
  | claimed (clientId : ClientId) (session : Nat)
  | done
  deriving DecidableEq

/-- The call has not claimed anything and has not returned. -/
def Phase.Underway : Phase → Prop
  | .begun | .wall _ | .ready _ _ => True
  | .claimed _ _ | .done => False

structure Thread where
  job : Job
  phase : Phase

/-- The checks on its arguments with which a call begins.
mirrors src/bootstrap.rs:471,571-578 -/
def Job.begin : Job → Phase
  | .create _ request =>
    match request.validate with
    | .ok () => .begun
    | .error _ => .done
  | .acceptOffer _ _ offer =>
    if offer.sdp.length > MAX_SDP_BODY_BYTES ∨
        offer.sessionToken.any (fun t => decide (t.length > MAX_SESSION_TOKEN_BYTES)) then .done
    else .begun
  | .activate _ _ => .begun

theorem Job.begin_ne_claimed (job : Job) (c : ClientId) (n : Nat) : job.begin ≠ .claimed c n := by
  cases job with
  | create policy request => simp only [begin]; split <;> simp
  | acceptOffer policy c' offer => simp only [begin]; split <;> simp
  | activate c' userData => simp [begin]

inductive Event where
  /-- `create_session_with_request` returned a session, with these readings -/
  | issued (call : Nat) (clientId : ClientId) (session : Nat) (details : SessionDetails)
      (now monotonic : Nat)
  /-- `accept_offer` claimed a session, in the registry that its own clean-up left -/
  | claimed (call : Nat) (clientId : ClientId) (session : Nat) (now : Nat) (found : Registry)
  /-- the call reached `accept_offer_and_add_peer`, which succeeded or failed -/
  | reached (call : Nat) (clientId : ClientId) (session : Nat) (ok : Bool)

namespace Event

def issuedFor (c : ClientId) : Event → Bool
  | .issued _ c' _ _ _ _ => c' == c
  | _ => false

def claims (c : ClientId) (n : Nat) : Event → Bool
  | .claimed _ c' n' _ _ => c' == c && n' == n
  | _ => false

def reaches (c : ClientId) (n : Nat) : Event → Bool
  | .reached _ c' n' _ => c' == c && n' == n
  | _ => false

end Event

/-- How many sessions were issued under an id: the number of the latest. -/
def sessionNo (c : ClientId) (log : List Event) : Nat := log.countP (Event.issuedFor c)

structure Threads (A : Type) where
  service : BootstrapService A
  threads : List Thread
  time : Nat
  swept : Nat
  log : List Event

inductive ThreadStep where
  | call (job : Job)
  /-- call `k` reads the wall clock at time `t` -/
  | readWall (k : Nat) (now : Option Nat) (t : Nat)
  | readMonotonic (k : Nat) (t : Nat)
  /-- call `k` gets the lock; `t` and `t'` are the readings it takes under it -/
  | enter (k : Nat) (t t' : Nat)
  | process (k : Nat) (ok : Bool)
  | sessionGrant (clientId : ClientId) (t : Nat)
  | disconnected (clientId : ClientId)
  | cleanup (t : Nat)
  | isPending (clientId : ClientId) (t : Nat)

namespace Threads

variable {A : Type}

/-- Call `k` goes on to phase `p`. -/
def advance (s : Threads A) (k : Nat) (job : Job) (p : Phase) : Threads A :=
  { s with threads := s.threads.set k ⟨job, p⟩ }

/-- The time of a reading. -/
def at_ (s : Threads A) (t : Nat) : Threads A := { s with time := t }

/-- A critical section that leaves the service `v` and has cleaned up at `t`. -/
def locked (s : Threads A) (v : BootstrapService A) (t : Nat) : Threads A :=
  { s with service := v, swept := max s.swept t }

def record (s : Threads A) (events : List Event) : Threads A := { s with log := events ++ s.log }

/-- What a create call that returned `response` has issued. -/
def issuedNow (s : Threads A) (k : Nat) (v : BootstrapService A) (c : ClientId) (now monotonic : Nat) :
    List Event :=
  match v.registry.details.get c with
  | some d => [.issued k c (sessionNo c s.log + 1) d now monotonic]
  | none => []

variable [SessionIdAllocator A]

def enterCreate (s : Threads A) (host : Host) (k : Nat) (policy : SessionAuthPolicy)
    (request : SessionCreateRequest) (now monotonic : Nat) : Threads A :=
  let out := s.service.createSessionWithRequest host policy request (some now) monotonic
  ((s.locked out.1 monotonic).advance k (.create policy request) .done).record
    (match out.2 with
      | .ok response => s.issuedNow k out.1 response.clientId now monotonic
      | .error _ => [])

omit [SessionIdAllocator A] in
def enterOffer (s : Threads A) (k : Nat) (policy : SessionAuthPolicy) (c : ClientId)
    (offer : BootstrapService.SdpHttpOfferRequest) (now t : Nat) : Threads A :=
  let out := s.service.acceptOffer policy c offer (some now) t
  let s' := (s.locked out.1 t).at_ t
  match out.2 with
  | .ok () =>
    (s'.advance k (.acceptOffer policy c offer) (.claimed c (sessionNo c s.log))).record
      [.claimed k c (sessionNo c s.log) now (s.service.registry.cleanupAt t)]
  | .error _ => s'.advance k (.acceptOffer policy c offer) .done

omit [SessionIdAllocator A] in
def enterActivate (s : Threads A) (k : Nat) (c : ClientId) (userData : Option Bytes)
    (now t t' : Nat) : Threads A :=
  let out := s.service.activateSession c userData (some now) t t'
  ((s.locked out.1 (max t t')).at_ t').advance k (.activate c userData) .done

/-- One step of one thread. -/
def step (host : Host) (s : Threads A) : ThreadStep → Option (Threads A)
  | .call job => some { s with threads := s.threads ++ [⟨job, job.begin⟩] }
  | .readWall k now t =>
    match s.threads[k]? with
    | some ⟨job, .begun⟩ =>
      -- a clock before the Unix epoch ends the call
      some ((s.at_ t).advance k job (match now with
        | some now => .wall now
        | none => .done))
    | _ => none
  | .readMonotonic k t =>
    match s.threads[k]? with
    | some ⟨.create policy request, .wall now⟩ =>
      some ((s.at_ t).advance k (.create policy request) (.ready now t))
    | _ => none
  | .enter k t t' =>
    match s.threads[k]? with
    | some ⟨.create policy request, .ready now monotonic⟩ =>
      some (s.enterCreate host k policy request now monotonic)
    | some ⟨.acceptOffer policy c offer, .wall now⟩ => some (s.enterOffer k policy c offer now t)
    | some ⟨.activate c userData, .wall now⟩ => some (s.enterActivate k c userData now t t')
    | _ => none
  | .process k ok =>
    match s.threads[k]? with
    | some ⟨job, .claimed c n⟩ => some ((s.advance k job .done).record [.reached k c n ok])
    | _ => none
  | .sessionGrant c t => some ((s.locked (s.service.sessionGrant c t).1 t).at_ t)
  | .disconnected c => some { s with service := s.service.onClientDisconnected c }
  | .cleanup t => some ((s.locked (s.service.cleanupSessions t) t).at_ t)
  | .isPending c t => some ((s.locked (s.service.isPendingSession c t).1 t).at_ t)

def begin (v : BootstrapService A) : Threads A := ⟨v, [], 0, 0, []⟩

/-- Threads on a fresh service, at any readings of the clocks. -/
def runs (A : Type) [SessionIdAllocator A] (host : Host) : LTS (Threads A) ThreadStep :=
  LTS.ofFn (fun s => ∃ v, (BootstrapService.calls A host).init v ∧ s = begin v) (step host)

/-! ## What a step has done -/

/-- The registry is left alone or cleaned up at a reading of at most `t`. -/
def Swept (r r' : Registry) (t : Nat) : Prop := r' = r ∨ ∃ u ≤ t, r' = r.cleanupAt u

/-- The things a step can do. -/
inductive Did (host : Host) (s : Threads A) : ThreadStep → Threads A → Prop
  | begun (job : Job) : Did host s (.call job) { s with threads := s.threads ++ [⟨job, job.begin⟩] }
  | waited {l : ThreadStep} {k : Nat} {job : Job} {p p' : Phase} (t : Nat) :
      s.threads[k]? = some ⟨job, p⟩ →
      p.Underway → (∀ c n, p' ≠ .claimed c n) → Did host s l ((s.at_ t).advance k job p')
  | refused {l : ThreadStep} {k : Nat} {job : Job} {p : Phase} {v : BootstrapService A} {t : Nat} (u : Nat) :
      s.threads[k]? = some ⟨job, p⟩ → p.Underway → Swept s.service.registry v.registry t →
      v.config = s.service.config → Did host s l (((s.locked v t).at_ u).advance k job .done)
  | issued {k : Nat} {policy : SessionAuthPolicy} {request : SessionCreateRequest} {now m : Nat}
      {c : ClientId} {p : Prepared} {v : BootstrapService A} (t t' : Nat) :
      s.threads[k]? = some ⟨.create policy request, .ready now m⟩ →
      (SessionIdAllocator.tryNextClientId s.service.allocator).2 = some c →
      prepare host policy s.service.config request now m (s.service.registry.cleanupAt m) c = .ok p →
      (s.service.registry.cleanupAt m).Vacant c →
      v.registry = (s.service.registry.cleanupAt m).issued c m p → v.config = s.service.config →
      Did host s (.enter k t t') (((s.locked v m).advance k (.create policy request) .done).record
        [.issued k c (sessionNo c s.log + 1) p.details now m])
  | claimed {l : ThreadStep} {k : Nat} {policy : SessionAuthPolicy} {c : ClientId}
      {offer : BootstrapService.SdpHttpOfferRequest} {now t : Nat} {d : SessionDetails}
      {v : BootstrapService A} :
      s.threads[k]? = some ⟨.acceptOffer policy c offer, .wall now⟩ →
      Claimable (s.service.registry.cleanupAt t) policy c offer.sessionToken now d →
      v.registry = (s.service.registry.cleanupAt t).claimed c d → v.config = s.service.config →
      Did host s l ((((s.locked v t).at_ t).advance k (.acceptOffer policy c offer)
        (.claimed c (sessionNo c s.log))).record
          [.claimed k c (sessionNo c s.log) now (s.service.registry.cleanupAt t)])
  | activated {l : ThreadStep} {k : Nat} {c : ClientId} {userData : Option Bytes} {p : Phase} {t : Nat}
      {v : BootstrapService A} (u : Nat) :
      s.threads[k]? = some ⟨.activate c userData, p⟩ → p.Underway →
      c ∈ (s.service.registry.cleanupAt t).pending →
      s.service.registry.active.len < s.service.registry.limits.activeSessions →
      v.registry = (s.service.registry.cleanupAt t).activated c → v.config = s.service.config →
      Did host s l (((s.locked v t).at_ u).advance k (.activate c userData) .done)
  | processed {k : Nat} {job : Job} {c : ClientId} {n : Nat} (ok : Bool) :
      s.threads[k]? = some ⟨job, .claimed c n⟩ →
      Did host s (.process k ok) ((s.advance k job .done).record [.reached k c n ok])
  | swept {l : ThreadStep} (t : Nat) :
      Did host s l ((s.locked { s.service with registry := s.service.registry.cleanupAt t } t).at_ t)
  | disconnected (c : ClientId) :
      Did host s (.disconnected c) { s with service := s.service.onClientDisconnected c }

theorem enterCreate_did (host : Host) (s : Threads A) {k : Nat} {policy : SessionAuthPolicy}
    {request : SessionCreateRequest} {now m : Nat}
    (hk : s.threads[k]? = some ⟨.create policy request, .ready now m⟩) (t t' : Nat) :
    Did host s (.enter k t t') (s.enterCreate host k policy request now m) := by
  have hup : Phase.Underway (.ready now m) := trivial
  unfold enterCreate
  dsimp only
  rcases s.service.create_cases host policy request (some now) m with
    ⟨e, hres, hst | ⟨a, -, hst⟩⟩ | ⟨n, c, p, -, hn, hnext, hprep, hvac, hout⟩
  · rw [hres, hst]
    exact .refused s.time hk hup (.inl rfl) rfl
  · rw [hres, hst]
    exact .refused s.time hk hup (.inr ⟨m, Nat.le_refl m, rfl⟩) rfl
  · cases hn
    have hid := (prepare_grant hprep).1
    rw [hout]
    simp only [issuedNow, hid, Registry.issued, HashMap.get_insert_self]
    exact .issued t t' hk hnext hprep hvac rfl rfl

omit [SessionIdAllocator A] in
theorem enterOffer_cases (s : Threads A) (k : Nat) (policy : SessionAuthPolicy) (c : ClientId)
    (offer : BootstrapService.SdpHttpOfferRequest) (now t : Nat) :
    (∃ v : BootstrapService A, s.enterOffer k policy c offer now t =
        ((s.locked v t).at_ t).advance k (.acceptOffer policy c offer) .done ∧
      (v = s.service ∨ v = { s.service with registry := s.service.registry.cleanupAt t })) ∨
    ∃ d, Claimable (s.service.registry.cleanupAt t) policy c offer.sessionToken now d ∧
      s.enterOffer k policy c offer now t =
        (((s.locked { s.service with
            registry := (s.service.registry.cleanupAt t).claimed c d } t).at_ t).advance k
          (.acceptOffer policy c offer) (.claimed c (sessionNo c s.log))).record
            [.claimed k c (sessionNo c s.log) now (s.service.registry.cleanupAt t)] := by
  unfold enterOffer
  dsimp only
  rcases s.service.acceptOffer_cases policy c offer (some now) t with
    ⟨e, hres, hst⟩ | ⟨n, d, hn, hd, hout⟩
  · rw [hres]
    exact .inl ⟨_, rfl, hst⟩
  · cases hn
    rw [hout]
    exact .inr ⟨d, hd, rfl⟩

theorem enterOffer_did (host : Host) (s : Threads A) {k : Nat} {policy : SessionAuthPolicy}
    {c : ClientId} {offer : BootstrapService.SdpHttpOfferRequest} {now : Nat} (t t' : Nat)
    (hk : s.threads[k]? = some ⟨.acceptOffer policy c offer, .wall now⟩) :
    Did host s (.enter k t t') (s.enterOffer k policy c offer now t) := by
  have hup : Phase.Underway (.wall now) := trivial
  rcases s.enterOffer_cases k policy c offer now t with ⟨v, hout, hv | hv⟩ | ⟨d, hd, hout⟩
  · rw [hout, hv]; exact .refused t hk hup (.inl rfl) rfl
  · rw [hout, hv]; exact .refused t hk hup (.inr ⟨t, Nat.le_refl t, rfl⟩) rfl
  · rw [hout]; exact .claimed hk hd rfl rfl

theorem enterActivate_did (host : Host) (s : Threads A) {k : Nat} {c : ClientId}
    {userData : Option Bytes} {now : Nat} (t t' : Nat)
    (hk : s.threads[k]? = some ⟨.activate c userData, .wall now⟩) :
    Did host s (.enter k t t') (s.enterActivate k c userData now t t') := by
  have hup : Phase.Underway (.wall now) := trivial
  have hle := Nat.le_max_left t t'
  unfold enterActivate
  dsimp only
  rcases s.service.activateSession_cases c userData (some now) t t' with
    ⟨e, -, hst | hst | hst⟩ | ⟨n, -, hp, hroom, -, hout⟩
  · rw [hst]; exact .refused t' hk hup (.inl rfl) rfl
  · rw [hst]; exact .refused t' hk hup (.inr ⟨t, hle, rfl⟩) rfl
  · rw [hst, Registry.cleanupAt_cleanupAt]
    exact .refused t' hk hup (.inr ⟨_, Nat.le_refl _, rfl⟩) rfl
  · rw [Registry.cleanupAt_cleanupAt] at hp hout
    rw [hout]
    exact .activated t' hk hup hp hroom rfl rfl

theorem step_did {host : Host} {s s' : Threads A} {l : ThreadStep} (h : s.step host l = some s') :
    Did host s l s' := by
  cases l with
  | call job => cases h; exact .begun job
  | readWall k now t =>
    simp only [step] at h
    split at h
    · rename_i job hk
      cases h
      refine .waited t hk trivial fun c n => ?_
      cases now <;> simp
    · cases h
  | readMonotonic k t =>
    simp only [step] at h
    split at h
    · rename_i policy request now hk
      cases h
      exact .waited t hk trivial fun c n => by simp
    · cases h
  | enter k t t' =>
    simp only [step] at h
    split at h
    · rename_i hk; cases h; exact enterCreate_did host s hk t t'
    · rename_i hk; cases h; exact enterOffer_did host s t t' hk
    · rename_i hk; cases h; exact enterActivate_did host s t t' hk
    · cases h
  | process k ok =>
    simp only [step] at h
    split at h
    · rename_i hk; cases h; exact .processed ok hk
    · cases h
  | sessionGrant c t => cases h; exact .swept t
  | disconnected c => cases h; exact .disconnected c
  | cleanup t => cases h; exact .swept t
  | isPending c t => cases h; exact .swept t

end Threads
end RenetCross.L3
