import Mathlib.Logic.Basic

/-!
# Programs that change a state and may fail

A `Prog` runs on a state and ends with a value or an error, and with a state either
way. `Ensures` is its contract: what holds of the state before, after a value and after
an error. The rules follow the constructs a program is written with, `guarded`, which
cleans up after an error, and `pollUntil`, which looks, sleeps and looks again,
included.
-/
namespace RenetCross

/-- `ExceptT ε (StateM σ)`, written out. -/
def Prog (σ ε α : Type) := σ → Except ε α × σ

namespace Prog

variable {σ ε α β : Type}

instance : Monad (Prog σ ε) where
  pure a s := (.ok a, s)
  bind m k s :=
    match m s with
    | (.ok a, s) => k a s
    | (.error e, s) => (.error e, s)

def fail (e : ε) : Prog σ ε α := fun s => (.error e, s)

/-- An operation of the state that may fail. -/
def call (f : σ → σ × Except ε α) : Prog σ ε α := fun s => ((f s).2, (f s).1)

def ofExcept : Except ε α → Prog σ ε α
  | .ok a => pure a
  | .error e => fail e

/-- `release` runs after the errors `owns` says it runs after. -/
def guarded (owns : ε → Bool) (release : σ → σ) (m : Prog σ ε α) : Prog σ ε α := fun s =>
  match m s with
  | (.ok a, s) => (.ok a, s)
  | (.error e, s) => (.error e, if owns e then release s else s)

/-! ## Contracts -/

/-- `Q` after a value, `E` after an error, wherever `P` held. -/
structure Ensures (P : σ → Prop) (m : Prog σ ε α) (Q : α → σ → Prop)
    (E : ε → σ → Prop) : Prop where
  value : ∀ {s a s'}, P s → m s = (.ok a, s') → Q a s'
  error : ∀ {s e s'}, P s → m s = (.error e, s') → E e s'

namespace Ensures

variable {P G : σ → Prop} {Q Q' : α → σ → Prop} {R : β → σ → Prop}
  {E E' F : ε → σ → Prop}

theorem pure {a : α} (h : ∀ s, P s → Q a s) : Ensures P (Pure.pure a : Prog σ ε α) Q E where
  value hp heq := by cases heq; exact h _ hp
  error _ heq := by cases heq

theorem fail {e : ε} (h : ∀ s, P s → E e s) : Ensures P (Prog.fail e : Prog σ ε α) Q E where
  value _ heq := by cases heq
  error hp heq := by cases heq; exact h _ hp

theorem call {f : σ → σ × Except ε α} (hok : ∀ s a, P s → (f s).2 = .ok a → Q a (f s).1)
    (herr : ∀ s e, P s → (f s).2 = .error e → E e (f s).1) : Ensures P (Prog.call f) Q E where
  value hp heq := by
    obtain ⟨h2, rfl⟩ := Prod.mk.inj heq
    exact hok _ _ hp h2
  error hp heq := by
    obtain ⟨h2, rfl⟩ := Prod.mk.inj heq
    exact herr _ _ hp h2

theorem ofExcept {r : Except ε α} (hok : ∀ a, r = .ok a → ∀ s, P s → Q a s)
    (herr : ∀ e, r = .error e → ∀ s, P s → E e s) : Ensures P (Prog.ofExcept r) Q E := by
  cases r with
  | ok a => exact .pure (hok a rfl)
  | error e => exact .fail (herr e rfl)

theorem bind {m : Prog σ ε β} {k : β → Prog σ ε α} (hm : Ensures P m R E)
    (hk : ∀ b, Ensures (R b) (k b) Q E) : Ensures P (m >>= k) Q E := by
  have hbind : ∀ s, (m >>= k) s = match m s with
      | (.ok a, s) => k a s
      | (.error e, s) => (.error e, s) := fun _ => rfl
  constructor
  · intro s a s' hp heq
    rw [hbind] at heq
    rcases hs : m s with ⟨e | b, t⟩
    · rw [hs] at heq; cases heq
    · rw [hs] at heq
      exact (hk b).value (hm.value hp hs) heq
  · intro s e s' hp heq
    rw [hbind] at heq
    rcases hs : m s with ⟨e' | b, t⟩
    · rw [hs] at heq
      cases heq
      exact hm.error hp hs
    · rw [hs] at heq
      exact (hk b).error (hm.value hp hs) heq

theorem outcome {m : Prog σ ε α} (h : Ensures P m Q E) {s : σ} (hp : P s) :
    match (m s).1 with
    | .ok a => Q a (m s).2
    | .error e => E e (m s).2 := by
  split
  · rename_i a ha
    exact h.value hp (Prod.ext ha rfl)
  · rename_i e he
    exact h.error hp (Prod.ext he rfl)

theorem conseq {m : Prog σ ε α} (h : Ensures G m Q' E') (hp : ∀ s, P s → G s)
    (hq : ∀ a s, Q' a s → Q a s) (he : ∀ e s, E' e s → E e s) : Ensures P m Q E where
  value hs heq := hq _ _ (h.value (hp _ hs) heq)
  error hs heq := he _ _ (h.error (hp _ hs) heq)

/-- It is enough to say what comes of each state. -/
theorem each {m : Prog σ ε α} (h : ∀ s, P s → Ensures (· = s) m Q E) : Ensures P m Q E where
  value hp heq := (h _ hp).value rfl heq
  error hp heq := (h _ hp).error rfl heq

/-- A value that was had comes of this run. -/
theorem ran {m : Prog σ ε α} {s : σ} (h : Ensures (· = s) m Q E) :
    Ensures (· = s) m (fun a t => m s = (.ok a, t) ∧ Q a t) E where
  value hp heq := ⟨hp ▸ heq, h.value hp heq⟩
  error hp heq := h.error hp heq

/-- A fact that is not about the state becomes a hypothesis. -/
theorem given {φ : Prop} {m : Prog σ ε α} (h : φ → Ensures P m Q E) :
    Ensures (fun s => φ ∧ P s) m Q E where
  value hp heq := (h hp.1).value hp.2 heq
  error hp heq := (h hp.1).error hp.2 heq

theorem ite {c : Prop} [Decidable c] {m n : Prog σ ε α} (hm : c → Ensures P m Q E)
    (hn : ¬ c → Ensures P n Q E) : Ensures P (if c then m else n) Q E := by
  split
  · exact hm ‹_›
  · exact hn ‹_›

/-- What an error leaves is released, if it is owned. -/
theorem guarded {owns : ε → Bool} {release : σ → σ} {m : Prog σ ε α} (h : Ensures P m Q F)
    (hrelease : ∀ e s, F e s → E e (if owns e then release s else s)) :
    Ensures P (Prog.guarded owns release m) Q E := by
  constructor
  · intro s a s' hp heq
    unfold Prog.guarded at heq
    rcases hs : m s with ⟨e | b, t⟩
    · rw [hs] at heq; cases heq
    · rw [hs] at heq
      cases heq
      exact h.value hp hs
  · intro s e s' hp heq
    unfold Prog.guarded at heq
    rcases hs : m s with ⟨e' | b, t⟩
    · rw [hs] at heq
      cases heq
      exact hrelease _ _ (h.error hp hs)
    · rw [hs] at heq; cases heq

end Ensures

/-! ## Waiting -/

/-- `look` until it has an answer, `sleep` in between; `pending` when the fuel is out. -/
def pollUntil (pending : ε) (look : σ → σ × Option (Except ε α)) (sleep : σ → σ) :
    Nat → Prog σ ε α
  | 0 => fail pending
  | fuel + 1 => fun s =>
    match look s with
    | (s, some r) => (r, s)
    | (s, none) => pollUntil pending look sleep fuel (sleep s)

theorem Ensures.pollUntil {P : σ → Prop} {Q : α → σ → Prop} {E : ε → σ → Prop} {pending : ε}
    {look : σ → σ × Option (Except ε α)} {sleep : σ → σ} (hpending : ∀ s, P s → E pending s)
    (hok : ∀ s a, P s → (look s).2 = some (.ok a) → Q a (look s).1)
    (herr : ∀ s e, P s → (look s).2 = some (.error e) → E e (look s).1)
    (hnext : ∀ s, P s → (look s).2 = none → P (sleep (look s).1)) :
    ∀ fuel, Ensures P (Prog.pollUntil pending look sleep fuel) Q E
  | 0 => .fail hpending
  | fuel + 1 => by
    have ih := Ensures.pollUntil hpending hok herr hnext fuel
    constructor
    · intro s a s' hp heq
      unfold Prog.pollUntil at heq
      split at heq
      · rename_i t r hlook
        have hl := hok s a hp
        rw [hlook] at hl
        cases heq
        exact hl rfl
      · rename_i t hlook
        have hl := hnext s hp
        rw [hlook] at hl
        exact ih.value (hl rfl) heq
    · intro s e s' hp heq
      unfold Prog.pollUntil at heq
      split at heq
      · rename_i t r hlook
        have hl := herr s e hp
        rw [hlook] at hl
        cases heq
        exact hl rfl
      · rename_i t hlook
        have hl := hnext s hp
        rw [hlook] at hl
        exact ih.error (hl rfl) heq

/-- More fuel than a wait needs changes nothing. -/
theorem pollUntil_enough {pending : ε} {look : σ → σ × Option (Except ε α)} {sleep : σ → σ} :
    ∀ (fuel more : Nat) (s : σ), (Prog.pollUntil pending look sleep fuel s).1 ≠ .error pending →
      Prog.pollUntil pending look sleep (fuel + more) s = Prog.pollUntil pending look sleep fuel s
  | 0, more, s, h => absurd rfl h
  | fuel + 1, more, s, h => by
    rw [Nat.add_right_comm]
    unfold Prog.pollUntil at h ⊢
    rcases hlook : look s with ⟨t, _ | r⟩
    · rw [hlook] at h
      exact pollUntil_enough fuel more (sleep t) h
    · rfl

/-- A wait whose sleeps each bring a clock a step on, and which has an answer at every
look later than `n` steps after its start, is over after `n + 2` looks. -/
theorem pollUntil_ends {pending : ε} {look : σ → σ × Option (Except ε α)} {sleep : σ → σ}
    (clock : σ → Nat) (answered : Except ε α → Prop) (start step n : Nat) (hstep : 0 < step)
    (hlook : ∀ s r, (look s).2 = some r → answered r)
    (hdue : ∀ s, start + n * step < clock s → (look s).2 ≠ none)
    (hsleep : ∀ s, clock s + step ≤ clock (sleep (look s).1)) :
    ∀ (fuel k : Nat) (s : σ), start + k * step ≤ clock s → k ≤ n + 1 → n + 2 ≤ fuel + k →
      answered (Prog.pollUntil pending look sleep fuel s).1
  | 0, k, s, _, hk, hfuel => by omega
  | fuel + 1, k, s, hclock, hk, hfuel => by
    unfold Prog.pollUntil
    split
    · rename_i t r hl
      exact hlook s r (by rw [hl])
    · rename_i t hl
      have hnone : (look s).2 = none := by rw [hl]
      have hle : clock s ≤ start + n * step := Nat.le_of_not_lt fun hlt => hdue s hlt hnone
      have hkn : k ≤ n := Nat.le_of_mul_le_mul_right (by omega) hstep
      have hnext : clock s + step ≤ clock (sleep t) := by
        have h := hsleep s
        rwa [hl] at h
      refine pollUntil_ends clock answered start step n hstep hlook hdue hsleep fuel (k + 1) _ ?_
        (Nat.succ_le_succ hkn) (by omega)
      rw [Nat.succ_mul]
      omega

/-- A program with waits in it that comes to an end with `n` looks for each, and to the
same end with more. -/
structure Steady (pending : ε) (n : Nat) (m : Nat → Prog σ ε α) : Prop where
  settles : Ensures (fun _ => True) (m n) (fun _ _ => True) fun e _ => e ≠ pending
  enough : ∀ more, m (n + more) = m n

namespace Steady

variable {pending : ε} {n : Nat}

theorem pure (a : α) : Steady (σ := σ) pending n fun _ => Pure.pure a :=
  ⟨.pure fun _ _ => trivial, fun _ => rfl⟩

theorem call {f : σ → σ × Except ε α} (h : ∀ s, (f s).2 ≠ .error pending) :
    Steady pending n fun _ => Prog.call f where
  settles := .call (fun _ _ _ _ => trivial) fun s _ _ he hp => h s (hp ▸ he)
  enough _ := rfl

theorem ofExcept {r : Except ε α} (h : r ≠ .error pending) :
    Steady (σ := σ) pending n fun _ => Prog.ofExcept r where
  settles := .ofExcept (fun _ _ _ _ => trivial) fun _ he _ _ hp => h (hp ▸ he)
  enough _ := rfl

theorem bind {m : Nat → Prog σ ε β} {k : Nat → β → Prog σ ε α} (hm : Steady pending n m)
    (hk : ∀ b, Steady pending n fun fuel => k fuel b) :
    Steady pending n fun fuel => m fuel >>= k fuel where
  settles := hm.settles.bind fun b => (hk b).settles
  enough more := by rw [hm.enough, funext fun b => (hk b).enough more]

theorem ite {c : Prop} [Decidable c] {l m : Nat → Prog σ ε α} (hl : Steady pending n l)
    (hm : Steady pending n m) : Steady pending n fun fuel => if c then l fuel else m fuel where
  settles := .ite (fun _ => hl.settles) fun _ => hm.settles
  enough more := by rw [hl.enough, hm.enough]

theorem guarded {owns : ε → Bool} {release : σ → σ} {m : Nat → Prog σ ε α}
    (hm : Steady pending n m) :
    Steady pending n fun fuel => Prog.guarded owns release (m fuel) where
  settles := .guarded hm.settles fun _ _ he => he
  enough more := by rw [hm.enough]

/-- A wait that first asks when it starts. -/
theorem wait {τ : Type} {start : σ → τ} {look : τ → σ → σ × Option (Except ε α)}
    {sleep : σ → σ} (h : ∀ s, (pollUntil pending (look (start s)) sleep n s).1 ≠ .error pending) :
    Steady pending n fun fuel =>
      (Prog.call fun s => (s, .ok (start s))) >>= fun t => pollUntil pending (look t) sleep fuel where
  settles := ⟨fun _ _ => trivial, fun {s _ _} _ heq he => h s (he ▸ congrArg Prod.fst heq)⟩
  enough more := funext fun s => pollUntil_enough n more s (h s)

end Steady

end Prog
end RenetCross
