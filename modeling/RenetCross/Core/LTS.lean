import Mathlib.Data.List.Basic

/-!
# Labelled transition systems

A transition system with an initial predicate, its finite runs, the states
they reach, and the induction rule for invariants. `Stable` is the same rule
for properties that hold from some state of a run on and not from its start. The
log a run leaves is a list that grows at its end.
-/
namespace RenetCross

structure LTS (S L : Type) where
  init : S → Prop
  step : S → L → S → Prop

namespace LTS

variable {S L : Type} {T : LTS S L}

/-- A transition system given by a partial step function. -/
def ofFn (init : S → Prop) (f : S → L → Option S) : LTS S L where
  init := init
  step s l s' := f s l = some s'

inductive Run (T : LTS S L) : S → List L → S → Prop
  | nil (s : S) : Run T s [] s
  | cons {s l s' ls s''} : T.step s l s' → Run T s' ls s'' → Run T s (l :: ls) s''

def Reachable (T : LTS S L) (s : S) : Prop := ∃ s₀ ls, T.init s₀ ∧ T.Run s₀ ls s

/-- `I` is kept by every step. -/
def Stable (T : LTS S L) (I : S → Prop) : Prop := ∀ s l s', I s → T.step s l s' → I s'

structure Inductive (T : LTS S L) (I : S → Prop) : Prop where
  init : ∀ s, T.init s → I s
  step : T.Stable I

theorem Stable.run {I : S → Prop} (h : T.Stable I) :
    ∀ {s ls s'}, T.Run s ls s' → I s → I s'
  | _, _, _, .nil _, hi => hi
  | _, _, _, .cons hs hr, hi => Stable.run h hr (h _ _ _ hi hs)

theorem Inductive.reachable {I : S → Prop} (h : T.Inductive I) (s : S) (hr : T.Reachable s) : I s := by
  obtain ⟨s₀, ls, hi, hrun⟩ := hr
  exact h.step.run hrun (h.init s₀ hi)

theorem Run.append {s ls s' ls' s''} (h : T.Run s ls s') (h' : T.Run s' ls' s'') :
    T.Run s (ls ++ ls') s'' := by
  induction h with
  | nil => exact h'
  | cons hs _ ih => exact .cons hs (ih h')

theorem Reachable.run {s ls s'} (h : T.Reachable s) (hr : T.Run s ls s') : T.Reachable s' := by
  obtain ⟨s₀, ls₀, hi, hrun⟩ := h
  exact ⟨s₀, ls₀ ++ ls, hi, hrun.append hr⟩

/-- The runs of `T` whose steps all meet `ok`. -/
def restrict (T : LTS S L) (ok : S → L → Prop) : LTS S L where
  init := T.init
  step s l s' := ok s l ∧ T.step s l s'

/-- A run computed by a partial step function whose steps are steps of `T`. -/
theorem run_of_foldlM {f : S → L → Option S} (hf : ∀ s l s', f s l = some s' → T.step s l s') :
    ∀ {ls : List L} {s s' : S}, ls.foldlM f s = some s' → T.Run s ls s'
  | [], _, _, h => by cases h; exact .nil _
  | l :: ls, s, s', h => by
    rw [List.foldlM_cons] at h
    obtain ⟨t, hstep, hrest⟩ := Option.bind_eq_some_iff.1 h
    exact .cons (hf s l t hstep) (run_of_foldlM hf hrest)

end LTS

/-! ## Logs -/

/-- An entry of a log with one entry more. -/
theorem get_snoc {α : Type} {l : List α} {a b : α} {k : Nat} (h : (l ++ [a])[k]? = some b) :
    k < l.length ∧ l[k]? = some b ∨ k = l.length ∧ b = a := by
  by_cases hlt : k < l.length
  · rw [List.getElem?_append_left hlt] at h
    exact .inl ⟨hlt, h⟩
  · have hlen := (List.getElem?_eq_some_iff.1 h).1
    simp only [List.length_append, List.length_singleton] at hlen
    have hk : k = l.length := by omega
    subst hk
    rw [List.getElem?_concat_length] at h
    exact .inr ⟨rfl, (Option.some.inj h).symm⟩

/-- An old entry stays where it is. -/
theorem get_snoc_of_get {α : Type} {l : List α} {b : α} {k : Nat} (h : l[k]? = some b) (a : α) :
    (l ++ [a])[k]? = some b := by
  obtain ⟨hlt, -⟩ := List.getElem?_eq_some_iff.1 h
  rw [List.getElem?_append_left hlt]
  exact h

end RenetCross
