import Mathlib.Data.List.Sort
import Mathlib.Logic.Function.Basic

/-!
# The ideal delay line

Items arrive in lanes, each with a time at which it is due, and leave when a
clock that never goes back has reached that time: those due first come first, and
those due at one time in the order of their arrival. `waiting` keeps the order of
arrival, and `ready` sorts what is due (insertion sort is stable).

An implementation keeps its items sorted by inserting each behind everything due
no later. `insertLate_byDue` says that this is the same sort.
-/
namespace RenetCross

structure DelayLine (D α : Type) where
  clock : Nat
  waiting : D → List α

namespace DelayLine

section order

variable {α : Type} (due : α → Nat)

/-- By due time, and by arrival where the due times are the same. -/
def byDue (l : List α) : List α := l.insertionSort fun a b => due a ≤ due b

/-- Insertion behind everything that is due no later. -/
def insertLate (x : α) : List α → List α
  | [] => [x]
  | y :: rest => if due y > due x then x :: y :: rest else y :: insertLate x rest

/-- An early arrival and a late one can be inserted in either order. -/
theorem orderedInsert_insertLate (a x : α) (l : List α) :
    (insertLate due x l).orderedInsert (fun a b => due a ≤ due b) a =
      insertLate due x (l.orderedInsert (fun a b => due a ≤ due b) a) := by
  induction l with
  | nil =>
    simp only [insertLate, List.orderedInsert]
    split <;> split <;> first | rfl | omega
  | cons y rest ih =>
    simp only [insertLate, List.orderedInsert]
    by_cases hxy : due y > due x
    · by_cases hay : due a ≤ due y
      · simp only [if_pos hxy, if_pos hay, List.orderedInsert, insertLate]
        split <;> split <;> first | rfl | omega
      · have hax : ¬ due a ≤ due x := by omega
        simp only [if_pos hxy, if_neg hay, if_neg hax, List.orderedInsert, insertLate]
    · by_cases hay : due a ≤ due y
      · have hax : ¬ due a > due x := by omega
        simp only [if_neg hxy, if_pos hay, if_neg hax, List.orderedInsert, insertLate]
      · simp only [if_neg hxy, if_neg hay, List.orderedInsert, insertLate, ih]

theorem insertLate_byDue (x : α) (l : List α) :
    insertLate due x (byDue due l) = byDue due (l ++ [x]) := by
  unfold byDue
  induction l with
  | nil => rfl
  | cons a rest ih =>
    rw [List.cons_append, List.insertionSort_cons, List.insertionSort_cons, ← ih]
    exact (orderedInsert_insertLate due a x _).symm

theorem pairwise_byDue (l : List α) : (byDue due l).Pairwise fun a b => due a ≤ due b := by
  have htrans : IsTrans α fun a b => due a ≤ due b := ⟨fun _ _ _ => Nat.le_trans⟩
  have htotal : Std.Total fun a b : α => due a ≤ due b := ⟨fun a b => Nat.le_total _ _⟩
  exact List.pairwise_insertionSort _ l

/-- Insertion into what is left of a sorted list. -/
theorem filter_orderedInsert (p : α → Bool) (a : α) {l : List α}
    (h : l.Pairwise fun a b => due a ≤ due b) :
    (l.orderedInsert (fun a b => due a ≤ due b) a).filter p =
      if p a then (l.filter p).orderedInsert (fun a b => due a ≤ due b) a else l.filter p := by
  induction l with
  | nil => by_cases hp : p a = true <;> simp [hp]
  | cons y rest ih =>
    obtain ⟨hy, hrest⟩ := List.pairwise_cons.1 h
    simp only [List.orderedInsert]
    by_cases hay : due a ≤ due y
    · rw [if_pos hay]
      by_cases hp : p a = true
      · rw [if_pos hp, List.filter_cons_of_pos hp]
        -- everything behind `y` is due no earlier, so `a` stays in front
        have hall : ∀ b ∈ (y :: rest).filter p, due a ≤ due b := by
          intro b hb
          rcases List.mem_cons.1 (List.mem_filter.1 hb).1 with rfl | hb
          · exact hay
          · exact Nat.le_trans hay (hy b hb)
        cases hf : (y :: rest).filter p with
        | nil => rfl
        | cons b bs =>
          rw [List.orderedInsert, if_pos (hall b (by rw [hf]; exact List.mem_cons_self ..))]
      · rw [if_neg hp, List.filter_cons_of_neg hp]
    · rw [if_neg hay]
      by_cases hpy : p y = true
      · rw [List.filter_cons_of_pos hpy, List.filter_cons_of_pos hpy, ih hrest]
        split
        · rw [List.orderedInsert, if_neg hay]
        · rfl
      · rw [List.filter_cons_of_neg hpy, List.filter_cons_of_neg hpy, ih hrest]

theorem filter_byDue (p : α → Bool) (l : List α) : (byDue due l).filter p = byDue due (l.filter p) := by
  induction l with
  | nil => rfl
  | cons a rest ih =>
    have hcons : byDue due (a :: rest) =
        (byDue due rest).orderedInsert (fun a b => due a ≤ due b) a := rfl
    rw [hcons, filter_orderedInsert due p a (pairwise_byDue due rest), ih]
    by_cases hp : p a = true
    · rw [if_pos hp, List.filter_cons_of_pos hp]; rfl
    · rw [if_neg hp, List.filter_cons_of_neg hp]

end order

variable {D α : Type} [DecidableEq D]

/-- The clock is read; it never goes back. -/
def read (line : DelayLine D α) (now : Nat) : DelayLine D α :=
  { line with clock := max now line.clock }

def put (line : DelayLine D α) (d : D) (x : α) : DelayLine D α :=
  { line with waiting := Function.update line.waiting d (line.waiting d ++ [x]) }

/-- What arrives, if anything does. -/
def offer (line : DelayLine D α) (d : D) : Option α → DelayLine D α
  | some x => line.put d x
  | none => line

/-- What is due in a lane, in the order in which it leaves. -/
def ready (due : α → Nat) (line : DelayLine D α) (d : D) : List α :=
  byDue due ((line.waiting d).filter fun x => due x ≤ line.clock)

/-- What is due leaves. -/
def take (due : α → Nat) (line : DelayLine D α) (d : D) : DelayLine D α :=
  { line with
    waiting := Function.update line.waiting d
      ((line.waiting d).filter fun x => !decide (due x ≤ line.clock)) }

/-- Everything that waits is dropped. -/
def flush (line : DelayLine D α) : DelayLine D α := { line with waiting := fun _ => [] }

/-- A line with nothing on it and its clock at zero. -/
def start : DelayLine D α := ⟨0, fun _ => []⟩

end DelayLine
end RenetCross
