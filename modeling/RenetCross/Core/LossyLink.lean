import Mathlib.Algebra.Order.Group.Multiset

/-!
# A lossy link

What a datagram path promises at least: packets go in one at a time, wait in a
bag, and come out in any order or not at all. Nothing comes out that did not go
in, and nothing comes out twice. A path that delays, reorders or drops is such a
link; its waiting packets are the bag, and its history is a list of moves, newest
first.
-/
namespace RenetCross

inductive LinkMove (α : Type) where
  | accept (x : α)
  | deliver (x : α)
  deriving DecidableEq

namespace LinkMove

variable {α : Type}

def accepted? : LinkMove α → Option α
  | .accept x => some x
  | .deliver _ => none

def delivered? : LinkMove α → Option α
  | .accept _ => none
  | .deliver x => some x

end LinkMove

/-- `LossyLink h b`: after the moves `h` the packets `b` may still come out. -/
inductive LossyLink {α : Type} : List (LinkMove α) → Multiset α → Prop
  | idle : LossyLink [] 0
  | accept {h b} (x : α) : LossyLink h b → LossyLink (.accept x :: h) (x ::ₘ b)
  | deliver {h b} (x : α) : LossyLink h (x ::ₘ b) → LossyLink (.deliver x :: h) b
  | lose {h b b'} : LossyLink h b → b' ≤ b → LossyLink h b'

namespace LossyLink

variable {α : Type} {h : List (LinkMove α)} {b : Multiset α}

/-- The packets that went in. -/
def accepted (h : List (LinkMove α)) : Multiset α := h.filterMap LinkMove.accepted?

/-- The packets that came out. -/
def delivered (h : List (LinkMove α)) : Multiset α := h.filterMap LinkMove.delivered?

theorem conserved (hl : LossyLink h b) : delivered h + b ≤ accepted h := by
  induction hl with
  | idle => exact le_refl _
  | @accept h b x _ ih =>
    have hsame : delivered h + x ::ₘ b = x ::ₘ (delivered h + b) := Multiset.add_cons ..
    exact hsame.le.trans ((Multiset.cons_le_cons_iff x).2 ih)
  | @deliver h b x _ ih =>
    have hsame : x ::ₘ delivered h + b = delivered h + x ::ₘ b := by
      rw [Multiset.cons_add, Multiset.add_cons]
    exact hsame.le.trans ih
  | lose _ hle ih => exact (add_le_add_right hle _).trans ih

/-- A link's past is a link. -/
theorem past (hl : LossyLink h b) : ∀ {newer older}, h = newer ++ older → ∃ b', LossyLink older b' := by
  induction hl with
  | idle =>
    intro newer older heq
    obtain ⟨-, rfl⟩ := List.append_eq_nil_iff.1 heq.symm
    exact ⟨0, .idle⟩
  | @accept h b x hl ih =>
    intro newer older heq
    cases newer with
    | nil => exact ⟨_, heq ▸ LossyLink.accept x hl⟩
    | cons m newer => exact ih (List.cons.inj heq).2
  | @deliver h b x hl ih =>
    intro newer older heq
    cases newer with
    | nil => exact ⟨_, heq ▸ LossyLink.deliver x hl⟩
    | cons m newer => exact ih (List.cons.inj heq).2
  | lose _ _ ih => exact ih

/-- At every moment what has come out went in before. -/
theorem delivered_le {newer older : List (LinkMove α)} (hl : LossyLink (newer ++ older) b) :
    delivered older ≤ accepted older := by
  obtain ⟨b', hpast⟩ := hl.past rfl
  exact (Multiset.le_add_right _ _).trans hpast.conserved

/-! ## The moves of a log -/

variable {ε : Type} {f : ε → Option (LinkMove α)} {g : ε → Option α}

theorem accepted_filterMap (hf : ∀ e, (f e).bind LinkMove.accepted? = g e) (log : List ε) :
    accepted (log.filterMap f) = log.filterMap g := by
  unfold accepted
  rw [List.filterMap_filterMap]
  exact congrArg _ (List.filterMap_congr fun e _ => hf e)

theorem delivered_filterMap (hf : ∀ e, (f e).bind LinkMove.delivered? = g e) (log : List ε) :
    delivered (log.filterMap f) = log.filterMap g := by
  unfold delivered
  rw [List.filterMap_filterMap]
  exact congrArg _ (List.filterMap_congr fun e _ => hf e)

end LossyLink
end RenetCross
