import Mathlib.Data.List.Basic

/-!
# Bodies of bounded length

A body comes in chunks, cut anywhere, and may break off instead of ending. Two ways to
read one that must not be longer than `limit`: refuse the first chunk that does not fit
beside what is held (`gather`), or take at most one item more than allowed and look at
the length afterwards (`takeThenCheck`). Neither sees where the chunks were cut, both
come to `outcome`, and neither holds much more than the limit at any moment.
-/
namespace RenetCross

/-- Why a body is not had: reading failed, or there was too much of it. -/
inductive BodyError (ε : Type) where
  | read (error : ε)
  | tooLarge
  deriving DecidableEq, Repr

/-- The chunks that arrive, and the failure after them, if the body breaks off. -/
structure Body (α ε : Type) where
  chunks : List (List α)
  failure : Option ε
  deriving DecidableEq, Repr

namespace Body

variable {α ε : Type}

/-- All that arrives. -/
def items (b : Body α ε) : List α := b.chunks.flatten

/-- What a body is worth under a limit: a function of the items and the failure. -/
def outcome (limit : Nat) (items : List α) (failure : Option ε) : Except (BodyError ε) (List α) :=
  if items.length > limit then .error .tooLarge
  else failure.elim (.ok items) fun e => .error (.read e)

/-! ## Chunk by chunk -/

/-- `held` is what came before. -/
def gather (limit : Nat) (failure : Option ε) :
    List (List α) → List α → Except (BodyError ε) (List α)
  | [], held => failure.elim (.ok held) fun e => .error (.read e)
  | chunk :: rest, held =>
    if chunk.length > limit - held.length then .error .tooLarge
    else gather limit failure rest (held ++ chunk)

/-- The most that `gather` holds. -/
def gatherPeak (limit : Nat) : List (List α) → List α → Nat
  | [], held => held.length
  | chunk :: rest, held =>
    if chunk.length > limit - held.length then held.length
    else gatherPeak limit rest (held ++ chunk)

theorem gather_eq (limit : Nat) (failure : Option ε) : ∀ (chunks : List (List α)) (held : List α),
    held.length ≤ limit →
      gather limit failure chunks held = outcome limit (held ++ chunks.flatten) failure
  | [], held, hheld => by
    rw [List.flatten_nil, List.append_nil]
    exact (if_neg (Nat.not_lt.2 hheld)).symm
  | chunk :: rest, held, hheld => by
    rw [List.flatten_cons, ← List.append_assoc]
    unfold gather
    split
    · rename_i hlarge
      have hlong : (held ++ chunk ++ rest.flatten).length > limit := by
        rw [List.length_append, List.length_append]
        omega
      exact (if_pos hlong).symm
    · rename_i hfits
      refine gather_eq limit failure rest (held ++ chunk) ?_
      rw [List.length_append]
      omega

/-- The room `limit - held.length` is never negative. -/
theorem gatherPeak_le (limit : Nat) : ∀ (chunks : List (List α)) (held : List α),
    held.length ≤ limit → gatherPeak limit chunks held ≤ limit
  | [], _, hheld => hheld
  | chunk :: rest, held, hheld => by
    unfold gatherPeak
    split
    · exact hheld
    · refine gatherPeak_le limit rest (held ++ chunk) ?_
      rw [List.length_append]
      omega

/-! ## Take and check -/

/-- Reads until `room` items more are held, the body ends or it breaks off. -/
def takeToEnd (failure : Option ε) : Nat → List (List α) → List α → Except ε (List α)
  | 0, _, held => .ok held
  | _ + 1, [], held => failure.elim (.ok held) .error
  | room + 1, chunk :: rest, held =>
    takeToEnd failure (room + 1 - chunk.length) rest (held ++ chunk.take (room + 1))
termination_by _ chunks _ => chunks.length

def takeThenCheck (limit : Nat) (b : Body α ε) : Except (BodyError ε) (List α) :=
  match takeToEnd b.failure (limit + 1) b.chunks [] with
  | .error e => .error (.read e)
  | .ok held => if held.length > limit then .error .tooLarge else .ok held

theorem takeToEnd_eq (failure : Option ε) : ∀ (room : Nat) (chunks : List (List α)) (held : List α),
    takeToEnd failure room chunks held =
      if chunks.flatten.length < room then failure.elim (.ok (held ++ chunks.flatten)) .error
      else .ok (held ++ chunks.flatten.take room)
  | 0, chunks, held => by
    rw [takeToEnd, if_neg (Nat.not_lt_zero _), List.take_zero, List.append_nil]
  | room + 1, [], held => by
    rw [takeToEnd, List.flatten_nil, List.append_nil]
    exact (if_pos (Nat.succ_pos room)).symm
  | room + 1, chunk :: rest, held => by
    rw [takeToEnd, takeToEnd_eq failure _ rest _, List.flatten_cons, List.length_append, List.append_assoc]
    by_cases hfits : chunk.length < room + 1
    · rw [List.take_of_length_le (Nat.le_of_lt hfits), List.take_append,
        List.take_of_length_le (Nat.le_of_lt hfits), List.append_assoc]
      by_cases hall : chunk.length + rest.flatten.length < room + 1
      · rw [if_pos (by omega), if_pos hall]
      · rw [if_neg (by omega), if_neg hall]
    · have hzero : room + 1 - chunk.length = 0 := by omega
      rw [if_neg (by omega), if_neg (by omega), hzero, List.take_zero, List.append_nil,
        List.take_append_of_le_length (Nat.not_lt.1 hfits)]
termination_by _ chunks _ => chunks.length

theorem takeToEnd_length_le {failure : Option ε} {room : Nat} {chunks : List (List α)}
    {held items : List α} (h : takeToEnd failure room chunks held = .ok items) :
    items.length ≤ held.length + room := by
  rw [takeToEnd_eq] at h
  split at h
  · cases failure with
    | none => cases h; rw [List.length_append]; omega
    | some e => cases h
  · cases h
    rw [List.length_append, List.length_take]
    omega

/-! ## The two ways agree -/

theorem gather_eq_outcome (limit : Nat) (b : Body α ε) :
    gather limit b.failure b.chunks [] = outcome limit b.items b.failure :=
  gather_eq limit b.failure b.chunks [] (Nat.zero_le limit)

theorem takeThenCheck_eq_outcome (limit : Nat) (b : Body α ε) :
    takeThenCheck limit b = outcome limit b.items b.failure := by
  unfold takeThenCheck outcome items
  rw [takeToEnd_eq, List.nil_append, List.nil_append]
  by_cases hlong : b.chunks.flatten.length > limit
  · have htake : (b.chunks.flatten.take (limit + 1)).length > limit := by
      rw [List.length_take]; omega
    rw [if_neg (Nat.not_lt.2 hlong), if_pos hlong]
    exact if_pos htake
  · rw [if_pos (Nat.lt_succ_of_le (Nat.not_lt.1 hlong)), if_neg hlong]
    cases b.failure with
    | none => exact if_neg hlong
    | some e => rfl

/-- A body is had exactly when it ends and is not too long. -/
theorem outcome_ok {limit : Nat} {items got : List α} {failure : Option ε} :
    outcome limit items failure = .ok got ↔ got = items ∧ failure = none ∧ items.length ≤ limit := by
  unfold outcome
  split
  · exact ⟨fun h => (nomatch h), fun ⟨_, _, h⟩ => by omega⟩
  · rename_i hlong
    cases failure with
    | none =>
      exact ⟨fun h => by cases h; exact ⟨rfl, rfl, Nat.not_lt.1 hlong⟩, fun h => by rw [h.1]; rfl⟩
    | some e => exact ⟨fun h => (nomatch h), fun h => (nomatch h.2.1)⟩

end Body
end RenetCross
