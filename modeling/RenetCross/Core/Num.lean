import Mathlib.Order.Basic

/-!
# Machine arithmetic on naturals

Unsigned machine integers are naturals with the wrap or the saturation of each
operation written out. A `Duration` is a number of nanoseconds, at most
`Duration.MAX` (`u64::MAX` seconds and 999 999 999 nanoseconds); an `Instant` is
a number of nanoseconds since an arbitrary origin. Both are plain naturals.
-/
namespace RenetCross

abbrev Bytes := List UInt8

/-- `u64::MAX` (and `usize::MAX` on the targets the crate builds for). -/
def U64_MAX : Nat := 0xffffffffffffffff
def U128_MAX : Nat := 0xffffffffffffffffffffffffffffffff

/-- An `as u64` cast, and an unchecked `u64` addition, keep the low 64 bits. -/
def wrapU64 (n : Nat) : Nat := n % (U64_MAX + 1)

/-- `saturating_add` for an integer type whose largest value is `top`. -/
def satAdd (top a b : Nat) : Nat := min (a + b) top

/-- `saturating_mul` for an integer type whose largest value is `top`. -/
def satMul (top a b : Nat) : Nat := min (a * b) top

def NANOS_PER_SEC : Nat := 1000000000

namespace Duration

def MAX : Nat := NANOS_PER_SEC * (U64_MAX + 1) - 1

/-- A whole number of seconds. -/
def fromSecs (s : Nat) : Nat := NANOS_PER_SEC * s

/-- `as_secs`: whole seconds, rounded down. -/
def asSecs (d : Nat) : Nat := d / NANOS_PER_SEC

def saturatingAdd (a b : Nat) : Nat := satAdd MAX a b

end Duration

theorem satAdd_le (top a b : Nat) : satAdd top a b ≤ a + b := Nat.min_le_left _ _

theorem satMul_le (top a b : Nat) : satMul top a b ≤ a * b := Nat.min_le_left _ _

theorem wrapU64_eq {n : Nat} (h : n ≤ U64_MAX) : wrapU64 n = n :=
  Nat.mod_eq_of_lt (Nat.lt_succ_of_le h)

theorem wrapU64_le (n : Nat) : wrapU64 n ≤ U64_MAX :=
  Nat.le_of_lt_succ (Nat.mod_lt n (Nat.succ_pos U64_MAX))

/-- It makes no difference when a sum wraps. -/
theorem wrapU64_wrapU64_add (a b : Nat) : wrapU64 (wrapU64 a + b) = wrapU64 (a + b) :=
  Nat.mod_add_mod a (U64_MAX + 1) b

/-- A saturating sum below the top is the exact sum. -/
theorem satAdd_eq_of_lt {top a b : Nat} (h : satAdd top a b < top) : satAdd top a b = a + b := by
  unfold satAdd at *; omega

/-! ## Operations that must not leave their type -/

/-- The integer `x` as a value of an unsigned type whose largest value is `top`, if it
is one. -/
def fits (top : Nat) (x : Int) : Option Nat := if 0 ≤ x ∧ x ≤ top then some x.toNat else none

/-- What is in range is kept. -/
theorem fits_natCast {top n : Nat} (h : n ≤ top) : fits top n = some n := by
  unfold fits
  rw [if_pos (by omega)]
  rfl

theorem fits_of_lt {top n : Nat} (h : top < n) : fits top n = none := by
  unfold fits
  rw [if_neg (by omega)]

theorem fits_add {top a b : Nat} (h : a + b ≤ top) : fits top ((a : Int) + b) = some (a + b) := by
  rw [← Int.natCast_add]
  exact fits_natCast h

theorem fits_mul {top a b : Nat} (h : a * b ≤ top) : fits top ((a : Int) * b) = some (a * b) := by
  rw [← Int.natCast_mul]
  exact fits_natCast h

theorem fits_div {top a b : Nat} (h : a / b ≤ top) : fits top ((a : Int) / b) = some (a / b) := by
  rw [← Int.natCast_ediv]
  exact fits_natCast h

theorem fits_sub {top a b : Nat} (hb : b ≤ a) (ha : a ≤ top) :
    fits top ((a : Int) - b) = some (a - b) := by
  rw [← Int.natCast_sub hb]
  exact fits_natCast (Nat.le_trans (Nat.sub_le a b) ha)

end RenetCross
