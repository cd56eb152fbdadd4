import RenetCross.Core.Num

/-!
# Base64

The standard alphabet with padding, as the engine `STANDARD` of the base64 crate
encodes it. A group of three bytes is a number below `2^24`, written as four
digits in base 64; the last group of one or two bytes is filled with zero bits
and padded with `=`. Decoding accepts exactly the canonical form: padding is
required, and the filling bits must be zero.
-/
namespace RenetCross.Base64

/-- The digit characters: `A`–`Z`, `a`–`z`, `0`–`9`, `+`, `/`. -/
def symbol (d : Nat) : UInt8 :=
  if d < 26 then (65 + d).toUInt8
  else if d < 52 then (71 + d).toUInt8
  else if d < 62 then (d - 4).toUInt8
  else if d = 62 then 0x2b else 0x2f

def PAD : UInt8 := 0x3d

def digit (c : UInt8) : Option Nat :=
  if 65 ≤ c.toNat ∧ c.toNat ≤ 90 then some (c.toNat - 65)
  else if 97 ≤ c.toNat ∧ c.toNat ≤ 122 then some (c.toNat - 71)
  else if 48 ≤ c.toNat ∧ c.toNat ≤ 57 then some (c.toNat + 4)
  else if c = 0x2b then some 62
  else if c = 0x2f then some 63
  else none

/-- The number a group of bytes stands for; missing bytes are zero. -/
def group (a b c : UInt8) : Nat := 65536 * a.toNat + 256 * b.toNat + c.toNat

def encode : Bytes → Bytes
  | [] => []
  | [a] => [symbol (group a 0 0 / 262144), symbol (group a 0 0 / 4096 % 64), PAD, PAD]
  | [a, b] =>
    [symbol (group a b 0 / 262144), symbol (group a b 0 / 4096 % 64), symbol (group a b 0 / 64 % 64), PAD]
  | a :: b :: c :: rest =>
    symbol (group a b c / 262144) :: symbol (group a b c / 4096 % 64) ::
      symbol (group a b c / 64 % 64) :: symbol (group a b c % 64) :: encode rest

/-- The number four digits stand for. -/
def value (d₃ d₂ d₁ d₀ : Nat) : Nat := 262144 * d₃ + 4096 * d₂ + 64 * d₁ + d₀

/-- A last group of one byte. -/
def decodeOne (w x : UInt8) : Option Bytes :=
  match digit w, digit x with
  | some d₃, some d₂ =>
    if value d₃ d₂ 0 0 % 65536 = 0 then some [(value d₃ d₂ 0 0 / 65536).toUInt8] else none
  | _, _ => none

/-- A last group of two bytes. -/
def decodeTwo (w x y : UInt8) : Option Bytes :=
  match digit w, digit x, digit y with
  | some d₃, some d₂, some d₁ =>
    if value d₃ d₂ d₁ 0 % 256 = 0 then
      some [(value d₃ d₂ d₁ 0 / 65536).toUInt8, (value d₃ d₂ d₁ 0 / 256 % 256).toUInt8]
    else none
  | _, _, _ => none

def decodeThree (w x y z : UInt8) : Option Bytes :=
  match digit w, digit x, digit y, digit z with
  | some d₃, some d₂, some d₁, some d₀ =>
    some [(value d₃ d₂ d₁ d₀ / 65536).toUInt8, (value d₃ d₂ d₁ d₀ / 256 % 256).toUInt8,
      (value d₃ d₂ d₁ d₀ % 256).toUInt8]
  | _, _, _, _ => none

def decode : Bytes → Option Bytes
  | [] => some []
  | w :: x :: y :: z :: rest =>
    if z = PAD ∧ rest = [] then if y = PAD then decodeOne w x else decodeTwo w x y
    else
      match decodeThree w x y z, decode rest with
      | some bytes, some more => some (bytes ++ more)
      | _, _ => none
  | _ => none

/-- `Engine::decode_slice` into a buffer of `size` bytes. -/
def decodeSlice (encoded : Bytes) (size : Nat) : Option Bytes :=
  (decode encoded).filter fun bytes => bytes.length ≤ size

theorem digit_symbol : ∀ d < 64, digit (symbol d) = some d ∧ symbol d ≠ PAD := by decide

theorem group_lt (a b c : UInt8) : group a b c < 16777216 := by
  have := a.toNat_lt; have := b.toNat_lt; have := c.toNat_lt
  unfold group; omega

theorem value_digits (n : Nat) : value (n / 262144) (n / 4096 % 64) (n / 64 % 64) (n % 64) = n := by
  unfold value; omega

/-- The bytes of a group. -/
theorem group_bytes (a b c : UInt8) :
    (group a b c / 65536).toUInt8 = a ∧ (group a b c / 256 % 256).toUInt8 = b ∧
      (group a b c % 256).toUInt8 = c := by
  have := a.toNat_lt; have := b.toNat_lt; have := c.toNat_lt
  have h1 : group a b c / 65536 = a.toNat := by unfold group; omega
  have h2 : group a b c / 256 % 256 = b.toNat := by unfold group; omega
  have h3 : group a b c % 256 = c.toNat := by unfold group; omega
  rw [h1, h2, h3]
  exact ⟨UInt8.ofNat_toNat, UInt8.ofNat_toNat, UInt8.ofNat_toNat⟩

theorem decodeOne_encode (a : UInt8) :
    decodeOne (symbol (group a 0 0 / 262144)) (symbol (group a 0 0 / 4096 % 64)) = some [a] := by
  have hlt := group_lt a 0 0
  have hv : value (group a 0 0 / 262144) (group a 0 0 / 4096 % 64) 0 0 = group a 0 0 := by
    simp only [value, group, UInt8.toNat_zero]; omega
  have hfill : group a 0 0 % 65536 = 0 := by simp only [group, UInt8.toNat_zero]; omega
  unfold decodeOne
  rw [(digit_symbol _ (by omega)).1, (digit_symbol _ (by omega)).1]
  simp only [hv, hfill, if_true, (group_bytes a 0 0).1]

theorem decodeTwo_encode (a b : UInt8) :
    decodeTwo (symbol (group a b 0 / 262144)) (symbol (group a b 0 / 4096 % 64))
      (symbol (group a b 0 / 64 % 64)) = some [a, b] := by
  have hlt := group_lt a b 0
  have hv : value (group a b 0 / 262144) (group a b 0 / 4096 % 64) (group a b 0 / 64 % 64) 0 =
      group a b 0 := by
    simp only [value, group, UInt8.toNat_zero]; omega
  have hfill : group a b 0 % 256 = 0 := by simp only [group, UInt8.toNat_zero]; omega
  unfold decodeTwo
  rw [(digit_symbol _ (by omega)).1, (digit_symbol _ (by omega)).1, (digit_symbol _ (by omega)).1]
  simp only [hv, hfill, if_true, (group_bytes a b 0).1, (group_bytes a b 0).2.1]

theorem decodeThree_encode (a b c : UInt8) :
    decodeThree (symbol (group a b c / 262144)) (symbol (group a b c / 4096 % 64))
      (symbol (group a b c / 64 % 64)) (symbol (group a b c % 64)) = some [a, b, c] := by
  have hlt := group_lt a b c
  obtain ⟨h1, h2, h3⟩ := group_bytes a b c
  unfold decodeThree
  rw [(digit_symbol _ (by omega)).1, (digit_symbol _ (by omega)).1, (digit_symbol _ (by omega)).1,
    (digit_symbol _ (by omega)).1]
  simp only [value_digits, h1, h2, h3]

/-- Decoding inverts encoding. -/
theorem decode_encode (bytes : Bytes) : decode (encode bytes) = some bytes := by
  fun_induction encode bytes with
  | case1 => rfl
  | case2 a => simp only [decode, and_self, if_true, decodeOne_encode]
  | case3 a b =>
    have hlt := group_lt a b 0
    have hpad := (digit_symbol (group a b 0 / 64 % 64) (by omega)).2
    simp only [decode, and_self, if_true, if_neg hpad, decodeTwo_encode]
  | case4 a b c rest ih =>
    have hlt := group_lt a b c
    have hpad := (digit_symbol (group a b c % 64) (by omega)).2
    rw [decode, if_neg (fun h => hpad h.1), decodeThree_encode, ih]
    rfl

theorem decodeSlice_encode {bytes : Bytes} {size : Nat} (h : bytes.length ≤ size) :
    decodeSlice (encode bytes) size = some bytes := by
  simp [decodeSlice, decode_encode, h]

end RenetCross.Base64
