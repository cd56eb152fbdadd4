import RenetCross.L1Encoding.SocketAddr

/-!
# Reading socket addresses

The parser of the standard library's `SocketAddr`, as `str::parse` runs it in the
clients (`src/native_client.rs`, `src/web_client.rs`). A reader takes the text and
returns what it read with the rest of the text; one that fails leaves the text
where it was. `parse_display` is the round trip with `SocketAddr::to_string`, which
leaves the flow information out.
-/
namespace RenetCross

/-! ## Readers -/

def below (radix d : Nat) : Option Nat := if d < radix then some d else none

/-- `char::to_digit`. -/
def toDigit (radix : Nat) (c : UInt8) : Option Nat :=
  if 48 ≤ c.toNat ∧ c.toNat ≤ 57 then below radix (c.toNat - 48)
  else if 97 ≤ c.toNat ∧ c.toNat ≤ 122 then below radix (c.toNat - 87)
  else if 65 ≤ c.toNat ∧ c.toNat ≤ 90 then below radix (c.toNat - 55)
  else none

/-- The loop of `read_number` for a type whose largest value is `top`: the value, the
number of digits and the rest. -/
def readDigits (radix top : Nat) (maxDigits : Option Nat) :
    Bytes → Nat → Nat → Option (Nat × Nat × Bytes)
  | [], n, count => some (n, count, [])
  | c :: rest, n, count =>
    match toDigit radix c with
    | none => some (n, count, c :: rest)
    | some d =>
      if n * radix + d > top then none
      else if maxDigits.any fun limit => limit < count + 1 then none
      else readDigits radix top maxDigits rest (n * radix + d) (count + 1)

/-- `read_number` -/
def readNumber (radix top : Nat) (maxDigits : Option Nat) (allowZeroPrefix : Bool) (text : Bytes) :
    Option (Nat × Bytes) :=
  match readDigits radix top maxDigits text 0 0 with
  | none => none
  | some (n, count, rest) =>
    if count = 0 then none
    else if !allowZeroPrefix && text.head? = some 48 && count > 1 then none
    else some (n, rest)

/-- `read_given_char` -/
def readGivenChar (c : UInt8) : Bytes → Option Bytes
  | [] => none
  | b :: rest => if b = c then some rest else none

/-- `read_separator` -/
def readSeparator {α : Type} (sep : UInt8) (index : Nat) (inner : Bytes → Option (α × Bytes))
    (text : Bytes) : Option (α × Bytes) :=
  if index > 0 then (readGivenChar sep text).bind inner else inner text

def DOT : UInt8 := 46
def COLON : UInt8 := 58

/-- One of the four numbers of an IPv4 address. -/
def readOctet (index : Nat) : Bytes → Option (Nat × Bytes) :=
  readSeparator DOT index (readNumber 10 255 (some 3) false)

/-- `read_ipv4_addr` -/
def readIpv4Addr (text : Bytes) : Option (Ipv4Addr × Bytes) := do
  let (a, text) ← readOctet 0 text
  let (b, text) ← readOctet 1 text
  let (c, text) ← readOctet 2 text
  let (d, text) ← readOctet 3 text
  return (⟨a.toUInt8, b.toUInt8, c.toUInt8, d.toUInt8⟩, text)

/-- `u16::from_be_bytes`. -/
def fromBeBytes16 (hi lo : UInt8) : UInt16 := (hi.toUInt16 <<< 8) + lo.toUInt16

/-- `read_groups` with `left` places of the slice still free, `i` of them written; also
whether it ended with an embedded IPv4 address. -/
def readGroups : Nat → Nat → Bytes → List UInt16 × Bool × Bytes
  | 0, _, text => ([], false, text)
  | left + 1, i, text =>
    match if left > 0 then readSeparator COLON i readIpv4Addr text else none with
    | some (ip, rest) => ([fromBeBytes16 ip.a ip.b, fromBeBytes16 ip.c ip.d], true, rest)
    | none =>
      match readSeparator COLON i (readNumber 16 0xffff (some 4) true) text with
      | none => ([], false, text)
      | some (group, rest) =>
        let r := readGroups left (i + 1) rest
        (group.toUInt16 :: r.1, r.2)

/-- `Ipv6Addr::from` eight segments. -/
def Ipv6Addr.ofSegments (s : List UInt16) : Ipv6Addr :=
  ⟨s.getD 0 0, s.getD 1 0, s.getD 2 0, s.getD 3 0, s.getD 4 0, s.getD 5 0, s.getD 6 0, s.getD 7 0⟩

/-- `read_ipv6_addr` -/
def readIpv6Addr (text : Bytes) : Option (Ipv6Addr × Bytes) :=
  let front := readGroups 8 0 text
  if front.1.length = 8 then some (.ofSegments front.1, front.2.2)
  else if front.2.1 then none
  else do
    let text ← readGivenChar COLON front.2.2
    let text ← readGivenChar COLON text
    let back := readGroups (8 - (front.1.length + 1)) 0 text
    return (.ofSegments (front.1 ++ List.replicate (8 - front.1.length - back.1.length) 0 ++ back.1),
      back.2.2)

/-- `read_port` -/
def readPort (text : Bytes) : Option (UInt16 × Bytes) := do
  let text ← readGivenChar COLON text
  let (port, text) ← readNumber 10 0xffff none true text
  return (port.toUInt16, text)

/-- `read_scope_id` -/
def readScopeId (text : Bytes) : Option (UInt32 × Bytes) := do
  let text ← readGivenChar 37 text
  let (scopeId, text) ← readNumber 10 0xffffffff none true text
  return (scopeId.toUInt32, text)

/-- `read_socket_addr_v4` -/
def readSocketAddrV4 (text : Bytes) : Option (SocketAddr × Bytes) := do
  let (ip, text) ← readIpv4Addr text
  let (port, text) ← readPort text
  return (.v4 ip port, text)

/-- `read_socket_addr_v6` -/
def readSocketAddrV6 (text : Bytes) : Option (SocketAddr × Bytes) := do
  let text ← readGivenChar 91 text
  let (ip, text) ← readIpv6Addr text
  let (scopeId, text) := (readScopeId text).getD (0, text)
  let text ← readGivenChar 93 text
  let (port, text) ← readPort text
  return (.v6 ip port 0 scopeId, text)

/-- `SocketAddr::from_str`: the whole text must be read. -/
def SocketAddr.parse (text : Bytes) : Option SocketAddr :=
  match (readSocketAddrV4 text).or (readSocketAddrV6 text) with
  | some (addr, []) => some addr
  | _ => none

/-! ## Numbers -/

/-- The text does not go on with a digit. -/
def Stops (radix : Nat) (text : Bytes) : Prop := ∀ c, text.head? = some c → toDigit radix c = none

theorem digitByte_toNat {d : Nat} (h : d < 16) :
    (digitByte d).toNat = if d < 10 then 48 + d else 87 + d := by
  unfold digitByte
  split <;> simp only [UInt8.toNat_ofNat', Nat.toUInt8] <;> omega

theorem toDigit_digitByte {radix d : Nat} (hr : radix ≤ 16) (h : d < radix) :
    toDigit radix (digitByte d) = some d := by
  have hd := digitByte_toNat (show d < 16 by omega)
  unfold toDigit
  rw [hd]
  by_cases hten : d < 10
  · rw [if_pos hten, if_pos (by omega), Nat.add_sub_cancel_left]
    exact if_pos h
  · rw [if_neg hten, if_neg (by omega), if_pos (by omega), Nat.add_sub_cancel_left]
    exact if_pos h

/-- A number from its digits, the most significant first. -/
def fromDigits (radix n : Nat) (ds : List Nat) : Nat := ds.foldl (fun n d => n * radix + d) n

theorem le_fromDigits {radix : Nat} (hr : 0 < radix) : ∀ (ds : List Nat) (n : Nat),
    n ≤ fromDigits radix n ds
  | [], n => Nat.le_refl n
  | d :: ds, n => by
    have ih := le_fromDigits hr ds (n * radix + d)
    have hle : n ≤ n * radix := Nat.le_mul_of_pos_right n hr
    simp only [fromDigits, List.foldl_cons] at ih ⊢
    omega

theorem readDigits_digits (top : Nat) (maxDigits : Option Nat) {radix : Nat} {rest : Bytes}
    (hr : 0 < radix) (hle : radix ≤ 16) (hstop : Stops radix rest) :
    ∀ (ds : List Nat) (n count : Nat),
    (∀ d ∈ ds, d < radix) → fromDigits radix n ds ≤ top →
    (∀ limit, maxDigits = some limit → count + ds.length ≤ limit) →
      readDigits radix top maxDigits (ds.map digitByte ++ rest) n count =
        some (fromDigits radix n ds, count + ds.length, rest)
  | [], n, count, _, _, _ => by
    cases rest with
    | nil => rfl
    | cons c rest =>
      have hc : toDigit radix c = none := hstop c rfl
      simp only [List.map_nil, List.nil_append, readDigits, hc]
      rfl
  | d :: ds, n, count, hds, htop, hmax => by
    have hd : d < radix := hds d List.mem_cons_self
    have hfirst : n * radix + d ≤ top := (le_fromDigits hr ds _).trans htop
    have hcount : ¬ (maxDigits.any fun limit => limit < count + 1) = true := by
      rw [Option.any_eq_true]
      rintro ⟨limit, hlimit, hlt⟩
      have := hmax limit hlimit
      rw [List.length_cons] at this
      have := of_decide_eq_true hlt
      omega
    have ih := readDigits_digits top maxDigits hr hle hstop ds (n * radix + d) (count + 1)
      (fun d hd => hds d (List.mem_cons_of_mem _ hd)) htop fun limit hlimit => by
        have := hmax limit hlimit
        rw [List.length_cons] at this
        omega
    rw [List.map_cons, List.cons_append, readDigits, toDigit_digitByte hle hd]
    dsimp only
    rw [if_neg (Nat.not_lt.2 hfirst), if_neg hcount, ih, List.length_cons, Nat.add_assoc,
      Nat.add_comm 1]
    rfl

/-- The digits `written` writes. -/
def digitsOf (base n : Nat) : List Nat := if n = 0 then [0] else (Nat.digits base n).reverse

theorem written_eq (base n : Nat) : written base n = (digitsOf base n).map digitByte := by
  unfold written digitsOf
  split
  · rfl
  · rw [List.map_reverse]

theorem fromDigits_digitsOf (base n : Nat) : fromDigits base 0 (digitsOf base n) = n := by
  unfold digitsOf
  split
  · rename_i hn
    simp [fromDigits, hn]
  · calc fromDigits base 0 (Nat.digits base n).reverse
        = (Nat.digits base n).foldr (fun d n => n * base + d) 0 := List.foldl_reverse
      _ = Nat.ofDigits base (Nat.digits base n) := by
        rw [Nat.ofDigits_eq_foldr]
        congr 1
        funext d n
        rw [Nat.mul_comm, Nat.add_comm]
        rfl
      _ = n := Nat.ofDigits_digits base n

theorem digitsOf_lt {base n : Nat} (hb : 1 < base) {d : Nat} (h : d ∈ digitsOf base n) : d < base := by
  unfold digitsOf at h
  split at h
  · rw [List.mem_singleton.1 h]; omega
  · exact Nat.digits_lt_base hb (List.mem_reverse.1 h)

/-- A number is written without a leading zero. -/
theorem head_digitsOf (base n : Nat) (h : (digitsOf base n).head? = some 0) :
    (digitsOf base n).length = 1 := by
  unfold digitsOf at h ⊢
  split
  · rfl
  · rename_i hn
    rw [if_neg hn, List.head?_reverse,
      List.getLast?_eq_some_getLast (Nat.digits_ne_nil_iff_ne_zero.2 hn)] at h
    exact absurd (Option.some.inj h) (Nat.getLast_digit_ne_zero base hn)

theorem readNumber_written {base top n : Nat} {maxDigits : Option Nat} {allowZeroPrefix : Bool}
    {rest : Bytes} (hb : 1 < base) (hle : base ≤ 16) (hn : n ≤ top)
    (hmax : ∀ limit, maxDigits = some limit → 0 < limit ∧ n < base ^ limit) (hstop : Stops base rest) :
    readNumber base top maxDigits allowZeroPrefix (written base n ++ rest) = some (n, rest) := by
  have hlen : (digitsOf base n).length = (written base n).length := by rw [written_eq, List.length_map]
  have hread := readDigits_digits top maxDigits (by omega) hle hstop
    (digitsOf base n) 0 0 (fun d => digitsOf_lt hb) ((fromDigits_digitsOf base n).trans_le hn)
    fun limit hlimit => by
      obtain ⟨hpos, hlt⟩ := hmax limit hlimit
      rw [hlen, Nat.zero_add]
      exact length_written_le base hb hpos hlt
  unfold readNumber
  rw [written_eq, hread, fromDigits_digitsOf, Nat.zero_add]
  dsimp only
  have hne : digitsOf base n ≠ [] := by
    unfold digitsOf
    split
    · exact List.cons_ne_nil _ _
    · exact List.reverse_ne_nil_iff.2 (Nat.digits_ne_nil_iff_ne_zero.2 ‹_›)
  rw [if_neg (List.length_eq_zero_iff.not.2 hne), if_neg]
  -- a first digit 0 is the only digit
  intro hzero
  simp only [Bool.and_eq_true, decide_eq_true_eq] at hzero
  obtain ⟨⟨-, hhead⟩, hlong⟩ := hzero
  obtain ⟨d, ds, hds⟩ := List.exists_cons_of_ne_nil hne
  have hd : d < 16 := (digitsOf_lt hb (hds ▸ List.mem_cons_self)).trans_le hle
  have hbyte := digitByte_toNat hd
  rw [hds, List.map_cons, List.cons_append, List.head?_cons, Option.some.injEq] at hhead
  rw [hhead] at hbyte
  have hd0 : d = 0 := by
    change 48 = _ at hbyte
    split at hbyte <;> omega
  have hone := head_digitsOf base n (by rw [hds, hd0]; rfl)
  omega

/-! ## IPv4 addresses -/

theorem stops_cons {radix : Nat} {c : UInt8} (rest : Bytes) (h : toDigit radix c = none) :
    Stops radix (c :: rest) := by
  rintro _ ⟨⟩
  exact h

theorem below_eq_none {radix d : Nat} : below radix d = none ↔ radix ≤ d := by
  unfold below
  split <;> simp <;> omega

theorem Stops.decimal {text : Bytes} (h : Stops 16 text) : Stops 10 text := by
  intro c hc
  have hnone := h c hc
  unfold toDigit at hnone ⊢
  split_ifs at hnone ⊢
  all_goals first | rfl | exact below_eq_none.2 ((by decide : 10 ≤ 16).trans (below_eq_none.1 hnone))

theorem readOctet_first {n : Nat} {rest : Bytes} (hn : n ≤ 255) (hstop : Stops 10 rest) :
    readOctet 0 (decimal n ++ rest) = some (n, rest) :=
  readNumber_written (by decide) (by decide) hn
    (fun limit hlimit => by cases hlimit; exact ⟨by decide, by omega⟩) hstop

theorem readOctet_next {n i : Nat} {rest : Bytes} (hn : n ≤ 255) (hstop : Stops 10 rest) :
    readOctet (i + 1) (DOT :: (decimal n ++ rest)) = some (n, rest) :=
  readOctet_first hn hstop

theorem readIpv4Addr_display (ip : Ipv4Addr) {rest : Bytes} (hstop : Stops 10 rest) :
    readIpv4Addr (ip.display ++ rest) = some (ip, rest) := by
  have hle : ∀ n : UInt8, n.toNat ≤ 255 := fun n => Nat.le_of_lt_succ n.toNat_lt
  have hdot : ∀ text : Bytes, Stops 10 (DOT :: text) := fun text => stops_cons text (by decide)
  have htext : ip.display ++ rest = decimal ip.a.toNat ++ DOT :: (decimal ip.b.toNat ++
      DOT :: (decimal ip.c.toNat ++ DOT :: (decimal ip.d.toNat ++ rest))) := by
    simp only [Ipv4Addr.display, ascii, List.map_cons, List.map_nil, List.append_assoc,
      List.cons_append, List.nil_append]
    rfl
  unfold readIpv4Addr
  rw [htext, readOctet_first (hle ip.a) (hdot _)]
  simp only [Option.bind_eq_bind, Option.bind_some]
  rw [readOctet_next (hle ip.b) (hdot _)]
  simp only [Option.bind_some]
  rw [readOctet_next (hle ip.c) (hdot _)]
  simp only [Option.bind_some]
  rw [readOctet_next (hle ip.d) hstop]
  simp only [Option.bind_some, Option.pure_def, Nat.toUInt8_eq, UInt8.ofNat_toNat]

/-- Text that does not begin with a decimal digit is no IPv4 address. -/
theorem readIpv4Addr_of_stops {text : Bytes} (h : Stops 10 text) : readIpv4Addr text = none := by
  have hfirst : readOctet 0 text = none := by
    cases text with
    | nil => rfl
    | cons c rest =>
      have hc : toDigit 10 c = none := h c rfl
      simp only [readOctet, readSeparator, Nat.lt_irrefl, if_false, readNumber, readDigits, hc, if_true]
  unfold readIpv4Addr
  rw [hfirst]
  rfl

theorem readDigits_suffix {radix top : Nat} {maxDigits : Option Nat} {n' count' : Nat} {rest : Bytes} :
    ∀ (text : Bytes) (n count : Nat),
      readDigits radix top maxDigits text n count = some (n', count', rest) → rest <:+ text
  | [], n, count, h => by cases h; exact List.suffix_refl _
  | c :: text, n, count, h => by
    unfold readDigits at h
    split at h
    · cases h; exact List.suffix_refl _
    · split at h
      · cases h
      · split at h
        · cases h
        · exact (readDigits_suffix text _ _ h).trans (List.suffix_cons c text)

theorem readNumber_suffix {radix top : Nat} {maxDigits : Option Nat} {allow : Bool} {n : Nat}
    {text rest : Bytes} (h : readNumber radix top maxDigits allow text = some (n, rest)) :
    rest <:+ text := by
  unfold readNumber at h
  split at h
  · cases h
  · rename_i hread
    split at h
    · cases h
    · split at h
      · cases h
      · cases h
        exact readDigits_suffix _ _ _ hread

/-- An IPv4 address has dots. -/
theorem readIpv4Addr_of_no_dot {text : Bytes} (h : DOT ∉ text) : readIpv4Addr text = none := by
  unfold readIpv4Addr
  cases hfirst : readOctet 0 text with
  | none => rfl
  | some r =>
    obtain ⟨a, rest⟩ := r
    have hrest : DOT ∉ rest := fun hmem => h ((readNumber_suffix hfirst).subset hmem)
    have hnext : readOctet 1 rest = none := by
      cases rest with
      | nil => rfl
      | cons c rest =>
        have hc : c ≠ DOT := fun hc => hrest (hc ▸ List.mem_cons_self)
        have hgiven : readGivenChar DOT (c :: rest) = none := if_neg hc
        unfold readOctet readSeparator
        rw [if_pos (by decide), hgiven]
        rfl
    simp only [Option.bind_eq_bind, Option.bind_some, hnext, Option.bind_none]

/-! ## Groups -/

/-- The groups, each after a colon. -/
def colonGroups (segs : List UInt16) : Bytes := segs.flatMap fun s => COLON :: hex s.toNat

theorem hexGroups_cons (s : UInt16) : ∀ segs : List UInt16,
    hexGroups (s :: segs) = hex s.toNat ++ colonGroups segs
  | [] => (List.append_nil _).symm
  | s' :: segs => by
    rw [hexGroups, hexGroups_cons s' segs]
    · simp only [colonGroups, List.flatMap_cons, List.append_assoc]
      rfl
    · exact List.cons_ne_nil s' segs

/-- Neither a digit follows nor another group. -/
structure GroupsEnd (text : Bytes) : Prop where
  digit : Stops 16 text
  group : ∀ rest, text = COLON :: rest → Stops 16 rest

theorem stops_colonGroups {segs : List UInt16} {rest : Bytes} (h : Stops 16 rest) :
    Stops 16 (colonGroups segs ++ rest) := by
  cases segs with
  | nil => exact h
  | cons s segs => exact stops_cons _ (by decide)

theorem readGroup_hex (s : UInt16) {rest : Bytes} (h : Stops 16 rest) :
    readNumber 16 0xffff (some 4) true (hex s.toNat ++ rest) = some (s.toNat, rest) :=
  readNumber_written (by decide) (by decide) (Nat.le_of_lt_succ s.toNat_lt)
    (fun limit hlimit => by cases hlimit; exact ⟨by decide, s.toNat_lt⟩) h

theorem readNumber_of_stops {radix top : Nat} {maxDigits : Option Nat} {allow : Bool} {text : Bytes}
    (h : Stops radix text) : readNumber radix top maxDigits allow text = none := by
  unfold readNumber
  cases text with
  | nil => rfl
  | cons c rest =>
    have hc : toDigit radix c = none := h c rfl
    simp only [readDigits, hc, if_true]

/-- No group is read where the groups end. -/
theorem readGroups_end {text : Bytes} (hend : GroupsEnd text) (left i : Nat) :
    readGroups left i text = ([], false, text) := by
  cases left with
  | zero => rfl
  | succ left =>
    have hsep : ∀ {α : Type} (inner : Bytes → Option (α × Bytes)), inner text = none →
        (∀ rest, text = COLON :: rest → inner rest = none) →
        readSeparator COLON i inner text = none := by
      intro α inner hnone hcolon
      unfold readSeparator
      split
      · cases text with
        | nil => rfl
        | cons c rest =>
          by_cases hc : c = COLON
          · have hgiven : readGivenChar COLON (c :: rest) = some rest := if_pos hc
            rw [hgiven]
            exact hcolon rest (by rw [hc])
          · have hgiven : readGivenChar COLON (c :: rest) = none := if_neg hc
            rw [hgiven]
            rfl
      · exact hnone
    have hip : readSeparator COLON i readIpv4Addr text = none :=
      hsep _ (readIpv4Addr_of_stops hend.digit.decimal) fun rest hrest =>
        readIpv4Addr_of_stops (hend.group rest hrest).decimal
    have hgroup : readSeparator COLON i (readNumber 16 0xffff (some 4) true) text = none :=
      hsep _ (readNumber_of_stops hend.digit) fun rest hrest => readNumber_of_stops (hend.group rest hrest)
    unfold readGroups
    rw [hip, hgroup]
    simp only [ite_self]

theorem readGroups_colonGroups {rest : Bytes} (hend : GroupsEnd rest) :
    ∀ (segs : List UInt16) (left i : Nat),
    0 < i → segs.length ≤ left → DOT ∉ colonGroups segs ++ rest →
      readGroups left i (colonGroups segs ++ rest) = (segs, false, rest)
  | [], left, i, _, _, _ => readGroups_end hend left i
  | s :: segs, 0, i, _, hlen, _ => absurd hlen (by simp)
  | s :: segs, left + 1, i, hi, hlen, hdot => by
    have htext : colonGroups (s :: segs) ++ rest =
        COLON :: (hex s.toNat ++ (colonGroups segs ++ rest)) := by
      simp only [colonGroups, List.flatMap_cons, List.append_assoc, List.cons_append]
    rw [htext] at hdot ⊢
    have hdot' : DOT ∉ hex s.toNat ++ (colonGroups segs ++ rest) := fun h => hdot (List.mem_cons_of_mem _ h)
    have hip : readSeparator COLON i readIpv4Addr
        (COLON :: (hex s.toNat ++ (colonGroups segs ++ rest))) = none := by
      unfold readSeparator
      rw [if_pos hi]
      exact readIpv4Addr_of_no_dot hdot'
    have hgroup : readSeparator COLON i (readNumber 16 0xffff (some 4) true)
        (COLON :: (hex s.toNat ++ (colonGroups segs ++ rest))) =
          some (s.toNat, colonGroups segs ++ rest) := by
      unfold readSeparator
      rw [if_pos hi]
      exact readGroup_hex s (stops_colonGroups hend.digit)
    have ih := readGroups_colonGroups hend segs left (i + 1) (Nat.succ_pos i)
      (Nat.le_of_succ_le_succ hlen) fun h => hdot' (List.mem_append_right _ h)
    unfold readGroups
    rw [hip, hgroup]
    simp only [ite_self, ih, Nat.toUInt16_eq, UInt16.ofNat_toNat]

/-- The groups of a part of an address, up to where they end. -/
theorem readGroups_hexGroups {rest : Bytes} (hend : GroupsEnd rest) (segs : List UInt16) (left : Nat)
    (hlen : segs.length ≤ left) (hdot : DOT ∉ hexGroups segs ++ rest) :
    readGroups left 0 (hexGroups segs ++ rest) = (segs, false, rest) := by
  cases segs with
  | nil => exact readGroups_end hend left 0
  | cons s segs =>
    cases left with
    | zero => exact absurd hlen (by simp)
    | succ left =>
      rw [hexGroups_cons, List.append_assoc] at hdot ⊢
      have ih := readGroups_colonGroups hend segs left 1 (by decide) (Nat.le_of_succ_le_succ hlen)
        fun h => hdot (List.mem_append_right _ h)
      have hip : readSeparator COLON 0 readIpv4Addr (hex s.toNat ++ (colonGroups segs ++ rest)) = none :=
        readIpv4Addr_of_no_dot hdot
      have hgroup : readSeparator COLON 0 (readNumber 16 0xffff (some 4) true)
          (hex s.toNat ++ (colonGroups segs ++ rest)) = some (s.toNat, colonGroups segs ++ rest) :=
        readGroup_hex s (stops_colonGroups hend.digit)
      unfold readGroups
      rw [hip, hgroup]
      simp only [ite_self, ih, Nat.toUInt16_eq, UInt16.ofNat_toNat]

/-! ## IPv6 addresses -/

theorem ne_dot_of_mem_written {base n : Nat} {c : UInt8} (hb : 1 < base) (hle : base ≤ 16)
    (h : c ∈ written base n) : c ≠ DOT := by
  rw [written_eq] at h
  obtain ⟨d, hd, rfl⟩ := List.mem_map.1 h
  have hbyte := digitByte_toNat ((digitsOf_lt hb hd).trans_le hle)
  intro hc
  rw [hc] at hbyte
  change 46 = _ at hbyte
  split at hbyte <;> omega

theorem dot_not_mem_hexGroups : ∀ segs : List UInt16, DOT ∉ hexGroups segs
  | [] => List.not_mem_nil
  | [s] => fun h => ne_dot_of_mem_written (by decide) (by decide) h rfl
  | s :: s' :: segs => by
    have ih := dot_not_mem_hexGroups (s' :: segs)
    simp only [hexGroups, List.mem_append, not_or]
    refine ⟨⟨fun h => ne_dot_of_mem_written (by decide) (by decide) h rfl, by decide⟩, ih⟩

theorem fromBeBytes16_toBeBytes16 (s : UInt16) : fromBeBytes16 (s >>> 8).toUInt8 s.toUInt8 = s := by
  apply UInt16.toNat_inj.1
  have hs := s.toNat_lt
  simp only [fromBeBytes16, UInt16.toNat_add, UInt16.toNat_shiftLeft, UInt8.toNat_toUInt16,
    UInt16.toNat_toUInt8, UInt16.toNat_shiftRight, Nat.shiftLeft_eq, Nat.shiftRight_eq_div_pow,
    UInt16.reduceToNat, Nat.reduceMod, Nat.reducePow]
  omega

theorem ofSegments_segments (ip : Ipv6Addr) : Ipv6Addr.ofSegments ip.segments = ip := rfl

/-- The places from `run.1` on, `run.2` of them, are zero. -/
def ZeroRange (segs : List UInt16) (run : Nat × Nat) : Prop :=
  run.1 + run.2 ≤ segs.length ∧ ∀ k, run.1 ≤ k → k < run.1 + run.2 → segs[k]? = some 0

/-- The search keeps the longest run so far and the run it is in; `i` segments are
behind it. -/
theorem zeroRange_zeroRun {segs : List UInt16} :
    ∀ (rest : List UInt16) (i : Nat) (longest current : Nat × Nat),
    segs.drop i = rest → ZeroRange segs longest → ZeroRange segs current →
      (current.2 ≠ 0 → current.1 + current.2 = i) → ZeroRange segs (zeroRun rest i longest current)
  | [], _, _, _, _, hlongest, _, _ => hlongest
  | s :: rest, i, longest, current, hdrop, hlongest, hcurrent, hat => by
    have hi : segs[i]? = some s := by
      rw [← List.head?_drop, hdrop, List.head?_cons]
    have hlt : i < segs.length := (List.getElem?_eq_some_iff.1 hi).1
    have hrest : segs.drop (i + 1) = rest := by
      rw [← List.tail_drop, hdrop, List.tail_cons]
    unfold zeroRun
    split
    · rename_i hs
      subst hs
      have hnext : ZeroRange segs (if current.2 = 0 then i else current.1, current.2 + 1) ∧
          (if current.2 = 0 then i else current.1) + (current.2 + 1) = i + 1 := by
        split
        · rename_i hzero
          refine ⟨⟨by simp only; omega, fun k h1 h2 => ?_⟩, by omega⟩
          simp only at h1 h2
          rw [show k = i by omega, hi]
        · rename_i hzero
          have hend := hat hzero
          refine ⟨⟨by simp only; omega, fun k h1 h2 => ?_⟩, by omega⟩
          simp only at h1 h2
          by_cases hk : k = i
          · rw [hk, hi]
          · exact hcurrent.2 k h1 (by omega)
      dsimp only
      refine zeroRange_zeroRun rest (i + 1) _ _ hrest ?_ hnext.1 fun _ => hnext.2
      split
      · exact hnext.1
      · exact hlongest
    · exact zeroRange_zeroRun rest (i + 1) longest (0, 0) hrest hlongest
        ⟨Nat.zero_le _, fun k h1 h2 => absurd h2 (Nat.not_lt_zero k)⟩ fun h => absurd rfl h

/-- A zero range cuts the segments in three. -/
theorem ZeroRange.split {segs : List UInt16} {run : Nat × Nat} (h : ZeroRange segs run) :
    segs.take run.1 ++ List.replicate run.2 0 ++ segs.drop (run.1 + run.2) = segs := by
  obtain ⟨hlen, hzero⟩ := h
  apply List.ext_getElem?
  intro k
  have htake : (segs.take run.1).length = run.1 := by rw [List.length_take]; omega
  by_cases h1 : k < run.1
  · rw [List.append_assoc, List.getElem?_append_left (by rw [htake]; exact h1), List.getElem?_take_of_lt h1]
  · by_cases h2 : k < run.1 + run.2
    · rw [List.append_assoc, List.getElem?_append_right (by omega), List.getElem?_append_left
        (by rw [List.length_replicate, htake]; omega), List.getElem?_replicate, htake,
        if_pos (by omega), hzero k (by omega) h2]
    · have hfront : (segs.take run.1 ++ List.replicate run.2 (0 : UInt16)).length = run.1 + run.2 := by
        rw [List.length_append, htake, List.length_replicate]
      rw [List.getElem?_append_right (by omega), hfront, List.getElem?_drop,
        Nat.add_sub_cancel' (Nat.not_lt.1 h2)]

@[simp] theorem readGivenChar_self (c : UInt8) (text : Bytes) :
    readGivenChar c (c :: text) = some text := by
  simp [readGivenChar]

theorem groupsEnd_cons {c : UInt8} (rest : Bytes) (h : toDigit 16 c = none) (hc : c ≠ COLON) :
    GroupsEnd (c :: rest) where
  digit := stops_cons rest h
  group _ heq := absurd (List.head_eq_of_cons_eq heq) hc

/-- `::` ends the groups before it. -/
theorem groupsEnd_colons (text : Bytes) : GroupsEnd (COLON :: COLON :: text) where
  digit := stops_cons _ (by decide)
  group rest h := by cases h; exact stops_cons _ (by decide)

theorem readIpv6Addr_compressed {front back : List UInt16} {before text rest : Bytes} {embedded : Bool}
    (hfront : readGroups 8 0 before = (front, false, COLON :: COLON :: text)) (hlen : front.length < 8)
    (hback : readGroups (8 - (front.length + 1)) 0 text = (back, embedded, rest)) :
    readIpv6Addr before =
      some (.ofSegments (front ++ List.replicate (8 - front.length - back.length) 0 ++ back), rest) := by
  unfold readIpv6Addr
  simp only [hfront]
  rw [if_neg (Nat.ne_of_lt hlen), if_neg Bool.false_ne_true]
  simp only [readGivenChar_self, Option.bind_eq_bind, Option.bind_some, hback, Option.pure_def]

theorem hex_ffff : hex 0xffff = ascii ['f', 'f', 'f', 'f'] := by
  unfold hex written
  rw [if_neg (by decide)]
  norm_num [digitByte, ascii]
  rfl

/-- The last two segments of a mapped address are read from its IPv4 part. -/
theorem readGroups_mapped (v4 : Ipv4Addr) {rest : Bytes} (hstop : Stops 10 rest) :
    readGroups 7 0 (hex 0xffff ++ COLON :: (v4.display ++ rest)) =
      ([0xffff, fromBeBytes16 v4.a v4.b, fromBeBytes16 v4.c v4.d], true, rest) := by
  have hfirst : readSeparator COLON 0 readIpv4Addr (hex 0xffff ++ COLON :: (v4.display ++ rest)) = none := by
    rw [hex_ffff]
    exact readIpv4Addr_of_stops (stops_cons _ (by decide))
  have hcolon : Stops 16 (COLON :: (v4.display ++ rest)) := stops_cons _ (by decide)
  have hgroup : readSeparator COLON 0 (readNumber 16 0xffff (some 4) true)
      (hex 0xffff ++ COLON :: (v4.display ++ rest)) = some (0xffff, COLON :: (v4.display ++ rest)) :=
    readGroup_hex 0xffff hcolon
  have hip : readSeparator COLON 1 readIpv4Addr (COLON :: (v4.display ++ rest)) = some (v4, rest) :=
    readIpv4Addr_display v4 hstop
  rw [readGroups, if_pos (by decide), hfirst, hgroup]
  dsimp only
  rw [readGroups, if_pos (by decide), hip]
  rfl

theorem readIpv6Addr_display (ip : Ipv6Addr) {rest : Bytes} (hend : GroupsEnd rest)
    (hdot : DOT ∉ rest) : readIpv6Addr (ip.display ++ rest) = some (ip, rest) := by
  unfold Ipv6Addr.display
  split
  · rename_i v4 hmapped
    -- `::ffff:` and the IPv4 address
    unfold Ipv6Addr.toIpv4Mapped at hmapped
    split at hmapped
    · rename_i hzero
      obtain ⟨h0, h1, h2, h3, h4, h5⟩ := hzero
      have hv4 := Option.some.inj hmapped
      have htext : ascii [':', ':', 'f', 'f', 'f', 'f', ':'] ++ v4.display ++ rest =
          COLON :: COLON :: (hex 0xffff ++ COLON :: (v4.display ++ rest)) := by
        rw [hex_ffff, List.append_assoc]
        rfl
      rw [htext, readIpv6Addr_compressed (readGroups_end (groupsEnd_colons _) 8 0) (by decide)
        (readGroups_mapped v4 hend.digit.decimal)]
      rw [← hv4, fromBeBytes16_toBeBytes16, fromBeBytes16_toBeBytes16]
      cases ip
      simp only at h0 h1 h2 h3 h4 h5
      subst h0 h1 h2 h3 h4 h5
      rfl
    · cases hmapped
  · dsimp only
    split
    · rename_i hrun
      set run := zeroRun ip.segments 0 (0, 0) (0, 0)
      have hrange : ZeroRange ip.segments run :=
        zeroRange_zeroRun ip.segments 0 (0, 0) (0, 0) rfl
          ⟨Nat.zero_le _, fun k _ h => absurd h (Nat.not_lt_zero k)⟩
          ⟨Nat.zero_le _, fun k _ h => absurd h (Nat.not_lt_zero k)⟩ fun h => absurd rfl h
      have hlen : run.1 + run.2 ≤ 8 := hrange.1
      have hfront : (ip.segments.take run.1).length = run.1 := by
        rw [List.length_take, show ip.segments.length = 8 from rfl]; omega
      have hback : (ip.segments.drop (run.1 + run.2)).length = 8 - (run.1 + run.2) := by
        rw [List.length_drop]; rfl
      set back := ip.segments.drop (run.1 + run.2)
      have htext : hexGroups (ip.segments.take run.1) ++ ascii [':', ':'] ++ hexGroups back ++ rest =
          hexGroups (ip.segments.take run.1) ++ COLON :: COLON :: (hexGroups back ++ rest) := by
        simp only [List.append_assoc]
        rfl
      have hdots : DOT ∉ hexGroups back ++ rest := fun h =>
        (List.mem_append.1 h).elim (dot_not_mem_hexGroups _) hdot
      have hread := readGroups_hexGroups (groupsEnd_colons (hexGroups back ++ rest))
        (ip.segments.take run.1) 8 (by omega) fun h => (List.mem_append.1 h).elim
          (dot_not_mem_hexGroups _) fun h => hdots (by simpa [DOT, COLON] using h)
      have hrest := readGroups_hexGroups hend back (8 - ((ip.segments.take run.1).length + 1))
        (by omega) hdots
      rw [htext, readIpv6Addr_compressed hread (by omega) hrest]
      rw [show 8 - (ip.segments.take run.1).length - back.length = run.2 by omega, hrange.split,
        ofSegments_segments]
    · have hdots : DOT ∉ hexGroups ip.segments ++ rest := fun h =>
        (List.mem_append.1 h).elim (dot_not_mem_hexGroups _) hdot
      have hread := readGroups_hexGroups hend ip.segments 8 (Nat.le_refl 8) hdots
      unfold readIpv6Addr
      simp only [hread]
      rw [if_pos (show ip.segments.length = 8 from rfl), ofSegments_segments]

/-! ## Socket addresses -/

theorem stops_nil (radix : Nat) : Stops radix [] := fun _ h => nomatch h

theorem readPort_display (port : UInt16) :
    readPort (COLON :: decimal port.toNat) = some (port, []) := by
  have hread : readNumber 10 0xffff none true (decimal port.toNat ++ []) = some (port.toNat, []) :=
    readNumber_written (by decide) (by decide) (Nat.le_of_lt_succ port.toNat_lt)
      (fun limit hlimit => nomatch hlimit) (stops_nil 10)
  rw [List.append_nil] at hread
  unfold readPort
  simp only [readGivenChar_self, Option.bind_eq_bind, Option.bind_some, hread, Option.pure_def,
    Nat.toUInt16_eq, UInt16.ofNat_toNat]

theorem readScopeId_display (scopeId : UInt32) {rest : Bytes} (hstop : Stops 10 rest) :
    readScopeId (37 :: (decimal scopeId.toNat ++ rest)) = some (scopeId, rest) := by
  have hread : readNumber 10 0xffffffff none true (decimal scopeId.toNat ++ rest) =
      some (scopeId.toNat, rest) :=
    readNumber_written (by decide) (by decide) (Nat.le_of_lt_succ scopeId.toNat_lt)
      (fun limit hlimit => nomatch hlimit) hstop
  unfold readScopeId
  simp only [readGivenChar_self, Option.bind_eq_bind, Option.bind_some, hread, Option.pure_def,
    Nat.toUInt32_eq, UInt32.ofNat_toNat]

/-- What can be read back of an address: its text has no flow information. -/
def SocketAddr.withoutFlowinfo : SocketAddr → SocketAddr
  | .v4 ip port => .v4 ip port
  | .v6 ip port _ scopeId => .v6 ip port 0 scopeId

theorem readSocketAddrV6_display (ip : Ipv6Addr) (port : UInt16) (flowinfo scopeId : UInt32) :
    readSocketAddrV6 (SocketAddr.v6 ip port flowinfo scopeId).display =
      some (.v6 ip port 0 scopeId, []) := by
  set tail : Bytes := 93 :: COLON :: decimal port.toNat
  have hport : DOT ∉ tail := by
    simp only [tail, List.mem_cons, not_or]
    exact ⟨by decide, by decide, fun h => ne_dot_of_mem_written (by decide) (by decide) h rfl⟩
  have hclose : Stops 10 tail := stops_cons _ (by decide)
  have hgiven : ∀ (c d : UInt8) (text : Bytes), c ≠ d → readGivenChar d (c :: text) = none :=
    fun c d text h => if_neg h
  unfold readSocketAddrV6
  by_cases hscope : scopeId = 0
  · have htext : (SocketAddr.v6 ip port flowinfo scopeId).display = 91 :: (ip.display ++ tail) := by
      simp only [SocketAddr.display, hscope, if_true, List.append_nil, List.append_assoc]
      rfl
    have hend : GroupsEnd tail := groupsEnd_cons _ (by decide) (by decide)
    have hnone : readScopeId tail = none := by
      unfold readScopeId
      rw [hgiven 93 37 _ (by decide)]
      rfl
    rw [htext]
    simp only [readGivenChar_self, Option.bind_eq_bind, Option.bind_some,
      readIpv6Addr_display ip hend hport, hnone, Option.getD_none]
    simp only [tail, readGivenChar_self, Option.bind_some, readPort_display, Option.pure_def, hscope]
  · set scope : Bytes := 37 :: (decimal scopeId.toNat ++ tail)
    have htext : (SocketAddr.v6 ip port flowinfo scopeId).display = 91 :: (ip.display ++ scope) := by
      simp only [SocketAddr.display, if_neg hscope, List.append_assoc]
      rfl
    have hend : GroupsEnd scope := groupsEnd_cons _ (by decide) (by decide)
    have hdot : DOT ∉ scope := by
      simp only [scope, List.mem_cons, List.mem_append, not_or]
      exact ⟨by decide, fun h => ne_dot_of_mem_written (by decide) (by decide) h rfl, hport⟩
    rw [htext]
    simp only [readGivenChar_self, Option.bind_eq_bind, Option.bind_some,
      readIpv6Addr_display ip hend hdot, scope, readScopeId_display scopeId hclose, Option.getD_some]
    simp only [tail, readGivenChar_self, Option.bind_some, readPort_display, Option.pure_def]

/-- **An address is read back from its text**, but for the flow information, which the
text leaves out. -/
theorem SocketAddr.parse_display (addr : SocketAddr) :
    SocketAddr.parse addr.display = some addr.withoutFlowinfo := by
  cases addr with
  | v4 ip port =>
    have htext : (SocketAddr.v4 ip port).display = ip.display ++ COLON :: decimal port.toNat := by
      simp only [SocketAddr.display, List.append_assoc]
      rfl
    have hcolon : Stops 10 (COLON :: decimal port.toNat) := stops_cons _ (by decide)
    have hread : readSocketAddrV4 (SocketAddr.v4 ip port).display = some (.v4 ip port, []) := by
      unfold readSocketAddrV4
      rw [htext, readIpv4Addr_display ip hcolon]
      simp only [Option.bind_eq_bind, Option.bind_some, readPort_display, Option.pure_def]
    unfold SocketAddr.parse
    rw [hread]
    rfl
  | v6 ip port flowinfo scopeId =>
    have hnone : readSocketAddrV4 (SocketAddr.v6 ip port flowinfo scopeId).display = none := by
      have hstop : Stops 10 (SocketAddr.v6 ip port flowinfo scopeId).display := by
        simp only [SocketAddr.display, List.append_assoc]
        exact stops_cons _ (by decide)
      unfold readSocketAddrV4
      rw [readIpv4Addr_of_stops hstop]
      rfl
    unfold SocketAddr.parse
    rw [hnone, readSocketAddrV6_display]
    rfl

end RenetCross
