import Mathlib.Data.Nat.Digits.Lemmas
import RenetCross.Core.Num

/-!
# Socket addresses

`std::net::SocketAddr` with its derived order and its textual form, and the
private IPv6 address the WebRTC transport gives each client id inside its
netcode server (`virtual_addr_for_client` in `src/server.rs`). The packing keeps
all 64 bits of the id, so it is injective.
-/
namespace RenetCross

abbrev ClientId := UInt64

structure Ipv4Addr where
  a : UInt8
  b : UInt8
  c : UInt8
  d : UInt8
  deriving DecidableEq, Repr, Ord, Inhabited

structure Ipv6Addr where
  s0 : UInt16
  s1 : UInt16
  s2 : UInt16
  s3 : UInt16
  s4 : UInt16
  s5 : UInt16
  s6 : UInt16
  s7 : UInt16
  deriving DecidableEq, Repr, Ord, Inhabited

inductive SocketAddr where
  | v4 (ip : Ipv4Addr) (port : UInt16)
  | v6 (ip : Ipv6Addr) (port : UInt16) (flowinfo : UInt32) (scopeId : UInt32)
  deriving DecidableEq, Repr, Ord, Inhabited

def SocketAddr.port : SocketAddr → UInt16
  | .v4 _ port => port
  | .v6 _ port _ _ => port

def Ipv4Addr.octets (ip : Ipv4Addr) : Bytes := [ip.a, ip.b, ip.c, ip.d]

def Ipv6Addr.segments (ip : Ipv6Addr) : List UInt16 :=
  [ip.s0, ip.s1, ip.s2, ip.s3, ip.s4, ip.s5, ip.s6, ip.s7]

/-- `u16::to_be_bytes`. -/
def toBeBytes16 (n : UInt16) : Bytes := [(n >>> 8).toUInt8, n.toUInt8]

def Ipv6Addr.octets (ip : Ipv6Addr) : Bytes := ip.segments.flatMap toBeBytes16

/-- `u64::to_be_bytes`. -/
def toBeBytes64 (n : UInt64) : Bytes :=
  [(n >>> 56).toUInt8, (n >>> 48).toUInt8, (n >>> 40).toUInt8, (n >>> 32).toUInt8,
    (n >>> 24).toUInt8, (n >>> 16).toUInt8, (n >>> 8).toUInt8, n.toUInt8]

/-- mirrors src/server.rs:94-103 -/
def virtualAddrForClient (clientId : ClientId) : SocketAddr :=
  let hi := (clientId >>> 48).toUInt16
  let midHi := (clientId >>> 32).toUInt16
  let midLo := (clientId >>> 16).toUInt16
  let lo := clientId.toUInt16
  .v6 ⟨0xfd00, 0, 0, 0, hi, midHi, midLo, lo⟩ 1 0 0

/-- The four low segments of the address are the id's four 16-bit digits. -/
theorem virtualAddrForClient_inj {c c' : ClientId}
    (h : virtualAddrForClient c = virtualAddrForClient c') : c = c' := by
  simp only [virtualAddrForClient, SocketAddr.v6.injEq, Ipv6Addr.mk.injEq, true_and, and_true] at h
  obtain ⟨h3, h2, h1, h0⟩ := h
  have d3 := congrArg UInt16.toNat h3
  have d2 := congrArg UInt16.toNat h2
  have d1 := congrArg UInt16.toNat h1
  have d0 := congrArg UInt16.toNat h0
  simp only [UInt64.toNat_toUInt16, UInt64.toNat_shiftRight, UInt64.reduceToNat, Nat.reduceMod,
    Nat.shiftRight_eq_div_pow] at d0 d1 d2 d3
  have hc := c.toNat_lt
  have hc' := c'.toNat_lt
  apply UInt64.toNat_inj.1
  omega

/-! ## Textual form -/

/-- ASCII text as bytes. -/
def ascii (text : List Char) : Bytes := text.map fun c => c.toNat.toUInt8

def digitByte (d : Nat) : UInt8 := if d < 10 then (48 + d).toUInt8 else (87 + d).toUInt8

/-- `n` written in `base`, most significant digit first. -/
def written (base n : Nat) : Bytes :=
  if n = 0 then [48] else ((Nat.digits base n).map digitByte).reverse

def decimal (n : Nat) : Bytes := written 10 n
def hex (n : Nat) : Bytes := written 16 n

theorem length_written_le (base : Nat) {n k : Nat} (hb : 1 < base) (hk : 0 < k) (h : n < base ^ k) :
    (written base n).length ≤ k := by
  unfold written
  split
  · exact hk
  · rw [List.length_reverse, List.length_map]
    exact (Nat.digits_length_le_iff hb n).2 h

/-- `a.b.c.d`. -/
def Ipv4Addr.display (ip : Ipv4Addr) : Bytes :=
  decimal ip.a.toNat ++ ascii ['.'] ++ decimal ip.b.toNat ++ ascii ['.'] ++ decimal ip.c.toNat ++
    ascii ['.'] ++ decimal ip.d.toNat

/-- `to_ipv4_mapped`: the address inside `::ffff:0:0/96`. -/
def Ipv6Addr.toIpv4Mapped (ip : Ipv6Addr) : Option Ipv4Addr :=
  if ip.s0 = 0 ∧ ip.s1 = 0 ∧ ip.s2 = 0 ∧ ip.s3 = 0 ∧ ip.s4 = 0 ∧ ip.s5 = 0xffff then
    some ⟨(ip.s6 >>> 8).toUInt8, ip.s6.toUInt8, (ip.s7 >>> 8).toUInt8, ip.s7.toUInt8⟩
  else none

/-- The first of the longest runs of zero segments, as start and length; `i` is
the position, the first pair the longest run so far and the second the current
one. -/
def zeroRun : List UInt16 → Nat → Nat × Nat → Nat × Nat → Nat × Nat
  | [], _, longest, _ => longest
  | s :: rest, i, longest, current =>
    if s = 0 then
      let current := (if current.2 = 0 then i else current.1, current.2 + 1)
      zeroRun rest (i + 1) (if current.2 > longest.2 then current else longest) current
    else zeroRun rest (i + 1) longest (0, 0)

/-- Hexadecimal segments separated by colons. -/
def hexGroups : List UInt16 → Bytes
  | [] => []
  | [s] => hex s.toNat
  | s :: rest => hex s.toNat ++ ascii [':'] ++ hexGroups rest

/-- The compressed form: the longest run of two or more zero segments is `::`. -/
def Ipv6Addr.display (ip : Ipv6Addr) : Bytes :=
  match ip.toIpv4Mapped with
  | some v4 => ascii [':', ':', 'f', 'f', 'f', 'f', ':'] ++ v4.display
  | none =>
    let run := zeroRun ip.segments 0 (0, 0) (0, 0)
    if run.2 > 1 then
      hexGroups (ip.segments.take run.1) ++ ascii [':', ':'] ++
        hexGroups (ip.segments.drop (run.1 + run.2))
    else hexGroups ip.segments

/-- `SocketAddr::to_string`. -/
def SocketAddr.display : SocketAddr → Bytes
  | .v4 ip port => ip.display ++ ascii [':'] ++ decimal port.toNat
  | .v6 ip port _ scopeId =>
    let scope := if scopeId = 0 then [] else ascii ['%'] ++ decimal scopeId.toNat
    ascii ['['] ++ ip.display ++ scope ++ ascii [']', ':'] ++ decimal port.toNat

theorem length_ascii (text : List Char) : (ascii text).length = text.length := List.length_map ..

theorem length_hexGroups : ∀ segments : List UInt16,
    (hexGroups segments).length ≤ 5 * segments.length
  | [] => Nat.le_refl _
  | [s] => by
    have := length_written_le 16 (k := 4) (by decide) (by decide) s.toNat_lt
    simp only [hexGroups, hex, List.length_cons, List.length_nil]
    omega
  | s :: t :: rest => by
    have := length_written_le 16 (k := 4) (by decide) (by decide) s.toNat_lt
    have ih := length_hexGroups (t :: rest)
    simp only [hexGroups, hex, List.length_append, length_ascii, List.length_cons,
      List.length_nil] at ih ⊢
    omega

theorem length_ipv4_display (ip : Ipv4Addr) : ip.display.length ≤ 15 := by
  have h : ∀ n : UInt8, (decimal n.toNat).length ≤ 3 := fun n =>
    length_written_le 10 (by decide) (by decide) (Nat.lt_of_lt_of_le n.toNat_lt (by decide))
  have := h ip.a; have := h ip.b; have := h ip.c; have := h ip.d
  simp only [Ipv4Addr.display, List.length_append, length_ascii, List.length_cons, List.length_nil]
  omega

theorem length_ipv6_display (ip : Ipv6Addr) : ip.display.length ≤ 82 := by
  have hseg : ip.segments.length = 8 := rfl
  unfold Ipv6Addr.display
  split
  · rename_i v4 _
    have := length_ipv4_display v4
    simp only [List.length_append, length_ascii, List.length_cons, List.length_nil]
    omega
  · dsimp only
    split
    · set run := zeroRun ip.segments 0 (0, 0) (0, 0)
      have h1 := length_hexGroups (ip.segments.take run.1)
      have h2 := length_hexGroups (ip.segments.drop (run.1 + run.2))
      rw [List.length_take, hseg] at h1
      rw [List.length_drop, hseg] at h2
      simp only [List.length_append, length_ascii, List.length_cons, List.length_nil]
      omega
    · have := length_hexGroups ip.segments
      omega

/-- The textual form of every address is far below the 128 bytes a client
accepts. -/
theorem length_display (addr : SocketAddr) : addr.display.length ≤ 101 := by
  cases addr with
  | v4 ip port =>
    have := length_ipv4_display ip
    have : (decimal port.toNat).length ≤ 5 :=
      length_written_le 10 (by decide) (by decide) (Nat.lt_of_lt_of_le port.toNat_lt (by decide))
    simp only [SocketAddr.display, List.length_append, length_ascii, List.length_cons,
      List.length_nil]
    omega
  | v6 ip port flowinfo scopeId =>
    have := length_ipv6_display ip
    have : (decimal port.toNat).length ≤ 5 :=
      length_written_le 10 (by decide) (by decide) (Nat.lt_of_lt_of_le port.toNat_lt (by decide))
    have : (decimal scopeId.toNat).length ≤ 10 :=
      length_written_le 10 (by decide) (by decide) (Nat.lt_of_lt_of_le scopeId.toNat_lt (by decide))
    simp only [SocketAddr.display, List.length_append, length_ascii, List.length_cons,
      List.length_nil]
    split <;> simp only [List.length_append, length_ascii, List.length_cons, List.length_nil] <;> omega

end RenetCross
