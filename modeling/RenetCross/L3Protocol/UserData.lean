import RenetCross.L3Protocol.BootstrapCalls

/-!
# The user data of a grant

`SessionGrant::user_data` writes five fields into a zeroed array of 256 bytes
behind a running cursor; `activate_session` compares the arrays byte by byte.

* `userDataBuffer` follows the writes of the source; a write outside the array
  is `none` (the slice index panics). It agrees with `userData`.
* `decodeUserData` reads the fields back, so `user_data_faithful`: byte-equal
  user data means equal protocol id, expiry, service, match and application,
  and an activation that passes the comparison presents the session's own.
-/
namespace RenetCross.L3

namespace SessionGrant

/-! ## The array and its cursor -/

/-- `data[at_..at_ + bytes.len()].copy_from_slice(bytes)`. -/
def copyFromSlice (data : Bytes) (at_ : Nat) (bytes : Bytes) : Option Bytes :=
  if at_ + bytes.length ≤ data.length then
    some (data.take at_ ++ bytes ++ data.drop (at_ + bytes.length))
  else none

/-- The loop over the three variable fields.
mirrors src/session_security.rs:113-122 -/
def writeFields : Bytes → Nat → List Bytes → Option (Bytes × Nat)
  | data, cursor, [] => some (data, cursor)
  | data, cursor, bytes :: fields => do
    let data ← copyFromSlice data cursor [bytes.length.toUInt8]
    let cursor := cursor + 1
    let data ← copyFromSlice data cursor bytes
    let cursor := cursor + bytes.length
    writeFields data cursor fields

/-- mirrors src/session_security.rs:108-124 -/
def userDataBuffer (g : SessionGrant) : Option Bytes := do
  let data := List.replicate NETCODE_USER_DATA_BYTES 0
  let data ← copyFromSlice data 0 [1]
  let data ← copyFromSlice data 1 (toLeBytes64 g.protocolId)
  let data ← copyFromSlice data 9 (toLeBytes64 g.expiresAt)
  let (data, _) ← writeFields data 17 [g.service, g.matchId, g.application]
  return data

/-- What has been written so far, in front of the zeros that are left. -/
def padded (written : Bytes) : Bytes :=
  written ++ List.replicate (NETCODE_USER_DATA_BYTES - written.length) 0

theorem copyFromSlice_padded (written bytes : Bytes)
    (h : written.length + bytes.length ≤ NETCODE_USER_DATA_BYTES) :
    copyFromSlice (padded written) written.length bytes = some (padded (written ++ bytes)) := by
  have hfit : written.length + bytes.length ≤ (padded written).length := by
    simp only [padded, List.length_append, List.length_replicate]; omega
  have htake : (padded written).take written.length = written := List.take_left' rfl
  have hdrop : (padded written).drop (written.length + bytes.length) =
      List.replicate (NETCODE_USER_DATA_BYTES - (written ++ bytes).length) 0 := by
    rw [padded, List.drop_append, List.drop_replicate, List.drop_eq_nil_of_le (by omega),
      List.nil_append, List.length_append]
    congr 1
    omega
  rw [copyFromSlice, if_pos hfit, htake, hdrop]
  rfl

theorem writeFields_padded :
    ∀ (fields : List Bytes) (written : Bytes),
      written.length + (fields.flatMap lengthPrefixed).length ≤ NETCODE_USER_DATA_BYTES →
      ∃ cursor, writeFields (padded written) written.length fields =
        some (padded (written ++ fields.flatMap lengthPrefixed), cursor)
  | [], written, _ => ⟨written.length, by simp [writeFields]⟩
  | bytes :: fields, written, h => by
    have hlen : (lengthPrefixed bytes).length = bytes.length + 1 := rfl
    rw [List.flatMap_cons, List.length_append, hlen] at h
    have hfirst := copyFromSlice_padded written [bytes.length.toUInt8]
      (by rw [List.length_singleton]; omega)
    have hsecond := copyFromSlice_padded (written ++ [bytes.length.toUInt8]) bytes
      (by rw [List.length_append, List.length_singleton]; omega)
    obtain ⟨cursor, hrest⟩ := writeFields_padded fields (written ++ lengthPrefixed bytes)
      (by rw [List.length_append, hlen]; omega)
    rw [List.length_append, List.length_singleton] at hsecond
    have hjoin : written ++ [bytes.length.toUInt8] ++ bytes = written ++ lengthPrefixed bytes := by
      simp [lengthPrefixed]
    refine ⟨cursor, ?_⟩
    rw [List.length_append, hlen, ← Nat.add_assoc, Nat.add_right_comm] at hrest
    simp only [writeFields, hfirst, hsecond, hjoin, Option.bind_eq_bind, Option.bind_some, hrest,
      List.flatMap_cons, List.append_assoc]

/-- The fields that must fit. -/
def Fits (g : SessionGrant) : Prop :=
  g.service.length ≤ MAX_SERVICE_BYTES ∧ g.matchId.length ≤ MAX_MATCH_BYTES ∧
    g.application.length ≤ MAX_GRANT_BYTES

theorem userData_eq {g : SessionGrant} (h : g.Fits) : g.userData = .ok (padded g.userDataBody) := by
  obtain ⟨h1, h2, h3⟩ := h
  exact if_neg (by omega)

theorem fits_of_userData {g : SessionGrant} {data : Bytes} (h : g.userData = .ok data) : g.Fits := by
  unfold userData at h
  split at h
  · cases h
  · rename_i hn
    simp only [not_or, Nat.not_lt, gt_iff_lt] at hn
    exact hn

theorem length_toLeBytes64 (n : UInt64) : (toLeBytes64 n).length = 8 := by
  simp [toLeBytes64, toBeBytes64]

/-- The fixed part of the body: the version and two integers. -/
theorem userDataBody_eq (g : SessionGrant) :
    g.userDataBody = ([1] ++ toLeBytes64 g.protocolId ++ toLeBytes64 g.expiresAt) ++
      [g.service, g.matchId, g.application].flatMap lengthPrefixed := by
  simp [userDataBody]

/-- Within the limits no write leaves the array, and the writes build `user_data`. -/
theorem userDataBuffer_eq {g : SessionGrant} (h : g.Fits) :
    g.userDataBuffer = some (padded g.userDataBody) := by
  obtain ⟨h1, h2, h3⟩ := h
  simp only [MAX_SERVICE_BYTES, MAX_MATCH_BYTES, MAX_GRANT_BYTES] at h1 h2 h3
  have hle8 := length_toLeBytes64
  have hversion := copyFromSlice_padded [] [1] (by decide)
  have hprotocol := copyFromSlice_padded [1] (toLeBytes64 g.protocolId) (by rw [hle8]; decide)
  have hexpires := copyFromSlice_padded ([1] ++ toLeBytes64 g.protocolId) (toLeBytes64 g.expiresAt)
    (by rw [List.length_append, hle8, hle8]; decide)
  obtain ⟨cursor, hfields⟩ := writeFields_padded [g.service, g.matchId, g.application]
    ([1] ++ toLeBytes64 g.protocolId ++ toLeBytes64 g.expiresAt) (by
      simp only [List.length_append, hle8, List.flatMap_cons, List.flatMap_nil, lengthPrefixed,
        List.length_cons, List.length_nil, NETCODE_USER_DATA_BYTES]
      omega)
  rw [List.length_append, List.length_append, hle8, hle8] at hfields
  rw [List.length_append, hle8] at hexpires
  simp only [List.length_nil, List.length_cons, List.nil_append, Nat.zero_add, Nat.reduceAdd]
    at hversion hprotocol hexpires hfields
  have hzeros : List.replicate NETCODE_USER_DATA_BYTES 0 = padded [] := rfl
  rw [userDataBody_eq]
  simp only [userDataBuffer, hzeros, hversion, hprotocol, hexpires, hfields, Option.bind_eq_bind,
    Option.bind_some]
  rfl

/-! ## Reading it back -/

/-- The five fields of a grant that `user_data` carries. -/
structure Fields where
  protocolId : UInt64
  expiresAt : UInt64
  service : Bytes
  matchId : Bytes
  application : Bytes
  deriving DecidableEq, Repr

def fields (g : SessionGrant) : Fields :=
  ⟨g.protocolId, g.expiresAt, g.service, g.matchId, g.application⟩

/-- `u64::from_le_bytes`. -/
def fromLeBytes64 (bytes : Bytes) : UInt64 :=
  UInt64.ofNat (bytes.foldr (fun b n => b.toNat + 256 * n) 0)

/-- One field and what follows it. -/
def takeField : Bytes → Option (Bytes × Bytes)
  | [] => none
  | n :: rest => if n.toNat ≤ rest.length then some (rest.take n.toNat, rest.drop n.toNat) else none

def decodeUserData (data : Bytes) : Option Fields := do
  let (service, rest) ← takeField (data.drop 17)
  let (matchId, rest) ← takeField rest
  let (application, _) ← takeField rest
  return ⟨fromLeBytes64 ((data.drop 1).take 8), fromLeBytes64 ((data.drop 9).take 8), service, matchId,
    application⟩

theorem fromLeBytes64_toLeBytes64 (n : UInt64) : fromLeBytes64 (toLeBytes64 n) = n := by
  apply UInt64.toNat_inj.1
  have hn := n.toNat_lt
  simp only [fromLeBytes64, toLeBytes64, toBeBytes64, List.reverse_cons, List.reverse_nil,
    List.nil_append, List.cons_append, List.foldr_cons, List.foldr_nil, UInt64.toNat_toUInt8,
    UInt64.toNat_shiftRight, UInt64.reduceToNat, Nat.reduceMod, Nat.shiftRight_eq_div_pow,
    UInt64.toNat_ofNat']
  omega

/-- A field of fewer than 256 bytes is read back whatever it contains and
whatever follows it. -/
theorem takeField_lengthPrefixed (bytes rest : Bytes) (h : bytes.length < 256) :
    takeField (lengthPrefixed bytes ++ rest) = some (bytes, rest) := by
  have hlen : (bytes.length.toUInt8).toNat = bytes.length := by
    rw [Nat.toUInt8, UInt8.toNat_ofNat']
    exact Nat.mod_eq_of_lt h
  have htake : (bytes ++ rest).take bytes.length = bytes := List.take_left' rfl
  have hdrop : (bytes ++ rest).drop bytes.length = rest := List.drop_left' rfl
  simp only [lengthPrefixed, List.cons_append, takeField, hlen, List.length_append, htake, hdrop]
  exact if_pos (Nat.le_add_right _ _)

theorem decodeUserData_padded {g : SessionGrant} (h : g.Fits) :
    decodeUserData (padded g.userDataBody) = some g.fields := by
  obtain ⟨h1, h2, h3⟩ := h
  simp only [MAX_SERVICE_BYTES, MAX_MATCH_BYTES, MAX_GRANT_BYTES] at h1 h2 h3
  have hle8 := length_toLeBytes64
  obtain ⟨zeros, hzeros⟩ : ∃ zeros, padded g.userDataBody = [1] ++ (toLeBytes64 g.protocolId ++
      (toLeBytes64 g.expiresAt ++ (lengthPrefixed g.service ++ (lengthPrefixed g.matchId ++
        (lengthPrefixed g.application ++ zeros))))) :=
    ⟨List.replicate (NETCODE_USER_DATA_BYTES - g.userDataBody.length) 0,
      by simp [padded, userDataBody]⟩
  have hprotocol : ((padded g.userDataBody).drop 1).take 8 = toLeBytes64 g.protocolId := by
    rw [hzeros]
    exact List.take_left' (hle8 _)
  have hskip : ∀ n, (padded g.userDataBody).drop (9 + n) = (toLeBytes64 g.expiresAt ++
      (lengthPrefixed g.service ++ (lengthPrefixed g.matchId ++
        (lengthPrefixed g.application ++ zeros)))).drop n := by
    intro n
    rw [← List.drop_drop, hzeros, ← List.append_assoc]
    rw [List.drop_left' (by rw [List.length_append, hle8]; rfl)]
  have hexpires : ((padded g.userDataBody).drop 9).take 8 = toLeBytes64 g.expiresAt := by
    rw [hskip 0, List.drop_zero, List.take_left' (hle8 _)]
  have hrest : (padded g.userDataBody).drop 17 = lengthPrefixed g.service ++
      (lengthPrefixed g.matchId ++ (lengthPrefixed g.application ++ zeros)) := by
    rw [hskip 8, List.drop_left' (hle8 _)]
  simp only [decodeUserData, hrest, hprotocol, hexpires, Option.bind_eq_bind, Option.bind_some,
    takeField_lengthPrefixed g.service _ (by omega), takeField_lengthPrefixed g.matchId _ (by omega),
    takeField_lengthPrefixed g.application _ (by omega), fromLeBytes64_toLeBytes64]
  rfl

/-- `user_data` succeeds exactly within the three limits; then every write stays
inside the array and the decoder recovers the five fields, so byte-equal user
data means equal fields, also across the comparison of an activation. -/
theorem user_data_faithful (g : SessionGrant) :
    ((∃ data, g.userData = .ok data) ↔
        g.service.length ≤ 32 ∧ g.matchId.length ≤ 64 ∧ g.application.length ≤ 128) ∧
      (∀ data, g.userData = .ok data →
        g.userDataBuffer = some data ∧ data.length = 256 ∧ decodeUserData data = some g.fields) ∧
      (∀ (g' : SessionGrant) data, g.userData = .ok data → g'.userData = .ok data →
        g'.fields = g.fields) ∧
      ∀ (g' : SessionGrant) (expected actual : Bytes) (d : SessionDetails) (now : Nat),
        g.userData = .ok expected → d.userData = some expected → g'.userData = .ok actual →
        BootstrapService.checkDetail d (some actual) now = .ok () → g'.fields = g.fields := by
  have hdata : ∀ (g : SessionGrant) data, g.userData = .ok data → data = padded g.userDataBody := by
    intro g data h
    have := h.symm.trans (userData_eq (fits_of_userData h))
    cases this
    rfl
  have hinj : ∀ (g' : SessionGrant) data, g.userData = .ok data → g'.userData = .ok data →
      g'.fields = g.fields := by
    intro g' data h h'
    have hdec := decodeUserData_padded (fits_of_userData h)
    have hdec' := decodeUserData_padded (fits_of_userData h')
    rw [← hdata g data h] at hdec
    rw [← hdata g' data h', hdec] at hdec'
    exact (Option.some.inj hdec').symm
  refine ⟨⟨?_, ?_⟩, ?_, hinj, ?_⟩
  · rintro ⟨data, h⟩
    exact fits_of_userData h
  · exact fun h => ⟨_, userData_eq h⟩
  · intro data h
    have hfits := fits_of_userData h
    have heq := hdata g data h
    refine ⟨?_, userData_length h, ?_⟩
    · rw [heq]; exact userDataBuffer_eq hfits
    · rw [heq]; exact decodeUserData_padded hfits
  · intro g' expected actual d now h hd h' hcheck
    have hsame : actual = expected := by
      unfold BootstrapService.checkDetail at hcheck
      rw [hd] at hcheck
      split at hcheck
      · cases hcheck
      · dsimp only at hcheck
        split at hcheck
        · assumption
        · cases hcheck
    subst hsame
    exact hinj g' actual h h'

/-- A grant whose service, match and application look like lengths and padding. -/
def lookalike (replayKey : ReplayKey) : SessionGrant := ⟨7, [1, 0], [0], 99, replayKey, [2, 0, 0]⟩

/-- Its user data does not depend on the ticket it was granted for. -/
theorem user_data_faithful_lookalike :
    ∃ data, (lookalike (.replicate 32 0)).userData = .ok data ∧
      decodeUserData data = some (lookalike (.replicate 32 0)).fields ∧
      BootstrapService.checkDetail ⟨none, none, some data, false, none⟩ (some data) 0 = .ok () ∧
      (lookalike (.replicate 32 1)).fields = (lookalike (.replicate 32 0)).fields := by
  obtain ⟨hok, hdec, -, hact⟩ := user_data_faithful (lookalike (.replicate 32 0))
  obtain ⟨data, hdata⟩ := hok.2 (by decide)
  have hcheck : BootstrapService.checkDetail ⟨none, none, some data, false, none⟩ (some data) 0 =
      .ok () := by simp [BootstrapService.checkDetail]
  exact ⟨data, hdata, (hdec data hdata).2.2, hcheck,
    hact (lookalike (.replicate 32 1)) data data _ 0 hdata rfl hdata hcheck⟩

end SessionGrant
end RenetCross.L3
