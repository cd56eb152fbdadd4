import RenetCross.L1Encoding.SocketAddr

/-!
# Session requests, grants and issuances

The data of `src/session_security.rs` and `src/bootstrap.rs`: what a client asks
for, what the host's admission grants, and what the bootstrap service hands out.
Strings are their UTF-8 bytes, since only lengths, emptiness and equality are
looked at. Times are nanoseconds; `expires_at` is in whole Unix seconds.
-/
namespace RenetCross.L3

def MAX_SESSION_CREDENTIAL_BYTES : Nat := 4096
def MAX_SESSION_RESPONSE_BYTES : Nat := 16384
def MAX_SDP_BODY_BYTES : Nat := 65536
def MAX_SERVICE_BYTES : Nat := 32
def MAX_MATCH_BYTES : Nat := 64
def MAX_GRANT_BYTES : Nat := 128
def MAX_CONNECT_TOKEN_BYTES : Nat := 2048
def MAX_ENCODED_CONNECT_TOKEN_BYTES : Nat := 2732
def MAX_SESSION_TOKEN_BYTES : Nat := 128
def NETCODE_USER_DATA_BYTES : Nat := 256

/-- mirrors src/bootstrap.rs:269-287 -/
inductive BootstrapAuthError where
  | invalidRequest
  | admissionRequired
  | invalidGrant
  | replay
  | tokenGeneration
  | missingToken (clientId : ClientId)
  | invalidToken (clientId : ClientId)
  | message (message : Bytes)
  deriving DecidableEq, Repr

/-- mirrors src/session_security.rs:23-32 -/
structure SessionCreateRequest where
  protocolId : Option UInt64 := none
  service : Bytes := []
  matchId : Bytes := []
  credential : Bytes := []
  requireSecure : Bool := false
  deriving DecidableEq, Repr

/-- mirrors src/session_security.rs:45-53 -/
def SessionCreateRequest.validate (r : SessionCreateRequest) : Except BootstrapAuthError Unit :=
  if r.credential.length > MAX_SESSION_CREDENTIAL_BYTES ∨ r.service.length > MAX_SERVICE_BYTES ∨
      r.matchId.length > MAX_MATCH_BYTES then
    .error .invalidRequest
  else .ok ()

/-- mirrors src/session_security.rs:54-60 -/
def SessionCreateRequest.requestsAuthentication (r : SessionCreateRequest) : Bool :=
  r.requireSecure || r.protocolId.isSome || !r.service.isEmpty || !r.matchId.isEmpty ||
    !r.credential.isEmpty

abbrev ReplayKey := Vector UInt8 32

/-- mirrors src/session_security.rs:68-75 -/
structure SessionGrant where
  protocolId : UInt64
  service : Bytes
  matchId : Bytes
  expiresAt : UInt64
  replayKey : ReplayKey
  application : Bytes
  deriving DecidableEq, Repr

namespace SessionGrant

/-- mirrors src/session_security.rs:87-98 -/
def validate (g : SessionGrant) (now : Nat) : Except BootstrapAuthError Unit :=
  if g.service.isEmpty ∨ g.service.length > MAX_SERVICE_BYTES ∨ g.matchId.isEmpty ∨
      g.matchId.length > MAX_MATCH_BYTES ∨ g.application.length > MAX_GRANT_BYTES ∨
      g.expiresAt.toNat ≤ Duration.asSecs now then
    .error .invalidGrant
  else .ok ()

/-- A valid grant expires after the current second. -/
theorem validate_lt (g : SessionGrant) {now : Nat} (h : g.validate now = .ok ()) :
    Duration.asSecs now < g.expiresAt.toNat := by
  unfold validate at h
  split at h
  · cases h
  · rename_i hn; simp only [not_or] at hn; omega

/-- `u64::to_le_bytes`. -/
def toLeBytes64 (n : UInt64) : Bytes := (toBeBytes64 n).reverse

/-- A field of `user_data`: one length byte, then the bytes. -/
def lengthPrefixed (bytes : Bytes) : Bytes := bytes.length.toUInt8 :: bytes

/-- The written part of `user_data`. -/
def userDataBody (g : SessionGrant) : Bytes :=
  1 :: toLeBytes64 g.protocolId ++ toLeBytes64 g.expiresAt ++ lengthPrefixed g.service ++
    lengthPrefixed g.matchId ++ lengthPrefixed g.application

/-- The rest of the array stays zero.
mirrors src/session_security.rs:101-125 -/
def userData (g : SessionGrant) : Except BootstrapAuthError Bytes :=
  if g.service.length > MAX_SERVICE_BYTES ∨ g.matchId.length > MAX_MATCH_BYTES ∨
      g.application.length > MAX_GRANT_BYTES then
    .error .invalidGrant
  else
    .ok (g.userDataBody ++ List.replicate (NETCODE_USER_DATA_BYTES - g.userDataBody.length) 0)

/-- The body fits the array, so the result is always 256 bytes long. -/
theorem userData_length {g : SessionGrant} {data : Bytes} (h : g.userData = .ok data) :
    data.length = NETCODE_USER_DATA_BYTES := by
  unfold userData at h
  split at h
  · cases h
  · rename_i hlen
    cases h
    have hle : g.userDataBody.length ≤ NETCODE_USER_DATA_BYTES := by
      simp only [MAX_SERVICE_BYTES, MAX_MATCH_BYTES, MAX_GRANT_BYTES] at hlen
      simp only [userDataBody, lengthPrefixed, toLeBytes64, toBeBytes64, NETCODE_USER_DATA_BYTES,
        List.length_append, List.length_cons, List.length_reverse, List.length_nil]
      omega
    rw [List.length_append, List.length_replicate]
    omega

end SessionGrant

/-- mirrors src/session_security.rs:146-157 -/
structure SessionSecurity where
  protocolId : UInt64
  service : Bytes
  matchId : Bytes
  expiresAt : UInt64
  udpConnectToken : Bytes
  webrtcConnectToken : Bytes
  deriving DecidableEq, Repr

/-- mirrors src/session_security.rs:168-172 -/
structure SessionIssuance where
  sessionToken : Option Bytes
  security : Option SessionSecurity
  grant : Option SessionGrant
  deriving DecidableEq, Repr

/-- mirrors src/bootstrap.rs:74-83 -/
structure SessionCreateResponse where
  clientId : ClientId
  udpAddr : Bytes
  webrtcAddr : Bytes
  webrtcOfferUrl : Bytes
  sessionToken : Option Bytes
  security : Option SessionSecurity
  deriving DecidableEq, Repr

/-- mirrors src/bootstrap.rs:94-99 -/
structure BootstrapConfig where
  sessionTtl : Nat
  publicUdpAddr : SocketAddr
  publicWebrtcAddr : SocketAddr
  publicHttpBase : Bytes

/-- `trim_end_matches('/')`. -/
def trimEndSlashes (s : Bytes) : Bytes := (s.reverse.dropWhile (· == 0x2f)).reverse

/-- `/api/webrtc/offer/`. -/
def OFFER_PATH : Bytes :=
  ascii ['/', 'a', 'p', 'i', '/', 'w', 'e', 'b', 'r', 't', 'c', '/', 'o', 'f', 'f', 'e', 'r', '/']

/-- mirrors src/bootstrap.rs:102-107 -/
def BootstrapConfig.offerUrl (c : BootstrapConfig) (clientId : ClientId) : Bytes :=
  trimEndSlashes c.publicHttpBase ++ OFFER_PATH ++ decimal clientId.toNat

end RenetCross.L3
