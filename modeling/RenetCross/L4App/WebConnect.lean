import RenetCross.Core.Effects
import RenetCross.L4App.SdpHook
import RenetCross.L4App.SessionExchange
import RenetCross.L4App.WebClientRuns

/-!
# How a browser client connects

`src/web_client.rs` up to the finished `WebRtcNetcodeClientTransport`: a session is
asked for, an `RtcPeerConnection` makes an offer, the offer goes to the URL the session
names, and once the data channel is open a netcode client is made of the session's
token. The browser decides everything else: how long promises take, what states the
connection goes through, what the network answers. `log` is what the client did to the
outside, newest first.

The two waits poll with a timer. `pending` is the end of a connect that is still
waiting when the fuel is out; no line of the source returns it.

Left out: log lines.
-/
namespace RenetCross.L4

open RenetCross.L2 RenetCross.L3

def ICE_GATHER_TIMEOUT_MS : Nat := 8000
def DATA_CHANNEL_OPEN_TIMEOUT_MS : Nat := 30000
def STATE_POLL_INTERVAL_MS : Nat := 20

/-! ## The browser -/

/-- A `String`, as its characters. -/
abbrev Text := List Char

def utf8 (text : Text) : Bytes := text.flatMap String.utf8EncodeChar

/-- `trim().is_empty()` -/
def blank (text : Text) : Bool := text.all isWhitespace

/-- `contains` -/
def contains (text pattern : Text) : Bool := text.tails.any pattern.isPrefixOf

inductive IceGatheringState where
  | fresh
  | gathering
  | complete
  | invalid
  deriving DecidableEq, Repr

/-- `dateNow` is `Date.now()` in whole milliseconds, `sleep` a `TimeoutFuture`,
`buildRequest` a `Request` with its URL and body. The description `createOffer` makes
need not have a text. Whatever a promise may reject with is the text of `js_error`.
The clock is read off the world, so between two promises it stands still. -/
class Browser (W : Type) extends DataChannel W where
  dateNow : W → Nat
  sleep : W → W
  openPeer : W → List WebRtcIceServer → W × Except String Unit
  closePeer : W → W
  createOffer : W → W × Except String (Option Text)
  setLocalDescription : W → Text → W × Except String Unit
  iceGatheringState : W → IceGatheringState
  localDescription : W → Option Text
  buildRequest : W → Bytes → Bytes → W × Except String Unit
  post : W → Bytes → Bytes → W × Except String (HttpResponse String)
  setRemoteDescription : W → Bytes → W × Except String Unit

/-- What is assumed of a browser's timer and clock: a `TimeoutFuture` is not early, and
`Date.now()` is not set back while one runs. -/
class LawfulBrowser (W : Type) [Browser W] : Prop where
  sleep : ∀ w : W, Browser.dateNow w + STATE_POLL_INTERVAL_MS ≤ Browser.dateNow (Browser.sleep w)

/-- serde_json for the offer and its answer. -/
structure OfferJson where
  writeOffer : BootstrapService.SdpHttpOfferRequest → Option Bytes
  readAnswer : Bytes → Option SdpHttpAnswerResponse

/-- The errors of connecting.
mirrors src/web_client.rs:26-69 -/
inductive DialError where
  | bootstrapAuth (error : BootstrapAuthError)
  | security (error : SessionSecurityError)
  | bodyTooLarge
  | options (error : WebRtcOptionsError)
  | httpRequest (url : Bytes) (detail : String)
  | httpStatus (url : Bytes) (status : Nat) (body : String)
  | httpDecode (url : Bytes) (detail : String)
  | invalidSessionWebRtcAddr (addr : String)
  | clientIdMismatch (sessionClientId answerClientId : ClientId)
  | missingLocalSdp
  | iceGatherTimeout (timeoutMs : Nat)
  | dataChannelOpenTimeout (timeoutMs : Nat)
  | dataChannelState (state : String)
  | javascript (detail : String)
  | netcode (error : NetcodeError)
  deriving DecidableEq, Repr

/-- How a run of the model ends without a transport. -/
inductive Halt where
  | error (error : DialError)
  | pending
  deriving DecidableEq, Repr

def Halt.isError : Halt → Bool
  | .error _ => true
  | .pending => false

def DialError.ofRequest : RequestError → DialError
  | .security e => .security e
  | .bootstrapAuth e => .bootstrapAuth e
  | .bodyTooLarge => .bodyTooLarge

def DialError.ofDecode (url : Bytes) : DecodeError String → DialError
  | .status status => .httpStatus url status "bootstrap request rejected"
  | .bodyTooLarge => .bodyTooLarge
  | .read detail => .javascript detail
  | .decode detail => .httpDecode url detail

/-- `client` is `RenetClient::new(connection_config)`.
mirrors src/web_config.rs:14-28 -/
structure WebDialOptions (C : Type) extends WebRtcConnectOptions where
  client : C
  overrideWebrtcAddr : Option Text := none
  conditioner : Option Control := none
  sessionRequest : SessionCreateRequest := {}
  requireSecure : Bool := false

inductive DialEvent where
  | posted (url body : Bytes)
  | peerOpened
  | offerPosted (url : Bytes) (offer : BootstrapService.SdpHttpOfferRequest)
  | peerClosed

structure Dialing (W : Type) where
  world : W
  log : List DialEvent := []

abbrev Dial (W α : Type) := Prog (Dialing W) Halt α

namespace Dial

variable {N C W α : Type} [Browser W]

/-- A call to the browser, which may reject. -/
def awaiting (rejected : String → DialError) (f : W → W × Except String α) : Dial W α :=
  .call fun s =>
    ({ s with world := (f s.world).1 }, (f s.world).2.mapError fun detail => .error (rejected detail))

def js (f : W → W × Except String α) : Dial W α := awaiting .javascript f

def look (f : W → α) : Dial W α := .call fun s => (s, .ok (f s.world))

def note (e : DialEvent) : Dial W Unit := .call fun s => ({ s with log := e :: s.log }, .ok ())

def check (r : Except DialError α) : Dial W α := .ofExcept (r.mapError .error)

/-- mirrors src/web_client.rs:733-735 -/
def browserNowDuration (w : W) : Nat := 1000000 * Browser.dateNow w

/-- `as u32` of the time since `startedAt`.
mirrors src/web_client.rs:743-745 -/
def elapsedMs (startedAt : Nat) (w : W) : Nat := min (Browser.dateNow w - startedAt) 0xffffffff

/-! ## The waits -/

def pause (s : Dialing W) : Dialing W := { s with world := Browser.sleep s.world }

/-- One turn of the loop of `await_ice_complete`.
mirrors src/web_client.rs:647-669 -/
def lookIce (startedAt : Nat) (s : Dialing W) : Dialing W × Option (Except Halt Unit) :=
  (s,
    if Browser.iceGatheringState s.world = .complete then some (.ok ())
    else if elapsedMs startedAt s.world > ICE_GATHER_TIMEOUT_MS then
      some (.error (.error (.iceGatherTimeout ICE_GATHER_TIMEOUT_MS)))
    else none)

/-- mirrors src/web_client.rs:637-670 -/
def awaitIceComplete (fuel : Nat) : Dial W Unit := do
  if (← look Browser.iceGatheringState) = .complete then return ()
  else
    let startedAt ← look Browser.dateNow
    Prog.pollUntil .pending (lookIce startedAt) pause fuel

/-- One turn of the loop of `await_data_channel_open`.
mirrors src/web_client.rs:682-711 -/
def lookChannel (startedAt : Nat) (s : Dialing W) : Dialing W × Option (Except Halt Unit) :=
  (s,
    match DataChannel.readyState s.world with
    | .isOpen => some (.ok ())
    | .closing => some (.error (.error (.dataChannelState (dataChannelStateLabel .closing))))
    | .closed => some (.error (.error (.dataChannelState (dataChannelStateLabel .closed))))
    | _ =>
      if elapsedMs startedAt s.world > DATA_CHANNEL_OPEN_TIMEOUT_MS then
        some (.error (.error (.dataChannelOpenTimeout DATA_CHANNEL_OPEN_TIMEOUT_MS)))
      else none)

/-- mirrors src/web_client.rs:672-712 -/
def awaitDataChannelOpen (fuel : Nat) : Dial W Unit := do
  if (← look DataChannel.readyState) = .isOpen then return ()
  else
    let startedAt ← look Browser.dateNow
    Prog.pollUntil .pending (lookChannel startedAt) pause fuel

/-- `a=candidate:` -/
def CANDIDATE_LINE : Text := ['a', '=', 'c', 'a', 'n', 'd', 'i', 'd', 'a', 't', 'e', ':']

/-- mirrors src/web_client.rs:737-741 -/
def localSdpHasCandidates (w : W) : Bool :=
  (Browser.localDescription w).any fun sdp => contains sdp CANDIDATE_LINE

/-- The wait for candidates; after a timeout the candidates there are will do.
mirrors src/web_client.rs:430-443 -/
def gatherCandidates (fuel : Nat) : Dial W Unit := fun s =>
  match awaitIceComplete fuel s with
  | (.error (.error (.iceGatherTimeout timeoutMs)), s) =>
    (if localSdpHasCandidates s.world then .ok () else .error (.error (.iceGatherTimeout timeoutMs)), s)
  | r => r

/-! ## The requests -/

/-- `sent` is what this request is to the outside, once it could be built.
mirrors src/web_client.rs:539-549,573-583 -/
def post (sent : DialEvent) (url body : Bytes) : Dial W (HttpResponse String) := do
  awaiting (fun _ => .bodyTooLarge) fun w => Browser.buildRequest w url body
  note sent
  awaiting (.httpRequest url) fun w => Browser.post w url body

/-- mirrors src/web_client.rs:529-552 -/
def createSession (json : Json) (baseHttp body : Bytes) : Dial W SessionCreateResponse := do
  let response ← post (.posted (sessionUrl baseHttp) body) (sessionUrl baseHttp) body
  check ((response.decodeJsonResponse MAX_SESSION_RESPONSE_BYTES json.decodeResponse).mapError
    (.ofDecode (sessionUrl baseHttp)))

/-- mirrors src/web_client.rs:554-586 -/
def postOffer (json : OfferJson) (url : Bytes) (offer : BootstrapService.SdpHttpOfferRequest) :
    Dial W SdpHttpAnswerResponse := do
  if offerTooLarge offer then check (.error .bodyTooLarge)
  else
    let body ← check (match json.writeOffer offer with
      | none => .error .bodyTooLarge
      | some bytes => if bytes.length > MAX_SDP_BODY_BYTES then .error .bodyTooLarge else .ok bytes)
    let response ← post (.offerPosted url offer) url body
    check ((response.decodeJsonResponse MAX_SDP_BODY_BYTES json.readAnswer).mapError (.ofDecode url))

/-! ## Connecting -/

/-- mirrors src/web_client.rs:360-370 -/
def serverAddr (session : SessionCreateResponse) (options : WebDialOptions C) :
    Except DialError SocketAddr :=
  let selected :=
    ((options.overrideWebrtcAddr.filter fun addr => !blank addr).map utf8).getD session.webrtcAddr
  match SocketAddr.parse selected with
  | some addr => .ok addr
  | none => .error (.invalidSessionWebRtcAddr "<invalid endpoint>")

/-- The entitlement at the browser's present time.
mirrors src/web_client.rs:373-380,502-509 -/
def authenticate (lib : TokenLib) (session : SessionCreateResponse) (protocolId : UInt64)
    (serverAddr : SocketAddr) (options : WebDialOptions C) : Dial W ClientAuthentication := do
  let now ← look browserNowDuration
  check ((session.authentication lib protocolId serverAddr .webRtc now options.requireSecure
    options.sessionRequest).mapError .security)

/-- A description that must have a text.
mirrors src/web_client.rs:414-420,445-451 -/
def someSdp (sdp : Option Text) : Except DialError Text :=
  match sdp with
  | none => .error .missingLocalSdp
  | some sdp => if blank sdp then .error .missingLocalSdp else .ok sdp

/-- The exchange of descriptions, up to an open data channel.
mirrors src/web_client.rs:411-478 -/
def negotiate (fuel : Nat) (json : OfferJson) (session : SessionCreateResponse) :
    Dial W SdpHttpAnswerResponse := do
  let offerSdp ← check (someSdp (← js Browser.createOffer))
  js fun w => Browser.setLocalDescription w offerSdp
  gatherCandidates fuel
  let localSdp ← check (someSdp (← look Browser.localDescription))
  let answer ← postOffer json session.webrtcOfferUrl ⟨utf8 localSdp, session.sessionToken⟩
  if answer.clientId ≠ session.clientId then
    check (.error (.clientIdMismatch session.clientId answer.clientId))
  else
    js fun w => Browser.setRemoteDescription w answer.sdp
    awaitDataChannelOpen fuel
    return answer

/-- A connected transport, with its `RenetClient`, and the client id. -/
abbrev Dialed (N C W : Type) := WebClientState N C W × ClientId

variable [NetcodeConnect N]

/-- The netcode client and the transport, once the channel is open.
mirrors src/web_client.rs:484-526 -/
def openChannel (lib : TokenLib) (session : SessionCreateResponse) (protocolId : UInt64)
    (serverAddr : SocketAddr) (options : WebDialOptions C) (clientId : ClientId) :
    Dial W (Dialed N C W) := do
  let authentication ← authenticate lib session protocolId serverAddr options
  let now ← look browserNowDuration
  let netcodeClient ← check ((NetcodeConnect.connect (N := N) now authentication).mapError .netcode)
  let world ← look id
  return (.new options.toWebRtcConnectOptions options.conditioner netcodeClient options.client world,
    clientId)

/-- `PeerGuard`: an error closes the peer.
mirrors src/web_client.rs:95-101 -/
def closePeer (s : Dialing W) : Dialing W :=
  { world := Browser.closePeer s.world, log := .peerClosed :: s.log }

/-- mirrors src/web_client.rs:353-527 -/
def connectWebrtcFromSession (fuel : Nat) (lib : TokenLib) (json : OfferJson)
    (session : SessionCreateResponse) (protocolId : UInt64) (options : WebDialOptions C) :
    Dial W (Dialed N C W) := do
  check ((options.validate (NetcodeClient.maxPacketBytes N)).mapError .options)
  let addr ← check (serverAddr session options)
  let _ ← authenticate lib session protocolId addr options
  js fun w => Browser.openPeer w options.iceServers
  note .peerOpened
  Prog.guarded Halt.isError closePeer do
    let answer ← negotiate fuel json session
    openChannel lib session protocolId addr options answer.clientId

/-- mirrors src/web_client.rs:332-349 -/
def connectViaSdpHttpWithOptions (fuel : Nat) (lib : TokenLib) (json : Json) (offers : OfferJson)
    (baseHttp : Bytes) (protocolId : UInt64) (options : WebDialOptions C) : Dial W (Dialed N C W) := do
  check ((options.validate (NetcodeClient.maxPacketBytes N)).mapError .options)
  let body ← check
    ((sessionRequestBody json options.sessionRequest options.requireSecure protocolId).mapError
      .ofRequest)
  let session ← createSession json baseHttp body
  connectWebrtcFromSession fuel lib offers session protocolId options

/-! ## What reaches the outside -/

section Outside

omit [NetcodeConnect N]

/-- The log has this form. -/
def Logged (p : List DialEvent → Prop) (s : Dialing W) : Prop := p s.log

/-- However it ends, the log is as it was. -/
def Quiet (m : Dial W α) : Prop :=
  ∀ p, Prog.Ensures (Logged p) m (fun _ => Logged p) fun _ => Logged p

namespace Quiet

section

omit [Browser W]

theorem pure (a : α) : Quiet (Pure.pure a : Dial W α) := fun _ => .pure fun _ h => h

theorem bind {β : Type} {m : Dial W β} {k : β → Dial W α} (hm : Quiet m) (hk : ∀ b, Quiet (k b)) :
    Quiet (m >>= k) := fun p => (hm p).bind fun b => hk b p

theorem ite {c : Prop} [Decidable c] {m n : Dial W α} (hm : Quiet m) (hn : Quiet n) :
    Quiet (if c then m else n) := fun p => .ite (fun _ => hm p) fun _ => hn p

theorem awaiting (rejected : String → DialError) (f : W → W × Except String α) :
    Quiet (awaiting rejected f) := fun _ => .call (fun _ _ h _ => h) fun _ _ h _ => h

theorem look (f : W → α) : Quiet (look f) := fun _ => .call (fun _ _ h _ => h) fun _ _ h _ => h

theorem check (r : Except DialError α) : Quiet (check r : Dial W α) := fun _ =>
  .ofExcept (fun _ _ _ h => h) fun _ _ _ h => h

end

theorem pollUntil {look : Dialing W → Dialing W × Option (Except Halt α)} (hlook : ∀ s, (look s).1 = s)
    (fuel : Nat) : Quiet (Prog.pollUntil .pending look pause fuel) := by
  intro p
  have hkeep : ∀ s : Dialing W, Logged p s → Logged p (look s).1 := fun s h => (hlook s).symm ▸ h
  exact Prog.Ensures.pollUntil (fun _ h => h) (fun s _ h _ => hkeep s h) (fun s _ h _ => hkeep s h)
    (fun s h _ => hkeep s h) fuel

theorem awaitIceComplete (fuel : Nat) : Quiet (awaitIceComplete fuel : Dial W Unit) :=
  (look _).bind fun _ => ite (pure ()) ((look _).bind fun _ => pollUntil (fun _ => rfl) fuel)

theorem awaitDataChannelOpen (fuel : Nat) : Quiet (awaitDataChannelOpen fuel : Dial W Unit) :=
  (look _).bind fun _ => ite (pure ()) ((look _).bind fun _ => pollUntil (fun _ => rfl) fuel)

theorem gatherCandidates (fuel : Nat) : Quiet (gatherCandidates fuel : Dial W Unit) := by
  intro p
  have hwait := awaitIceComplete (W := W) fuel p
  constructor
  · intro s a s' hp heq
    unfold Dial.gatherCandidates at heq
    split at heq
    · rename_i timeoutMs t hs
      have ht := hwait.error hp hs
      obtain ⟨-, rfl⟩ := Prod.mk.inj heq
      exact ht
    · exact hwait.value hp heq
  · intro s e s' hp heq
    unfold Dial.gatherCandidates at heq
    split at heq
    · rename_i timeoutMs t hs
      have ht := hwait.error hp hs
      obtain ⟨-, rfl⟩ := Prod.mk.inj heq
      exact ht
    · exact hwait.error hp heq

end Quiet

variable {p q : List DialEvent → Prop} {Q : α → Dialing W → Prop} {E : Halt → Dialing W → Prop}

omit [Browser W] in
theorem Quiet.then {m : Dial W α} (h : Quiet m) (hE : ∀ e s, Logged p s → E e s) :
    Prog.Ensures (Logged p) m (fun _ => Logged p) E :=
  (h p).conseq (fun _ h => h) (fun _ _ h => h) hE

omit [Browser W] in
theorem note_spec (e : DialEvent) (h : ∀ log, p log → q (e :: log)) :
    Prog.Ensures (Logged (W := W) p) (note e) (fun _ => Logged q) E :=
  .call (fun s _ hp _ => h s.log hp) fun _ _ _ he => by cases he

omit [Browser W] in
theorem awaiting_spec {rejected : String → DialError} {f : W → W × Except String α}
    (hE : ∀ e s, Logged p s → E (.error e) s) :
    Prog.Ensures (Logged (W := W) p) (awaiting rejected f) (fun _ => Logged p) E := by
  refine .call (fun _ _ h _ => h) fun s e h he => ?_
  rcases hf : (f s.world).2 with detail | a
  · rw [hf] at he
    cases he
    exact hE _ _ h
  · rw [hf] at he; cases he

section

variable {P : Dialing W → Prop}

omit [Browser W] in
/-- What is seen is so of the world. -/
theorem look_spec (f : W → α) : Prog.Ensures P (look f) (fun a s => a = f s.world ∧ P s) E :=
  .call (fun _ _ h he => ⟨(Except.ok.inj he).symm, h⟩) fun _ _ _ he => by cases he

omit [Browser W] in
/-- A check that passes says so. -/
theorem check_spec {r : Except DialError α} (hE : ∀ e s, P s → E (.error e) s) :
    Prog.Ensures P (check r) (fun a s => r = .ok a ∧ P s) E := by
  cases r with
  | ok a => exact .pure fun _ h => ⟨rfl, h⟩
  | error e => exact .fail fun s h => hE e s h

end

/-- A request goes out at most once, and only if it could be built. -/
theorem post_spec {sent : DialEvent} {url body : Bytes} {log : List DialEvent}
    (hE : ∀ e s, Logged (· = log) s → E (.error e) s)
    (hsent : ∀ e s, Logged (· = sent :: log) s → E (.error e) s) :
    Prog.Ensures (Logged (W := W) (· = log)) (post sent url body) (fun _ => Logged (· = sent :: log)) E :=
  .bind (awaiting_spec hE) fun _ =>
    .bind (note_spec (q := (· = sent :: log)) sent fun _ hl => congrArg _ hl) fun _ => awaiting_spec hsent

/-- An offer goes out at most once, and to the given URL. -/
theorem postOffer_spec (json : OfferJson) (url : Bytes) (offer : BootstrapService.SdpHttpOfferRequest)
    (log : List DialEvent) :
    Prog.Ensures (Logged (W := W) (· = log)) (postOffer json url offer)
      (fun _ => Logged (· = .offerPosted url offer :: log))
      fun _ => Logged fun l => l = log ∨ l = .offerPosted url offer :: log := by
  refine .ite (fun _ => .fail fun s h => .inl h) fun _ => ?_
  refine ((Quiet.check _).then fun _ _ h => .inl h).bind fun body => ?_
  refine .bind (post_spec (fun _ _ h => .inl h) fun _ _ h => .inr h) fun response => ?_
  exact (Quiet.check _).then fun _ _ h => .inr h

/-- What a peer that is being negotiated may have shown of itself: nothing; or its offer,
with the session's token, at the session's URL. -/
inductive Offered (session : SessionCreateResponse) (log : List DialEvent) : List DialEvent → Prop where
  | silent : Offered session log log
  | offered (sdp : Text) (visible : blank sdp = false) :
      Offered session log (.offerPosted session.webrtcOfferUrl ⟨utf8 sdp, session.sessionToken⟩ :: log)

theorem someSdp_ok {sdp : Option Text} {text : Text} (h : someSdp sdp = .ok text) :
    blank text = false := by
  unfold someSdp at h
  split at h
  · cases h
  · split at h
    · cases h
    · rename_i hblank
      cases h
      simpa using hblank

/-- The answer a negotiation comes to names the session's client. -/
theorem negotiate_spec (fuel : Nat) (json : OfferJson) (session : SessionCreateResponse)
    (log : List DialEvent) :
    Prog.Ensures (Logged (W := W) (· = log)) (negotiate fuel json session)
      (fun answer s => answer.clientId = session.clientId ∧ Logged (fun l => ∃ sdp, blank sdp = false ∧
        l = .offerPosted session.webrtcOfferUrl ⟨utf8 sdp, session.sessionToken⟩ :: log) s)
      fun _ => Logged (Offered session log) := by
  have hsilent : ∀ (e : Halt) (s : Dialing W), Logged (· = log) s → Logged (Offered session log) s :=
    fun _ _ h => by rw [Logged, show _ = log from h]; exact .silent
  refine ((Quiet.awaiting _ _).then hsilent).bind fun offer => ?_
  refine ((Quiet.check _).then hsilent).bind fun offerSdp => ?_
  refine ((Quiet.awaiting _ _).then hsilent).bind fun _ => ?_
  refine ((Quiet.gatherCandidates fuel).then hsilent).bind fun _ => ?_
  refine ((Quiet.look _).then hsilent).bind fun localDescription => ?_
  refine (check_spec fun e s h => hsilent (.error e) s h).bind fun sdp => .given fun hsdp => ?_
  -- from here on there is a text to offer
  have hvisible := someSdp_ok hsdp
  have hoffered : ∀ (e : Halt) (s : Dialing W),
      Logged (· = .offerPosted session.webrtcOfferUrl ⟨utf8 sdp, session.sessionToken⟩ :: log) s →
      Logged (Offered session log) s :=
    fun _ _ h => by rw [Logged, show _ = _ from h]; exact .offered sdp hvisible
  refine .bind ((postOffer_spec json session.webrtcOfferUrl ⟨utf8 sdp, session.sessionToken⟩ log).conseq
    (fun _ h => h) (fun _ _ h => h) fun e s h => h.elim (hsilent e s) (hoffered e s)) fun answer => ?_
  refine .ite (fun _ => .fail fun s h => hoffered .pending s h) fun hid => ?_
  refine ((Quiet.awaiting _ _).then hoffered).bind fun _ => ?_
  refine ((Quiet.awaitDataChannelOpen fuel).then hoffered).bind fun _ => ?_
  exact .pure fun s h => ⟨not_ne_iff.1 hid, sdp, hvisible, h⟩

end Outside

variable {lib : TokenLib} {session : SessionCreateResponse} {protocolId : UInt64} {options : WebDialOptions C}

/-- The options are sound, and the session names an address and entitles the client to
`auth` at `now`. -/
structure Cleared (N : Type) [NetcodeConnect N] (session : SessionCreateResponse)
    (protocolId : UInt64) (options : WebDialOptions C) (addr : SocketAddr) (now : Nat)
    (auth : ClientAuthentication) : Prop where
  valid : options.validate (NetcodeClient.maxPacketBytes N) = .ok ()
  resolved : serverAddr session options = .ok addr
  entitled : Entitled session protocolId addr now options.requireSecure options.sessionRequest auth

/-- What becomes of a connect on a session that is there in `s`, and of `s`. The session
is checked by the clock of `s` before there is a peer, and once more by the clock of the
world the transport starts in. -/
inductive Went (session : SessionCreateResponse) (protocolId : UInt64) (options : WebDialOptions C)
    (s : Dialing W) : Except Halt (Dialed N C W) → Dialing W → Prop where
  | refused (e : DialError) {t : Dialing W} (log : t.log = s.log) :
      Went session protocolId options s (.error (.error e)) t
  | closed (e : DialError) {t : Dialing W} {addr : SocketAddr} {auth : ClientAuthentication}
      {l : List DialEvent}
      (cleared : Cleared N session protocolId options addr (browserNowDuration s.world) auth)
      (offered : Offered session (.peerOpened :: s.log) l) (log : t.log = .peerClosed :: l) :
      Went session protocolId options s (.error (.error e)) t
  | waiting {t : Dialing W} {addr : SocketAddr} {auth : ClientAuthentication}
      (cleared : Cleared N session protocolId options addr (browserNowDuration s.world) auth)
      (offered : Offered session (.peerOpened :: s.log) t.log) :
      Went session protocolId options s (.error .pending) t
  | connected {t : Dialing W} {addr : SocketAddr} {early auth : ClientAuthentication} {sdp : Text}
      (cleared : Cleared N session protocolId options addr (browserNowDuration s.world) early)
      (again : Cleared N session protocolId options addr (browserNowDuration t.world) auth)
      {netcodeClient : N}
      (netcode : NetcodeConnect.connect (browserNowDuration t.world) auth = .ok netcodeClient)
      (visible : blank sdp = false)
      (log : t.log =
        .offerPosted session.webrtcOfferUrl ⟨utf8 sdp, session.sessionToken⟩ :: .peerOpened :: s.log) :
      Went session protocolId options s
        (.ok (.new options.toWebRtcConnectOptions options.conditioner netcodeClient options.client t.world,
          session.clientId)) t

theorem mapError_ok {ε ε' α : Type} {f : ε → ε'} {r : Except ε α} {a : α}
    (h : r.mapError f = .ok a) : r = .ok a := by
  cases r with
  | ok b => cases h; rfl
  | error e => cases h

/-- An entitlement is one by the clock of the world it was checked in. -/
theorem authenticate_spec {addr : SocketAddr} {P : Dialing W → Prop} {E : Halt → Dialing W → Prop}
    (hE : ∀ e s, P s → E (.error e) s) :
    Prog.Ensures P (authenticate lib session protocolId addr options)
      (fun auth s => Entitled session protocolId addr (browserNowDuration s.world) options.requireSecure
        options.sessionRequest auth ∧ P s) E := by
  refine .bind (look_spec _) fun now => ?_
  refine (check_spec fun e s h => hE e s h.2).conseq (fun _ h => h) (fun auth s h => ?_) fun _ _ h => h
  obtain ⟨hauth, rfl, hp⟩ := h
  exact ⟨authentication_entitled (mapError_ok hauth), hp⟩

/-- A transport is a fresh one, on a netcode client for an entitlement of the moment. -/
theorem openChannel_spec {addr : SocketAddr} {clientId : ClientId} {P : Dialing W → Prop}
    {E : Halt → Dialing W → Prop} (hE : ∀ e s, P s → E (.error e) s) :
    Prog.Ensures P (openChannel (N := N) lib session protocolId addr options clientId)
      (fun d s => (∃ auth netcodeClient,
        Entitled session protocolId addr (browserNowDuration s.world) options.requireSecure
          options.sessionRequest auth ∧
          NetcodeConnect.connect (browserNowDuration s.world) auth = .ok netcodeClient ∧
          d = (.new options.toWebRtcConnectOptions options.conditioner netcodeClient options.client s.world,
            clientId)) ∧
        P s) E := by
  refine .bind (authenticate_spec hE) fun auth => ?_
  refine .bind (look_spec _) fun later => ?_
  refine .bind (check_spec fun e s h => hE e s h.2.2) fun netcodeClient => ?_
  refine .bind (look_spec _) fun world => .pure fun s h => ?_
  obtain ⟨rfl, hconnect, rfl, hentitled, hp⟩ := h
  exact ⟨⟨auth, netcodeClient, hentitled, mapError_ok hconnect, rfl⟩, hp⟩

/-- Connecting on a session does one of the things of `Went`. -/
theorem connectWebrtcFromSession_spec (fuel : Nat) (offers : OfferJson) (s : Dialing W) :
    Prog.Ensures (· = s) (connectWebrtcFromSession (N := N) fuel lib offers session protocolId options)
      (fun d => Went session protocolId options s (.ok d))
      fun e => Went (N := N) (C := C) session protocolId options s (.error e) := by
  have hrefused : ∀ (e : DialError) (t : Dialing W), Logged (· = s.log) t →
      Went (N := N) (C := C) session protocolId options s (.error (.error e)) t := fun e t h => .refused e h
  refine .bind (check_spec fun e t h => hrefused e t (h ▸ rfl)) fun u => .given fun hvalid => ?_
  refine .bind (check_spec fun e t h => hrefused e t (h ▸ rfl)) fun addr => .given fun haddr => ?_
  refine .bind (authenticate_spec fun e t h => hrefused e t (h ▸ rfl)) fun early => ?_
  -- from here on only the log is followed
  refine .each fun t ⟨hentitled, hts⟩ => ?_
  rw [hts] at hentitled
  have hcleared : Cleared N session protocolId options addr (browserNowDuration s.world) early :=
    ⟨mapError_ok hvalid, haddr, hentitled⟩
  refine Prog.Ensures.conseq (G := Logged (· = s.log)) ?_ (fun _ h => by rw [h, hts]; rfl) (fun _ _ h => h)
    fun _ _ h => h
  refine .bind (awaiting_spec hrefused) fun _ => ?_
  refine .bind (note_spec (q := (· = .peerOpened :: s.log)) _ fun l hl => congrArg _ hl) fun _ => ?_
  refine .guarded (F := fun _ => Logged (Offered session (.peerOpened :: s.log))) ?_ fun e t h => ?_
  · refine .bind (negotiate_spec fuel offers session (.peerOpened :: s.log)) fun answer =>
      .given fun hid => ?_
    refine (openChannel_spec fun e t h => ?_).conseq (fun _ h => h) (fun d t h => ?_) fun _ _ h => h
    · obtain ⟨sdp, hvisible, hl⟩ := h
      rw [Logged, hl]
      exact .offered sdp hvisible
    · obtain ⟨⟨auth, netcodeClient, hagain, hconnect, hd⟩, sdp, hvisible, hl⟩ := h
      rw [hd, hid]
      exact .connected hcleared ⟨mapError_ok hvalid, haddr, hagain⟩ hconnect hvisible hl
  · cases e with
    | error e => exact .closed e hcleared h rfl
    | pending => exact .waiting hcleared h

/-- What becomes of a connect, and what it did to the outside: nothing; or one request to
the service; or more, on a session the service gave. -/
inductive Did (json : Json) (baseHttp : Bytes) (protocolId : UInt64) (options : WebDialOptions C)
    (s : Dialing W) : Except Halt (Dialed N C W) → Dialing W → Prop where
  | refused (e : DialError) {t : Dialing W} (log : t.log = s.log) :
      Did json baseHttp protocolId options s (.error (.error e)) t
  | posted (e : DialError) {t : Dialing W} {body : Bytes}
      (request : sessionRequestBody json options.sessionRequest options.requireSecure protocolId = .ok body)
      (log : t.log = .posted (sessionUrl baseHttp) body :: s.log) :
      Did json baseHttp protocolId options s (.error (.error e)) t
  | went {body : Bytes} {session : SessionCreateResponse} {ready t : Dialing W}
      {r : Except Halt (Dialed N C W)}
      (request : sessionRequestBody json options.sessionRequest options.requireSecure protocolId = .ok body)
      (answer : createSession json baseHttp body s = (.ok session, ready))
      (log : ready.log = .posted (sessionUrl baseHttp) body :: s.log)
      (went : Went session protocolId options ready r t) :
      Did json baseHttp protocolId options s r t

omit [NetcodeConnect N] in
/-- A session was asked for. -/
theorem createSession_spec {json : Json} {baseHttp body : Bytes} {log : List DialEvent}
    {E : Halt → Dialing W → Prop} (hE : ∀ e s, Logged (· = log) s → E (.error e) s)
    (hsent : ∀ e s, Logged (· = .posted (sessionUrl baseHttp) body :: log) s → E (.error e) s) :
    Prog.Ensures (Logged (W := W) (· = log)) (createSession json baseHttp body)
      (fun _ => Logged (· = .posted (sessionUrl baseHttp) body :: log)) E := by
  refine .bind (post_spec hE hsent) fun response => ?_
  exact (check_spec hsent).conseq (fun _ h => h) (fun _ _ h => h.2) fun _ _ h => h

/-- Whatever the browser and the network do, connecting does one of the things of `Did`:
a peer connection is opened, and an offer made of it, only on a session that clears the
client, for which it asked; the offer goes where the session says, with the session's
token; a peer that comes to no transport is closed; and a transport that there is speaks
for the session's client, by an entitlement that held when the channel was open. -/
theorem connect_did (fuel : Nat) (lib : TokenLib) (json : Json) (offers : OfferJson) (baseHttp : Bytes)
    (protocolId : UInt64) (options : WebDialOptions C) (s : Dialing W) :
    let r := connectViaSdpHttpWithOptions (N := N) fuel lib json offers baseHttp protocolId options s
    Did json baseHttp protocolId options s r.1 r.2 := by
  have hrefused : ∀ (e : DialError) (t : Dialing W), Logged (· = s.log) t →
      Did (N := N) json baseHttp protocolId options s (.error (.error e)) t := fun e t h => .refused e h
  have hspec : Prog.Ensures (· = s)
      (connectViaSdpHttpWithOptions (N := N) (W := W) fuel lib json offers baseHttp protocolId options)
      (fun d => Did json baseHttp protocolId options s (.ok d))
      fun e => Did (N := N) json baseHttp protocolId options s (.error e) := by
    refine .bind (check_spec fun e t h => hrefused e t (h ▸ rfl)) fun _ => .given fun _ => ?_
    refine .bind (check_spec fun e t h => hrefused e t (h ▸ rfl)) fun body => .given fun hbody => ?_
    have hrequest := mapError_ok hbody
    have hasked : Prog.Ensures (· = s) (createSession json baseHttp body)
        (fun _ => Logged (· = .posted (sessionUrl baseHttp) body :: s.log))
        fun e => Did (N := N) json baseHttp protocolId options s (.error e) :=
      (createSession_spec hrefused fun e t h => .posted e hrequest h).conseq
        (fun _ h => by rw [h]; rfl) (fun _ _ h => h) fun _ _ h => h
    refine .bind hasked.ran fun session => .each fun ready ⟨hanswer, hlog⟩ => ?_
    exact (connectWebrtcFromSession_spec fuel offers ready).conseq (fun _ h => h)
      (fun d t h => .went hrequest hanswer hlog h) fun e t h => .went hrequest hanswer hlog h
  have hend := hspec.outcome (s := s) rfl
  dsimp only
  split at hend <;> rename_i hr <;> rw [hr] <;> exact hend

/-! ## How long it takes -/

/-- Looks enough for the longer of the two waits. -/
def LOOKS : Nat := DATA_CHANNEL_OPEN_TIMEOUT_MS / STATE_POLL_INTERVAL_MS + 2

/-- All the waits in it end, and a browser error is what it ends with. -/
abbrev Steady (m : Nat → Dial W α) : Prop := Prog.Steady .pending LOOKS m

section Ends

omit [NetcodeConnect N]

theorem error_ne_pending {r : Except DialError α} : r.mapError Halt.error ≠ .error .pending := by
  cases r <;> exact nofun

section

omit [Browser W]

theorem awaiting_steady (rejected : String → DialError) (f : W → W × Except String α) :
    Steady fun _ => awaiting rejected f := by
  refine .call fun s h => ?_
  rcases hf : (f s.world).2 with detail | a <;> rw [hf] at h <;> cases h

theorem look_steady (f : W → α) : Steady fun _ => look f := .call fun _ => nofun

theorem note_steady (e : DialEvent) : Steady (W := W) fun _ => note e := .call fun _ => nofun

theorem check_steady (r : Except DialError α) : Steady (W := W) fun _ => check r :=
  .ofExcept error_ne_pending

end

variable [LawfulBrowser W]

/-- A poll whose deadline is at most the longer of the two ends before the looks do. -/
theorem poll_ends (timeoutMs : Nat) {startedAt : Nat}
    {look : Dialing W → Dialing W × Option (Except Halt Unit)} (hstay : ∀ s, (look s).1 = s)
    (hanswer : ∀ s r, (look s).2 = some r → r ≠ .error .pending)
    (hdue : ∀ s : Dialing W, timeoutMs < elapsedMs startedAt s.world → (look s).2 ≠ none)
    (htimeout : timeoutMs ≤ DATA_CHANNEL_OPEN_TIMEOUT_MS) (s : Dialing W)
    (hs : startedAt ≤ Browser.dateNow s.world) :
    (Prog.pollUntil .pending look pause LOOKS s).1 ≠ .error .pending := by
  refine Prog.pollUntil_ends (fun s => Browser.dateNow s.world) (· ≠ .error .pending) startedAt
    STATE_POLL_INTERVAL_MS (LOOKS - 2) (by decide) hanswer
    (fun t ht => hdue t ?_) (fun t => ?_) LOOKS 0 s (by omega) (by omega) (by decide)
  · have hlate : (LOOKS - 2) * STATE_POLL_INTERVAL_MS = 30000 := rfl
    have hlong : DATA_CHANNEL_OPEN_TIMEOUT_MS = 30000 := rfl
    rw [hlate] at ht
    unfold elapsedMs
    omega
  · rw [hstay]
    exact LawfulBrowser.sleep t.world

theorem awaitIceComplete_steady : Steady (W := W) awaitIceComplete := by
  refine .bind (look_steady _) fun state => .ite (.pure ()) (.wait fun s => ?_)
  refine poll_ends ICE_GATHER_TIMEOUT_MS (fun _ => rfl) (fun t r hr => ?_) (fun t ht hnone => ?_)
    (by decide) s le_rfl
  · simp only [lookIce] at hr
    split at hr
    · cases hr; exact nofun
    · split at hr
      · cases hr; exact nofun
      · cases hr
  · simp only [lookIce, if_pos ht] at hnone
    split at hnone <;> cases hnone

theorem awaitDataChannelOpen_steady : Steady (W := W) awaitDataChannelOpen := by
  refine .bind (look_steady _) fun state => .ite (.pure ()) (.wait fun s => ?_)
  refine poll_ends DATA_CHANNEL_OPEN_TIMEOUT_MS (fun _ => rfl) (fun t r hr => ?_) (fun t ht hnone => ?_)
    (by decide) s le_rfl
  · simp only [lookChannel] at hr
    split at hr
    · cases hr; exact nofun
    · cases hr; exact nofun
    · cases hr; exact nofun
    · split at hr
      · cases hr; exact nofun
      · cases hr
  · simp only [lookChannel, if_pos ht] at hnone
    split at hnone <;> cases hnone

/-- A timeout is forgiven or stays. -/
theorem gatherCandidates_steady : Steady (W := W) gatherCandidates where
  settles := by
    refine ⟨fun _ _ => trivial, fun {s e s'} _ heq => ?_⟩
    unfold gatherCandidates at heq
    split at heq
    · split at heq <;> cases heq
      exact Halt.noConfusion
    · exact awaitIceComplete_steady.settles.error trivial heq
  enough more := by
    unfold gatherCandidates
    rw [awaitIceComplete_steady.enough]

omit [LawfulBrowser W] in
theorem post_steady (sent : DialEvent) (url body : Bytes) :
    Steady (W := W) fun _ => post sent url body :=
  .bind (awaiting_steady _ _) fun _ => .bind (note_steady _) fun _ => awaiting_steady _ _

omit [LawfulBrowser W] in
theorem postOffer_steady (json : OfferJson) (url : Bytes)
    (offer : BootstrapService.SdpHttpOfferRequest) :
    Steady (W := W) fun _ => postOffer json url offer :=
  .ite (check_steady _) <| .bind (check_steady _) fun _ => .bind (post_steady _ _ _) fun _ => check_steady _

theorem negotiate_steady (json : OfferJson) (session : SessionCreateResponse) :
    Steady (W := W) fun fuel => negotiate fuel json session := by
  refine .bind (awaiting_steady _ _) fun offer => .bind (check_steady _) fun offerSdp => ?_
  refine .bind (awaiting_steady _ _) fun _ => .bind gatherCandidates_steady fun _ => ?_
  refine .bind (look_steady _) fun description => .bind (check_steady _) fun localSdp => ?_
  refine .bind (postOffer_steady _ _ _) fun answer => .ite (check_steady _) ?_
  exact .bind (awaiting_steady _ _) fun _ => .bind awaitDataChannelOpen_steady fun _ => .pure answer

omit [LawfulBrowser W] in
theorem authenticate_steady (lib : TokenLib) (session : SessionCreateResponse) (protocolId : UInt64)
    (addr : SocketAddr) (options : WebDialOptions C) :
    Steady (W := W) fun _ => authenticate lib session protocolId addr options :=
  .bind (look_steady _) fun _ => check_steady _

omit [LawfulBrowser W] in
theorem createSession_steady (json : Json) (baseHttp body : Bytes) :
    Steady (W := W) fun _ => createSession json baseHttp body :=
  .bind (post_steady _ _ _) fun _ => check_steady _

end Ends

variable [LawfulBrowser W]

theorem connectWebrtcFromSession_steady (lib : TokenLib) (offers : OfferJson)
    (session : SessionCreateResponse) (protocolId : UInt64) (options : WebDialOptions C) :
    Steady (W := W) fun fuel =>
      connectWebrtcFromSession (N := N) fuel lib offers session protocolId options := by
  refine .bind (check_steady _) fun _ => .bind (check_steady _) fun addr => ?_
  refine .bind (authenticate_steady _ _ _ _ _) fun _ => .bind (awaiting_steady _ _) fun _ => ?_
  refine .bind (note_steady _) fun _ => .guarded (.bind (negotiate_steady _ _) fun answer => ?_)
  refine .bind (authenticate_steady _ _ _ _ _) fun auth => .bind (look_steady _) fun now => ?_
  exact .bind (check_steady _) fun netcodeClient => .bind (look_steady _) fun world => .pure _

/-- **Connecting does not hang.** Whatever the browser answers, and whether candidates,
the channel or neither ever come, a connect comes to a transport or an error within
`LOOKS` looks at each of the two things it waits for. -/
theorem connect_ends (lib : TokenLib) (json : Json) (offers : OfferJson) (baseHttp : Bytes)
    (protocolId : UInt64) (options : WebDialOptions C) (s : Dialing W) (more : Nat) :
    let connect fuel :=
      connectViaSdpHttpWithOptions (N := N) fuel lib json offers baseHttp protocolId options s
    (connect LOOKS).1 ≠ .error .pending ∧ connect (LOOKS + more) = connect LOOKS := by
  have hsteady : Steady (W := W) fun fuel =>
      connectViaSdpHttpWithOptions (N := N) fuel lib json offers baseHttp protocolId options :=
    .bind (check_steady _) fun _ => .bind (check_steady _) fun _ => .bind (createSession_steady _ _ _)
      fun session => connectWebrtcFromSession_steady _ _ session _ _
  refine ⟨fun he => ?_, congrFun (hsteady.enough more) s⟩
  exact hsteady.settles.error trivial (Prod.ext he rfl) rfl

/-! ## A tab -/

/-- A tab whose ICE gathering never completes, though it has a candidate, whose channel
opens late, and whose network has its answers ready. -/
structure ScriptedTab where
  browser : WebClientState.ScriptedBrowser := {}
  clock : Nat := 0
  opensAt : Nat
  answers : List Bytes

instance : Browser ScriptedTab where
  lock w control := ({ w with browser := (GateWorld.lock w.browser control).1 },
    (GateWorld.lock w.browser control).2)
  delay w := GateWorld.delay w.browser
  readyState w := if w.opensAt ≤ w.clock then .isOpen else .connecting
  bufferedAmount w := DataChannel.bufferedAmount w.browser
  send w bytes := ({ w with browser := (DataChannel.send w.browser bytes).1 },
    (DataChannel.send w.browser bytes).2)
  egressNow w := ({ w with browser := (DataChannel.egressNow w.browser).1 },
    (DataChannel.egressNow w.browser).2)
  elapse w k := { w with browser := DataChannel.elapse w.browser k }
  dateNow := ScriptedTab.clock
  sleep w := { w with clock := w.clock + STATE_POLL_INTERVAL_MS }
  openPeer w _ := (w, .ok ())
  closePeer w := w
  createOffer w := (w, .ok (some CANDIDATE_LINE))
  setLocalDescription w _ := (w, .ok ())
  iceGatheringState _ := .gathering
  localDescription _ := some CANDIDATE_LINE
  buildRequest w _ _ := (w, .ok ())
  post w _ _ :=
    match w.answers with
    | [] => (w, .error "offline")
    | answer :: rest => ({ w with answers := rest }, .ok ⟨200, none, some ⟨[answer], none⟩⟩)
  setRemoteDescription w _ := (w, .ok ())

instance : LawfulBrowser ScriptedTab where
  sleep _ := Nat.le_refl _

/-- `10.0.0.1:5001` for client 9, with a ticket and nothing asked. -/
def tabSession : SessionCreateResponse :=
  ⟨9, [], ascii ['1', '0', '.', '0', '.', '0', '.', '1', ':', '5', '0', '0', '1'], [47], some [7], none⟩

def tabJson : Json := ⟨fun _ => some [2], fun _ => none, fun _ => none, fun _ => some tabSession⟩

def tabOffers : OfferJson := ⟨fun _ => some [4], fun _ => some ⟨9, [5]⟩⟩

def tabOptions : WebDialOptions MailboxRenet := { WebClientState.hostOnly with client := {} }

/-- What a tab whose channel opens at `opensAt` comes to. -/
def tabConnect (opensAt fuel : Nat) :
    Except Halt (Dialed TaggedNetcode MailboxRenet ScriptedTab) × Dialing ScriptedTab :=
  connectViaSdpHttpWithOptions fuel arenaLib tabJson tabOffers [47] 7 tabOptions
    { world := { opensAt := opensAt, answers := [[3], [6]] } }

theorem connect_ends_tab :
    (tabConnect 20000 LOOKS).1.toOption.map (·.2) = some 9 ∧
      tabConnect 20000 (LOOKS + 498) = tabConnect 20000 LOOKS := by
  refine ⟨by decide +kernel, ?_⟩
  unfold tabConnect
  exact (connect_ends arenaLib tabJson tabOffers [47] 7 tabOptions _ 498).2

end Dial
end RenetCross.L4
