import RenetCross.L3Protocol.SessionHttp
import RenetCross.L4App.NativeClientRuns

/-!
# How a native client connects

`src/native_client.rs`: `connect_via_session_http_blocking` and its async twin ask a
bootstrap service for a session and hand the answer to `connect_from_session`, which
also serves applications with an endpoint of their own. Everything the outside does is
an answer of the world: the clock, the HTTP stack, whoever replies, the sockets.

`log` is what the client did to the outside, newest first.
-/
namespace RenetCross.L4

open RenetCross.L2 RenetCross.L3

/-- `connect` is renetcode's `NetcodeClient::new`, `addresses` the server addresses of
the token a client holds. -/
class NetcodeConnect (N : Type) extends NetcodeClient N where
  connect : Nat → ClientAuthentication → Except NetcodeError N
  addresses : N → List SocketAddr

/-- What is assumed of renetcode: a client tries the addresses of its token, and keeps
the token. -/
class LawfulNetcodeConnect (N : Type) [NetcodeConnect N] : Prop where
  connect : ∀ now auth (n : N), NetcodeConnect.connect now auth = .ok n →
    NetcodeConnect.addresses n = auth.addresses
  serverAddr : ∀ n : N, NetcodeClient.serverAddr n ∈ NetcodeConnect.addresses n
  processPacket : ∀ (n : N) bytes,
    NetcodeConnect.addresses (NetcodeClient.processPacket n bytes).1 = NetcodeConnect.addresses n
  update : ∀ (n : N) d, NetcodeConnect.addresses (NetcodeClient.update n d).1 = NetcodeConnect.addresses n
  disconnect : ∀ n : N, NetcodeConnect.addresses (NetcodeClient.disconnect n).1 = NetcodeConnect.addresses n
  generatePayloadPacket : ∀ (n : N) p,
    NetcodeConnect.addresses (NetcodeClient.generatePayloadPacket n p).1 = NetcodeConnect.addresses n

/-- `unixNow` is `unix_now_duration`, `buildHttp` whether the HTTP client could be built;
`post` takes the URL and the body. -/
class ConnectWorld (W : Type) extends ClientSocket W where
  unixNow : W → W × Option Nat
  buildHttp : W → W × Bool
  post : W → Bytes → Bytes → W × Except String (HttpResponse IoErrorKind)
  bindUdp : W → SocketAddr → W × Except IoErrorKind Unit
  setNonblocking : W → W × Except IoErrorKind Unit

/-- mirrors src/native_client.rs:16-44 -/
inductive NativeClientError where
  | bootstrapAuth (error : BootstrapAuthError)
  | security (error : SessionSecurityError)
  | bodyTooLarge
  | io (kind : IoErrorKind)
  | netcode (error : NetcodeError)
  | invalidSessionUdpAddr (addr : String)
  | httpRequest (url : Bytes) (detail : String)
  | httpStatus (url : Bytes) (status : Nat) (body : String)
  | httpDecode (url : Bytes) (detail : String)
  | clock
  deriving DecidableEq, Repr

def NativeClientError.ofRequest : RequestError → NativeClientError
  | .security e => .security e
  | .bootstrapAuth e => .bootstrapAuth e
  | .bodyTooLarge => .bodyTooLarge

def NativeClientError.ofDecode (url : Bytes) : DecodeError IoErrorKind → NativeClientError
  | .status status => .httpStatus url status "bootstrap request rejected"
  | .bodyTooLarge => .bodyTooLarge
  | .read kind => .io kind
  | .decode detail => .httpDecode url detail

/-- `client` is `RenetClient::new(connection_config)`.
mirrors src/native_client.rs:46-67 -/
structure NativeConnectOptions (C : Type) where
  client : C
  udpBind : SocketAddr := .v4 ⟨0, 0, 0, 0⟩ 0
  overrideUdpAddr : Option SocketAddr := none
  conditioner : Option Control := none
  sessionRequest : SessionCreateRequest := {}
  requireSecure : Bool := false

inductive ConnectEvent where
  | posted (url body : Bytes)
  | bound (addr : SocketAddr)
  deriving DecidableEq, Repr

structure Connecting (W : Type) where
  world : W
  log : List ConnectEvent := []

variable {N C W : Type} [ConnectWorld W] [NetcodeConnect N]

namespace Connecting

/-! ## The steps -/

/-- mirrors src/native_client.rs:366-376 -/
def serverAddr (session : SessionCreateResponse) (options : NativeConnectOptions C) :
    Except NativeClientError SocketAddr :=
  match options.overrideUdpAddr with
  | some addr => .ok addr
  | none =>
    match SocketAddr.parse session.udpAddr with
    | some addr => .ok addr
    | none => .error (.invalidSessionUdpAddr "<invalid endpoint>")

/-- The socket, the transport and the `RenetClient`.
mirrors src/native_client.rs:388-393,91-112 -/
def openTransport (auth : ClientAuthentication) (clientId : ClientId) (now : Nat)
    (options : NativeConnectOptions C) (s : Connecting W) :
    Connecting W × Except NativeClientError (UdpClientState N C W × ClientId) :=
  let bound := ConnectWorld.bindUdp s.world options.udpBind
  let s := { s with world := bound.1 }
  match bound.2 with
  | .error kind => (s, .error (.io kind))
  | .ok () =>
    let r := ConnectWorld.setNonblocking s.world
    let s : Connecting W := { world := r.1, log := .bound options.udpBind :: s.log }
    match r.2 with
    | .error kind => (s, .error (.io kind))
    | .ok () =>
      match NetcodeConnect.connect (N := N) now auth with
      | .error e => (s, .error (.netcode e))
      | .ok netcodeClient =>
        (s, .ok (.new netcodeClient options.conditioner options.client s.world, clientId))

/-- mirrors src/native_client.rs:360-394 -/
def connectFromSession (lib : TokenLib) (session : SessionCreateResponse) (protocolId : UInt64)
    (options : NativeConnectOptions C) (s : Connecting W) :
    Connecting W × Except NativeClientError (UdpClientState N C W × ClientId) :=
  match serverAddr session options with
  | .error e => (s, .error e)
  | .ok addr =>
    let clock := ConnectWorld.unixNow s.world
    let s := { s with world := clock.1 }
    match clock.2 with
    | none => (s, .error .clock)
    | some now =>
      match session.authentication lib protocolId addr .udp now options.requireSecure
          options.sessionRequest with
      | .error e => (s, .error (.security e))
      | .ok auth => s.openTransport auth session.clientId now options

/-- Posts the request and reads the session.
mirrors src/native_client.rs:307-324,336-354 -/
def requestSession
    (decode : HttpResponse IoErrorKind → Except (DecodeError IoErrorKind) SessionCreateResponse)
    (url body : Bytes) (s : Connecting W) :
    Connecting W × Except NativeClientError SessionCreateResponse :=
  let built := ConnectWorld.buildHttp s.world
  let s := { s with world := built.1 }
  if built.2 then
    let r := ConnectWorld.post s.world url body
    let s : Connecting W := { world := r.1, log := .posted url body :: s.log }
    match r.2 with
    | .error detail => (s, .error (.httpRequest url detail))
    | .ok response => (s, (decode response).mapError (.ofDecode url))
  else (s, .error (.httpRequest url "failed to construct HTTP client"))

/-- What the two functions below do with their decoder. -/
def connectVia
    (decode : HttpResponse IoErrorKind → Except (DecodeError IoErrorKind) SessionCreateResponse)
    (lib : TokenLib) (json : Json) (baseHttp : Bytes) (protocolId : UInt64)
    (options : NativeConnectOptions C) (s : Connecting W) :
    Connecting W × Except NativeClientError (UdpClientState N C W × ClientId) :=
  match sessionRequestBody json options.sessionRequest options.requireSecure protocolId with
  | .error e => (s, .error (.ofRequest e))
  | .ok body =>
    let r := s.requestSession decode (sessionUrl baseHttp) body
    match r.2 with
    | .error e => (r.1, .error e)
    | .ok session => r.1.connectFromSession lib session protocolId options

/-- mirrors src/native_client.rs:300-326 -/
def connectViaSessionHttpBlocking (lib : TokenLib) (json : Json) :
    Bytes → UInt64 → NativeConnectOptions C → Connecting W →
      Connecting W × Except NativeClientError (UdpClientState N C W × ClientId) :=
  connectVia (fun r => r.decodeJsonResponseBlocking json.decodeResponse) lib json

/-- mirrors src/native_client.rs:329-356 -/
def connectViaSessionHttpAsync (lib : TokenLib) (json : Json) :
    Bytes → UInt64 → NativeConnectOptions C → Connecting W →
      Connecting W × Except NativeClientError (UdpClientState N C W × ClientId) :=
  connectVia (fun r => r.decodeJsonResponseAsync json.decodeResponse) lib json

/-! ## Who may get that far -/

variable {lib : TokenLib} {json : Json} {session : SessionCreateResponse} {protocolId : UInt64}
  {options : NativeConnectOptions C} {s : Connecting W} {t : UdpClientState N C W} {id : ClientId}

/-- The session that was answered entitles the client to `auth` at `addr`. -/
structure Cleared (session : SessionCreateResponse) (protocolId : UInt64)
    (options : NativeConnectOptions C) (addr : SocketAddr) (now : Nat) (auth : ClientAuthentication) :
    Prop where
  resolved : serverAddr session options = .ok addr
  entitled : Entitled session protocolId addr now options.requireSecure options.sessionRequest auth

/-- A transport that was opened starts afresh, on a netcode client made of `auth`. -/
structure Opened (auth : ClientAuthentication) (now : Nat) (options : NativeConnectOptions C)
    (world : W) (t : UdpClientState N C W) : Prop where
  netcode : NetcodeConnect.connect now auth = .ok t.netcodeClient
  fresh : t = .new t.netcodeClient options.conditioner options.client world

theorem openTransport_cases (auth : ClientAuthentication) (clientId : ClientId) (now : Nat)
    (options : NativeConnectOptions C) (s : Connecting W) :
    let r := s.openTransport (N := N) auth clientId now options
    ((∃ e, r.2 = .error e) ∧ (r.1.log = s.log ∨ r.1.log = .bound options.udpBind :: s.log)) ∨
      ∃ t, r.2 = .ok (t, clientId) ∧ r.1.log = .bound options.udpBind :: s.log ∧
        Opened auth now options r.1.world t := by
  dsimp only
  unfold openTransport
  dsimp only
  split
  · exact .inl ⟨⟨_, rfl⟩, .inl rfl⟩
  · split
    · exact .inl ⟨⟨_, rfl⟩, .inr rfl⟩
    · split
      · exact .inl ⟨⟨_, rfl⟩, .inr rfl⟩
      · rename_i netcodeClient hconnect
        exact .inr ⟨_, rfl, rfl, hconnect, rfl⟩

/-- Nothing is bound for a session that entitles to nothing when the clock is read. -/
theorem connectFromSession_cases (lib : TokenLib) (session : SessionCreateResponse)
    (protocolId : UInt64) (options : NativeConnectOptions C) (s : Connecting W) :
    let r := s.connectFromSession (N := N) lib session protocolId options
    ((∃ e, r.2 = .error e) ∧ (r.1.log = s.log ∨ r.1.log = .bound options.udpBind :: s.log ∧
        ∃ addr now auth, (ConnectWorld.unixNow s.world).2 = some now ∧
          Cleared session protocolId options addr now auth)) ∨
      ∃ addr now auth t, (ConnectWorld.unixNow s.world).2 = some now ∧
        Cleared session protocolId options addr now auth ∧
        r.2 = .ok (t, session.clientId) ∧ r.1.log = .bound options.udpBind :: s.log ∧
        Opened auth now options r.1.world t := by
  dsimp only
  unfold connectFromSession
  split
  · exact .inl ⟨⟨_, rfl⟩, .inl rfl⟩
  · rename_i addr haddr
    dsimp only
    split
    · exact .inl ⟨⟨_, rfl⟩, .inl rfl⟩
    · rename_i now hnow
      split
      · exact .inl ⟨⟨_, rfl⟩, .inl rfl⟩
      · rename_i auth hauth
        have hcleared : Cleared session protocolId options addr now auth :=
          ⟨haddr, authentication_entitled hauth⟩
        rcases openTransport_cases (N := N) auth session.clientId now options
            { s with world := (ConnectWorld.unixNow s.world).1 } with
          ⟨he, hlog⟩ | ⟨t, hok, hlog, hopen⟩
        · exact .inl ⟨he, hlog.imp_right fun hlog => ⟨hlog, addr, now, auth, hnow, hcleared⟩⟩
        · exact .inr ⟨addr, now, auth, t, hnow, hcleared, hok, hlog, hopen⟩

theorem requestSession_log
    (decode : HttpResponse IoErrorKind → Except (DecodeError IoErrorKind) SessionCreateResponse)
    (url body : Bytes) (s : Connecting W) :
    let r := s.requestSession decode url body
    ((∃ e, r.2 = .error e) ∧ r.1.log = s.log) ∨ r.1.log = .posted url body :: s.log := by
  dsimp only
  unfold requestSession
  dsimp only
  split
  · split <;> exact .inr rfl
  · exact .inl ⟨⟨_, rfl⟩, rfl⟩

section

variable
  (decode : HttpResponse IoErrorKind → Except (DecodeError IoErrorKind) SessionCreateResponse)
  (lib : TokenLib) (json : Json) (baseHttp : Bytes) (protocolId : UInt64)
  (options : NativeConnectOptions C) (s : Connecting W)

/-- The session was the answer to the request the options make, and clears the client
by the reading of the clock that follows. -/
structure Admitted (body : Bytes) (session : SessionCreateResponse) (addr : SocketAddr) (now : Nat)
    (auth : ClientAuthentication) : Prop extends Cleared session protocolId options addr now auth where
  request : sessionRequestBody json options.sessionRequest options.requireSecure protocolId = .ok body
  answer : (s.requestSession decode (sessionUrl baseHttp) body).2 = .ok session
  clock : (ConnectWorld.unixNow (s.requestSession decode (sessionUrl baseHttp) body).1.world).2 = some now

/-- What connecting did to the outside: nothing; or one request, to the service's URL;
or, for a session that clears the client, a socket as well. -/
inductive Did : List ConnectEvent → Prop where
  | nothing : Did s.log
  | posted (body : Bytes)
      (request : sessionRequestBody json options.sessionRequest options.requireSecure protocolId = .ok body) :
      Did (.posted (sessionUrl baseHttp) body :: s.log)
  | bound (body : Bytes) (session : SessionCreateResponse) (addr : SocketAddr) (now : Nat)
      (auth : ClientAuthentication)
      (admitted : Admitted decode json baseHttp protocolId options s body session addr now auth) :
      Did (.bound options.udpBind :: .posted (sessionUrl baseHttp) body :: s.log)

theorem connectVia_cases :
    let r := s.connectVia (N := N) decode lib json baseHttp protocolId options
    ((∃ e, r.2 = .error e) ∧ Did decode json baseHttp protocolId options s r.1.log) ∨
      ∃ body session addr now auth t,
        Admitted decode json baseHttp protocolId options s body session addr now auth ∧
        r.2 = .ok (t, session.clientId) ∧
        r.1.log = .bound options.udpBind :: .posted (sessionUrl baseHttp) body :: s.log ∧
        Opened auth now options r.1.world t := by
  dsimp only
  unfold connectVia
  split
  · exact .inl ⟨⟨_, rfl⟩, .nothing⟩
  · rename_i body hbody
    have hlog := s.requestSession_log decode (sessionUrl baseHttp) body
    dsimp only at hlog ⊢
    split
    · rename_i e he
      rcases hlog with ⟨-, hlog⟩ | hlog
      · exact .inl ⟨⟨_, rfl⟩, by rw [hlog]; exact .nothing⟩
      · exact .inl ⟨⟨_, rfl⟩, by rw [hlog]; exact .posted body hbody⟩
    · rename_i session hsession
      have hposted : (s.requestSession decode (sessionUrl baseHttp) body).1.log =
          .posted (sessionUrl baseHttp) body :: s.log := by
        rcases hlog with ⟨⟨e, he⟩, -⟩ | hlog
        · rw [hsession] at he; cases he
        · exact hlog
      rcases connectFromSession_cases (N := N) lib session protocolId options
          (s.requestSession decode (sessionUrl baseHttp) body).1 with
        ⟨he, hlog | ⟨hlog, addr, now, auth, hnow, hcleared⟩⟩ |
          ⟨addr, now, auth, t, hnow, hcleared, hok, hlog, hopen⟩
      · exact .inl ⟨he, by rw [hlog, hposted]; exact .posted body hbody⟩
      · refine .inl ⟨he, ?_⟩
        rw [hlog, hposted]
        exact .bound body session addr now auth ⟨hcleared, hbody, hsession, hnow⟩
      · exact .inr ⟨body, session, addr, now, auth, t, ⟨hcleared, hbody, hsession, hnow⟩, hok,
          by rw [hlog, hposted], hopen⟩

end

/-! ## Where a connected client goes -/

/-- Netcode holds on to the addresses it was connected with. -/
def homeInvariant (N : Type) [NetcodeConnect N] [LawfulNetcodeConnect N] (addresses : List SocketAddr) :
    NetcodeInvariant N where
  holds n := NetcodeConnect.addresses n = addresses
  processPacket n bytes h := (LawfulNetcodeConnect.processPacket n bytes).trans h
  update n d h := (LawfulNetcodeConnect.update n d).trans h
  disconnect n h := (LawfulNetcodeConnect.disconnect n).trans h
  generatePayloadPacket n p h := (LawfulNetcodeConnect.generatePayloadPacket n p).trans h

end Connecting

/-- Processed from, or offered to, `addr`. -/
def ClientEvent.AtHome (addr : SocketAddr) : ClientEvent SocketAddr → Prop
  | .processed source _ _ _ => source = addr
  | .offered dest _ _ _ => dest = addr
  | _ => True

section

variable [LawfulNetcodeClient N] [LawfulNetcodeConnect N] [RenetClient C]

/-- A client connected to one address stays there. -/
theorem UdpClientState.run_atHome {netcodeClient : N} {addr : SocketAddr}
    (h : NetcodeConnect.addresses netcodeClient = [addr]) (conditioner : Option Control) (client : C)
    (world : W) (ops : List (UdpClientState.Op C)) :
    ∀ e ∈ ((UdpClientState.new netcodeClient conditioner client world).run ops).trace, e.AtHome addr := by
  have hkept := (UdpClientState.kept_new (P := Connecting.homeInvariant N [addr]) h conditioner client
    world).run ops
  have hserver : ∀ n : N, NetcodeConnect.addresses n = [addr] → NetcodeClient.serverAddr n = addr := by
    intro n hn
    have hmem := LawfulNetcodeConnect.serverAddr n
    rw [hn] at hmem
    exact List.mem_singleton.1 hmem
  intro e he
  have haddressed := hkept.addressed e he
  cases e with
  | processed source server bytes payload =>
    obtain ⟨rfl, n, hn, rfl⟩ := haddressed
    exact hserver n hn
  | offered dest server bytes fate =>
    obtain ⟨rfl, n, hn, rfl⟩ := haddressed
    exact hserver n hn
  | _ => trivial

end

namespace Connecting

/-- What connecting did; and if it came to a transport, the session it is of, and where
its packets go and come from in every run. -/
structure StaysHome [RenetClient C]
    (decode : HttpResponse IoErrorKind → Except (DecodeError IoErrorKind) SessionCreateResponse)
    (json : Json) (baseHttp : Bytes) (protocolId : UInt64) (options : NativeConnectOptions C)
    (s : Connecting W)
    (r : Connecting W × Except NativeClientError (UdpClientState N C W × ClientId)) : Prop where
  did : Did decode json baseHttp protocolId options s r.1.log
  home : ∀ t id, r.2 = .ok (t, id) →
    ∃ body session addr now auth,
      Admitted decode json baseHttp protocolId options s body session addr now auth ∧
      id = session.clientId ∧ NetcodeConnect.connect now auth = .ok t.netcodeClient ∧
      ∀ ops : List (UdpClientState.Op C), ∀ e ∈ (t.run ops).trace, e.AtHome addr

variable [LawfulNetcodeClient N] [LawfulNetcodeConnect N] [RenetClient C]

theorem connectVia_staysHome
    (decode : HttpResponse IoErrorKind → Except (DecodeError IoErrorKind) SessionCreateResponse)
    (lib : TokenLib) (json : Json) (baseHttp : Bytes) (protocolId : UInt64)
    (options : NativeConnectOptions C) (s : Connecting W) :
    StaysHome decode json baseHttp protocolId options s
      (s.connectVia (N := N) decode lib json baseHttp protocolId options) := by
  rcases connectVia_cases (N := N) decode lib json baseHttp protocolId options s with
    ⟨⟨e, he⟩, hdid⟩ | ⟨body, session, addr, now, auth, t, hadmitted, hok, hlog, hopen⟩
  · exact ⟨hdid, fun t id hok => by rw [he] at hok; cases hok⟩
  · refine ⟨by rw [hlog]; exact .bound body session addr now auth hadmitted, fun t' id hok' => ?_⟩
    rw [hok] at hok'
    cases hok'
    have haddr : NetcodeConnect.addresses t.netcodeClient = [addr] :=
      (LawfulNetcodeConnect.connect now auth _ hopen.netcode).trans hadmitted.entitled.addresses
    refine ⟨body, session, addr, now, auth, hadmitted, rfl, hopen.netcode, fun ops => ?_⟩
    rw [hopen.fresh]
    exact UdpClientState.run_atHome haddr options.conditioner options.client _ ops

/-- **A native client connects with what it is entitled to, and stays where it
connected.** Whatever the service, the network and the clock do: one request goes out
at most, to the service's URL, and carries the demand for security; without a session
that clears the client at the reading of the clock no socket is bound; and a client that
did connect holds the token of that session for its client id, its protocol and one
address, the configured or the announced one, or, if nothing was asked and nothing
offered, no token. In every run of it the transport sends to that address alone, and
netcode hears of no other. -/
theorem connected_stays_home (lib : TokenLib) (json : Json) (baseHttp : Bytes) (protocolId : UInt64)
    (options : NativeConnectOptions C) (s : Connecting W) :
    StaysHome (N := N) (fun r => r.decodeJsonResponseBlocking json.decodeResponse) json baseHttp
        protocolId options s (s.connectViaSessionHttpBlocking lib json baseHttp protocolId options) ∧
      StaysHome (N := N) (fun r => r.decodeJsonResponseAsync json.decodeResponse) json baseHttp
        protocolId options s (s.connectViaSessionHttpAsync lib json baseHttp protocolId options) :=
  ⟨connectVia_staysHome _ lib json baseHttp protocolId options s,
    connectVia_staysHome _ lib json baseHttp protocolId options s⟩

end Connecting

/-! ## A client of the arena -/

instance : NetcodeConnect TaggedNetcode where
  connect _ auth :=
    match auth.addresses with
    | [addr] => .ok { server := addr }
    | _ => .error .other
  addresses n := [n.server]

instance : LawfulNetcodeConnect TaggedNetcode where
  connect now auth n h := by
    simp only [NetcodeConnect.connect] at h
    split at h
    · rename_i addr haddr
      cases h
      exact haddr.symm
    · cases h
  serverAddr n := List.mem_singleton.2 rfl
  processPacket n bytes := by
    simp only [NetcodeClient.processPacket, NetcodeConnect.addresses]
    split <;> rfl
  update n d := rfl
  disconnect n := rfl
  generatePayloadPacket n p := rfl

/-- A network that gives one answer, and a socket. -/
structure ScriptedHost where
  socket : UdpClientState.ScriptedSocket
  clock : Nat
  answer : HttpResponse IoErrorKind

instance : ConnectWorld ScriptedHost where
  lock w control := ({ w with socket := (GateWorld.lock w.socket control).1 },
    (GateWorld.lock w.socket control).2)
  delay w := GateWorld.delay w.socket
  recvFrom w := ({ w with socket := (ClientSocket.recvFrom w.socket).1 }, (ClientSocket.recvFrom w.socket).2)
  sendTo w bytes addr := ({ w with socket := (ClientSocket.sendTo w.socket bytes addr).1 },
    (ClientSocket.sendTo w.socket bytes addr).2)
  egressNow w := ({ w with socket := (ClientSocket.egressNow w.socket).1 },
    (ClientSocket.egressNow w.socket).2)
  unixNow w := (w, some w.clock)
  buildHttp w := (w, true)
  post w _ _ := (w, .ok w.answer)
  bindUdp w _ := (w, .ok ())
  setNonblocking w := (w, .ok ())

/-- The first session of the arena's service. -/
@[irreducible] def arenaSession : SessionCreateResponse :=
  match (arenaCreate shortBase).2 with
  | .ok session => session
  | .error _ => ⟨0, [], [], [], none, none⟩

/-- The request of a client that demands a secure session. -/
def arenaAsked : SessionCreateRequest := { arenaRequest with requireSecure := true }

/-- JSON for these two records. -/
def arenaJson : Json where
  writeRequest r := if r = arenaAsked then some [2] else none
  readRequest bytes := if bytes = [2] then some arenaAsked else none
  writeResponse r := if r = arenaSession then some [3, 1] else none
  readResponse bytes := if bytes = [3, 1] then some arenaSession else none

/-- A code that knows one record. -/
theorem one_record {α : Type} [DecidableEq α] {a r : α} {word bytes : Bytes}
    (h : (if r = a then some word else none) = some bytes) :
    bytes = word ∧ (if bytes = word then some a else none) = some r := by
  obtain ⟨rfl, rfl⟩ := Option.ite_none_right_eq_some.1 h |>.imp_right Option.some.inj
  exact ⟨rfl, if_pos rfl⟩

theorem arenaJson_lawful : arenaJson.Lawful where
  request h := by
    obtain ⟨rfl, hread⟩ := one_record h
    exact ⟨List.cons_ne_nil _ _, hread⟩
  response h := (one_record h).2

/-- A client of the arena in second 50; the answer reaches it in two chunks. -/
def arenaHome : Connecting ScriptedHost :=
  { world := ⟨⟨[], 0⟩, Duration.fromSecs 50, ⟨200, none, some ⟨[[3], [], [1]], none⟩⟩⟩ }

def arenaOptions : NativeConnectOptions MailboxRenet :=
  { client := {}, sessionRequest := arenaRequest, requireSecure := true }

def arenaConnect : Connecting ScriptedHost ×
    Except NativeClientError (UdpClientState TaggedNetcode MailboxRenet ScriptedHost × ClientId) :=
  Connecting.connectViaSessionHttpBlocking arenaLib arenaJson shortBase 7 arenaOptions arenaHome

theorem connected_stays_home_arena :
    ∃ t id, arenaConnect.2 = .ok (t, id) ∧
      ∃ addr, ∀ e ∈ (t.run [.update 16, .sendPackets]).trace, e.AtHome addr := by
  have hok : arenaConnect.2.toOption.isSome = true := by decide +kernel
  obtain ⟨-, hconnected⟩ := (Connecting.connected_stays_home (N := TaggedNetcode) arenaLib arenaJson
    shortBase 7 arenaOptions arenaHome).1
  cases hout : arenaConnect.2 with
  | error e => rw [hout] at hok; cases hok
  | ok r =>
    obtain ⟨t, id⟩ := r
    obtain ⟨body, session, addr, now, auth, -, -, -, hhome⟩ := hconnected t id hout
    exact ⟨t, id, rfl, addr, hhome _⟩

end RenetCross.L4
