import RenetCross.L4App.WebRtcActs

/-!
# A small environment

Executable instances of what the transports call, with the laws proved: a netcode
server that is its table of clients, a `RenetServer` that is its table of
connections, an `Rtc` that plays back prepared outputs, and a socket with
prepared datagrams. They show that the laws of `LawfulNetcode`, `LawfulRenet`,
`LawfulRtc` and `LawfulWorld` can be met, and the transports can be run on them.
-/
namespace RenetCross.L4

open RenetCross.L2

/-! ## netcode -/

/-- What a packet can be: the handshake of a client, the end of the client at its
address, a payload of it, or a question. -/
inductive Request where
  | connect (c : ClientId)
  | leave
  | payload (bytes : Bytes)
  | ask
  | junk

def Request.ofBytes : Bytes → Request
  | [1, c] => .connect c.toUInt64
  | [2] => .leave
  | 3 :: bytes => .payload bytes
  | [4] => .ask
  | _ => .junk

/-- The connected clients and their addresses. -/
structure Table where
  clients : HashMap ClientId SocketAddr

namespace Table

def connect (n : Table) (addr : SocketAddr) (c : ClientId) : Table × ServerResult :=
  match n.clients.get c with
  | none => (⟨n.clients.insert c addr⟩, .clientConnected c addr [] [8])
  | some _ => (n, .none)

/-- What the client at `addr` asks for, if there is one. -/
def serve (n : Table) (addr : SocketAddr) (act : ClientId → Table × ServerResult) :
    Table × ServerResult :=
  match n.clients.keys.find? fun c => n.clients.get c = some addr with
  | none => (n, .none)
  | some c => act c

/-- What a packet of the address asks for. -/
def answer (n : Table) (addr : SocketAddr) : Request → Table × ServerResult
  | .connect c => n.connect addr c
  | .leave => n.serve addr fun c => (⟨n.clients.remove c⟩, .clientDisconnected c addr none)
  | .payload bytes => n.serve addr fun c => (n, .payload c bytes)
  | .ask => (n, .packetToSend addr [5])
  | .junk => (n, .none)

def disconnect (n : Table) (c : ClientId) : Table × ServerResult :=
  match n.clients.get c with
  | none => (n, .none)
  | some addr => (⟨n.clients.remove c⟩, .clientDisconnected c addr (some [2]))

end Table

instance : NetcodeServer Table where
  update n _ := n
  processPacket n addr bytes := n.answer addr (.ofBytes bytes)
  updateClient n _ := (n, .none)
  disconnect := Table.disconnect
  generatePayloadPacket n c bytes := (n, (n.clients.get c).map fun addr => (addr, 6 :: bytes))
  clientsId n := n.clients.keys
  clientAddr n c := n.clients.get c

theorem Table.setsClient_insert (n : Table) (c : ClientId) (addr : SocketAddr) :
    SetsClient n ⟨n.clients.insert c addr⟩ c (some addr) :=
  fun c' => HashMap.get_insert n.clients c c' addr

theorem Table.setsClient_remove (n : Table) (c : ClientId) :
    SetsClient n ⟨n.clients.remove c⟩ c none :=
  fun c' => HashMap.get_remove n.clients c c'

/-- A free id is connected; one that is taken is not. -/
theorem Table.packetSpec_connect (n : Table) (addr : SocketAddr) (c : ClientId) :
    PacketSpec n (n.connect addr c).1 addr (n.connect addr c).2 := by
  unfold Table.connect
  split
  · rename_i h
    exact ⟨rfl, h, n.setsClient_insert c addr⟩
  · exact fun _ => rfl

/-- A packet of an address that nobody is connected from does nothing. -/
theorem Table.packetSpec_serve (n : Table) (addr : SocketAddr)
    (act : ClientId → Table × ServerResult)
    (h : ∀ c, n.clients.get c = some addr → PacketSpec n (act c).1 addr (act c).2) :
    PacketSpec n (n.serve addr act).1 addr (n.serve addr act).2 := by
  unfold Table.serve
  split
  · exact fun _ => rfl
  · rename_i c hc
    exact h c (by simpa using List.find?_some hc)

theorem Table.packetSpec_answer (n : Table) (addr : SocketAddr) (request : Request) :
    PacketSpec n (n.answer addr request).1 addr (n.answer addr request).2 := by
  cases request with
  | connect c => exact n.packetSpec_connect addr c
  | leave => exact n.packetSpec_serve addr _ fun c hc => ⟨rfl, hc, n.setsClient_remove c⟩
  | payload bytes => exact n.packetSpec_serve addr _ fun c hc => ⟨hc, fun _ => rfl⟩
  | ask => exact ⟨rfl, fun _ => rfl⟩
  | junk => exact fun _ => rfl

instance : LawfulNetcode Table where
  update _ _ _ := rfl
  processPacket n addr bytes := n.packetSpec_answer addr (.ofBytes bytes)
  updateClient _ _ _ := rfl
  disconnect n c := by
    show DisconnectSpec n (n.disconnect c).1 c (n.disconnect c).2
    unfold Table.disconnect
    split
    · rename_i h
      exact ⟨h, fun _ => rfl⟩
    · rename_i addr h
      exact ⟨rfl, h, n.setsClient_remove c⟩
  generatePayloadPacket _ _ _ _ := rfl
  clientsId n c := by
    show c ∈ n.clients.keys ↔ n.clients.get c ≠ none
    rw [← AList.mem_keys, ne_eq, ← HashMap.not_mem_iff_get, not_not]

/-! ## renet -/

/-- The connections; `false` is one that was disconnected and not removed. -/
structure Connections where
  entries : HashMap ClientId Bool

namespace Connections

def addConnection (s : Connections) (c : ClientId) : Connections :=
  if s.entries.has c then s else ⟨s.entries.insert c true⟩

def disconnect (s : Connections) (c : ClientId) : Connections :=
  if s.entries.has c then ⟨s.entries.insert c false⟩ else s

end Connections

instance : RenetServer Connections where
  hasConnection s c := s.entries.has c
  isConnected s c := s.entries.get c = some true
  addConnection := Connections.addConnection
  removeConnection s c := ⟨s.entries.remove c⟩
  disconnect := Connections.disconnect
  disconnectionsId s := s.entries.keys.filter fun c => s.entries.get c = some false
  processPacketFrom s _ c := (s, s.entries.has c)
  getPacketsToSend s c := (s, if s.entries.has c then some [[7]] else none)

theorem HashMap.has_insert {κ ν : Type} [DecidableEq κ] (m : HashMap κ ν) (k k' : κ) (v : ν) :
    (m.insert k v).has k' = (decide (k' = k) || m.has k') := by
  rw [Bool.eq_iff_iff]
  simp [HashMap.mem_insert]

theorem HashMap.has_remove {κ ν : Type} [DecidableEq κ] (m : HashMap κ ν) (k k' : κ) :
    (m.remove k).has k' = (!decide (k' = k) && m.has k') := by
  rw [Bool.eq_iff_iff]
  simp [HashMap.mem_remove]

instance : LawfulRenet Connections where
  addConnection s c c' := by
    show (s.addConnection c).entries.has c' = (decide (c' = c) || s.entries.has c')
    unfold Connections.addConnection
    split
    · rename_i h
      by_cases hc : c' = c
      · simp [hc, h]
      · simp [hc]
    · exact HashMap.has_insert _ _ _ _
  removeConnection s c c' := HashMap.has_remove _ _ _
  disconnect s c c' := by
    show (s.disconnect c).entries.has c' = s.entries.has c'
    unfold Connections.disconnect
    split
    · rename_i h
      rw [HashMap.has_insert]
      by_cases hc : c' = c
      · simp [hc, h]
      · simp [hc]
    · rfl
  processPacketFrom _ _ _ _ := rfl
  getPacketsToSend _ _ _ := rfl

/-! ## str0m -/

/-- `out` is what the next polls return before a `Timeout`; a datagram brings the
first list of `onInput`, and a channel write brings nothing. A datagram belongs to
the `Rtc` named by its first byte. -/
structure Script where
  name : UInt8
  out : List (Except RtcError Output) := []
  onInput : List (List (Except RtcError Output)) := []
  alive : Bool := true

namespace Script

def pollOutput (r : Script) : Script × Except RtcError Output :=
  match r.out with
  | [] => (r, .ok (.timeout 0))
  | output :: rest => ({ r with out := rest }, output)

/-- A datagram brings what is prepared for it; a timeout brings nothing. -/
def handleInput (r : Script) : Input → Script × Except RtcError Unit
  | .timeout _ => (r, .ok ())
  | .receive _ _ => ({ r with out := r.onInput.headD [], onInput := r.onInput.tail }, .ok ())

def accepts (r : Script) : Input → Bool
  | .timeout _ => true
  | .receive _ receive => receive.contents.head? = some r.name

end Script

instance : Rtc Script where
  isAlive r := r.alive
  disconnect r := { r with alive := false }
  receivable _ _ _ := true
  accepts := Script.accepts
  handleInput := Script.handleInput
  pollOutput := Script.pollOutput
  hasChannel _ _ := true
  write r _ _ := (r, .ok true)

instance : LawfulRtc Script where
  disconnect _ := rfl

/-- A peer's data channel opens, and a message arrives on it. -/
def opens : Except RtcError Output := .ok (.event (.channelOpen 0))
def brings (data : Bytes) : Except RtcError Output := .ok (.event (.channelData 0 true data))

/-! ## The sockets -/

/-- The datagrams that have arrived and were not read. -/
structure Sockets where
  webRtc : List (Bytes × SocketAddr) := []
  udp : List (Bytes × SocketAddr) := []

def Sockets.recvFrom (w : Sockets) : Backend → Sockets × Except IoErrorKind (Bytes × SocketAddr)
  | .webRtc =>
    match w.webRtc with
    | [] => (w, .error .wouldBlock)
    | datagram :: rest => ({ w with webRtc := rest }, .ok datagram)
  | .udp =>
    match w.udp with
    | [] => (w, .error .wouldBlock)
    | datagram :: rest => ({ w with udp := rest }, .ok datagram)

instance : World Sockets where
  recvFrom b w := w.recvFrom b
  sendTo _ w bytes _ := (w, .ok bytes.length)
  egressNow w := (w, 0)
  lock w := (w, 0, [])
  order _ ids := ids
  delay _ _ _ _ := 0

instance : LawfulWorld Sockets where
  order _ ids := .refl ids

/-! ## Runs -/

/-- A WebRTC transport in the small environment. -/
abbrev Demo := WebRtcState Table Script Connections Sockets

/-- An address of the local network. -/
def lan (host : UInt8) : SocketAddr := .v4 ⟨10, 0, 0, host⟩ 4000

def demoShared (w : Sockets) : Shared Connections Sockets where
  server := ⟨∅⟩
  world := w
  conds _ := .new ⟨{}, ServerConditionerConfig.validate_default⟩
  trace := []

/-- A new transport whose socket will receive these datagrams. -/
def demoStart (w : Sockets) : Demo := .new ⟨∅⟩ (lan 1) (demoShared w)

def demo (w : Sockets) (ops : List (WebRtcState.Op Script Connections)) : Option Demo :=
  ops.foldlM WebRtcState.step (demoStart w)

theorem demoStart_fresh (w : Sockets) : (demoStart w).Fresh :=
  ⟨⟨∅⟩, lan 1, demoShared w, rfl, rfl, fun _ => rfl, fun _ => ServerConditioner.owned_new _⟩

theorem demo_run {w : Sockets} {ops : List (WebRtcState.Op Script Connections)} {s : Demo}
    (h : demo w ops = some s) :
    (WebRtcState.runs Table Script Connections Sockets).Run (demoStart w) ops s :=
  LTS.run_of_foldlM (fun _ _ _ hs => hs) h

/-- What a prepared run comes to is reachable. -/
theorem demo_reachable {w : Sockets} {ops : List (WebRtcState.Op Script Connections)} {s : Demo}
    (h : demo w ops = some s) :
    (WebRtcState.runs Table Script Connections Sockets).Reachable s :=
  ⟨demoStart w, ops, demoStart_fresh w, demo_run h⟩

/-- A computed property of a finished run. -/
theorem demo_any (w : Sockets) (ops : List (WebRtcState.Op Script Connections)) {P : Demo → Bool}
    (h : (demo w ops).any P = true) : ∃ s, demo w ops = some s ∧ P s = true :=
  (Option.any_eq_true P _).1 h

end RenetCross.L4
