import RenetCross.L4App.UdpServer
import RenetCross.L4App.WebRtcLeak

/-!
# `MixedServerTransport`

`src/mixed_server.rs`: a UDP transport and a WebRTC transport of one
`RenetServer`. Each has its own netcode server; both have the ids of the
`RenetServer` in common. `update` and `send_packets` run the UDP half first.

`creator` reads off the trace which of the two made the entry a `RenetServer` has
for a client: the one whose `add_connection` found none. `Rightful` says that a
call touches no entry of the other backend.
-/
namespace RenetCross.L4

open RenetCross.L2

/-- mirrors src/mixed_server.rs:8-11 -/
structure MixedState (N R S W : Type) extends Shared S W where
  udp : UdpTransport N
  webrtc : WebRtcTransport N R

namespace MixedState

variable {N R S W : Type}

/-- Each half with what both share. -/
def udpState (m : MixedState N R S W) : UdpState N S W := ⟨m.udp, m.toShared⟩
def webRtcState (m : MixedState N R S W) : WebRtcState N R S W := ⟨m.webrtc, m.toShared⟩

def setUdp (m : MixedState N R S W) (s : UdpState N S W) : MixedState N R S W :=
  { m with toShared := s.toShared, udp := s.toUdpTransport }

def setWebRtc (m : MixedState N R S W) (s : WebRtcState N R S W) : MixedState N R S W :=
  { m with toShared := s.toShared, webrtc := s.toWebRtcTransport }

/-- mirrors src/mixed_server.rs:14-16 -/
def new (udp : UdpTransport N) (webrtc : WebRtcTransport N R) (shared : Shared S W) :
    MixedState N R S W := { shared with udp := udp, webrtc := webrtc }

variable [World W] [NetcodeServer N] [Rtc R] [RenetServer S] [PacketLimit N]

/-- An error of the UDP half is returned at once.
mirrors src/mixed_server.rs:39-47 -/
def update (fuel duration now : Nat) (m : MixedState N R S W) :
    Option (MixedState N R S W × Option TransportError) :=
  let r := m.udpState.update duration
  let m := m.setUdp r.1
  match r.2 with
  | some error => some (m, some error)
  | none => (m.webRtcState.updateAt fuel duration now).map fun r => (m.setWebRtc r.1, r.2)

/-- mirrors src/mixed_server.rs:49-54 -/
def sendPackets (fuel : Nat) (m : MixedState N R S W) : Option (MixedState N R S W) :=
  let m := m.setUdp m.udpState.sendPackets
  (m.webRtcState.sendPackets fuel).map m.setWebRtc

/-- mirrors src/mixed_server.rs:34-37 -/
def disconnectAll (fuel : Nat) (m : MixedState N R S W) : Option (MixedState N R S W) :=
  let m := m.setUdp m.udpState.disconnectAll
  (m.webRtcState.disconnectAll fuel).map m.setWebRtc

/-- mirrors src/mixed_server.rs:59-62 -/
def setConditioner (handle : Nat) (m : MixedState N R S W) : Option (MixedState N R S W) := do
  let m := m.setUdp (← m.udpState.setConditioner handle)
  (m.webRtcState.setConditioner handle).map m.setWebRtc

/-- mirrors src/mixed_server.rs:64-67 -/
def clearConditioner (m : MixedState N R S W) : MixedState N R S W :=
  let m := m.setUdp m.udpState.clearConditioner
  m.setWebRtc m.webRtcState.clearConditioner

/-- The calls on the transport; `addPeer` and `removePeer` are made on
`webrtc_mut()`, and `disconnect` is the game's call on its `RenetServer`. -/
inductive Op (R : Type) where
  | update (fuel duration now : Nat)
  | sendPackets (fuel : Nat)
  | disconnectAll (fuel : Nat)
  | addPeer (c : ClientId) (rtc : R)
  | removePeer (c : ClientId)
  | setConditioner (handle : Nat)
  | clearConditioner
  | disconnect (c : ClientId)

/-- `none`: the call does not return within its fuel, or panics. -/
def step (m : MixedState N R S W) : Op R → Option (MixedState N R S W)
  | .update fuel duration now => (m.update fuel duration now).map Prod.fst
  | .sendPackets fuel => m.sendPackets fuel
  | .disconnectAll fuel => m.disconnectAll fuel
  | .addPeer c rtc => some (m.setWebRtc (m.webRtcState.addPeer c rtc))
  | .removePeer c => some (m.setWebRtc (m.webRtcState.removePeer c))
  | .setConditioner handle => m.setConditioner handle
  | .clearConditioner => some m.clearConditioner
  | .disconnect c => some { m with server := RenetServer.disconnect m.server c }

/-- Two new transports and a `RenetServer` without connections. -/
def Fresh (m : MixedState N R S W) : Prop :=
  ∃ (n n' : N) (addr : SocketAddr) (shared : Shared S W),
    m = .new (UdpState.new n shared).toUdpTransport
      (WebRtcState.new n' addr shared).toWebRtcTransport shared ∧
    shared.trace = [] ∧ (∀ c, RenetServer.hasConnection shared.server c = false) ∧
    (∀ c, NetcodeServer.clientAddr n c = none) ∧ ∀ c, NetcodeServer.clientAddr n' c = none

def runs (N R S W : Type) [World W] [NetcodeServer N] [Rtc R] [RenetServer S] [PacketLimit N] :
    LTS (MixedState N R S W) (Op R) := .ofFn Fresh step

end MixedState

/-! ## Who made an entry -/

/-- The backend whose `add_connection` made the entry for `c`, if there is one. -/
def creator : List Event → ClientId → Option Backend
  | [], _ => none
  | .addConnection b c' entry _ _ :: earlier, c =>
    if c' = c ∧ entry = false then some b else creator earlier c
  | .removeConnection _ c' _ :: earlier, c => if c' = c then none else creator earlier c
  | _ :: earlier, c => creator earlier c

/-- The entry the call touches, if there is one, was made by the same backend. -/
def Event.Rightful (earlier : List Event) : Event → Prop
  | .removeConnection b c entry => entry = true → creator earlier c = some b
  | .processPacketFrom b c entry _ _ => entry = true → creator earlier c = some b
  | _ => True

/-- Whether `remove_peer(c)` was run, and `c` neither registered nor admitted since. -/
def dismissed (c : ClientId) : List Event → Bool
  | [] => false
  | .removed c' :: earlier => c' = c || dismissed c earlier
  | .added c' :: earlier => !(c' = c) && dismissed c earlier
  | .addConnection .webRtc c' _ _ _ :: earlier => !(c' = c) && dismissed c earlier
  | _ :: earlier => dismissed c earlier

/-- A `ClientConnected` never meets an entry that is still there and no longer
connected, and no payload of a client outlives the client's rejection. -/
def Event.clean (earlier : List Event) : Event → Bool
  | .addConnection _ _ entry _ _ => !entry
  | .processPacketFrom .webRtc c _ _ _ => !dismissed c earlier
  | _ => true

def clean : List Event → Bool
  | [] => true
  | e :: earlier => e.clean earlier && clean earlier

/-- The whole trace is rightful. -/
def Rightful : List Event → Prop
  | [] => True
  | e :: earlier => e.Rightful earlier ∧ Rightful earlier

/-- An event that neither makes nor removes an entry. -/
def Event.entryless : Event → Bool
  | .addConnection _ _ _ _ _ => false
  | .removeConnection _ _ _ => false
  | _ => true

theorem creator_entryless {e : Event} (h : e.entryless = true) (earlier : List Event) (c : ClientId) :
    creator (e :: earlier) c = creator earlier c := by
  cases e with
  | addConnection b c' entry registered tag => cases h
  | removeConnection b c' entry => cases h
  | _ => rfl

theorem creator_addConnection (b : Backend) (c' c : ClientId) (registered : Bool) (tag : Tag)
    (earlier : List Event) :
    creator (.addConnection b c' false registered tag :: earlier) c =
      if c' = c then some b else creator earlier c := by
  simp [creator]

theorem creator_removeConnection (b : Backend) (c' c : ClientId) (entry : Bool)
    (earlier : List Event) :
    creator (.removeConnection b c' entry :: earlier) c =
      if c' = c then none else creator earlier c := rfl

theorem clean_tail {e : Event} {earlier : List Event} (h : clean (e :: earlier) = true) :
    e.clean earlier = true ∧ clean earlier = true := Bool.and_eq_true_iff.1 h

theorem clean_suffix {trace earlier : List Event} (h : earlier <:+ trace) (hc : clean trace = true) :
    clean earlier = true := by
  obtain ⟨later, rfl⟩ := h
  induction later with
  | nil => exact hc
  | cons e later ih => exact ih (clean_tail hc).2

theorem Rightful.split {later earlier : List Event} {e : Event} (h : Rightful (later ++ e :: earlier)) :
    e.Rightful earlier := by
  induction later with
  | nil => exact h.1
  | cons x later ih => exact ih h.2

/-! ## The UDP half -/

variable {N R S W : Type} [NetcodeServer N] [RenetServer S]

/-- The `RenetServer`'s entries are those the trace accounts for. -/
def Entered (sh : Shared S W) : Prop :=
  ∀ c, RenetServer.hasConnection sh.server c = (creator sh.trace c).isSome

/-- Netcode's clients are the ones whose entries this backend made. -/
structure UdpInv (s : UdpState N S W) : Prop where
  entered : Entered s.toShared
  held : ∀ c, Held s.netcodeServer c ↔ creator s.trace c = some .udp
  rightful : Rightful s.trace

/-- The entries of the other backend are as they were. -/
def OthersEntries (trace trace' : List Event) : Prop :=
  ∀ c, creator trace' c = some .webRtc ↔ creator trace c = some .webRtc

theorem udpInv_act {s s' : UdpState N S W} (h : UdpInv s) (hact : UdpState.Act s s')
    (hclean : clean s'.trace = true) : UdpInv s' ∧ OthersEntries s.trace s'.trace := by
  cases hact with
  | calm hc =>
    refine ⟨⟨fun c => ?_, fun c => ?_, ?_⟩, fun c => ?_⟩
    · rw [hc.entries, hc.trace]
      exact h.entered c
    · rw [hc.trace]
      exact (SameClients.held hc.clients).trans (h.held c)
    · rw [hc.trace]
      exact h.rightful
    · rw [hc.trace]
  | deliver c p hheld hsame hentries htrace =>
    have hcr : ∀ c', creator s'.trace c' = creator s.trace c' := fun c' => by
      rw [htrace, creator_entryless rfl]
    refine ⟨⟨fun c' => ?_, fun c' => ?_, ?_⟩, fun c' => by rw [hcr]⟩
    · rw [hentries, hcr]
      exact h.entered c'
    · rw [hcr]
      exact (SameClients.held hsame).trans (h.held c')
    · rw [htrace]
      exact ⟨fun _ => (h.held c).1 hheld, h.rightful⟩
  | connect c addr tag hfree hset hentries htrace =>
    rw [htrace] at hclean
    have hentry : RenetServer.hasConnection s.server c = false := by
      simpa [Event.clean] using (clean_tail hclean).1
    have hnone : creator s.trace c = none := by
      have hsome := h.entered c
      rw [hentry] at hsome
      simpa using hsome.symm
    have hcr : ∀ c', creator s'.trace c' = if c = c' then some .udp else creator s.trace c' :=
      fun c' => by rw [htrace, hentry, creator_addConnection]
    refine ⟨⟨fun c' => ?_, fun c' => ?_, ?_⟩, fun c' => ?_⟩
    · rw [hentries, hcr, h.entered c']
      by_cases hc : c = c'
      · simp [hc]
      · simp [hc, Ne.symm hc]
    · rw [hcr]
      by_cases hc : c = c'
      · rw [if_pos hc, ← hc, Held, hset c, if_pos rfl]
        simp
      · rw [if_neg hc]
        exact (hset.held_of_ne (Ne.symm hc)).trans (h.held c')
    · rw [htrace]
      exact ⟨trivial, h.rightful⟩
    · rw [hcr]
      by_cases hc : c = c'
      · rw [if_pos hc, ← hc, hnone]
        simp
      · rw [if_neg hc]
  | leave c hheld hset hentries htrace =>
    have hudp := (h.held c).1 hheld
    have hcr : ∀ c', creator s'.trace c' = if c = c' then none else creator s.trace c' :=
      fun c' => by rw [htrace, creator_removeConnection]
    refine ⟨⟨fun c' => ?_, fun c' => ?_, ?_⟩, fun c' => ?_⟩
    · rw [hentries, hcr, h.entered c']
      by_cases hc : c = c'
      · simp [hc]
      · simp [hc, Ne.symm hc]
    · rw [hcr]
      by_cases hc : c = c'
      · rw [if_pos hc, ← hc, Held, hset c, if_pos rfl]
        simp
      · rw [if_neg hc]
        exact (hset.held_of_ne (Ne.symm hc)).trans (h.held c')
    · rw [htrace]
      exact ⟨fun _ => hudp, h.rightful⟩
    · rw [hcr]
      by_cases hc : c = c'
      · rw [if_pos hc, ← hc, hudp]
        simp
      · rw [if_neg hc]

theorem udp_trace_suffix {s s' : UdpState N S W} (h : UdpState.Steps s s') : s.trace <:+ s'.trace := by
  induction h with
  | refl => exact List.suffix_rfl
  | tail _ hact ih =>
    refine ih.trans ?_
    cases hact with
    | calm hc => rw [hc.trace]
    | deliver c p _ _ _ htrace => rw [htrace]; exact List.suffix_cons _ _
    | connect c addr tag _ _ _ htrace => rw [htrace]; exact List.suffix_cons _ _
    | leave c _ _ _ htrace => rw [htrace]; exact List.suffix_cons _ _

theorem udpInv_steps {s s' : UdpState N S W} (h : UdpInv s) (hsteps : UdpState.Steps s s')
    (hclean : clean s'.trace = true) : UdpInv s' ∧ OthersEntries s.trace s'.trace := by
  induction hsteps with
  | refl => exact ⟨h, fun _ => Iff.rfl⟩
  | tail _ hact ih =>
    obtain ⟨hmid, hothers⟩ := ih (clean_suffix (udp_trace_suffix (.single hact)) hclean)
    obtain ⟨hend, hothers'⟩ := udpInv_act hmid hact hclean
    exact ⟨hend, fun c => (hothers' c).trans (hothers c)⟩

end RenetCross.L4
