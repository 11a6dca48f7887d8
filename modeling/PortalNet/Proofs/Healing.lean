import PortalNet.Proofs.Delivery
import PortalNet.Proofs.Relay.Dispatch

/-! # A link that heals itself

What a server believes about its registration and what the relay knows of it may differ: either of
them may have restarted, and the relay may have evicted the server. As long as nobody else registers
where the server is, two heartbeats bring them together, and further ones keep them so.
-/

namespace PortalNet

/-- A server and its relay. -/
structure Link where
  backend : Backend
  relay : Relay

/-- When the relay hears a heartbeat, and when the server hears what comes of it. -/
structure Exchange where
  arrives : Nat
  returns : Nat
  fresh : Nat → Uuid

namespace Link

/-- A heartbeat of the server at `addr` to its relay, and the way back. -/
def beat (l : Link) (addr relay : Address) (x : Exchange) : Link :=
  let sent := packetsFor (l.backend.letters l.backend.heartbeat) relay
  let (r, letters) := l.relay.receiveAll addr (sent.map (·, x.arrives))
  let got := packetsFor letters addr
  ⟨(l.backend.receiveAll relay x.fresh (got.map (·, x.returns))).1, r⟩

def beats (l : Link) (addr relay : Address) (xs : List Exchange) : Link :=
  xs.foldl (beat · addr relay) l

/-- Both sides know that the server is registered at the address. -/
structure Up (l : Link) (addr : Address) : Prop where
  linked : l.backend.relayLinked = true
  registered : l.relay.directory.addressOf? l.backend.settings.name = some addr

/-- The server knows its relay, and the relay who is where. -/
structure Sound (l : Link) (relay : Address) : Prop where
  relay : l.backend.relay = some relay
  oneToOne : l.relay.directory.OneToOne

section beat

variable {l : Link} {addr relay : Address} {x y : Exchange} {xs : List Exchange} {packet : Packet}

theorem beat_of_heartbeat (hl : l.Sound relay)
    (hbeat : l.backend.heartbeat = l.backend.toRelay packet) :
    l.beat addr relay x =
      let out := l.relay.receive packet addr x.arrives
      ⟨(l.backend.receiveAll relay x.fresh
        ((packetsFor out.2 addr).map (·, x.returns))).1, out.1⟩ := by
  have hsent : packetsFor (l.backend.letters l.backend.heartbeat) relay = [packet] := by
    rw [hbeat, Backend.toRelay, hl.relay]
    exact packetsFor_singleton.trans (if_pos rfl)
  simp only [beat, hsent, List.map_cons, List.map_nil, Relay.receiveAll, List.append_nil]

theorem beat_unlinked (hl : l.Sound relay) (h : l.backend.relayLinked = false) :
    l.beat addr relay x =
      ⟨{ l.backend with relayLinked := true },
        (l.relay.register protocolVersion l.backend.settings.name addr x.arrives).1⟩ := by
  have hbeat : l.backend.heartbeat =
      l.backend.toRelay (.register protocolVersion l.backend.settings.name) := by
    simp only [Backend.heartbeat, h, Bool.false_eq_true, if_false, Backend.registration]
  have hgot : packetsFor (l.relay.receive (.register protocolVersion l.backend.settings.name) addr
      x.arrives).2 addr = [.registered] := by
    rw [Relay.receive, Relay.register_sent, if_neg (not_not_intro rfl)]
    exact packetsFor_singleton.trans (if_pos rfl)
  rw [beat_of_heartbeat hl hbeat]
  simp only [hgot, List.map_cons, List.map_nil, Backend.receiveAll, Backend.receive, hl.relay,
    if_true, Backend.receiveFromRelay]
  rfl

/-- A server that the relay does not know learns of it. -/
theorem beat_unknown (hl : l.Sound relay) (h : l.backend.relayLinked = true)
    (hno : l.relay.directory.nameAt? addr = none) :
    l.beat addr relay x = ⟨{ l.backend with relayLinked := false }, l.relay⟩ := by
  have hbeat : l.backend.heartbeat = l.backend.toRelay .heartbeat := by
    simp only [Backend.heartbeat, h, if_true]
  have hgot : packetsFor [(addr, Packet.notice)] addr = [.notice] :=
    packetsFor_singleton.trans (if_pos rfl)
  rw [beat_of_heartbeat hl hbeat, Relay.receive_stranger hno (by simp)]
  simp only [hgot, List.map_cons, List.map_nil, Backend.receiveAll, Backend.receive, hl.relay,
    if_true, Backend.receiveFromRelay]

theorem beat_known {name : String} (hl : l.Sound relay) (h : l.backend.relayLinked = true)
    (hname : l.relay.directory.nameAt? addr = some name) :
    l.beat addr relay x = ⟨l.backend,
      { l.relay with directory := (l.relay.directory.heartbeat addr x.arrives).2 }⟩ := by
  have hbeat : l.backend.heartbeat = l.backend.toRelay .heartbeat := by
    simp only [Backend.heartbeat, h, if_true]
  rw [beat_of_heartbeat hl hbeat]
  simp only [Relay.receive, Directory.nameAt?_heartbeat, hname, Relay.receiveFrom, packetsFor,
    List.filter_nil, List.map_nil, Backend.receiveAll]

theorem Sound.beat (hl : l.Sound relay) (addr : Address) (x : Exchange) :
    (l.beat addr relay x).Sound relay := by
  cases h : l.backend.relayLinked with
  | false =>
    rw [beat_unlinked hl h]
    refine ⟨hl.relay, ?_⟩
    dsimp only
    rw [Relay.directory_register]
    exact hl.oneToOne.run _
  | true =>
    cases hname : l.relay.directory.nameAt? addr with
    | none =>
      rw [beat_unknown hl h hname]
      exact ⟨hl.relay, hl.oneToOne⟩
    | some name =>
      rw [beat_known hl h hname]
      exact ⟨hl.relay, hl.oneToOne.after (.heartbeat addr x.arrives)⟩

/-- To register anew is to be registered. -/
theorem up_of_unlinked (hl : l.Sound relay) (h : l.backend.relayLinked = false) :
    (l.beat addr relay x).Up addr := by
  rw [beat_unlinked hl h]
  refine ⟨rfl, ?_⟩
  dsimp only
  rw [Relay.directory_register, if_neg (not_not_intro rfl)]
  exact Directory.addressOf?_register.trans (if_pos rfl)

theorem Up.beat (h : l.Up addr) (hl : l.Sound relay) (x : Exchange) :
    (l.beat addr relay x).Up addr := by
  have hname := hl.oneToOne.nameAt?_eq_some_iff.2 h.registered
  rw [beat_known hl h.linked hname]
  exact ⟨h.linked, Directory.addressOf?_heartbeat.trans h.registered⟩

theorem beats_cons :
    l.beats addr relay (x :: xs) = (l.beat addr relay x).beats addr relay xs := rfl

theorem Up.beats (h : l.Up addr) (hl : l.Sound relay) (xs : List Exchange) :
    (l.beats addr relay xs).Up addr := by
  induction xs generalizing l with
  | nil => exact h
  | cons x xs ih =>
    rw [beats_cons]
    exact ih (h.beat hl x) (hl.beat addr x)

/-- Two heartbeats suffice, unless the server takes the registration of another for its own. -/
theorem up_of_reserves (hl : l.Sound relay)
    (hreserves : l.relay.directory.Reserves addr l.backend.settings.name) :
    ((l.beat addr relay x).beat addr relay y).Up addr := by
  cases h : l.backend.relayLinked with
  | false => exact (up_of_unlinked hl h).beat (hl.beat addr x) y
  | true =>
    cases hname : l.relay.directory.nameAt? addr with
    | none =>
      refine up_of_unlinked (hl.beat addr x) ?_
      rw [beat_unknown hl h hname]
    | some name =>
      have haddr := hl.oneToOne.nameAt?_eq_some_iff.1 hname
      have hup : l.Up addr := ⟨h, hreserves name haddr ▸ haddr⟩
      exact (hup.beat hl x).beat (hl.beat addr x) y

end beat

/-- Whatever a server takes its relay for, and whatever became of the relay, two heartbeats link
them if nobody else has registered from where the server is. A link that is up stays up. -/
theorem heals {b : Backend} {addr relay : Address} {steps : List RelayStep}
    (hrelay : b.relay = some relay)
    (honly : ∀ name now, .handle (.packet (.register protocolVersion name) addr) now ∈ steps →
      name = b.settings.name) (xs : List Exchange) :
    let l : Link := ⟨b, ({} : Relay).run steps⟩
    (2 ≤ xs.length → (l.beats addr relay xs).Up addr) ∧
      (l.Up addr → (l.beats addr relay xs).Up addr) := by
  intro l
  have hl : l.Sound relay := ⟨hrelay, Relay.oneToOne_run steps⟩
  have hreserves : l.relay.directory.Reserves addr b.settings.name := by
    have hempty : (({} : Relay).directory).Reserves addr b.settings.name := by rintro n ⟨⟩
    rw [Relay.directory_run]
    exact hempty.run fun name now h =>
      honly name now (Relay.registers_of_mem_directoryHistory h)
  refine ⟨fun hlen => ?_, fun h => h.beats hl xs⟩
  cases xs with
  | nil => cases hlen
  | cons x xs =>
    cases xs with
    | nil => exact absurd hlen (by simp)
    | cons y xs =>
      rw [beats_cons, beats_cons]
      exact (up_of_reserves hl hreserves).beats ((hl.beat addr x).beat addr y) xs

end Link

namespace Sample

def switchboard : Address := ⟨.v4 (.replicate 4 127), 25500⟩

/-- A server that takes itself to be registered. -/
def stranded : Backend where
  settings := { name := "survival" }
  relay := some switchboard
  sessions := .empty 1
  registry := {}
  spawnWorld := world
  relayLinked := true

def exchange : Exchange :=
  ⟨101, 102, fun _ => player⟩

end Sample

open Sample in
/-- The relay has evicted the server. -/
theorem Link.stranded_heals :
    let steps := [.handle (.packet (.register protocolVersion "survival") survivalAddress) 0,
      .evict 100 20]
    let l : Link := ⟨stranded, ({} : Relay).run steps⟩
    l.backend.relayLinked = true ∧ l.relay.directory.addressOf? "survival" = none ∧
      (l.beats survivalAddress switchboard [exchange, exchange]).Up survivalAddress := by
  intro steps l
  have honly : ∀ name now,
      .handle (.packet (.register protocolVersion name) survivalAddress) now ∈ steps →
        name = stranded.settings.name := by
    intro name now h
    simp only [steps, List.mem_cons, List.not_mem_nil, or_false, reduceCtorEq] at h
    cases h
    rfl
  exact ⟨rfl, by decide +kernel, (heals rfl honly [exchange, exchange]).1 (by decide)⟩

end PortalNet
