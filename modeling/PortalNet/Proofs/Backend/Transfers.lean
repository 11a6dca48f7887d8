import PortalNet.Proofs.Backend.Isolation
import PortalNet.Proofs.Crossing
import PortalNet.Proofs.Relay.Dispatch

/-! # Who is sent to another server

A tick sends players on to other servers whether the relay knows this server or not: what it sends
does not depend on the link. A relay that does not know the server only tells it so, and the
teleports of the players who were sent on get lost.
-/

namespace PortalNet

namespace Relay

variable {r : Relay} {addr : Address}

/-- Nothing that a stranger sends goes anywhere, unless they register. -/
theorem receiveAll_stranger (hname : r.directory.nameAt? addr = none)
    (sent : List (Packet × Nat))
    (h : ∀ e ∈ sent, ∀ version name, e.1 ≠ .register version name) :
    r.receiveAll addr sent = (r, sent.map fun _ => (addr, .notice)) := by
  induction sent with
  | nil => rfl
  | cons e sent ih =>
    obtain ⟨hpacket, h⟩ := List.forall_mem_cons.1 h
    simp only [receiveAll, receive_stranger hname hpacket, ih h]
    rfl

end Relay

namespace Backend

variable {b : Backend} {x : Session} {addr : Address} {server : String}

/-- In a tick the player of a session stands in a portal that moves players to another server. -/
def Departs (b : Backend) (x : Session) (server : String) : Prop :=
  x.cooldown = 0 ∧ ∃ p, b.tick.1.registry.entered? x.avatar = some p ∧
    p.relocatesPlayers = true ∧ p.dest.position.server = some server

theorem transfer_mem_announce_iff {j : Journey} :
    .send addr (.transfer server) ∈ b.announce x j ↔
      b.relay.isSome ∧ x.addr = addr ∧ ∃ h id request, j = .away h id server request := by
  cases j with
  | here h id avatar => simp [announce]
  | stay h id => simp [announce]
  | away h id target request =>
    unfold announce
    cases b.relay with
    | none => simp
    | some relay => simp [eq_comm, and_comm]

theorem transfer_mem_passage_iff :
    .send addr (.transfer server) ∈ b.passage x ↔
      b.relay.isSome ∧ x.addr = addr ∧ b.Departs x server := by
  have haway : (∃ h id request, (x.traverse b.tick.1.registry b.settings.cooldown).2 =
      some (.away h id server request)) ↔ b.Departs x server := Session.exists_away_iff
  simp only [passage, List.mem_flatMap, Option.mem_toList, transfer_mem_announce_iff, ← haway]
  constructor
  · rintro ⟨j, hj, hrelay, haddr, h, id, request, rfl⟩
    exact ⟨hrelay, haddr, h, id, request, hj⟩
  · rintro ⟨hrelay, haddr, h, id, request, hj⟩
    exact ⟨_, hj, hrelay, haddr, h, id, request, rfl⟩

theorem transfer_mem_tick_iff (hs : b.sessions.Addressed) :
    .send addr (.transfer server) ∈ b.tick.2 ↔
      b.relay.isSome ∧ ∃ h x, b.sessions.session? h = some x ∧ x.addr = addr ∧
        b.Departs x server := by
  simp only [tick_out hs.handle_eq, List.mem_flatMap, transfer_mem_passage_iff]
  constructor
  · rintro ⟨x, hx, hrelay, haddr, hdeparts⟩
    obtain ⟨h, hx⟩ := Table.mem_values_iff.1 hx
    exact ⟨hrelay, h, x, hx, haddr, hdeparts⟩
  · rintro ⟨hrelay, h, x, hx, haddr, hdeparts⟩
    exact ⟨x, Table.mem_values_iff.2 ⟨h, hx⟩, hrelay, haddr, hdeparts⟩

/-- What a tick sends is no registration. -/
theorem ne_register_of_mem_tick (hs : b.sessions.Addressed) {packet : Packet}
    (h : (addr, packet) ∈ b.tick.1.letters b.tick.2) (version : UInt32) (name : String) :
    packet ≠ .register version name := by
  rw [tick_out hs.handle_eq] at h
  obtain ⟨o, ho, h⟩ := List.mem_flatMap.1 h
  obtain ⟨x, -, ho⟩ := List.mem_flatMap.1 ho
  obtain ⟨a, q, rfl, hannounces⟩ := mem_passage ho
  obtain ⟨rfl, rfl⟩ := Prod.mk.inj (List.mem_singleton.1 h)
  rintro rfl
  cases hannounces

/-- After any run of a server, the players that a tick sends on are those who stand in a portal to
another server, if only a relay is configured. What the relay said last makes no difference, and
one that does not know the server answers all of it with notices. -/
theorem run_transfers {settings : Settings} {relay : Option Address} {file : Option String}
    {fresh : Nat → Uuid} (hstart : start settings relay file fresh = .ok b)
    (steps : List BackendStep) :
    let s := b.run steps
    (∀ addr server, .send addr (.transfer server) ∈ s.tick.2 ↔
      relay.isSome ∧ ∃ h x, s.sessions.session? h = some x ∧ x.addr = addr ∧
        s.Departs x server) ∧
    (∀ linked, { s with relayLinked := linked }.tick.2 = s.tick.2) ∧
    (∀ (r : Relay) (a addr : Address) (sent : List (Packet × Nat)), relay = some a →
      r.directory.nameAt? addr = none →
      sent.map Prod.fst = packetsFor (s.tick.1.letters s.tick.2) a →
      r.receiveAll addr sent = (r, sent.map fun _ => (addr, .notice))) := by
  intro s
  have hs : s.sessions.Addressed := addressed_run (start_sessions hstart ▸ .empty _) steps
  have hrelay : s.relay = relay := (place_run b steps).2.trans (start_relay hstart)
  refine ⟨fun addr server => ?_, fun linked => rfl, fun r a addr sent _ hname hsent => ?_⟩
  · rw [transfer_mem_tick_iff hs, hrelay]
  · refine Relay.receiveAll_stranger hname sent fun e he => ?_
    have hpacket : e.1 ∈ packetsFor (s.tick.1.letters s.tick.2) a :=
      hsent ▸ List.mem_map_of_mem he
    exact ne_register_of_mem_tick hs (mem_packetsFor_iff.1 hpacket)

end Backend

namespace Sample

/-- A server with a relay that has just started. -/
def outpost : Backend where
  settings := { name := "survival" }
  relay := some relayAddress
  sessions := .empty 64
  registry := { worlds := (Worlds.load {} ⟨supply 0, "world"⟩).load ⟨supply 1, "world_nether"⟩ }
  spawnWorld := ⟨supply 0, "world"⟩

theorem start_outpost :
    Backend.start { name := "survival" } (some relayAddress) none supply = .ok outpost := rfl

def hears (packet : Packet) (addr : Address) : BackendStep :=
  .handle (.packet packet addr) 0 fun i => supply (i + 10)

/-- A player joins and links a window around themselves to a place on another server. -/
def gateway (far : Vec3 Double) : List BackendStep :=
  [hears (.join protocolVersion player) address,
    hears (.command (.selectCorner true ⟨0, 63, 0⟩)) address,
    hears (.command (.selectCorner false ⟨1, 65, 0⟩)) address,
    hears (.command .selectOrigin) address,
    hears (.deliver "creative" (.mirrorSelection
      ⟨player, .external ⟨far, .north⟩ "creative" "world" false, ⟨(2 : Int), (3 : Int)⟩⟩))
      relayAddress,
    hears (.command (.linkExternal false)) address]

end Sample

open Sample in
/-- The relay confirms the registration and withdraws it, and the players are told that portals to
other servers are unavailable; the next tick sends one of them through. -/
theorem sent_on_after_notice :
    let b := outpost.run (gateway origin ++ [hears .registered relayAddress])
    let out := b.receive .notice relayAddress 0 supply
    out.2 = [.broadcast (.commandResult false "Portals to other servers are unavailable") none] ∧
      out.1.relayLinked = false ∧
      .send address (.transfer "creative") ∈ out.1.tick.2 := by
  decide +kernel

open Sample in
/-- A relay that has forgotten the server answers the teleport with a notice. -/
theorem teleport_answered_by_notice :
    let b := outpost.run (gateway origin)
    let sent := (packetsFor (b.tick.1.letters b.tick.2) relayAddress).map (·, 0)
    sent.length = 2 ∧
      Relay.receiveAll {} sourceAddress sent = ({}, List.replicate 2 (sourceAddress, .notice)) := by
  intro b sent
  have hlength : sent.length = 2 := by decide +kernel
  obtain ⟨-, -, h⟩ := Backend.run_transfers start_outpost (gateway origin)
  have hsent : sent.map Prod.fst = packetsFor (b.tick.1.letters b.tick.2) relayAddress := by
    simp [sent, Function.comp_def]
  refine ⟨hlength, (h {} relayAddress sourceAddress sent rfl rfl hsent).trans ?_⟩
  rw [List.map_const', hlength]

end PortalNet
