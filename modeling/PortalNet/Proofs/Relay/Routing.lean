import PortalNet.Proofs.Delivery
import PortalNet.Proofs.Relay.Members

/-! # Routing of teleports

Of what a server sends for players on their way, another server gets the teleports addressed to it,
in order, in the name of the server that sent them.
-/

namespace PortalNet

namespace Directory

variable {d : Directory} {addr a : Address} {now : Nat} {name : String}

/-- The teleports that are addressed to the server at an address. -/
def requestsFor (d : Directory) (addr : Address) : Packet → List TeleportRequest
  | .forward target (.teleport r) => if d.addressOf? target = some addr then [r] else []
  | _ => []

theorem requestsFor_heartbeat : (d.heartbeat a now).2.requestsFor addr = d.requestsFor addr := by
  funext packet
  unfold requestsFor
  split
  · rw [addressOf?_heartbeat]
  · rfl

end Directory

namespace Relay

variable {r : Relay} {source target : Address} {name : String} {packet : Packet}
  {player : Uuid}

theorem receive_announced (hname : r.directory.nameAt? source = some name) (hne : source ≠ target)
    (h : packet.Announces player) (now : Nat) :
    (r.receive packet source now).1.directory = (r.directory.heartbeat source now).2 ∧
      packetsFor (r.receive packet source now).2 target =
        (r.directory.requestsFor target packet).map (.deliver name <| .teleport ·) := by
  have hname' : (r.directory.heartbeat source now).2.nameAt? source = some name :=
    Directory.nameAt?_heartbeat.trans hname
  cases h with
  | teleported | transfer =>
    simp only [receive, hname', receiveFrom, Directory.requestsFor, List.map_nil, true_and]
    rfl
  | switchServer server =>
    simp only [receive, hname', receiveFrom, switch, Directory.requestsFor, List.map_nil]
    split
    · exact ⟨rfl, rfl⟩
    · exact ⟨rfl, packetsFor_singleton.trans (if_neg hne)⟩
  | forward server request =>
    simp only [receive, hname', receiveFrom, forward, deliver, Directory.addressOf?_heartbeat,
      Directory.requestsFor, true_and]
    cases r.directory.addressOf? server with
    | none => rfl
    | some addr =>
      rw [packetsFor_singleton]
      by_cases ha : addr = target
      · simp [ha]
      · simp [ha]

/-- The relay passes the teleports on and answers only to the server that it asks. -/
theorem receiveAll_announced (hname : r.directory.nameAt? source = some name)
    (hne : source ≠ target) (sent : List (Packet × Nat))
    (h : ∀ packet ∈ sent.map Prod.fst, ∃ player, packet.Announces player) :
    packetsFor (r.receiveAll source sent).2 target =
      ((sent.map Prod.fst).flatMap (r.directory.requestsFor target)).map
        (.deliver name <| .teleport ·) := by
  induction sent generalizing r with
  | nil => rfl
  | cons e sent ih =>
    obtain ⟨packet, now⟩ := e
    obtain ⟨player, hp⟩ := h packet List.mem_cons_self
    obtain ⟨hd, hout⟩ := receive_announced hname hne hp now
    have hname' : (r.receive packet source now).1.directory.nameAt? source = some name := by
      rw [hd, Directory.nameAt?_heartbeat, hname]
    have ih := ih hname' fun q hq => h q (List.mem_cons_of_mem _ hq)
    rw [hd, Directory.requestsFor_heartbeat] at ih
    simp only [receiveAll, packetsFor_append, List.map_cons, List.flatMap_cons, List.map_append,
      hout, ih]

end Relay

end PortalNet
