import PortalNet.Backend
import PortalNet.Relay

/-! # Delivery in order

A queue of packets handled one after the other, each at its own time, and what is sent meanwhile.
-/

namespace PortalNet

/-- The packets that go to one address, in order. -/
def packetsFor (letters : List Letter) (addr : Address) : List Packet :=
  (letters.filter (·.1 = addr)).map Prod.snd

/-- What a passage of this player calls for. -/
inductive Packet.Announces (player : Uuid) : Packet → Prop where
  | teleported (worldName : String) (motion : PlayerMotion) :
      Announces player (.teleported worldName motion)
  | transfer (server : String) : Announces player (.transfer server)
  | switchServer (server : String) : Announces player (.switchServer player server)
  | forward (server : String) (r : TeleportRequest) : r.player = player →
      Announces player (.forward server (.teleport r))

def Relay.receiveAll (r : Relay) (addr : Address) : List (Packet × Nat) → Relay × List Letter
  | [] => (r, [])
  | (packet, now) :: rest =>
    let (r, sent) := r.receive packet addr now
    let (r, later) := r.receiveAll addr rest
    (r, sent ++ later)

def Backend.receiveAll (b : Backend) (addr : Address) (fresh : Nat → Uuid) :
    List (Packet × Nat) → Backend × List Outgoing
  | [] => (b, [])
  | (packet, now) :: rest =>
    let (b, sent) := b.receive packet addr now fresh
    let (b, later) := b.receiveAll addr fresh rest
    (b, sent ++ later)

section packetsFor

variable {l m : List Letter} {addr : Address} {a : Address} {packet : Packet}

theorem packetsFor_append : packetsFor (l ++ m) addr = packetsFor l addr ++ packetsFor m addr := by
  simp only [packetsFor, List.filter_append, List.map_append]

theorem packetsFor_singleton :
    packetsFor [(a, packet)] addr = if a = addr then [packet] else [] := by
  unfold packetsFor
  by_cases h : a = addr <;> simp [h]

theorem mem_packetsFor_iff : packet ∈ packetsFor l addr ↔ (addr, packet) ∈ l := by
  simp only [packetsFor, List.mem_map, List.mem_filter, decide_eq_true_eq]
  constructor
  · rintro ⟨⟨a, q⟩, ⟨hm, rfl⟩, rfl⟩
    exact hm
  · intro hm
    exact ⟨(addr, packet), ⟨hm, rfl⟩, rfl⟩

end packetsFor

end PortalNet
