import PortalNet.Proofs.Relay.Run

/-! # Lookups and their answers

What becomes of a player who switches, and of a response that a server forwards. The lookup with the
number of the response is taken for the one that it answers, whoever forwards it and whatever player
it names, which is right just when no two askers use one number.
-/

namespace PortalNet

namespace Relay

section deliver

variable {r : Relay} {a : Address} {source target : String} {message : RelayMessage}
  {packet : Packet}

theorem deliver_eq : r.deliver source target message =
    (r.directory.addressOf? target).toList.map (·, .deliver source message) := by
  unfold deliver
  split <;> next h => simp [h]

theorem mem_deliver_iff : (a, packet) ∈ r.deliver source target message ↔
    r.directory.addressOf? target = some a ∧ packet = .deliver source message := by
  rw [deliver_eq]
  constructor
  · intro h
    obtain ⟨a', ha, he⟩ := List.mem_map.1 h
    cases he
    exact ⟨Option.mem_toList.1 ha, rfl⟩
  · rintro ⟨ha, rfl⟩
    exact List.mem_map.2 ⟨a, Option.mem_toList.2 ha, rfl⟩

end deliver

/-- Whoever a player leaves is asked in the name of the server that the player goes to. -/
theorem receive_switch {r : Relay} {p : Uuid} {addr : Address} {source target : String}
    (hname : r.directory.nameAt? addr = some source) (htarget : r.directory.Has target)
    (now : Nat) :
    r.receive (.switchServer p target) addr now =
      ({ directory := (r.directory.heartbeat addr now).2
         lookups := r.lookups.insert r.nextRequest ⟨p, source, target⟩
         nextRequest := r.nextRequest + 1 },
        [(addr, .deliver target (.getSelection r.nextRequest p))]) := by
  have htarget : (r.directory.heartbeat addr now).2.Has target :=
    Directory.has_heartbeat_iff.2 htarget
  obtain ⟨m, hm⟩ := Option.isSome_iff_exists.1 htarget
  simp only [receive, Directory.nameAt?_heartbeat, hname, receiveFrom, switch, hm]

section response

variable {r : Relay} {addr : Address} {now : Nat} {source target : String} {id : UInt64}
  {player : Uuid} {selection : Option ExternalSelection} {k : Lookup}

theorem deliver_heartbeat (message : RelayMessage) :
    ({ r with directory := (r.directory.heartbeat addr now).2 } : Relay).deliver source target
      message = r.deliver source target message := by
  simp only [deliver, Directory.addressOf?_heartbeat]

theorem receive_forward (hname : r.directory.nameAt? addr = some source) (target : String)
    (message : RelayMessage) (now : Nat) :
    r.receive (.forward target message) addr now =
      ({ r with directory := (r.directory.heartbeat addr now).2 } : Relay).forward source target
        message := by
  simp only [receive, Directory.nameAt?_heartbeat, hname, receiveFrom]

/-- A response that answers no lookup goes where it is addressed to. -/
theorem receive_response_of_none (hname : r.directory.nameAt? addr = some source)
    (hk : r.lookups.get? id = none) :
    r.receive (.forward target (.selectionResponse id player selection)) addr now =
      ({ r with directory := (r.directory.heartbeat addr now).2 },
        r.deliver source target (.selectionResponse id player selection)) := by
  rw [receive_forward hname]
  simp only [forward, hk, deliver_heartbeat]

/-- One that has the number of a lookup takes its place. -/
theorem receive_response_of_some (hname : r.directory.nameAt? addr = some source)
    (hk : r.lookups.get? id = some k) :
    r.receive (.forward target (.selectionResponse id player selection)) addr now =
      ({ r with
          directory := (r.directory.heartbeat addr now).2
          lookups := r.lookups.erase id },
        selection.toList.flatMap fun e =>
          r.deliver source k.target (.mirrorSelection ⟨player, e⟩)) := by
  rw [receive_forward hname]
  simp only [forward, hk]
  cases selection with
  | none => rfl
  | some e => simp only [deliver, Directory.addressOf?_heartbeat, Option.toList_some,
      List.flatMap_cons, List.flatMap_nil, List.append_nil]

end response

/-- What `source` brings about by a response to `target` that answers at most its own lookup. -/
structure Discerns (r : Relay) (source target : String) (id : UInt64) (player : Uuid)
    (selection : Option ExternalSelection) (out : Relay × List Letter) : Prop where
  /-- It takes no lookup that is for another server. -/
  own : ∀ i k, r.lookups.get? i = some k → out.1.lookups.get? i = none → k.source = source
  /-- What comes of a lookup is for its player. -/
  named : ∀ i k, r.lookups.get? i = some k → out.1.lookups.get? i = none →
    ∀ a name m, (a, .deliver name (.mirrorSelection m)) ∈ out.2 → m.player = k.player
  /-- Without a lookup of its own it goes where it is addressed to, and all lookups stay. -/
  foreign : (∀ k, r.lookups.get? id = some k → k.source ≠ source) →
    out.1.lookups = r.lookups ∧
      out.2 = r.deliver source target (.selectionResponse id player selection)

section discerns

variable {r : Relay} {addr : Address} {source : String} {id : UInt64} {k : Lookup}

theorem mem_deliver_mirror {target name : String} {a : Address} {m m' : MirrorRequest}
    (h : (a, Packet.deliver name (.mirrorSelection m)) ∈
      r.deliver source target (.mirrorSelection m')) :
    r.directory.Has target ∧ m = m' := by
  obtain ⟨ha, hpacket⟩ := mem_deliver_iff.1 h
  cases hpacket
  exact ⟨Directory.has_of_addressOf? ha, rfl⟩

theorem exists_mem_deliver {target : String} (h : r.directory.Has target)
    (message : RelayMessage) :
    ∃ a, (a, .deliver source message) ∈ r.deliver source target message := by
  obtain ⟨m, hm⟩ := Option.isSome_iff_exists.1 h
  have ha : r.directory.addressOf? target = some m.addr := by
    rw [Directory.addressOf?, hm]
    rfl
  exact ⟨m.addr, mem_deliver_iff.2 ⟨ha, rfl⟩⟩

/-- A response does so just when the lookup with its number, if there is one, is for the server that
forwards it, and for its player if anything is passed on. -/
theorem discerns_iff (hname : r.directory.nameAt? addr = some source) (target : String)
    (id : UInt64) (player : Uuid) (selection : Option ExternalSelection) (now : Nat) :
    r.Discerns source target id player selection
        (r.receive (.forward target (.selectionResponse id player selection)) addr now) ↔
      ∀ k, r.lookups.get? id = some k → k.source = source ∧
        (selection.isSome → r.directory.Has k.target → k.player = player) := by
  cases hk : r.lookups.get? id with
  | none =>
    rw [receive_response_of_none hname hk]
    refine iff_of_true ⟨?_, ?_, fun _ => ⟨rfl, rfl⟩⟩ (by rintro k ⟨⟩) <;>
    · intro i k hi hgone
      exact absurd (hi.symm.trans hgone) (by simp)
  | some k =>
    rw [receive_response_of_some hname hk]
    have hgone : (r.lookups.erase id).get? id = none := Table.get?_erase.trans (if_pos rfl)
    have hid : ∀ i k', r.lookups.get? i = some k' → (r.lookups.erase id).get? i = none →
        k' = k := by
      intro i k' hi hgone
      rw [Table.get?_erase] at hgone
      split at hgone
      · next h => exact Option.some.inj ((h ▸ hi).symm.trans hk)
      · exact absurd (hi.symm.trans hgone) (by simp)
    constructor
    · rintro ⟨hown, hnamed, -⟩ k' hk'
      obtain rfl := Option.some.inj hk'
      refine ⟨hown id k hk hgone, fun hsome htarget => ?_⟩
      obtain ⟨e, rfl⟩ := Option.isSome_iff_exists.1 hsome
      obtain ⟨a, ha⟩ := exists_mem_deliver htarget (.mirrorSelection ⟨player, e⟩)
      exact (hnamed id k hk hgone a _ _ (by simpa using ha)).symm
    · intro h
      obtain ⟨hsource, hplayer⟩ := h k rfl
      refine ⟨?_, ?_, fun hno => absurd hsource (hno k hk)⟩
      · intro i k' hi hgone
        rwa [hid i k' hi hgone]
      · intro i k' hi hgone a name m hm
        rw [hid i k' hi hgone]
        obtain ⟨e, he, hm⟩ := List.mem_flatMap.1 hm
        obtain ⟨htarget, rfl⟩ := mem_deliver_mirror hm
        rw [Option.mem_toList] at he
        exact (hplayer (by simp [he]) htarget).symm

end discerns

end Relay

namespace Sample

def lobbyAddress : Address := ⟨.v4 (.replicate 4 127), 30003⟩

/-- Three servers register, and the player leaves the first for the second. -/
def asking : Relay :=
  ({} : Relay).run [
    .handle (.packet (.register protocolVersion "survival") survivalAddress) 0,
    .handle (.packet (.register protocolVersion "creative") creativeAddress) 0,
    .handle (.packet (.register protocolVersion "lobby") lobbyAddress) 0,
    .handle (.packet (.switchServer player "creative") survivalAddress) 0]

def stranger : Uuid := ⟨.replicate 16 9⟩

def window : ExternalSelection :=
  ⟨.external ⟨origin, .north⟩ "lobby" "world" false, ⟨(3 : Int), (2 : Int)⟩⟩

end Sample

namespace Relay

open Sample in
/-- The server that was asked answers for the player. -/
theorem discerns_own :
    asking.directory.nameAt? survivalAddress = some "survival" ∧
      asking.Discerns "survival" "creative" 1 player (some window)
        (asking.receive (.forward "creative" (.selectionResponse 1 player (some window)))
          survivalAddress 0) := by
  have hname : asking.directory.nameAt? survivalAddress = some "survival" := by decide +kernel
  refine ⟨hname, (discerns_iff hname _ _ _ _ _).2 fun k hk => ?_⟩
  have hlookup : asking.lookups.get? 1 = some lookup := by decide +kernel
  obtain rfl := Option.some.inj (hlookup.symm.trans hk)
  exact ⟨rfl, fun _ _ => rfl⟩

open Sample in
/-- Another server answers what another one asked it under the same number. The lookup is consumed,
what it answered for a stranger is passed on in its place, and nobody gets the response. -/
theorem stranger_answers_lookup :
    let response := .selectionResponse 1 stranger (some window)
    let out := asking.receive (.forward "survival" response) lobbyAddress 0
    asking.directory.nameAt? lobbyAddress = some "lobby" ∧
    asking.lookups.get? 1 = some lookup ∧ out.1.lookups.get? 1 = none ∧
    out.2 = [(creativeAddress, .deliver "lobby" (.mirrorSelection ⟨stranger, window⟩))] ∧
    ¬ asking.Discerns "lobby" "survival" 1 stranger (some window) out := by
  intro response out
  have hlookup : asking.lookups.get? 1 = some lookup := by decide +kernel
  have hgone : out.1.lookups.get? 1 = none := by decide +kernel
  refine ⟨by decide +kernel, hlookup, hgone, by decide +kernel, fun h => ?_⟩
  have hsource : "survival" = "lobby" := h.own 1 _ hlookup hgone
  exact absurd hsource (by decide)

end Relay

end PortalNet
