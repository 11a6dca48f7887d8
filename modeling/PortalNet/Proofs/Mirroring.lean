import PortalNet.Proofs.Backend.Selected
import PortalNet.Proofs.Crossing
import PortalNet.Proofs.Relay.Answers
import PortalNet.Proofs.Session.Arrival

/-! # Selections follow their players

When a player goes to another server, the relay asks the one they leave for their destination and
hands it to the one they go to. Three races are open meanwhile: the player may have left when the
question comes, may have joined when the answer comes, and the relay may have forgotten what it
asked. The outcome is the same in all of them.
-/

namespace PortalNet

/-- What the relay posts when it is told what was found. -/
inductive Posted (source : String) (id : UInt64) (p : Uuid) (found : Option ExternalSelection) :
    List Packet → Prop where
  | remembered :
      Posted source id p found (found.toList.map fun e => .deliver source (.mirrorSelection ⟨p, e⟩))
  | forgotten : Posted source id p found [.deliver source (.selectionResponse id p found)]

/-- What is found at one server becomes of the other: nothing new if it is nothing, and else the
destination that the player has there, live or waiting, and keeps as long as no other one comes. -/
structure Mirrored (p : Uuid) (found : Option ExternalSelection) (T T' : Backend) : Prop where
  unchanged : found = none → T' = T
  external : ∀ e, found = some e → T'.sessions.external? p = some e
  lasting : ∀ e, found = some e → ∀ later, T'.sessions.Lasts (T'.history later) →
    T'.Throughout (fun b step => ¬ b.Mirrors p step) later →
    ∀ x, (T'.run later).sessions.byPlayer? p = some x → x.selections.external = some e

namespace Backend

/-- The server after it has taken over a destination. -/
def aimed (b : Backend) (m : MirrorRequest) : Backend :=
  { b with sessions := (b.sessions.mirror m).2 }

variable {b : Backend} {p : Uuid} {relay : Address} {source : String} {id : UInt64}
  {found : Option ExternalSelection} {posted : List Packet}

theorem receive_of_relay (hrelay : b.relay = some relay) (packet : Packet) (now : Nat)
    (fresh : Nat → Uuid) : b.receive packet relay now fresh = b.receiveFromRelay packet :=
  if_pos hrelay

/-- The question is answered to whom it names, and nothing else comes of it. -/
theorem receive_getSelection (hrelay : b.relay = some relay)
    (hfound : b.sessions.destination? p b.settings.name = .ok found) (now : Nat)
    (fresh : Nat → Uuid) :
    b.receive (.deliver source (.getSelection id p)) relay now fresh =
      (b, [.send relay (.forward source (.selectionResponse id p found))]) := by
  rw [receive_of_relay hrelay]
  simp only [receiveFromRelay, receiveMessage, toRelay, hfound, hrelay]
  rfl

/-- On both ways the server takes over what was found and nothing else. -/
theorem receiveAll_posted (hrelay : b.relay = some relay) (h : Posted source id p found posted)
    {got : List (Packet × Nat)} (hgot : got.map Prod.fst = posted) (fresh : Nat → Uuid) :
    (b.receiveAll relay fresh got).1 = found.elim b fun e => b.aimed ⟨p, e⟩ := by
  have hone : ∀ packet now,
      (b.receiveAll relay fresh [(packet, now)]).1 = (b.receiveFromRelay packet).1 := by
    intro packet now
    rw [← receive_of_relay hrelay packet now fresh]
    rfl
  cases h with
  | remembered =>
    cases found with
    | none =>
      obtain rfl := List.map_eq_nil_iff.1 hgot
      rfl
    | some e =>
      obtain ⟨⟨packet, now⟩, rfl, rfl⟩ := List.map_eq_singleton_iff.1 hgot
      exact (hone _ _).trans acceptSelection_fst
  | forgotten =>
    obtain ⟨⟨packet, now⟩, rfl, rfl⟩ := List.map_eq_singleton_iff.1 hgot
    rw [hone]
    cases found with
    | none => rfl
    | some e => exact acceptSelection_fst

/-- It is the same whether the player joins before or after. -/
theorem aimed_receive_join (hs : b.sessions.Consistent) (m : MirrorRequest) (version : UInt32)
    (addr : Address) (now : Nat) (fresh : Nat → Uuid) :
    (b.receive (.join version m.player) addr now fresh).1.aimed m =
      ((b.aimed m).receive (.join version m.player) addr now fresh).1 := by
  by_cases hrelay : b.relay = some addr
  · have hrelay' : (b.aimed m).relay = some addr := hrelay
    rw [receive_of_relay hrelay, receive_of_relay hrelay']
    rfl
  · have hjoin : ∀ c : Backend, c.relay = b.relay →
        c.receive (.join version m.player) addr now fresh = c.join version m.player addr now :=
      fun c hc => if_neg (hc ▸ hrelay)
    rw [hjoin b rfl, hjoin (b.aimed m) rfl]
    by_cases hversion : version = protocolVersion
    · subst hversion
      have hsessions : (((b.vacate addr).connect m.player addr b.spawn b.registry.worlds
          now).2.mirror m).2 =
          (((b.aimed m).vacate addr).connect m.player addr b.spawn b.registry.worlds now).2 := by
        rw [vacate, vacate]
        simp only [aimed, Store.byAddress?_mirror]
        cases b.sessions.byAddress? addr with
        | none => exact (hs.connect_mirror m).symm
        | some h => exact (hs.connect_mirror_of_disconnect m h).symm
      rw [join_fst, join_fst]
      exact congrArg (fun sessions => { b with sessions }) hsessions
    · simp only [join, ne_eq, hversion, not_false_eq_true, if_true]

theorem receiveAll_posted_join (hs : b.sessions.Consistent) (hrelay : b.relay = some relay)
    (h : Posted source id p found posted) {got : List (Packet × Nat)}
    (hgot : got.map Prod.fst = posted) (fresh : Nat → Uuid) (version : UInt32) (addr : Address)
    (now : Nat) (fresh' : Nat → Uuid) :
    ((b.receive (.join version p) addr now fresh').1.receiveAll relay fresh got).1 =
      ((b.receiveAll relay fresh got).1.receive (.join version p) addr now fresh').1 := by
  have hrelay' : (b.receive (.join version p) addr now fresh').1.relay = some relay :=
    (place_after b (.handle (.packet (.join version p) addr) now fresh')).2.trans hrelay
  rw [receiveAll_posted hrelay h hgot, receiveAll_posted hrelay' h hgot]
  cases found with
  | none => rfl
  | some e => exact aimed_receive_join hs ⟨p, e⟩ version addr now fresh'

theorem mirrored_of_posted (hs : b.sessions.Consistent) (hrelay : b.relay = some relay)
    (h : Posted source id p found posted) {got : List (Packet × Nat)}
    (hgot : got.map Prod.fst = posted) (fresh : Nat → Uuid) :
    Mirrored p found b (b.receiveAll relay fresh got).1 := by
  rw [receiveAll_posted hrelay h hgot fresh]
  have haimed : ∀ e, (b.aimed ⟨p, e⟩).sessions.Consistent := fun e =>
    hs.after (e := .mirror ⟨p, e⟩) rfl
  refine ⟨?_, ?_, ?_⟩
  · rintro rfl
    rfl
  · rintro e rfl
    exact hs.external?_mirror
  · rintro e rfl later hn hlater x hx
    exact external_run (haimed e) hn hlater hs.external?_mirror hx

end Backend

section mirroring

variable {S T : Backend} {R : Relay} {p : Uuid} {id : UInt64} {source target relay : Address}

/-- Whether the lookup is still there or not, what was found goes to the other server. -/
theorem Linked.posted (hlink : Linked S T R source target relay)
    (hk : ∀ k, R.lookups.get? id = some k → k = ⟨p, S.settings.name, T.settings.name⟩)
    (found : Option ExternalSelection) (now : Nat) :
    Posted S.settings.name id p found (packetsFor (R.receive
      (.forward T.settings.name (.selectionResponse id p found)) source now).2 target) := by
  have hdeliver : ∀ message, packetsFor (R.deliver S.settings.name T.settings.name message) target =
      [.deliver S.settings.name message] := by
    intro message
    simp only [Relay.deliver, hlink.target_addr, packetsFor_singleton, if_true]
  cases hid : R.lookups.get? id with
  | none =>
    rw [Relay.receive_response_of_none hlink.source_name hid, hdeliver]
    exact .forgotten
  | some k =>
    obtain rfl := hk k hid
    rw [Relay.receive_response_of_some hlink.source_name hid]
    cases found with
    | none => exact .remembered
    | some e =>
      simp only [Option.toList_some, List.flatMap_cons, List.flatMap_nil, List.append_nil, hdeliver]
      exact .remembered

end mirroring

/-- When a player goes to another server, the destination that they selected where they come from
becomes their destination where they go to, as one on the other server. Any steps may come between
the switch and the question at the one server, before the delivery and after it at the other, and
between the question and the answer at the relay, which may forget what it asked. There is an answer
if the destination can be measured in words. -/
theorem mirroring {S T : Backend} {R : Relay} {p : Uuid} {source target relay : Address}
    (hS : S.sessions.Reachable) (hT : T.sessions.Reachable) (hR : R.Reachable)
    (hlink : Linked S T R source target relay) (now : Nat) :
    let id := R.nextRequest
    let switch := .switchServer p T.settings.name
    (R.receive switch source now).2 = [(source, .deliver T.settings.name (.getSelection id p))] ∧
    ∀ stepsS stepsR stepsT, S.sessions.Lasts (S.history stepsS) →
      R.Lasts (.handle (.packet switch source) now :: stepsR) →
      T.sessions.Lasts (T.history stepsT) →
      let S' := S.run stepsS
      let R' := R.run (.handle (.packet switch source) now :: stepsR)
      let T' := T.run stepsT
      ((∀ l d, S'.sessions.selections? p = some l → l.destination = some d → d.Fits) →
        ∃ found, S'.sessions.destination? p S.settings.name = .ok found) ∧
      ∀ found, S'.sessions.destination? p S.settings.name = .ok found →
      let answer := .forward T.settings.name (.selectionResponse id p found)
      (∀ now fresh, S'.receive (.deliver T.settings.name (.getSelection id p)) relay now fresh =
        (S', [.send relay answer])) ∧
      (S.Throughout (fun b step => ¬ b.Chooses p step) stepsS →
        S.sessions.destination? p S.settings.name = .ok found) ∧
      (∀ e, found = some e ↔ ∃ l d, S'.sessions.selections? p = some l ∧
        l.destination = some d ∧ d.Told S.settings.name e) ∧
      (Linked S T R' source target relay →
        ∀ now got fresh, got.map Prod.fst = packetsFor (R'.receive answer source now).2 target →
          let T'' := (T'.receiveAll relay fresh got).1
          Mirrored p found T' T'' ∧ ∀ version addr now fresh',
            ((T'.receive (.join version p) addr now fresh').1.receiveAll relay fresh got).1 =
              (T''.receive (.join version p) addr now fresh').1) := by
  intro id switch
  have hR := hR.sound
  have htarget := Directory.has_of_addressOf? hlink.target_addr
  have hswitch := Relay.receive_switch (p := p) hlink.source_name htarget now
  refine ⟨congrArg Prod.snd hswitch, ?_⟩
  intro stepsS stepsR stepsT hnS hnR hnT S' R' T'
  refine ⟨Store.exists_destination? _, ?_⟩
  intro found hfound answer
  obtain ⟨hsettings, hrelay⟩ := Backend.place_run S stepsS
  refine ⟨?_, ?_, ?_, ?_⟩
  · intro now fresh
    exact Backend.receive_getSelection (hrelay.trans hlink.source_relay) (hsettings.symm ▸ hfound)
      now fresh
  · intro hsteps
    rw [← hfound]
    exact (Backend.destination?_run hS.consistent hnS hsteps _).symm
  · intro e
    rw [← Store.destination?_eq_some_iff, hfound, Except.ok.injEq]
  · intro hlink' now' got fresh hgot
    obtain ⟨hasked, hlasts⟩ := hR.after hnR
    have hlookup : (R.after (.handle (.packet switch source) now)).lookups.get? id =
        some ⟨p, S.settings.name, T.settings.name⟩ := by
      change (R.receive switch source now).1.lookups.get? id = _
      rw [hswitch]
      exact Table.get?_insert_self
    -- the relay uses no number twice, so this number still means this lookup or none
    have hkept : ∀ k, R'.lookups.get? id = some k → k = ⟨p, S.settings.name, T.settings.name⟩ := by
      intro k hk
      have hk := hasked.get?_run hlasts (hasked.lt_next id _ hlookup) hk
      exact Option.some.inj (hk.symm.trans hlookup)
    have hT' := Backend.consistent_run hT.consistent hnT
    have hrelay' := (Backend.place_run T stepsT).2.trans hlink.target_relay
    have hposted := hlink'.posted hkept found now'
    exact ⟨Backend.mirrored_of_posted hT' hrelay' hposted hgot fresh,
      Backend.receiveAll_posted_join hT' hrelay' hposted hgot fresh⟩

namespace Sample

/-- A server whose player has selected a destination. -/
def survival : Backend where
  settings := { name := "survival" }
  relay := some relayAddress
  sessions := (Store.empty 1).run [.connect player address avatar {} 0,
    .edit fun _ x =>
      { x with selections := { destination := some (.ofCorners world ⟨0, 64, 0⟩ ⟨2, 66, 0⟩) } }]
  registry := {}
  spawnWorld := world

/-- The destination as another server is told of it. -/
def chosen : ExternalSelection where
  position := .external
    ⟨⟨Scalar.half (3 : Int), Scalar.half (131 : Int), Scalar.half (1 : Int)⟩, .north⟩
    "survival" "world" false
  size := ⟨(3 : Int), (3 : Int)⟩

def creative : Backend where
  settings := { name := "creative" }
  relay := some relayAddress
  sessions := .empty 1
  registry := { worlds }
  spawnWorld := nether

/-- Both servers register. -/
def registered : Relay :=
  ({} : Relay).run [
    .handle (.packet (.register protocolVersion "survival") survivalAddress) 0,
    .handle (.packet (.register protocolVersion "creative") creativeAddress) 0]

def leaving : BackendStep :=
  .handle (.packet .leave address) 0 fun _ => player

def joining : BackendStep :=
  .handle (.packet (.join protocolVersion player) address) 0 fun _ => player

end Sample

open Sample in
/-- The player of the sample has left before the question comes and joins after the answer. -/
theorem mirrored_to_joining :
    let asked := registered.run
      [.handle (.packet (.switchServer player "creative") survivalAddress) 0]
    let answer := .forward "creative" (.selectionResponse 1 player (some chosen))
    let posted := packetsFor (asked.receive answer survivalAddress 0).2 creativeAddress
    let there := (creative.receiveAll relayAddress (fun _ => player) (posted.map (·, 0))).1
    (survival.run [leaving]).sessions.destination? player "survival" = .ok (some chosen) ∧
      ((there.run [joining]).sessions.byPlayer? player).map (·.selections.external) =
        some (some chosen) := by
  intro asked answer posted there
  have hS : survival.sessions.Reachable := ⟨1, _, by decide, rfl⟩
  have hT : creative.sessions.Reachable := ⟨1, [], by decide, rfl⟩
  have hR : registered.Reachable := ⟨_, by decide, rfl⟩
  have hlink : Linked survival creative registered survivalAddress creativeAddress
      relayAddress := by
    constructor <;> decide
  have hlink' : Linked survival creative asked survivalAddress creativeAddress relayAddress := by
    constructor <;> decide
  have hfound : (survival.run [leaving]).sessions.destination? player "survival" =
      .ok (some chosen) :=
    congrArg (fun e => Except.ok (some e)) (show _ = chosen by decide +kernel)
  refine ⟨hfound, ?_⟩
  obtain ⟨-, h⟩ := mirroring (p := player) hS hT hR hlink 0
  obtain ⟨-, h⟩ := h [leaving] [] [] (by decide) (by decide) (by decide)
  obtain ⟨-, -, -, h⟩ := h _ hfound
  have hgot : (posted.map (·, 0)).map Prod.fst = posted := by simp [Function.comp_def]
  obtain ⟨⟨-, -, hlasting⟩, -⟩ := h hlink' 0 _ (fun _ => player) hgot
  obtain ⟨x, hx⟩ := Option.isSome_iff_exists.1 <|
    show ((there.run [joining]).sessions.byPlayer? player).isSome by decide +kernel
  have hexternal := hlasting _ rfl [joining] (by decide +kernel) ⟨by rintro ⟨⟩, trivial⟩ x hx
  rw [hx, Option.map_some, hexternal]

end PortalNet
