import PortalNet.Proofs.Backend.Run
import PortalNet.Proofs.Relay.Routing
import PortalNet.Proofs.Session.Presence

/-! # From server to server

Whoever goes through a portal to another server arrives there once, with the motion that the two
windows give them: at once if they are connected there, and else when they join.
-/

namespace PortalNet

def Packet.teleports (player : Uuid) : Packet → Bool
  | .deliver _ (.teleport r) => r.player = player
  | _ => false

namespace Directory

theorem player_of_mem_requestsFor {d : Directory} {addr : Address} {player : Uuid}
    {packet : Packet} {r : TeleportRequest} (h : packet.Announces player)
    (hr : r ∈ d.requestsFor addr packet) : r.player = player := by
  cases h with
  | teleported | transfer | switchServer => cases hr
  | forward server request hp =>
    simp only [requestsFor] at hr
    split at hr
    · obtain rfl := List.mem_singleton.1 hr
      exact hp
    · cases hr

end Directory

namespace Backend

section mail

variable {b c : Backend} {x : Session} {l : List Session} {addr : Address} {packet : Packet}
  {p : Uuid}

theorem announces_of_mem_packetsFor
    (h : packet ∈ packetsFor (c.letters (l.flatMap b.passage)) addr) :
    ∃ y ∈ l, packet.Announces y.player := by
  have h := mem_packetsFor_iff.1 h
  rw [letters, List.flatMap_assoc] at h
  obtain ⟨y, hy, hl⟩ := List.mem_flatMap.1 h
  exact ⟨y, hy, announces_of_mem_letters hl⟩

/-- Nobody asks for anything on behalf of others. -/
theorem requests_of_others (d : Directory) (target : Address) (hl : ∀ y ∈ l, y.player ≠ p) :
    ((packetsFor (c.letters (l.flatMap b.passage)) addr).flatMap
      (d.requestsFor target)).filter (·.player = p) = [] := by
  rw [List.filter_eq_nil_iff]
  intro r hr
  obtain ⟨packet, hpacket, hr⟩ := List.mem_flatMap.1 hr
  obtain ⟨y, hy, hp⟩ := announces_of_mem_packetsFor hpacket
  have hplayer := Directory.player_of_mem_requestsFor hp hr
  rw [decide_eq_true_eq, hplayer]
  exact hl y hy

end mail

section receipt

variable {b : Backend} {addr : Address} {fresh : Nat → Uuid} {source : String}

theorem receive_teleport (hrelay : b.relay = some addr) (source : String) (r : TeleportRequest)
    (now : Nat) (fresh : Nat → Uuid) :
    (b.receive (.deliver source (.teleport r)) addr now fresh).1 =
      { b with sessions := (b.sessions.teleport r b.registry.worlds).2 } := by
  simp only [receive, hrelay, if_true, receiveFromRelay, receiveMessage]
  split <;> rfl

theorem receiveAll_teleports (hrelay : b.relay = some addr) (rs : List TeleportRequest)
    (got : List (Packet × Nat)) (h : got.map Prod.fst = rs.map (.deliver source <| .teleport ·)) :
    (b.receiveAll addr fresh got).1 =
      { b with sessions := b.sessions.run (rs.map (.teleport · b.registry.worlds)) } := by
  induction got generalizing b rs with
  | nil =>
    obtain rfl := List.map_eq_nil_iff.1 h.symm
    rfl
  | cons e got ih =>
    obtain ⟨packet, now⟩ := e
    cases rs with
    | nil => cases h
    | cons r rs =>
      obtain ⟨rfl, htail⟩ := List.cons.inj h
      have hr := receive_teleport hrelay source r now fresh
      rw [receiveAll]
      simp only [hr]
      let c : Backend := { b with sessions := (b.sessions.teleport r b.registry.worlds).2 }
      exact ih (b := c) hrelay rs htail

end receipt

end Backend

section crossing

variable {S T : Backend} {R : Relay} {x : Session} {id : Uuid} {p : Portal}
  {source target relay : Address} {server : String}

/-- Two servers that are registered at one relay, each at its own address. -/
structure Linked (S T : Backend) (R : Relay) (source target relay : Address) : Prop where
  source_relay : S.relay = some relay
  target_relay : T.relay = some relay
  source_name : R.directory.nameAt? source = some S.settings.name
  target_addr : R.directory.addressOf? T.settings.name = some target
  distinct : source ≠ target

/-- A player in the window of one portal alone, which leads to another server and outlasts the next
tick. -/
structure Backend.Leaving (S : Backend) (x : Session) (id : Uuid) (p : Portal) (server : String) :
    Prop where
  live : S.sessions.session? x.handle = some x
  ready : x.cooldown = 0
  enclosed : S.registry.EnclosedBy x.avatar id p
  kept : (S.tick.1.registry.get? id).isSome
  relocates : p.relocatesPlayers = true
  server : p.dest.position.server = some server
  not_last : p.dest.position.lastPlayer = false

/-- What the server sends for the player. -/
theorem Backend.Leaving.passage_eq (h : S.Leaving x id p server) (hrelay : S.relay = some relay) :
    S.passage x =
      [.send relay (.forward server (.teleport ((p.outline S.registry.worlds).request x))),
        .send relay (.switchServer x.player server), .send x.addr (.transfer server)] := by
  obtain ⟨q, hq, houtline⟩ := h.enclosed.entered? tick_within h.kept
  have hdest : q.dest.position = p.dest.position := congrArg Outline.dest houtline
  rw [← houtline]
  refine passage_away h.ready hq ?_ ?_ ?_ hrelay
  · exact (congrArg Outline.relocatesPlayers houtline).trans h.relocates
  · rw [hdest, h.server]
  · rw [hdest, h.not_last]

/-- Of all that the server sends to the relay only one teleport is for the player. -/
theorem Backend.Leaving.requests_eq (h : S.Leaving x id p T.settings.name)
    (hs : S.sessions.Consistent) (hlink : Linked S T R source target relay) :
    ((packetsFor (S.tick.1.letters S.tick.2) relay).flatMap
      (R.directory.requestsFor target)).filter (·.player = x.player) =
        [(p.outline S.registry.worlds).request x] := by
  obtain ⟨l₁, l₂, hout, hothers⟩ := tick_split hs h.live
  have hl₁ := fun y hy => hothers y (List.mem_append_left _ hy)
  have hl₂ := fun y hy => hothers y (List.mem_append_right _ hy)
  have hx : (packetsFor (S.tick.1.letters (S.passage x)) relay).flatMap
      (R.directory.requestsFor target) = [(p.outline S.registry.worlds).request x] := by
    rw [h.passage_eq hlink.source_relay]
    change (packetsFor [(relay, _), (relay, _), (x.addr, _)] relay).flatMap _ = _
    unfold packetsFor
    by_cases haddr : x.addr = relay <;>
      simp [haddr, Directory.requestsFor, hlink.target_addr]
  rw [hout, letters_append, letters_append, packetsFor_append, packetsFor_append,
    List.flatMap_append, List.flatMap_append, List.filter_append, List.filter_append,
    requests_of_others _ _ hl₁, requests_of_others _ _ hl₂, hx, List.nil_append, List.append_nil]
  exact List.filter_eq_self.2 (by simp [Outline.request, TeleportRequest.ofMotion])

/-- The relay posts the teleports of a tick and nothing else to the other server. -/
theorem Linked.posted_eq (hlink : Linked S T R source target relay) (hs : S.sessions.Consistent)
    {sent : List (Packet × Nat)}
    (hsent : sent.map Prod.fst = packetsFor (S.tick.1.letters S.tick.2) relay) :
    packetsFor (R.receiveAll source sent).2 target =
      ((packetsFor (S.tick.1.letters S.tick.2) relay).flatMap
        (R.directory.requestsFor target)).map (.deliver S.settings.name <| .teleport ·) := by
  rw [← hsent]
  refine Relay.receiveAll_announced hlink.source_name hlink.distinct sent ?_
  intro packet hpacket
  rw [hsent, Backend.tick_out hs.handle_eq] at hpacket
  obtain ⟨y, -, hy⟩ := Backend.announces_of_mem_packetsFor hpacket
  exact ⟨_, hy⟩

end crossing

section arrival

variable {b : Backend} {addr : Address} {fresh : Nat → Uuid} {source : String}
  {rs : List TeleportRequest} {r : TeleportRequest} {p : Uuid} {got : List (Packet × Nat)}

/-- A connected player is moved by the one request that is for them. -/
theorem Backend.receiveAll_online (hs : b.sessions.Consistent) (hrelay : b.relay = some addr)
    (hgot : got.map Prod.fst = rs.map (.deliver source <| .teleport ·))
    (hrs : rs.filter (·.player = p) = [r]) {y : Session} (hy : b.sessions.byPlayer? p = some y) :
    ∃ y', (b.receiveAll addr fresh got).1.sessions.byPlayer? p = some y' ∧
      y'.avatar = y.avatar.teleported r b.registry.worlds := by
  obtain ⟨-, hpresence⟩ := hs.run_teleports (p := p) b.registry.worlds rs
  rw [hrs, Store.presence_of_some hy] at hpresence
  obtain ⟨y', hy', havatar, -⟩ := Store.byPlayer?_of_here hpresence
  rw [receiveAll_teleports hrelay rs got hgot]
  exact ⟨y', hy', havatar⟩

/-- For anyone else it waits. -/
theorem Backend.receiveAll_offline (hs : b.sessions.Consistent) (hrelay : b.relay = some addr)
    (fresh : Nat → Uuid) (hgot : got.map Prod.fst = rs.map (.deliver source <| .teleport ·))
    (hrs : rs.filter (·.player = p) = [r]) (hp : b.sessions.byPlayer? p = none) :
    (b.receiveAll addr fresh got).1.sessions.Awaits p r := by
  obtain ⟨hrun, hpresence⟩ := hs.run_teleports (p := p) b.registry.worlds rs
  rw [hrs, Store.presence_of_none hp] at hpresence
  rw [receiveAll_teleports hrelay rs got hgot]
  exact hrun.awaits hpresence

end arrival

/-- Whoever goes through a portal to another server is announced there, once, and arrives with the
motion that the two windows give them: at once if they are connected there, and else when they
join next, if no further teleport for them comes first. They arrive in the world of the given name
or else where they are or would have started. -/
theorem crossing {S T : Backend} {R : Relay} {x : Session} {id : Uuid} {p : Portal}
    {source target relay : Address} (hS : S.sessions.Reachable) (hT : T.sessions.Reachable)
    (hlink : Linked S T R source target relay) (hx : S.Leaving x id p T.settings.name) :
    let motion := p.origin.position.frame.carry p.dest.position.frame x.avatar.motion
    let name := p.dest.position.worldName.getD ""
    let request := TeleportRequest.ofMotion x.player none name motion
    (∃ before after, S.tick.2 = before ++
      [.send relay (.forward T.settings.name (.teleport request)),
        .send relay (.switchServer x.player T.settings.name),
        .send x.addr (.transfer T.settings.name)] ++ after) ∧
    ∀ sent, sent.map Prod.fst = packetsFor (S.tick.1.letters S.tick.2) relay →
      let posted := packetsFor (R.receiveAll source sent).2 target
      posted.filter (·.teleports x.player) = [.deliver S.settings.name (.teleport request)] ∧
      ∀ got fresh, got.map Prod.fst = posted →
        let T' := (T.receiveAll relay fresh got).1
        (∀ y, T.sessions.byPlayer? x.player = some y →
          ∃ y', T'.sessions.byPlayer? x.player = some y' ∧
            y'.avatar = ⟨(T.registry.worlds.byName? name).getD y.avatar.world, motion⟩) ∧
        (T.sessions.byPlayer? x.player = none → ∀ steps, T'.StaysAway x.player steps →
          ∀ version addr now fresh,
            let U := T'.run steps
            let answer := U.receive (.join version x.player) addr now fresh
            answer.1.sessions.handleOf? x.player ≠ none →
            answer.2 = [.send addr (.joined ((U.registry.worlds.byName? name).getD
              ((U.sessions.lastPlaces.get? x.player).getD U.spawn).world).name motion)]) := by
  intro motion name request
  have hS := hS.consistent
  have hT := hT.consistent
  have hrequest : (p.outline S.registry.worlds).request x = request := rfl
  have hworld : ∀ ws : Worlds, ws.resolve? none (some name) = ws.byName? name := fun _ => rfl
  obtain ⟨l₁, l₂, hout, -⟩ := Backend.tick_split hS hx.live
  refine ⟨⟨_, _, hx.passage_eq hlink.source_relay ▸ hout⟩, ?_⟩
  intro sent hsent posted
  have hposted := hlink.posted_eq hS hsent
  have hrequests := hx.requests_eq hS hlink
  constructor
  · rw [show posted = _ from hposted, List.filter_map]
    exact congrArg (List.map _) hrequests
  · intro got fresh hgot T'
    have hgot := hgot.trans hposted
    constructor
    · intro y hy
      exact Backend.receiveAll_online hT hlink.target_relay hgot hrequests hy
    · intro hy steps hsteps version addr now fresh' U answer hin
      have hawaits := Backend.receiveAll_offline hT hlink.target_relay fresh hgot hrequests hy
      exact Backend.receive_join (Backend.awaits_run hawaits hsteps) hin

namespace Sample

def sourceAddress : Address := ⟨.v4 (.replicate 4 127), 1⟩

def targetAddress : Address := ⟨.v4 (.replicate 4 127), 2⟩

def relayAddress : Address := ⟨.v4 (.replicate 4 127), 3⟩

def portal : Portal where
  id := ⟨.replicate 16 4⟩
  origin := { position := .ofLocation ⟨world, origin⟩ .north }
  dest := { position := .external ⟨origin, .east⟩ "target" "nether" false }
  size := ⟨(2 : Int), (3 : Int)⟩
  isCustom := true

def relay : Relay where
  directory :=
    ((({} : Directory).register "source" sourceAddress 0).2.register "target" targetAddress 0).2

/-- A server with the player in the window of the portal. -/
def source : Backend where
  settings := { name := "source" }
  relay := some relayAddress
  sessions := (Store.empty 1).run [.connect player address avatar {} 0]
  registry := Registry.register { worlds := Worlds.load {} world } portal
  spawnWorld := world

def target : Backend where
  settings := { name := "target" }
  relay := some relayAddress
  sessions := .empty 1
  registry := { worlds }
  spawnWorld := world

end Sample

open Sample in
/-- The player of the sample joins the other server and appears in the nether. -/
theorem crossing_answered :
    let sent := (packetsFor (source.tick.1.letters source.tick.2) relayAddress).map (·, 0)
    let posted := packetsFor (relay.receiveAll sourceAddress sent).2 targetAddress
    let there := (target.receiveAll relayAddress (fun _ => player) (posted.map (·, 0))).1
    (there.receive (.join protocolVersion player) address 0 fun _ => player).2 =
      [.send address (.joined "nether"
        (portal.origin.position.frame.carry portal.dest.position.frame avatar.motion))] := by
  intro sent posted there
  let x : Session := { handle := 1, player, addr := address, avatar, lastSeen := 0 }
  have hsource : source.sessions.Reachable := ⟨1, _, by decide, rfl⟩
  have htarget : target.sessions.Reachable := ⟨1, [], by decide, rfl⟩
  have hlink : Linked source target relay sourceAddress targetAddress relayAddress := by
    constructor <;> decide
  have hx : source.Leaving x portal.id portal target.settings.name := by
    constructor
    · rfl
    · rfl
    · constructor
      · rfl
      · exact ⟨⟨world, rfl, rfl⟩, by decide +kernel⟩
      · intro k q hq _
        have hq : (Table.insert ∅ portal.id portal).get? k = some q := hq
        rw [Table.get?_insert] at hq
        split at hq
        · exact Eq.symm ‹_›
        · cases hq
    · decide +kernel
    · rfl
    · rfl
    · rfl
  obtain ⟨-, h⟩ := crossing hsource htarget hlink hx
  have hat : ∀ l : List Packet, (l.map (·, 0)).map Prod.fst = l := by
    intro l
    simp [Function.comp_def]
  obtain ⟨-, h⟩ := h sent (hat _)
  obtain ⟨-, h⟩ := h (posted.map (·, 0)) (fun _ => player) (hat posted)
  have h := h (by decide) [] trivial protocolVersion address 0 (fun _ => player)
    (by decide +kernel)
  exact h.trans (by decide +kernel)

end PortalNet
