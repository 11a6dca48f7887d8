import PortalNet.Proofs.Backend.Selected
import PortalNet.Proofs.Command
import PortalNet.Proofs.Session.Addresses

/-! # What players can do to each other

No two players share an address, so a packet that is not from the relay is from one player or from
somebody who is not connected. It can change the session of whoever sends it and that of a player
who joins by it, and no other. Nobody can forge what other servers send.
-/

namespace PortalNet

def Packet.Joins (packet : Packet) (p : Uuid) : Prop :=
  ∃ version, packet = .join version p

/-- What the player of a session may make of it by a packet. -/
structure Session.Steered (x : Session) (packet : Packet) (now : Nat) (y : Session) : Prop where
  handle : y.handle = x.handle
  player : y.player = x.player
  addr : y.addr = x.addr
  external : y.selections.external = x.selections.external
  avatar : y.avatar = x.avatar ∨
    ∃ motion, packet = .move motion ∧ y.avatar = ⟨x.avatar.world, motion⟩
  lastSeen : y.lastSeen = now

theorem Session.steered_obey (x : Session) (command : Command) (now : Nat) :
    x.Steered (.command command) now ((x.touch now).obey command) := by
  have hown := (x.touch now).own_obey command
  exact ⟨hown.handle, hown.player, hown.addr, external_obey, .inl hown.avatar, hown.lastSeen⟩

namespace Backend

/-- What a packet from an address that is not the relay's may leave of the sessions. -/
structure Isolated (b : Backend) (packet : Packet) (addr : Address) (now : Nat) (t : Store) :
    Prop where
  teleports : ∀ p, t.pendingTeleports.get? p = b.sessions.pendingTeleports.get? p ∨
    packet.Joins p ∧ t.pendingTeleports.get? p = none
  selections : ∀ p, t.pendingSelections.get? p = b.sessions.pendingSelections.get? p ∨
    packet.Joins p ∧ t.pendingSelections.get? p = none
  others : ∀ h x, b.sessions.session? h = some x → x.addr ≠ addr → ¬ packet.Joins x.player →
    t.session? h = some x
  /-- Of what was kept for players, whoever joins takes along their own. -/
  sessions : ∀ h y, t.session? h = some y →
    b.sessions.session? h = some y ∨
    (∃ x, b.sessions.session? h = some x ∧ x.addr = addr ∧ x.Steered packet now y) ∨
    (b.sessions.session? h = none ∧ packet.Joins y.player ∧ y.addr = addr ∧
      (b.sessions.presence y.player).step (.join b.spawn b.registry.worlds) =
        .here y.avatar y.selections)

/-- How a request to join is met. -/
inductive Meets (b : Backend) (version : UInt32) (p : Uuid) (addr : Address)
    (out : Backend × List Outgoing) : Prop where
  | outdated (reason : String) : version ≠ protocolVersion →
      out = (b, [.send addr (.disconnected reason)]) → Meets b version p addr out
  | full (reason : String) : version = protocolVersion → b.sessions.byAddress? addr = none →
      b.sessions.byPlayer? p = none → b.sessions.capacity ≤ b.sessions.sessions.size →
      out = (b, [.send addr (.disconnected reason)]) → Meets b version p addr out
  | admitted (y : Session) : version = protocolVersion →
      out.1.sessions.byPlayer? p = some y → y.player = p → y.addr = addr →
      out.2 = [.send addr (.joined y.avatar.world.name y.avatar.motion)] →
      Meets b version p addr out

section addresses

variable {b : Backend} {packet : Packet} {addr : Address} {now : Nat} {h : Handle} {x : Session}
  {e : StoreEvent} {step : BackendStep} {α : Type} {part : Session → α}

theorem session?_vacate_iff (hb : b.sessions.Addressed) :
    (b.vacate addr).session? h = some x ↔ b.sessions.session? h = some x ∧ x.addr ≠ addr := by
  unfold vacate
  split
  · next k hk =>
    obtain ⟨y, hy, rfl⟩ := hb.byAddress?_eq_some_iff.1 hk
    rw [Store.session?_disconnect]
    constructor
    · intro hx
      split at hx
      · cases hx
      · next hne => exact ⟨hx, fun ha => hne (hb.inj h k x y hx hy ha)⟩
    · rintro ⟨hx, ha⟩
      rw [if_neg, hx]
      rintro rfl
      exact ha (congrArg Session.addr (Option.some.inj (hx.symm.trans hy)))
  · next hno =>
    rw [iff_self_and]
    exact hb.byAddress?_eq_none_iff.1 hno h x

theorem narrows_vacate : b.sessions.Narrows part (b.vacate addr) := by
  unfold vacate
  split
  · exact .disconnect
  · exact .refl

theorem keeps_of_mem_relayEvents (hteleport : ∀ r ws, (StoreEvent.teleport r ws).Keeps part)
    (hmirror : ∀ m, (StoreEvent.mirror m).Keeps part) (he : e ∈ b.relayEvents packet) :
    e.Keeps part := by
  unfold relayEvents at he
  split at he
  all_goals first
    | obtain rfl := List.mem_singleton.1 he
    | cases he
  · exact hteleport _ _
  · exact hmirror _
  · exact hmirror _

theorem keeps_seat_of_mem_playerEvents (hjoin : ∀ p, ¬ packet.Joins p)
    (he : e ∈ b.playerEvents packet addr now) : e.Keeps Session.seat := by
  unfold playerEvents at he
  split at he
  · next version player => exact absurd ⟨version, rfl⟩ (hjoin player)
  · split at he
    · cases he
    · split at he
      all_goals first
        | obtain rfl := List.mem_singleton.1 he
        | cases he
      · exact StoreEvent.keeps_modify fun _ => rfl
      · exact StoreEvent.keeps_modify fun x =>
          congrArg (x.handle, ·) ((x.touch now).own_obey _).addr
      · exact StoreEvent.keeps_modify fun _ => rfl
      · trivial

theorem keeps_tick (hpart : ∀ x r cooldown, part (x.traverse r cooldown).1 = part x) :
    ∀ e ∈ b.events .tick, e.Keeps part := by
  intro e he
  obtain rfl := List.mem_singleton.1 he
  intro h x
  obtain ⟨hh, hp⟩ := Session.kept_traverse b.tick.1.registry b.settings.cooldown x
  simp only [Session.become, ← hh, ← hp]
  exact hpart x _ _

theorem addressed_join (hb : b.sessions.Addressed) (version : UInt32) (p : Uuid) (addr : Address)
    (now : Nat) : (b.join version p addr now).1.sessions.Addressed := by
  by_cases hversion : version = protocolVersion
  · subst hversion
    rw [join_sessions]
    exact (hb.narrow narrows_vacate).connect fun h y hy => ((session?_vacate_iff hb).1 hy).2
  · unfold join
    rw [if_pos hversion]
    exact hb

theorem addressed_after (hb : b.sessions.Addressed) (step : BackendStep) :
    (b.after step).sessions.Addressed := by
  rw [sessions_after]
  cases step with
  | host worlds => exact hb
  | tick =>
    exact hb.narrow <| .run <| keeps_tick fun _ _ _ =>
      Prod.ext Session.passed_traverse.handle Session.passed_traverse.addr
  | handle event now fresh =>
    cases event with
    | shutdown => exact hb
    | playerTimeout handle => exact hb.narrow .disconnect
    | packet packet addr =>
      simp only [events]
      split
      · exact hb.narrow <| .run fun e he =>
          keeps_of_mem_relayEvents (fun _ _ _ => rfl) (fun _ _ => rfl) he
      · by_cases hjoin : ∃ p, packet.Joins p
        · obtain ⟨p, version, rfl⟩ := hjoin
          rw [← @receiveFromPlayer_sessions b _ addr now fresh]
          exact addressed_join hb version p addr now
        · exact hb.narrow <| .run fun e he =>
            keeps_seat_of_mem_playerEvents (fun p hp => hjoin ⟨p, hp⟩) he

theorem addressed_run (hb : b.sessions.Addressed) (steps : List BackendStep) :
    (b.run steps).sessions.Addressed := by
  induction steps generalizing b with
  | nil => exact hb
  | cons step steps ih => exact ih (addressed_after hb step)

end addresses

section isolation

variable {b : Backend} {packet : Packet} {addr : Address} {now : Nat} {fresh : Nat → Uuid}
  {h : Handle} {x : Session} {p : Uuid}

theorem isolated_self : b.Isolated packet addr now b.sessions :=
  ⟨fun _ => .inl rfl, fun _ => .inl rfl, fun _ _ hx _ _ => hx, fun _ _ hy => .inl hy⟩

theorem isolated_modify {f : Session → Session} (hx : b.sessions.session? h = some x)
    (haddr : x.addr = addr) (hf : x.Steered packet now (f x)) :
    b.Isolated packet addr now (b.sessions.modify h f) := by
  have hget : ∀ k, (b.sessions.modify h f).session? k =
      if k = h then (b.sessions.session? k).map f else b.sessions.session? k :=
    fun k => Table.get?_modify
  refine ⟨fun _ => .inl rfl, fun _ => .inl rfl, fun k y hy hne _ => ?_, fun k y hy => ?_⟩
  · rw [hget, if_neg, hy]
    rintro rfl
    exact hne (Option.some.inj (hx.symm.trans hy) ▸ haddr)
  · rw [hget] at hy
    split at hy
    · next hk =>
      rw [hk, hx] at hy
      obtain rfl := Option.some.inj hy
      exact .inr (.inl ⟨x, hk ▸ hx, haddr, hf⟩)
    · exact .inl hy

theorem isolated_steered {f : Session → Session} (hx : b.sessions.session? h = some x)
    (haddr : x.addr = addr) (hf : ∀ y : Session, y.Steered packet now (f y)) :
    b.Isolated packet addr now (b.sessions.run [.modify h f]) := by
  have hkept : Session.Kept f := fun y => ⟨(hf y).handle, (hf y).player⟩
  rw [Store.run_cons, Store.after_modify hkept]
  exact isolated_modify hx haddr (hf x)

theorem isolated_disconnect (hx : b.sessions.session? h = some x) (haddr : x.addr = addr) :
    b.Isolated packet addr now (b.sessions.disconnect h).2 := by
  have hunclaimed : b.sessions.Unclaimed (b.sessions.disconnect h).2 := Store.unclaimed_disconnect
  refine ⟨fun _ => .inl ?_, fun _ => .inl ?_, fun k y hy hne _ => ?_, fun k y hy => .inl ?_⟩
  · rw [hunclaimed.pendingTeleports]
  · rw [hunclaimed.pendingSelections]
  · rw [Store.session?_disconnect, if_neg, hy]
    rintro rfl
    exact hne (Option.some.inj (hx.symm.trans hy) ▸ haddr)
  · rw [Store.session?_disconnect] at hy
    split at hy
    · cases hy
    · exact hy

theorem consistent_vacate (hs : b.sessions.Consistent) : (b.vacate addr).Consistent := by
  unfold vacate
  split
  · exact hs.after (e := .disconnect _) rfl
  · exact hs

/-- Whoever is replaced by their own join goes on as if they had not been. -/
theorem step_join_vacate (hs : b.sessions.Consistent) {spawn : Avatar} {ws : Worlds} :
    ((b.vacate addr).presence p).step (.join spawn ws) =
      (b.sessions.presence p).step (.join spawn ws) := by
  unfold vacate
  split
  · next k hk =>
    have hafter := hs.presence_after (.disconnect k) p
    rw [Store.after, Store.heardOf] at hafter
    rw [hafter]
    cases hx : b.sessions.session? k with
    | none => rfl
    | some x =>
      by_cases hp : x.player = p
      · rw [Option.bind_some, if_pos hp]
        exact Presence.step_leave_join
      · rw [Option.bind_some, if_neg hp]
        rfl
  · rfl

theorem unclaimed_vacate : b.sessions.Unclaimed (b.vacate addr) := by
  unfold vacate
  split
  · exact Store.unclaimed_disconnect
  · exact .refl

theorem isolated_vacate (hb : b.sessions.Addressed) :
    b.Isolated packet addr now (b.vacate addr) := by
  unfold vacate
  split
  · next k hk =>
    obtain ⟨x, hx, haddr⟩ := hb.byAddress?_eq_some_iff.1 hk
    exact isolated_disconnect hx haddr
  · exact isolated_self

theorem isolated_accept {t : Store} (hs : b.sessions.Consistent) (ht : t.Consistent)
    (hunclaimed : b.sessions.Unclaimed t) (hx : x.handle = t.nextHandle) (haddr : x.addr = addr)
    (hget : ∀ k y, t.session? k = some y ↔
      b.sessions.session? k = some y ∧ y.addr ≠ addr ∧ y.player ≠ x.player)
    (hjoins : packet.Joins x.player)
    (hpresence : (b.sessions.presence x.player).step (.join b.spawn b.registry.worlds) =
      .here x.avatar x.selections) : b.Isolated packet addr now (t.accept x) := by
  have herase : ∀ {α : Type} (u : Table Uuid α) (p : Uuid), (u.erase x.player).get? p = u.get? p ∨
      packet.Joins p ∧ (u.erase x.player).get? p = none := by
    intro α u p
    rw [Table.get?_erase]
    split
    · next hp => exact .inr ⟨hp ▸ hjoins, rfl⟩
    · exact .inl rfl
  refine ⟨fun p => ?_, fun p => ?_, fun k y hy hne hno => ?_, fun k y hy => ?_⟩
  · rw [← hunclaimed.pendingTeleports]
    exact herase t.pendingTeleports p
  · rw [← hunclaimed.pendingSelections]
    exact herase t.pendingSelections p
  · have hold := (hget k y).2 ⟨hy, hne, fun hp => hno (hp ▸ hjoins)⟩
    rw [Store.session?_accept, if_neg, hold]
    rintro rfl
    rw [hx, ht.session?_next] at hold
    cases hold
  · rcases Store.session?_of_accept hy with ⟨rfl, rfl⟩ | ⟨-, hold⟩
    · refine .inr (.inr ⟨?_, hjoins, haddr, hpresence⟩)
      rw [hx, hunclaimed.nextHandle, hs.session?_next]
    · exact .inl ((hget k y).1 hold).1

/-- To join is to take the place of whoever is at the address, and of oneself. -/
theorem isolated_connect (hb : b.sessions.Addressed) (hs : b.sessions.Consistent)
    (hjoins : packet.Joins p) :
    b.Isolated packet addr now
      ((b.vacate addr).connect p addr b.spawn b.registry.worlds now).2 := by
  have hv : (b.vacate addr).Consistent := consistent_vacate hs
  rcases hv.connect_cases p addr b.spawn b.registry.worlds now with ⟨-, -, h⟩ | ⟨-, a, -, h⟩
  · rw [h]
    exact isolated_vacate hb
  · have hpresence := @Store.Consistent.step_join _ p addr b.spawn b.registry.worlds now
      (hv.leave p) (hv.handleOf?_leave p)
    rw [hv.presence_leave, if_pos rfl, Presence.step_leave_join, step_join_vacate hs] at hpresence
    have hopening := @Store.opening_eq ((b.vacate addr).leave p) p addr b.spawn b.registry.worlds
      now
    have hp := congrArg Session.player hopening
    have hget : ∀ k y, ((b.vacate addr).leave p).session? k = some y ↔
        b.sessions.session? k = some y ∧ y.addr ≠ addr ∧ y.player ≠ p := fun k y => by
      rw [hv.session?_leave_iff, session?_vacate_iff hb, and_assoc]
    rw [h]
    refine isolated_accept hs (hv.leave p) (unclaimed_vacate.trans Store.unclaimed_leave)
      (congrArg Session.handle hopening) (congrArg Session.addr hopening) ?_ ?_ ?_ <;> rw [hp]
    · exact hget
    · exact hjoins
    · exact hpresence

theorem isolated_receiveFromPlayer (hb : b.sessions.Addressed)
    (hs : ∀ p, packet.Joins p → b.sessions.Consistent) :
    b.Isolated packet addr now (b.receiveFromPlayer packet addr now fresh).1.sessions := by
  rw [receiveFromPlayer_sessions]
  unfold playerEvents
  split
  · next version p =>
    split
    · exact isolated_self
    · rw [Store.run_append, ← vacate_eq_run]
      exact isolated_connect hb (hs p ⟨version, rfl⟩) ⟨version, rfl⟩
  · split
    · exact isolated_self
    · next h hh =>
      obtain ⟨x, hx, haddr⟩ := hb.byAddress?_eq_some_iff.1 hh
      split
      · exact isolated_steered hx haddr fun _ => ⟨rfl, rfl, rfl, rfl, .inr ⟨_, rfl, rfl⟩, rfl⟩
      · exact isolated_steered hx haddr fun y => y.steered_obey _ now
      · exact isolated_steered hx haddr fun _ => ⟨rfl, rfl, rfl, rfl, .inl rfl, rfl⟩
      · exact isolated_disconnect hx haddr
      · exact isolated_self

theorem relayLinked_receiveFromPlayer :
    (b.receiveFromPlayer packet addr now fresh).1.relayLinked = b.relayLinked := by
  unfold receiveFromPlayer
  split
  · unfold join
    split
    · rfl
    · split <;> rfl
  · split
    · rfl
    · split
      · rfl
      · simp only [runCommand]
        split <;> rfl
      · rfl
      · rfl
      · rfl

/-- Whoever is refused changes nothing by it. -/
theorem meets_join (hb : b.sessions.Addressed) (version : UInt32) (p : Uuid) (addr : Address)
    (now : Nat) : b.Meets version p addr (b.join version p addr now) := by
  by_cases hversion : version = protocolVersion
  · subst hversion
    have hv : (b.vacate addr).Addressed := hb.narrow narrows_vacate
    cases hc : ((b.vacate addr).connect p addr b.spawn b.registry.worlds now).1 with
    | none =>
      obtain ⟨hp, hfull, hconnect⟩ := hv.connect_of_none hc
      have hno : b.sessions.byAddress? addr = none := by
        -- whoever was replaced has left room
        cases hh : b.sessions.byAddress? addr with
        | none => rfl
        | some h =>
          obtain ⟨x, hx, -⟩ := hb.byAddress?_eq_some_iff.1 hh
          have hcapacity := (@narrows_vacate b addr _ Session.seat).capacity
          have hsize := Store.size_disconnect hx
          have hle := hb.size_le
          simp only [vacate, hh] at hfull hcapacity
          omega
      have hvacate : b.vacate addr = b.sessions := by simp only [vacate, hno]
      rw [hvacate] at hp hfull hconnect
      refine .full "Server full" rfl hno hp hfull ?_
      simp only [join, ne_eq, not_true_eq_false, if_false, hvacate, hconnect]
    | some a =>
      obtain ⟨y, hy, hp, ha, havatar⟩ := Store.byPlayer?_of_connect hc
      refine .admitted y rfl ?_ hp ha ?_
      · rw [join_sessions, hy]
      · rw [join_out hc, havatar]
  · exact .outdated _ hversion (if_pos hversion)

end isolation

/-- At any moment of any run nobody shares an address with anybody, and whatever is not from the
relay leaves everybody else alone. Only to let somebody in the handles must not have overflowed. -/
theorem run_isolated {settings : Settings} {relay : Option Address} {file : Option String}
    {supply : Nat → Uuid} {b₀ : Backend} (hstart : start settings relay file supply = .ok b₀)
    (steps : List BackendStep) :
    let b := b₀.run steps
    (∀ h k x y, b.sessions.session? h = some x → b.sessions.session? k = some y →
      x.addr = y.addr → h = k) ∧
    (∀ addr h, b.sessions.byAddress? addr = some h ↔
      ∃ x, b.sessions.session? h = some x ∧ x.addr = addr) ∧
    ∀ packet addr now fresh, b.relay ≠ some addr →
      let out := b.receive packet addr now fresh
      out.1.relayLinked = b.relayLinked ∧
      (∀ version p, packet = .join version p → b.Meets version p addr out) ∧
      ((∀ p, packet.Joins p → b₀.sessions.opened (b₀.history steps) < Store.handleLimit) →
        b.Isolated packet addr now out.1.sessions) := by
  intro b
  have hempty := start_sessions hstart
  have hb : b.sessions.Addressed := addressed_run (hempty ▸ .empty _) steps
  refine ⟨hb.inj, fun addr h => hb.byAddress?_eq_some_iff, ?_⟩
  intro packet addr now fresh hrelay out
  have hout : out = b.receiveFromPlayer packet addr now fresh := if_neg hrelay
  rw [hout]
  refine ⟨relayLinked_receiveFromPlayer, ?_, fun hn => isolated_receiveFromPlayer hb fun p hp => ?_⟩
  · rintro version p rfl
    exact meets_join hb version p addr now
  · have hn := hn p hp
    rw [hempty] at hn
    refine consistent_run (hempty ▸ .empty _) ?_
    rw [hempty]
    exact Store.lasts_empty hn

end Backend

namespace Sample

def supply (i : Nat) : Uuid :=
  ⟨.replicate 16 (.ofNat i)⟩

/-- A server without a relay that has just started. -/
def host : Backend where
  settings := {}
  relay := none
  sessions := .empty 64
  registry := { worlds := (Worlds.load {} ⟨supply 0, "world"⟩).load ⟨supply 1, "world_nether"⟩ }
  spawnWorld := ⟨supply 0, "world"⟩

theorem start_host : Backend.start {} none none supply = .ok host := rfl

end Sample

open Sample in
/-- Somebody else joins from the address of the player. -/
theorem Backend.isolated_from_newcomer :
    let b := host.run [.handle (.packet (.join protocolVersion player) address) 0 supply]
    let out := b.receive (.join protocolVersion (supply 7)) address 1 supply
    (b.sessions.byAddress? address).isSome ∧
      b.Meets protocolVersion (supply 7) address out ∧
      b.Isolated (.join protocolVersion (supply 7)) address 1 out.1.sessions := by
  intro b out
  obtain ⟨-, -, h⟩ := Backend.run_isolated start_host
    [.handle (.packet (.join protocolVersion player) address) 0 supply]
  obtain ⟨-, hmeets, hisolated⟩ :=
    h (.join protocolVersion (supply 7)) address 1 supply (by decide)
  exact ⟨by decide +kernel, hmeets _ _ rfl, hisolated fun _ _ => by decide +kernel⟩

end PortalNet
