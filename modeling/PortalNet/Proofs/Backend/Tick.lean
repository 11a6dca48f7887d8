import PortalNet.Proofs.Delivery
import PortalNet.Proofs.Session.Consistency
import PortalNet.Proofs.Traversal

/-! # What a tick sends

A tick takes every player through the portals once, and sends what their passages call for, player
by player.
-/

namespace PortalNet

namespace Backend

variable {b : Backend} {x : Session}

/-- What a tick sends for one player. -/
def passage (b : Backend) (x : Session) : List Outgoing :=
  (x.traverse b.tick.1.registry b.settings.cooldown).2.toList.flatMap (b.announce x)

theorem tick_within : b.tick.1.registry.Within b.registry :=
  .of_steps (Registry.steps_observe.trans Registry.steps_update)

theorem tick_sessions :
    b.tick.1.sessions = b.sessions.revise fun _ x =>
      (x.traverse b.tick.1.registry b.settings.cooldown).1 :=
  Store.traverse_fst

theorem session?_tick (hx : b.sessions.session? x.handle = some x) :
    ∃ t, b.tick.1.sessions.session? x.handle = some t ∧ t.player = x.player ∧ t.addr = x.addr := by
  rw [tick_sessions, Store.session?_revise, hx]
  exact ⟨_, rfl, rfl, Session.passed_traverse.addr⟩

theorem announce_congr {s t : Session} (hp : t.player = s.player) (ha : t.addr = s.addr)
    (j : Journey) : b.announce t j = b.announce s j := by
  cases j <;> simp only [announce, hp, ha]

theorem tick_out (hs : ∀ h x, b.sessions.session? h = some x → x.handle = h) :
    b.tick.2 = b.sessions.sessions.values.flatMap b.passage := by
  -- a tick looks the traveller up again for each journey: `post` is what it then sends
  have hl : ∀ post : Journey → List Outgoing,
      (∀ j t, b.tick.1.sessions.session? j.handle = some t → post j = b.tick.1.announce t j) →
      ∀ l : List Session, (∀ x ∈ l, b.sessions.session? x.handle = some x) →
      (l.filterMap fun x => (x.traverse b.tick.1.registry b.settings.cooldown).2).flatMap post =
        l.flatMap b.passage := by
    intro post hpost l hl
    induction l with
    | nil => rfl
    | cons x l ih =>
      have ih := ih fun y hy => hl y (List.mem_cons_of_mem _ hy)
      simp only [List.flatMap_cons, ← ih, passage, List.filterMap_cons]
      cases hj : (x.traverse b.tick.1.registry b.settings.cooldown).2 with
      | none => rfl
      | some j =>
        obtain ⟨t, ht, hp, ha⟩ := session?_tick (hl x List.mem_cons_self)
        rw [← Session.passed_traverse.journey j hj] at ht
        simp only [List.flatMap_cons, hpost j t ht, Option.toList_some, List.flatMap_nil,
          List.append_nil]
        exact congrArg (· ++ _) (announce_congr hp ha j)
  apply hl
  · intro j t ht
    split
    · next s hsome =>
      cases hsome.symm.trans ht
      rfl
    · next hnone => cases hnone.symm.trans ht
  · intro x hx
    obtain ⟨h, hx⟩ := Table.mem_values_iff.1 hx
    rwa [hs h x hx]

/-- What is sent for one player stands in one piece between what is sent for others. -/
theorem tick_split (hs : b.sessions.Consistent) (hx : b.sessions.session? x.handle = some x) :
    ∃ l₁ l₂ : List Session, b.tick.2 = l₁.flatMap b.passage ++ b.passage x ++ l₂.flatMap b.passage ∧
      ∀ y ∈ l₁ ++ l₂, y.player ≠ x.player := by
  obtain ⟨l₁, l₂, hvalues, hothers⟩ := Table.values_of_get? hx
  refine ⟨l₁, l₂, ?_, ?_⟩
  · rw [tick_out hs.handle_eq, hvalues, List.flatMap_append, List.flatMap_cons, List.append_assoc]
  · intro y hy hp
    obtain ⟨k, hk, hy⟩ := hothers y hy
    exact hk (hs.handle_unique hy hx hp)

theorem passage_away {p : Portal} {relay : Address} {server : String}
    (hcool : x.cooldown = 0) (he : b.tick.1.registry.entered? x.avatar = some p)
    (hmoves : p.relocatesPlayers = true) (hserver : p.dest.position.server = some server)
    (hlast : p.dest.position.lastPlayer = false) (hrelay : b.relay = some relay) :
    b.passage x =
      [.send relay (.forward server (.teleport ((p.outline b.tick.1.registry.worlds).request x))),
        .send relay (.switchServer x.player server), .send x.addr (.transfer server)] := by
  rw [passage, Session.traverse_away hcool he hmoves hserver hlast]
  simp only [Option.toList_some, List.flatMap_cons, List.flatMap_nil, announce, hrelay]
  rfl

theorem mem_passage {o : Outgoing} (ho : o ∈ b.passage x) :
    ∃ addr packet, o = .send addr packet ∧ packet.Announces x.player := by
  obtain ⟨j, hj, ho⟩ := List.mem_flatMap.1 ho
  rw [Option.mem_toList] at hj
  cases j with
  | here h id avatar =>
    obtain rfl := List.mem_singleton.1 ho
    exact ⟨_, _, rfl, .teleported _ _⟩
  | stay h id => cases ho
  | away h id server request =>
    simp only [announce] at ho
    split at ho
    · cases ho
    · rcases List.mem_append.1 ho with ho | ho
      · obtain ⟨r, hr, rfl⟩ := List.mem_map.1 ho
        rw [Option.mem_toList] at hr
        obtain rfl := hr
        exact ⟨_, _, rfl, .forward _ _ (Session.passed_traverse.request h id server r hj)⟩
      · simp only [List.mem_cons, List.not_mem_nil, or_false] at ho
        rcases ho with rfl | rfl
        · exact ⟨_, _, rfl, .switchServer _⟩
        · exact ⟨_, _, rfl, .transfer _⟩

theorem letters_append {out out' : List Outgoing} :
    b.letters (out ++ out') = b.letters out ++ b.letters out' :=
  List.flatMap_append ..

theorem announces_of_mem_letters {c : Backend} {l : Letter} (hl : l ∈ c.letters (b.passage x)) :
    l.2.Announces x.player := by
  obtain ⟨o, ho, hl⟩ := List.mem_flatMap.1 hl
  obtain ⟨addr, packet, rfl, hp⟩ := mem_passage ho
  obtain rfl := List.mem_singleton.1 hl
  exact hp

end Backend

end PortalNet
