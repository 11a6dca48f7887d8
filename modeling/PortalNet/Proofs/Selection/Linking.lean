import PortalNet.Proofs.Geometry.Blocks
import PortalNet.Proofs.Portal.Archive
import PortalNet.Proofs.Registry.Run
import PortalNet.Proofs.Selection.Picking

/-! # Linking what was picked

The ends that a player picked are windows that were accepted, so if they can be measured in words,
nothing can go wrong with a link but that an end is missing or that the two have different sizes. A
link adds its portals to the registry and changes nothing else.
-/

namespace PortalNet

namespace Registry

/-- `t` is `r` with some more portals. -/
structure Adds (r : Registry) (added : List Portal) (t : Registry) : Prop where
  found : ∀ p ∈ added, t.get? p.id = some p
  others : ∀ k, k ∉ added.map (·.id) → t.get? k = r.get? k
  size : t.portals.size = r.portals.size + added.length
  worlds : t.worlds = r.worlds
  regions : t.regions = r.regions

/-- Registers the last portal first. -/
def registerEach (r : Registry) (ps : List Portal) : Registry :=
  ps.foldr (fun p s => s.register p) r

/-- The portals of a link between two windows here, the one that leads there first. -/
def linkedPortals (options : LinkOptions) (fresh : Nat → Uuid) (near far : Position)
    (size : Size Double) : List Portal :=
  let far := if options.invert then far.inverted else far
  let there := linkedPortal options (fresh 0) near far size
  if options.twoWay then [there, linkedPortal options (fresh 1) far near size] else [there]

variable {r s : Registry} {p : Portal} {ps : List Portal} {o d : Selection} {m n : Size Double}
  {near far : Position} {options : LinkOptions} {fresh : Nat → Uuid} {id : Uuid}
  {x : ExternalSelection}

theorem Adds.register (h : r.Adds ps s) (hnew : r.get? p.id = none)
    (hp : p.id ∉ ps.map (·.id)) : r.Adds (p :: ps) (s.register p) := by
  have hfree : s.get? p.id = none := (h.others _ hp).trans hnew
  have hget : ∀ k, (s.portals.insert p.id p).get? k = if p.id = k then some p else s.get? k :=
    fun _ => Table.get?_insert
  rw [register_of_get?_eq_none hfree]
  refine ⟨?_, ?_, ?_, h.worlds, h.regions⟩
  · intro q hq
    refine (hget q.id).trans ?_
    rcases List.mem_cons.1 hq with rfl | hq
    · exact if_pos rfl
    · have hne : p.id ≠ q.id := fun he => hp (he ▸ List.mem_map.2 ⟨q, hq, rfl⟩)
      rw [if_neg hne, h.found q hq]
  · intro k hk
    rw [List.map_cons, List.mem_cons, not_or] at hk
    exact (hget k).trans ((if_neg (Ne.symm hk.1)).trans (h.others k hk.2))
  · rw [List.length_cons, ← Nat.add_assoc, ← h.size]
    exact Table.size_insert hfree

/-- Portals with new ids are added as they are. -/
theorem adds_registerEach (hnew : ∀ p ∈ ps, r.get? p.id = none)
    (hdistinct : (ps.map (·.id)).Nodup) : r.Adds ps (r.registerEach ps) := by
  induction ps with
  | nil => exact ⟨by simp, fun _ _ => rfl, rfl, rfl, rfl⟩
  | cons p ps ih =>
    rw [List.map_cons, List.nodup_cons] at hdistinct
    obtain ⟨hp, hps⟩ := List.forall_mem_cons.1 hnew
    exact (ih hps hdistinct.2).register hp hdistinct.1

end Registry

namespace Selection

variable {s : Selection} {p : Position} {size : Size Double}

/-- An accepted window has a size and a place, if it can be measured in words. -/
theorem Accepted.measured (h : s.Accepted) (hfits : s.Fits) :
    ∃ (size : Size Double) (p : Position), s.size = .ok size ∧ s.position = .ok p := by
  obtain ⟨b, hb⟩ := h
  obtain ⟨hcounts, hsums⟩ := hfits b hb
  exact ⟨_, _, size_eq_ok_iff.2 ⟨b, hb, hcounts, rfl⟩, position_eq_ok_iff.2 ⟨b, hb, hsums, rfl⟩⟩

theorem position_invert (h : s.position = .ok p) : s.invert.position = .ok p.inverted := by
  obtain ⟨b, hb, hsums, rfl⟩ := position_eq_ok_iff.1 h
  have hb' : s.invert.bounds = .ok b := hb
  rw [position_of_bounds hb', if_pos hsums, facing_invert]
  rfl

end Selection

namespace Registry

variable {r : Registry} {o d : Selection} {m n : Size Double} {near far : Position}
  {options : LinkOptions} {fresh : Nat → Uuid} {id : Uuid} {x : ExternalSelection}

theorem linkEnds_of_sizes (hm : o.size = .ok m) (hn : d.size = .ok n) :
    linkEnds o d options =
      if m.Same n then do
        let near ← o.position
        let far ← (if options.invert then d.invert else d).position
        return (m, near, far)
      else .error (.refused (.differentSizes m n)) := by
  rw [linkEnds, hm, hn]
  by_cases hsame : m.Same n
  · simp only [bind, Except.bind, hsame, not_true_eq_false, if_false, if_true]
  · simp only [bind, Except.bind, hsame, not_false_eq_true, if_true, if_false]
    rfl

/-- A link between two windows with a size and a place fails only if the sizes differ. -/
theorem link_eq (hm : o.size = .ok m) (hn : d.size = .ok n) (hnear : o.position = .ok near)
    (hfar : d.position = .ok far) :
    r.link o d options fresh =
      if m.Same n then
        let added := linkedPortals options fresh near far m
        (.ok (added.map (·.id)), r.registerEach added)
      else (.error (.refused (.differentSizes m n)), r) := by
  have hturned : (if options.invert then d.invert else d).position =
      .ok (if options.invert then far.inverted else far) := by
    split
    · exact Selection.position_invert hfar
    · exact hfar
  rw [link, linkEnds_of_sizes hm hn, hnear, hturned]
  by_cases hsame : m.Same n
  · simp only [hsame, if_true, bind, Except.bind, pure, Except.pure, linkedPortals]
    split <;> rfl
  · simp only [hsame, if_false]
    rfl

theorem linkEndsAbroad_of_size (hm : o.size = .ok m) :
    linkEndsAbroad o x options =
      if m.Same x.size then
        if x.position.isExternal then do
          let near ← o.position
          return (m, near, if options.invert then x.position.inverted else x.position)
        else .error (.refused .destinationNotExternal)
      else .error (.refused (.differentSizes m x.size)) := by
  rw [linkEndsAbroad, hm]
  by_cases hsame : m.Same x.size
  · cases hx : x.position.isExternal with
    | false =>
      simp only [bind, Except.bind, hsame, not_true_eq_false, Bool.false_eq_true, not_false_eq_true,
        if_false, if_true]
      rfl
    | true => simp only [bind, Except.bind, hsame, not_true_eq_false, if_false, if_true]
  · simp only [bind, Except.bind, hsame, not_false_eq_true, if_true, if_false]
    rfl

theorem linkExternal_eq (hm : o.size = .ok m) (hnear : o.position = .ok near) :
    r.linkExternal o x options id =
      if m.Same x.size then
        if x.position.isExternal then
          (.ok id, r.register (linkedPortal options id near
            (if options.invert then x.position.inverted else x.position) m))
        else (.error (.refused .destinationNotExternal), r)
      else (.error (.refused (.differentSizes m x.size)), r) := by
  rw [linkExternal, linkEndsAbroad_of_size hm, hnear]
  by_cases hsame : m.Same x.size
  · cases x.position.isExternal <;> simp only [hsame, if_true, if_false, Bool.false_eq_true] <;> rfl
  · simp only [hsame, if_false]
    rfl

end Registry

namespace Selections

/-- Both ends are picked, and they are of one size. -/
def Linkable (l : Selections) : Prop :=
  ∃ o d, l.origin = some o ∧ l.destination = some d ∧
    ∃ m n : Size Double, o.size = .ok m ∧ d.size = .ok n ∧ m.Same n

/-- What is wrong with the ends. -/
inductive Unlinkable (l : Selections) : PortalError → Prop where
  | origin : l.origin = none → Unlinkable l .originUnset
  | destination (o : Selection) : l.origin = some o → l.destination = none →
      Unlinkable l .destinationUnset
  | sizes (o d : Selection) (m n : Size Double) : l.origin = some o → l.destination = some d →
      o.size = .ok m → d.size = .ok n → ¬ m.Same n → Unlinkable l (.differentSizes m n)

/-- The origin is picked, and it is of one size with the window on the other server. -/
def LinkableAbroad (l : Selections) : Prop :=
  ∃ o x, l.origin = some o ∧ l.external = some x ∧
    ∃ m : Size Double, o.size = .ok m ∧ m.Same x.size ∧ x.position.isExternal = true

/-- What is wrong with the origin and the window on the other server. -/
inductive UnlinkableAbroad (l : Selections) : PortalError → Prop where
  | origin : l.origin = none → UnlinkableAbroad l .originUnset
  | destination (o : Selection) : l.origin = some o → l.external = none →
      UnlinkableAbroad l .externalDestinationUnset
  | sizes (o : Selection) (x : ExternalSelection) (m : Size Double) : l.origin = some o →
      l.external = some x → o.size = .ok m → ¬ m.Same x.size →
      UnlinkableAbroad l (.differentSizes m x.size)
  | unmarked (o : Selection) (x : ExternalSelection) (m : Size Double) : l.origin = some o →
      l.external = some x → o.size = .ok m → m.Same x.size → x.position.isExternal = false →
      UnlinkableAbroad l .destinationNotExternal

/-- An answer is settled by conditions one of which holds, if each of them settles it. -/
theorem settled {α : Type} {answer : Except Failure α} {good : Prop} {bad : PortalError → Prop}
    (hgood : good → ∃ a, answer = .ok a) (hbad : ∀ e, bad e → answer = .error (.refused e))
    (h : good ∨ ∃ e, bad e) :
    (∀ f, answer = .error f ↔ ∃ e, f = .refused e ∧ bad e) ∧ ((∃ a, answer = .ok a) ↔ good) := by
  rcases h with h | ⟨e, he⟩
  · obtain ⟨a, rfl⟩ := hgood h
    refine ⟨fun f => ⟨nofun, ?_⟩, fun _ => h, fun _ => ⟨a, rfl⟩⟩
    rintro ⟨e, -, he⟩
    cases hbad e he
  · obtain rfl := hbad e he
    refine ⟨fun f => ⟨?_, ?_⟩, nofun, fun hg => ?_⟩
    · rintro ⟨⟩
      exact ⟨e, rfl, he⟩
    · rintro ⟨e', rfl, he'⟩
      exact hbad e' he'
    · obtain ⟨a, ha⟩ := hgood hg
      cases ha

variable {l : Selections} {r t : Registry} {options : LinkOptions} {fresh : Nat → Uuid} {id : Uuid}
  {e : PortalError} {es : List SelectionEvent}

theorem link_of_unlinkable (h : l.Unlinkable e) :
    l.link r options fresh = (.error (.refused e), r) := by
  unfold link
  cases h with
  | origin ho => rw [ho]; rfl
  | destination o ho hd => rw [ho, hd]; rfl
  | sizes o d m n ho hd hm hn hne =>
    rw [ho, hd]
    change Registry.link _ _ _ _ _ = _
    rw [Registry.link, Registry.linkEnds_of_sizes hm hn, if_neg hne]
    rfl

theorem Unlinkable.kind (h : l.Unlinkable e) :
    e.kind = if l.origin.isSome ∧ l.destination.isSome then .differentSizes
      else .invalidSelection := by
  cases h with
  | origin ho => rw [ho]; rfl
  | destination o ho hd => rw [ho, hd]; rfl
  | sizes o d m n ho hd => rw [ho, hd]; rfl

theorem linkExternal_of_unlinkable (h : l.UnlinkableAbroad e) :
    l.linkExternal r options id = (.error (.refused e), r) := by
  unfold linkExternal
  cases h with
  | origin ho => rw [ho]; rfl
  | destination o ho hx => rw [ho, hx]; rfl
  | sizes o x m ho hx hm hne =>
    rw [ho, hx]
    change Registry.linkExternal _ _ _ _ _ = _
    rw [Registry.linkExternal, Registry.linkEndsAbroad_of_size hm, if_neg hne]
    rfl
  | unmarked o x m ho hx hm hsame hlocal =>
    rw [ho, hx]
    change Registry.linkExternal _ _ _ _ _ = _
    rw [Registry.linkExternal, Registry.linkEndsAbroad_of_size hm, if_pos hsame, hlocal]
    rfl

/-- Only accepted windows have been picked. -/
def Sound (l : Selections) : Prop :=
  ∀ which d, l.end? which = some d → d.Accepted

theorem sound_run : (run {} es).Sound :=
  fun _ _ hd => (end?_run.1 hd).accepted

section sound

variable (hl : l.Sound) (ho : ∀ o, l.origin = some o → o.Fits)

include hl ho

theorem Sound.linkableAbroad_or : l.LinkableAbroad ∨ ∃ e, l.UnlinkableAbroad e := by
  cases horigin : l.origin with
  | none => exact .inr ⟨_, .origin horigin⟩
  | some o =>
    cases hx : l.external with
    | none => exact .inr ⟨_, .destination o horigin hx⟩
    | some x =>
      obtain ⟨m, near, hm, hnear⟩ := (hl .origin o horigin).measured (ho o horigin)
      by_cases hsame : m.Same x.size
      · cases hexternal : x.position.isExternal with
        | false => exact .inr ⟨_, .unmarked o x m horigin hx hm hsame hexternal⟩
        | true => exact .inl ⟨o, x, horigin, hx, m, hm, hsame, hexternal⟩
      · exact .inr ⟨_, .sizes o x m horigin hx hm hsame⟩

theorem Sound.linkExternal_of_linkable (h : l.LinkableAbroad) : ∃ o x near size,
    l.origin = some o ∧ l.external = some x ∧ o.position = .ok near ∧ o.size = .ok size ∧
    l.linkExternal r options id = (.ok id, r.register (Registry.linkedPortal options id near
      (if options.invert then x.position.inverted else x.position) size)) := by
  obtain ⟨o, x, horigin, hx, m, hm, hsame, hexternal⟩ := h
  obtain ⟨-, near, -, hnear⟩ := (hl .origin o horigin).measured (ho o horigin)
  refine ⟨o, x, near, m, horigin, hx, hnear, hm, ?_⟩
  rw [linkExternal, horigin, hx]
  exact (Registry.linkExternal_eq hm hnear).trans ((if_pos hsame).trans (if_pos hexternal))

variable (hd : ∀ d, l.destination = some d → d.Fits)

include hd

theorem Sound.linkable_or : l.Linkable ∨ ∃ e, l.Unlinkable e := by
  cases horigin : l.origin with
  | none => exact .inr ⟨_, .origin horigin⟩
  | some o =>
    cases hdest : l.destination with
    | none => exact .inr ⟨_, .destination o horigin hdest⟩
    | some d =>
      obtain ⟨m, near, hm, hnear⟩ := (hl .origin o horigin).measured (ho o horigin)
      obtain ⟨n, far, hn, hfar⟩ := (hl .destination d hdest).measured (hd d hdest)
      by_cases hsame : m.Same n
      · exact .inl ⟨o, d, horigin, hdest, m, n, hm, hn, hsame⟩
      · exact .inr ⟨_, .sizes o d m n horigin hdest hm hn hsame⟩

theorem Sound.link_of_linkable (h : l.Linkable) : ∃ o d near far size, l.origin = some o ∧
    l.destination = some d ∧ o.position = .ok near ∧ d.position = .ok far ∧ o.size = .ok size ∧
    l.link r options fresh =
      let added := Registry.linkedPortals options fresh near far size
      (.ok (added.map (·.id)), r.registerEach added) := by
  obtain ⟨o, d, horigin, hdest, m, n, hm, hn, hsame⟩ := h
  obtain ⟨-, near, -, hnear⟩ := (hl .origin o horigin).measured (ho o horigin)
  obtain ⟨-, far, -, hfar⟩ := (hl .destination d hdest).measured (hd d hdest)
  refine ⟨o, d, near, far, m, horigin, hdest, hnear, hfar, hm, ?_⟩
  rw [link, horigin, hdest]
  exact (Registry.link_eq hm hn hnear hfar).trans (if_pos hsame)

end sound

/-- Whatever corners a player sets and whatever they pick, an end is the window between the corners
as they were when it was last picked and accepted. If the ends can be measured in words, linking
therefore fails for nothing but a missing end or different sizes, and a link to another server also
for a window that is not marked as one there. A link that fails changes nothing. One that succeeds
adds one portal or, if it leads both ways, two, which start and lead where the windows were when
they were picked, turned round where that was asked for; all else is unchanged. -/
theorem links_exactly (es : List SelectionEvent) (r : Registry) (options : LinkOptions)
    (fresh : Nat → Uuid) :
    let l := run {} es
    let linked := l.link r options fresh
    let abroad := l.linkExternal r options (fresh 0)
    (∀ which d, (l.end? which = some d ↔ LastPick which es d) ∧
      (l.end? which = some d → d.Accepted)) ∧
    l.external = (es.filterMap SelectionEvent.selection?).getLast? ∧
    ((∀ f, linked.1 = .error f → linked.2 = r) ∧ ∀ f, abroad.1 = .error f → abroad.2 = r) ∧
    ((∀ o, l.origin = some o → o.Fits) →
      ((∀ d, l.destination = some d → d.Fits) →
        (∀ f, linked.1 = .error f ↔ ∃ e, f = .refused e ∧ l.Unlinkable e) ∧
        (∀ e, l.Unlinkable e → e.kind =
          if l.origin.isSome ∧ l.destination.isSome then .differentSizes else .invalidSelection) ∧
        ((∃ ids, linked.1 = .ok ids) ↔ l.Linkable) ∧
        ∀ ids, linked.1 = .ok ids →
          ∃ o d near far size, LastPick .origin es o ∧ LastPick .destination es d ∧
            o.position = .ok near ∧ d.position = .ok far ∧ o.size = .ok size ∧
            let added := Registry.linkedPortals options fresh near far size
            ids = added.map (·.id) ∧
              ((∀ p ∈ added, r.get? p.id = none) → ids.Nodup → r.Adds added linked.2)) ∧
      (∀ f, abroad.1 = .error f ↔ ∃ e, f = .refused e ∧ l.UnlinkableAbroad e) ∧
      ((∃ id, abroad.1 = .ok id) ↔ l.LinkableAbroad) ∧
      ∀ id, abroad.1 = .ok id →
        ∃ o x near size, LastPick .origin es o ∧ l.external = some x ∧ o.position = .ok near ∧
          o.size = .ok size ∧
          let far := if options.invert then x.position.inverted else x.position
          let p := Registry.linkedPortal options (fresh 0) near far size
          id = p.id ∧ (r.get? p.id = none → r.Adds [p] abroad.2)) := by
  intro l linked abroad
  have hl : l.Sound := sound_run
  refine ⟨fun which d => ⟨end?_run, hl which d⟩, external_run,
    ⟨fun _ => link_failed, fun _ => linkExternal_failed⟩, fun ho => ⟨fun hd => ?_, ?_⟩⟩
  · have hlink : l.Linkable → ∃ ids, linked.1 = .ok ids := fun h => by
      obtain ⟨o, d, near, far, size, -, -, -, -, -, h⟩ := hl.link_of_linkable ho hd h
      exact ⟨_, congrArg Prod.fst h⟩
    obtain ⟨herror, hok⟩ := settled hlink (fun _ h => congrArg Prod.fst (link_of_unlinkable h))
      (hl.linkable_or ho hd)
    refine ⟨herror, fun _ => Unlinkable.kind, hok, fun ids h => ?_⟩
    obtain ⟨o, d, near, far, size, horigin, hdest, hnear, hfar, hsize, heq⟩ :=
      hl.link_of_linkable ho hd (hok.1 ⟨_, h⟩)
    have heq : linked = _ := heq
    rw [heq] at h ⊢
    obtain rfl := Except.ok.inj h
    exact ⟨o, d, near, far, size, end?_run.1 horigin, end?_run.1 hdest, hnear, hfar, hsize, rfl,
      Registry.adds_registerEach⟩
  · have habroad : l.LinkableAbroad → ∃ id, abroad.1 = .ok id := fun h => by
      obtain ⟨o, x, near, size, -, -, -, -, h⟩ := hl.linkExternal_of_linkable ho h
      exact ⟨_, congrArg Prod.fst h⟩
    obtain ⟨herror, hok⟩ := settled habroad
      (fun _ h => congrArg Prod.fst (linkExternal_of_unlinkable h)) (hl.linkableAbroad_or ho)
    refine ⟨herror, hok, fun id h => ?_⟩
    obtain ⟨o, x, near, size, horigin, hx, hnear, hsize, heq⟩ :=
      hl.linkExternal_of_linkable ho (hok.1 ⟨_, h⟩)
    have heq : abroad = _ := heq
    rw [heq] at h ⊢
    obtain rfl := Except.ok.inj h
    refine ⟨o, x, near, size, end?_run.1 horigin, hx, hnear, hsize, rfl, fun hnew => ?_⟩
    exact Registry.adds_registerEach (List.forall_mem_singleton.2 hnew) (by simp)

end Selections

namespace Sample

/-- Two windows are picked, one of them again from corners that are refused, and the corners change
further. -/
def picks : List SelectionEvent :=
  [.corner true ⟨nether, ⟨0, 64, 0⟩⟩, .corner false ⟨nether, ⟨1, 66, 0⟩⟩, .pick .origin,
    .corner true ⟨nether, ⟨7, 64, 4⟩⟩, .corner false ⟨nether, ⟨7, 66, 5⟩⟩, .pick .destination,
    .corner false ⟨nether, ⟨8, 66, 8⟩⟩, .pick .origin, .corner true ⟨world, ⟨8, 66, 8⟩⟩]

/-- A block so far up that twice its number is too much for a word is picked for both ends. -/
def farPicks : List SelectionEvent :=
  [.corner true ⟨nether, ⟨0, 1073741824, 0⟩⟩, .corner false ⟨nether, ⟨0, 1073741824, 0⟩⟩,
    .pick .origin, .pick .destination]

end Sample

open Sample in
/-- The link is the one between the windows as they were picked, and the destination is turned. -/
theorem picks_linked :
    let l := Selections.run {} picks
    let options : LinkOptions := { twoWay := true, invert := true, owner := some player }
    let ids : Nat → Uuid := fun i => ⟨.replicate 16 (.ofNat i)⟩
    (l.link {} options ids).1 = .ok [ids 0, ids 1] ∧
      ∃ near far size,
        Registry.Adds {} [Registry.linkedPortal options (ids 0) near far size,
          Registry.linkedPortal options (ids 1) far near size] (l.link {} options ids).2 ∧
        near.frame.facing = .north ∧ far.frame.facing = .west := by
  intro l options ids
  have hfits : ∀ which d, l.end? which = some d → d.Fits := by
    rintro (_ | _) d ⟨⟩ b ⟨⟩ <;> decide
  obtain ⟨-, -, -, h⟩ := Selections.links_exactly picks {} options ids
  obtain ⟨h, -⟩ := h (hfits .origin)
  obtain ⟨-, -, hok, hlinked⟩ := h (hfits .destination)
  have hdistinct : [ids 0, ids 1].Nodup := by decide
  have hlinkable : l.Linkable := ⟨_, _, rfl, rfl, _, _, rfl, rfl, by decide⟩
  obtain ⟨found, h⟩ := hok.2 hlinkable
  obtain ⟨o, d, near, far, size, ho, hd, hnear, hfar, -, rfl, hadds⟩ := hlinked _ h
  obtain rfl := Option.some.inj (Selections.end?_run.2 ho)
  obtain rfl := Option.some.inj (Selections.end?_run.2 hd)
  obtain rfl := Except.ok.inj hnear
  obtain rfl := Except.ok.inj hfar
  exact ⟨h, _, _, size, hadds (fun _ _ => rfl) hdistinct, rfl, rfl⟩

open Sample in
/-- Both ends are picked and have one size, and the link overflows. -/
theorem far_picks_unlinked :
    let l := Selections.run {} farPicks
    l.Linkable ∧ (l.link {} {} fun _ => player).1 = .error .overflow :=
  ⟨⟨_, _, rfl, rfl, _, _, rfl, rfl, by decide⟩, rfl⟩

end PortalNet
