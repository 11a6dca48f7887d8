import PortalNet.Proofs.Anchor

/-! # Anchors that are edited

An anchor may be turned, handed to another server and taken back, and asked for its place at any
time. Whatever the order, it remembers what a position would that was made anew when its server was
set last. So nothing is remembered of a position on another server, and no question makes two
positions differ that did not.
-/

namespace PortalNet

inductive AnchorEvent where
  | invert
  | setServer (server : Option String)
  | setLastPlayer (lastPlayer : Bool)
  | askWorld (worlds : Worlds)
  | askLocation (worlds : Worlds)
  | askBlock (worlds : Worlds)

namespace AnchorEvent

def isQuestion : AnchorEvent → Bool
  | askWorld _ | askLocation _ | askBlock _ => true
  | invert | setServer _ | setLastPlayer _ => false

/-- The lookups since the server was set last. A question for the world keeps no answer. -/
def note (asks : List Worlds) : AnchorEvent → List Worlds
  | setServer _ => []
  | askLocation ws | askBlock ws => asks ++ [ws]
  | invert | setLastPlayer _ | askWorld _ => asks

end AnchorEvent

namespace Position

def after (p : Position) : AnchorEvent → Position
  | .invert => p.inverted
  | .setServer server => { p with server }
  | .setLastPlayer lastPlayer => { p with lastPlayer }
  | .askWorld _ | .askLocation _ | .askBlock _ => p

def run (p : Position) (es : List AnchorEvent) : Position :=
  es.foldl after p

variable {p : Position} {es : List AnchorEvent} {ws : Worlds}

theorem resolve?_of_external (h : p.isExternal = true) : p.resolve? ws = none :=
  if_pos h

theorem locate?_of_external (h : p.isExternal = true) : p.locate? ws = none := by
  rw [locate?, resolve?_of_external h, Option.map_none]

/-- Questions leave no trace. -/
theorem run_without_questions : p.run (es.filter fun e => !e.isQuestion) = p.run es := by
  induction es generalizing p with
  | nil => rfl
  | cons e es ih => cases e <;> exact ih

end Position

namespace Anchor

def after (a : Anchor) : AnchorEvent → Anchor
  | .invert => a.inverted
  | .setServer server => a.withServer server
  | .setLastPlayer lastPlayer => a.withLastPlayer lastPlayer
  | .askWorld _ => a
  | .askLocation ws => a.resolved ws
  | .askBlock ws => if a.position.isExternal then a else a.resolved ws

def run (a : Anchor) (es : List AnchorEvent) : Anchor :=
  es.foldl after a

/-- What anchors remember does not count. -/
def Same (a b : Anchor) : Prop :=
  a.position.Same b.position

/-- Only a place on this server is remembered, and it is that of the position. -/
def Honest (a : Anchor) : Prop :=
  ∀ l, a.cache = some l → a.position.isExternal = false ∧ l.point = a.position.frame.center

/-- The anchor shows no place of this server. -/
structure Secluded (a : Anchor) : Prop where
  cache : a.cache = none
  world : ∀ ws, a.world? ws = none
  location : ∀ ws, a.location? ws = none
  block : ∀ ws, ∃ e, a.block ws = .error e ∧ e.kind = .invalidOperation

/-- The anchor has not been asked yet: the next lookup decides. -/
structure Afresh (a : Anchor) : Prop where
  cache : a.cache = none
  world : ∀ ws, a.world? ws = a.position.resolve? ws
  location : ∀ ws, a.location? ws = a.position.locate? ws
  next : ∀ ws, (a.resolved ws).cache = a.position.locate? ws

variable {a : Anchor} {p q : Position} {asks : List Worlds} {es fs : List AnchorEvent}
  {e : AnchorEvent} {ws : Worlds}

theorem askedIn_eq : (p : Anchor).askedIn asks = ⟨p, asks.findSome? p.locate?⟩ := by
  have hcache : ((p : Anchor).askedIn asks).cache = asks.findSome? p.locate? := cache_askedIn
  rw [← hcache]
  exact congrArg (Anchor.mk · _) position_askedIn

theorem askedIn_snoc : a.askedIn (asks ++ [ws]) = (a.askedIn asks).resolved ws :=
  askedIn_append

theorem afresh : (p : Anchor).Afresh where
  cache := rfl
  world ws := by
    unfold world? Position.resolve?
    rfl
  location ws := by
    rw [location?_eq, Option.none_or]
  next ws := by
    rw [cache_resolved, location?_eq, Option.none_or]

/-- The position changes with the server that it is on, and else what was remembered stays. -/
theorem after_askedIn :
    ((p : Anchor).askedIn asks).after e = (p.after e : Anchor).askedIn (e.note asks) := by
  cases e with
  | invert =>
    have hplace : p.inverted.locate? = p.locate? := rfl
    rw [askedIn_eq, after, inverted, Position.after, AnchorEvent.note, askedIn_eq, hplace]
  | setServer server => rw [askedIn_eq]; rfl
  | setLastPlayer lastPlayer =>
    have hplace : Position.locate? { p with lastPlayer } = p.locate? := rfl
    rw [askedIn_eq, after, withLastPlayer, Position.after, AnchorEvent.note, askedIn_eq, hplace]
  | askWorld ws => rfl
  | askLocation ws => exact askedIn_snoc.symm
  | askBlock ws =>
    rw [after, position_askedIn]
    split
    · next h =>
      -- a lookup of a position on another server finds nothing
      have hnone : ∀ asks : List Worlds, asks.findSome? p.locate? = none := fun asks =>
        List.findSome?_eq_none_iff.2 fun ws _ => Position.locate?_of_external h
      rw [Position.after, AnchorEvent.note, askedIn_eq, askedIn_eq, hnone, hnone]
    · exact askedIn_snoc.symm

/-- After any events an anchor is what its position would be if it had been made anew when the
server was set last. -/
theorem run_askedIn :
    ((p : Anchor).askedIn asks).run es =
      (p.run es : Anchor).askedIn (es.foldl AnchorEvent.note asks) := by
  induction es generalizing p asks with
  | nil => rfl
  | cons e es ih =>
    have hrest := @ih (p.after e) (e.note asks)
    rw [← after_askedIn] at hrest
    exact hrest

theorem run_eq :
    (p : Anchor).run es = (p.run es : Anchor).askedIn (es.foldl AnchorEvent.note []) :=
  @run_askedIn p [] es

theorem position_run : ((p : Anchor).run es).position = p.run es := by
  rw [run_eq, position_askedIn]

theorem honest_askedIn : ((p : Anchor).askedIn asks).Honest := by
  intro l hl
  rw [askedIn_eq] at hl ⊢
  obtain ⟨ws, -, hl⟩ := List.exists_of_findSome?_eq_some hl
  obtain ⟨w, hw, rfl⟩ := Option.map_eq_some_iff.1 hl
  refine ⟨?_, rfl⟩
  cases hexternal : p.isExternal with
  | false => rfl
  | true =>
    rw [Position.resolve?_of_external hexternal] at hw
    cases hw

theorem Honest.secluded (ha : a.Honest) (h : a.position.isExternal = true) : a.Secluded := by
  have hcache : a.cache = none := by
    rw [Option.eq_none_iff_forall_ne_some]
    intro l hl
    have hlocal := (ha l hl).1
    rw [h] at hlocal
    cases hlocal
  refine ⟨hcache, fun ws => if_pos h, fun ws => ?_, fun ws => ⟨.blockOfExternal, if_pos h, rfl⟩⟩
  rw [location?_eq, hcache, Position.locate?_of_external h, Option.or_none]

/-- However a position is turned, marked, handed to other servers and asked, it remembers a place
only while it is on this server, and its own. On another server it shows no place at all. Once it is
taken back, the next lookup decides where it is. Whether two positions are the same does not depend
on what they were asked. -/
theorem never_exposed (p : Position) (es : List AnchorEvent) :
    let a := (p : Anchor).run es
    a.Honest ∧
    (a.position.isExternal = true → a.Secluded) ∧
    (∀ server, (a.withServer server).Afresh) ∧
    (∀ ws, a.location? ws =
      (es.foldl AnchorEvent.note [] ++ [ws]).findSome? a.position.locate?) ∧
    ∀ (q : Position) (fs : List AnchorEvent),
      let quiet : List AnchorEvent → List AnchorEvent := List.filter fun e => !e.isQuestion
      a.Same ((q : Anchor).run fs) ↔
        Same ((p : Anchor).run (quiet es)) ((q : Anchor).run (quiet fs)) := by
  intro a
  have hhonest : a.Honest := by
    rw [show a = _ from run_eq]
    exact honest_askedIn
  refine ⟨hhonest, hhonest.secluded, fun server => afresh, ?_, ?_⟩
  · intro ws
    rw [show a = _ from run_eq, location?_askedIn, position_askedIn]
  · intro q fs quiet
    unfold Same
    rw [position_run, position_run, position_run, position_run, Position.run_without_questions,
      Position.run_without_questions]

end Anchor

/-- A position that was found in a world is lent to another server. Taken back, it is no longer
found once the world is gone. -/
theorem lent_position_hidden :
    let w : World := ⟨⟨.replicate 16 1⟩, "world"⟩
    let ws : Worlds := Worlds.load {} w
    let p : Position := .ofLocation ⟨w, ⟨(0 : Int), (64 : Int), (0 : Int)⟩⟩ .north
    let found : Anchor := .run p [.askLocation ws]
    let lent : Anchor := .run p [.askLocation ws, .setServer (some "creative"), .askBlock ws]
    found.location? {} = found.location? ws ∧ found.Honest ∧ lent.Secluded ∧
      (lent.withServer none).location? {} = none ∧
      (lent.withServer none).location? ws = found.location? ws := by
  intro w ws p found lent
  obtain ⟨hfound, -⟩ := Anchor.never_exposed p [.askLocation ws]
  obtain ⟨-, hlent, hback, -⟩ := Anchor.never_exposed p
    [.askLocation ws, .setServer (some "creative"), .askBlock ws]
  refine ⟨by decide +kernel, hfound, hlent rfl, ?_, ?_⟩
  · rw [(hback none).location]
    decide +kernel
  · rw [(hback none).location]
    decide +kernel

end PortalNet
