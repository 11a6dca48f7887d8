import PortalNet.Geometry.Vec3
import PortalNet.Table
import PortalNet.Uuid

/-! # Worlds

The worlds that a server hosts and the blocks in them. Blocks outlive their world: unloading and
loading it again brings them back. Air is not stored.
-/

namespace PortalNet

structure World where
  id : Uuid
  name : String
  deriving DecidableEq

structure Location where
  world : World
  point : Vec3 Double
  deriving DecidableEq

namespace Location

def distance? (a b : Location) : Option Double :=
  if a.world.id = b.world.id then some (a.point.distance b.point) else none

def block (l : Location) : Block :=
  .containing l.point

def Same (a b : Location) : Prop :=
  a.world.id = b.world.id ∧ a.point.Same b.point

instance (a b : Location) : Decidable (a.Same b) :=
  inferInstanceAs (Decidable (_ ∧ _))

end Location

inductive Material where
  | air
  | portal
  | obsidian
  | stone
  deriving DecidableEq

structure Worlds where
  loaded : Table Uuid World := ∅
  blocks : Table (Uuid × Block) Material := ∅

namespace Worlds

def load (ws : Worlds) (w : World) : Worlds :=
  { ws with loaded := ws.loaded.insert w.id w }

def unload (ws : Worlds) (id : Uuid) : Worlds :=
  { ws with loaded := ws.loaded.erase id }

def byId? (ws : Worlds) (id : Uuid) : Option World :=
  ws.loaded.get? id

def byName? (ws : Worlds) (name : String) : Option World :=
  ws.loaded.values.find? (·.name = name)

/-- A renamed world is found by its id, a world that was made anew by its name. -/
def resolve? (ws : Worlds) (id : Option Uuid) (name : Option String) : Option World :=
  (id.bind ws.byId?).or (name.bind ws.byName?)

def materialAt (ws : Worlds) (world : Uuid) (b : Block) : Material :=
  (ws.blocks.get? (world, b)).getD .air

def setMaterial (ws : Worlds) (world : Uuid) (b : Block) (m : Material) : Worlds :=
  { ws with
    blocks := if m = .air then ws.blocks.erase (world, b) else ws.blocks.insert (world, b) m }

theorem materialAt_setMaterial {ws : Worlds} {v w : Uuid} {a b : Block} {m : Material} :
    (ws.setMaterial v a m).materialAt w b =
      if v = w ∧ a = b then m else ws.materialAt w b := by
  by_cases hm : m = .air
  · subst hm
    simp only [setMaterial, materialAt, if_true, Table.get?_erase, Prod.mk.injEq]
    by_cases h : w = v ∧ b = a
    · simp [h]
    · grind
  · simp only [setMaterial, materialAt, hm, if_false, Table.get?_insert, Prod.mk.injEq]
    by_cases h : v = w ∧ a = b <;> simp [h]

end Worlds

end PortalNet
