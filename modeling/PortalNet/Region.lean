import PortalNet.World

/-! # Regions held loaded

A chunk stays loaded as long as someone holds it, so two portals that lead into one chunk do not
release it for each other.
-/

namespace PortalNet

structure Chunk where
  world : Uuid
  x : Int
  z : Int
  deriving DecidableEq

namespace Chunk

def side : Int := 16

def containing (l : Location) : Chunk :=
  ⟨l.world.id, l.block.x.toInt / side, l.block.z.toInt / side⟩

end Chunk

structure Regions where
  /-- How many holders each loaded chunk has. -/
  holders : Table Chunk Nat := ∅
  /-- How often a chunk was released that nobody held. -/
  unmatched : Nat := 0

namespace Regions

def isLoaded (r : Regions) (l : Location) : Bool :=
  r.holders.contains (.containing l)

def size (r : Regions) : Nat :=
  r.holders.size

def hold (r : Regions) (l : Location) : Regions :=
  let chunk := Chunk.containing l
  { r with holders := r.holders.insert chunk ((r.holders.get? chunk).getD 0 + 1) }

/-- Releasing a chunk that nobody holds is only noted. -/
def release (r : Regions) (l : Location) : Regions :=
  let chunk := Chunk.containing l
  match r.holders.get? chunk with
  | some (n + 2) => { r with holders := r.holders.insert chunk (n + 1) }
  | some _ => { r with holders := r.holders.erase chunk }
  | none => { r with unmatched := r.unmatched + 1 }

end Regions

end PortalNet
