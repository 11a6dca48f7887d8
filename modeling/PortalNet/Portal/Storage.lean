import PortalNet.Disk
import PortalNet.Portal.Archive

/-! # Keeping portals in a file

A portal file is replaced only once its new contents are complete: they are written under another
name first, which then becomes the name of the file.
-/

namespace PortalNet

inductive StorageError where
  | disk (error : DiskError)
  | notText
  | notAPortalFile
  deriving DecidableEq

namespace Storage

/-- The name under which new contents are written: what follows the last point is replaced, unless
nothing would be left before it. If two points are left, they name the folder above. -/
def stagingName (name : String) : String :=
  match name.toList.reverse.dropWhile (· ≠ '.') with
  | ['.', '.'] => ".."
  | '.' :: c :: rest => .ofList (c :: rest).reverse ++ ".json.tmp"
  | _ => name ++ ".json.tmp"

def staging (p : DiskPath) : DiskPath :=
  p.withName (stagingName p.name)

/-- A missing file holds no portals. -/
def load (d : Disk) (p : DiskPath) (fresh : Nat → Uuid) : Except StorageError (List Portal) :=
  match d.read p with
  | .error .missing => return []
  | .error e => throw (.disk e)
  | .ok bytes =>
    match String.fromUTF8? ⟨bytes.toArray⟩ with
    | none => throw .notText
    | some text =>
      match Archive.decode? fresh text with
      | some portals => return portals
      | none => throw .notAPortalFile

/-- Folders that are missing are made. What was made or written stays if a later step fails. -/
def save (d : Disk) (p : DiskPath) (portals : List Portal) : Except DiskError Unit × Disk :=
  match d.makeParents p with
  | .error e => (throw e, d)
  | .ok ready =>
    match ready.write (staging p) (Archive.encode portals).toUTF8.data.toList with
    | .error e => (throw e, ready)
    | .ok staged =>
      match staged.rename (staging p) p with
      | .error e => (throw e, staged)
      | .ok saved => (return (), saved)

end Storage

end PortalNet
