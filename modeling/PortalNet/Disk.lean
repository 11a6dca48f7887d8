import PortalNet.Table

/-! # Folders and files

A tree of folders with the files in it, and the paths by which programs name them. A path is walked
from the top of the tree, and every part of it but the last has to be a folder that is there.
-/

namespace PortalNet

structure DiskPath where
  /-- Whether the text starts with a slash. -/
  isAbsolute : Bool
  /-- The folders on the way. -/
  folders : List String
  name : String
  /-- Whether the text ends in a slash, as that of a file does not. -/
  isClosed : Bool
  deriving DecidableEq

namespace DiskPath

/-- An empty part and a single point lead nowhere else. -/
def isIdle (part : String) : Bool :=
  part = "" || part = "."

def ofString (s : String) : DiskPath :=
  let texts := s.splitOn "/"
  let parts := texts.filter (!isIdle ·)
  { isAbsolute := s.startsWith "/"
    folders := parts.dropLast
    name := parts.getLastD "."
    isClosed := texts.getLast?.any isIdle }

def toString (p : DiskPath) : String :=
  let parts := "/".intercalate (p.folders ++ [p.name])
  (if p.isAbsolute then "/" else "") ++ parts ++ if p.isClosed then "/" else ""

instance : ToString DiskPath := ⟨toString⟩

/-- The same path with another last part. -/
def withName (p : DiskPath) (name : String) : DiskPath :=
  { p with name, isClosed := false }

/-- The folder that a path ends in, unless it is where the path starts. -/
def parent? (p : DiskPath) : Option DiskPath :=
  p.folders.getLast?.map fun name => { p with folders := p.folders.dropLast, name }

end DiskPath

/-- A place in a tree, by the names that lead to it from the top. -/
abbrev DiskPlace := List String

/-- Where a part of a path leads. Two points lead up; above the top there is only the top. -/
def DiskPlace.next (place : DiskPlace) (part : String) : DiskPlace :=
  if DiskPath.isIdle part then place
  else if part = ".." then place.dropLast
  else place ++ [part]

inductive DiskEntry where
  | file (bytes : List UInt8)
  | folder
  deriving DecidableEq

inductive DiskError where
  | missing
  | isFolder
  | notFolder
  deriving DecidableEq

structure Disk where
  entries : Table DiskPlace DiskEntry := ∅

namespace Disk

/-- The top is always a folder. -/
def get? (d : Disk) (place : DiskPlace) : Option DiskEntry :=
  if place = [] then some .folder else d.entries.get? place

/-- Through folders that are there. -/
def walk (d : Disk) (place : DiskPlace) : List String → Except DiskError DiskPlace
  | [] => return place
  | part :: rest =>
    match d.get? (place.next part) with
    | some .folder => d.walk (place.next part) rest
    | some (.file _) => throw .notFolder
    | none => throw .missing

def place (d : Disk) (p : DiskPath) : Except DiskError DiskPlace :=
  return (← d.walk [] p.folders).next p.name

/-- Makes the folders on a walk that are missing. -/
def makeFolders (d : Disk) (place : DiskPlace) : List String → Except DiskError Disk
  | [] => return d
  | part :: rest =>
    match d.get? (place.next part) with
    | some .folder => d.makeFolders (place.next part) rest
    | some (.file _) => throw .notFolder
    | none =>
      let made : Disk := ⟨d.entries.insert (place.next part) .folder⟩
      made.makeFolders (place.next part) rest

/-- Makes the folders in which a path ends. -/
def makeParents (d : Disk) (p : DiskPath) : Except DiskError Disk :=
  d.makeFolders [] p.folders

/-- Makes a path a folder, with all folders on the way. -/
def makeFolder (d : Disk) (p : DiskPath) : Except DiskError Disk :=
  d.makeFolders [] (p.folders ++ [p.name])

def read (d : Disk) (p : DiskPath) : Except DiskError (List UInt8) := do
  match d.get? (← d.place p) with
  | some (.file bytes) => if p.isClosed then throw .notFolder else return bytes
  | some .folder => throw .isFolder
  | none => throw .missing

/-- The tree with a file at a place, whatever was there. -/
def withFile (d : Disk) (place : DiskPlace) (bytes : List UInt8) : Disk :=
  ⟨d.entries.insert place (.file bytes)⟩

/-- Makes a file or replaces what it holds. -/
def write (d : Disk) (p : DiskPath) (bytes : List UInt8) : Except DiskError Disk := do
  let place ← d.place p
  if p.isClosed ∨ d.get? place = some .folder then throw .isFolder
  else return d.withFile place bytes

/-- Gives a file another name, in place of the file that has it. -/
def rename (d : Disk) (old new : DiskPath) : Except DiskError Disk := do
  let bytes ← d.read old
  if new.isClosed then throw .notFolder
  let written ← d.write new bytes
  return ⟨written.entries.erase (← d.place old)⟩

/-- What is in the folder that a path ends in. -/
def siblings (d : Disk) (p : DiskPath) : List String :=
  match d.walk [] p.folders with
  | .ok folder =>
    d.entries.keys.filterMap fun place => if place.dropLast = folder then place.getLast? else none
  | .error _ => []

variable {d e : Disk} {p : DiskPath} {place q r : DiskPlace} {bytes : List UInt8}

theorem get?_withFile (h : d.get? q ≠ some .folder) :
    (d.withFile q bytes).get? place = if q = place then some (.file bytes) else d.get? place := by
  by_cases hp : place = []
  · subst hp
    have : q ≠ [] := by rintro rfl; simp [get?] at h
    simp [get?, this]
  · simp [get?, withFile, hp, Table.get?_insert]

/-- A file in place of a file, or of nothing, is in nobody's way. -/
theorem walk_withFile (h : d.get? q ≠ some .folder) {parts : List String}
    (hw : d.walk place parts = .ok r) : (d.withFile q bytes).walk place parts = .ok r := by
  induction parts generalizing place with
  | nil => exact hw
  | cons part rest ih =>
    rw [walk] at hw ⊢
    rw [get?_withFile h]
    split at hw
    · rename_i hf
      have : q ≠ place.next part := by rintro rfl; exact h hf
      simp only [this, if_false, hf]
      exact ih hw
    · cases hw
    · cases hw

/-- What is written is what is read. -/
theorem read_write (h : d.write p bytes = .ok e) : e.read p = .ok bytes := by
  unfold write place at h
  cases hw : d.walk [] p.folders with
  | error x => simp [hw, bind, Except.bind] at h
  | ok folder =>
    simp only [hw, bind, Except.bind, pure, Except.pure] at h
    split at h
    · cases h
    · rename_i hp
      rw [not_or] at hp
      cases h
      simp [read, Disk.place, walk_withFile hp.2 hw, get?_withFile hp.2, hp.1, bind, Except.bind,
        pure, Except.pure]

end Disk

end PortalNet
