/-! Paths of files, and a disk to find them on. -/
namespace Scriptlet

/-- A path in normal form: no empty part and no part that is a single dot. -/
structure Path where
  /-- The slashes that an absolute path starts with. -/
  root : String
  parts : List String
  deriving DecidableEq, Repr

namespace Path

/-- Exactly two slashes at the start are kept, any other number counts as one. -/
def rootOf : List Char → String
  | '/' :: '/' :: '/' :: _ => "/"
  | '/' :: '/' :: _ => "//"
  | '/' :: _ => "/"
  | _ => ""

def split (cs : List Char) : List (List Char) := go [] cs
where
  go (part : List Char) : List Char → List (List Char)
    | [] => [part.reverse]
    | '/' :: cs => part.reverse :: go [] cs
    | c :: cs => go (c :: part) cs

def ofString (text : String) : Path :=
  let parts := (split text.toList).filter fun part => part ≠ [] ∧ part ≠ ['.']
  ⟨rootOf text.toList, parts.map String.ofList⟩

def text (p : Path) : String :=
  if p.root = "" ∧ p.parts = [] then "." else p.root ++ String.intercalate "/" p.parts

/-- The path with an ending added to its last part. -/
def extended (p : Path) (ending : String) : Path :=
  match p.parts.getLast? with
  | some name => { p with parts := p.parts.dropLast ++ [name ++ ending] }
  | none => p

end Path

/-- What a path leads to. -/
inductive Entry where
  | missing
  | directory
  | file (bytes : ByteArray)

/-- A disk, seen from a working directory. Different paths may lead to one place. -/
structure Disk where
  /-- The place that a path leads to. -/
  locate : Path → Path
  content : Path → Entry

namespace Disk

def entry (d : Disk) (p : Path) : Entry := d.content (d.locate p)

def write (d : Disk) (p : Path) (text : String) : Disk :=
  { d with
    content := fun place => if place = d.locate p then .file text.toUTF8 else d.content place }

/-- Whether some of the files lie in a directory. -/
def isDirectory (files : List (Path × ByteArray)) (parts : List String) : Bool :=
  files.any fun (p, _) => parts.isPrefixOf p.parts && parts.length < p.parts.length

/-- Follows a path from a directory; each part but the last has to lead to a directory. -/
def follow (files : List (Path × ByteArray)) (place : List String) :
    List String → Option (List String)
  | [] => some place
  | part :: parts =>
    if place = [] ∨ isDirectory files place then
      if part ≠ ".." then follow files (place ++ [part]) parts
      else if place = [] then none
      else follow files place.dropLast parts
    else none

/-- A working directory that holds some files, under relative paths, and nothing else. What lies
outside of it is not known, but that there is a directory around it. -/
def ofFiles (files : List (Path × ByteArray)) : Disk where
  locate p := if p.root = "" then ((follow files [] p.parts).map (Path.mk "")).getD p else p
  content place :=
    if place.root ≠ "" then if place.parts = [] then .directory else .missing
    else match files.find? (·.1 = place) with
      | some (_, bytes) => .file bytes
      | none =>
        if place.parts.all (· = "..") ∨ isDirectory files place.parts then .directory else .missing

end Disk

end Scriptlet
