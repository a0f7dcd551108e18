import SchemaGrammar.Cli.Path
import SchemaGrammar.Number.Text
import SchemaGrammar.Text.Quoted

set_option autoImplicit false

/-! # Saving a file

A file is saved into a folder that is made if it is missing, with the folders above it. What
can get in the way is found by walking: a name may be too long, and files and folders may stand
where the other is needed. -/

namespace SchemaGrammar.Cli

/-! ## Obstacles -/

/-- What a walk or a write runs into. -/
inductive Obstacle where
  | missing
  | fileExists
  | notFolder
  | isFolder
  | tooLong
  deriving Repr, DecidableEq

namespace Obstacle

/-- The number that the operating system gives to an obstacle. -/
def number : Obstacle → Nat
  | .missing => 2
  | .fileExists => 17
  | .notFolder => 20
  | .isFolder => 21
  | .tooLong => 36

def description : Obstacle → String
  | .missing => "No such file or directory"
  | .fileExists => "File exists"
  | .notFolder => "Not a directory"
  | .isFolder => "Is a directory"
  | .tooLong => "File name too long"

end Obstacle

/-- Why a file cannot be written. -/
inductive SaveFault where
  | blocked (obstacle : Obstacle) (path : Path)
  /-- No path holds the character that ends texts for the operating system. -/
  | nullByte
  deriving Repr, DecidableEq

def SaveFault.message : SaveFault → String
  | .blocked obstacle path =>
    "[Errno " ++ natText obstacle.number ++ "] " ++ obstacle.description ++ ": "
      ++ Text.quoted path.text
  | .nullByte => "embedded null byte"

/-! ## Sites -/

/-- A disk and the folders that have been made on it. -/
structure Site where
  disk : Disk
  made : List Path

namespace Site

def entry (site : Site) (place : Path) : Entry :=
  if site.made.contains place then .folder else site.disk place

/-- The most bytes that one part of a path may have. -/
def maxPartBytes : Nat := 255

/-- The most bytes that a path may have. -/
def maxPathBytes : Nat := 4095

/-- Go one part on from a place, which must be a folder. Two dots lead back from a folder that
    was made; from others only the disk knows where they lead. -/
def step (site : Site) (place : Path) (part : String) : Except Obstacle Path :=
  match site.entry place with
  | .missing => .error .missing
  | .file _ => .error .notFolder
  | .folder =>
    if maxPartBytes < part.utf8ByteSize then .error .tooLong
    else if part == ".." && site.made.contains place then .ok place.parent
    else .ok (place.join part)

/-- Where a path leads. -/
def walk (site : Site) (path : Path) : Except Obstacle Path :=
  if maxPathBytes < path.text.utf8ByteSize then .error .tooLong
  else path.parts.foldlM site.step ⟨path.root, []⟩

/-- Make a folder, unless it is there. -/
def makeFolder (site : Site) (path : Path) : Except Obstacle Site := do
  let place ← site.walk path
  match site.entry place with
  | .folder => return site
  | .file _ => throw .fileExists
  | .missing => return { site with made := place :: site.made }

/-- Make a folder and, if that fails because they are missing, those above it. The parts are
    given from the last to the first. -/
def makeFolders (site : Site) (root : String) : List String → Except SaveFault Site
  | [] => .ok site
  | part :: above => do
    let path : Path := ⟨root, (part :: above).reverse⟩
    let site ← match site.makeFolder path with
      | .error .missing => site.makeFolders root above
      | _ => .ok site
    (site.makeFolder path).mapError fun obstacle => .blocked obstacle path

end Site

/-! ## Saving -/

def Path.hasNull (path : Path) : Bool :=
  path.text.contains (Char.ofNat 0)

/-- Make the folders for a file and see whether it can be written. -/
def Disk.prepareSave (disk : Disk) (path : Path) : Except SaveFault Unit := do
  if path.parent.hasNull then throw .nullByte
  let site ← (Site.mk disk []).makeFolders path.root path.parent.parts.reverse
  if path.hasNull then throw .nullByte
  match site.walk path with
  | .error obstacle => throw (.blocked obstacle path)
  | .ok place => if site.entry place = .folder then throw (.blocked .isFolder path)

end SchemaGrammar.Cli
