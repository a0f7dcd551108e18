import SchemaGrammar.Text.Split

set_option autoImplicit false

/-! # Paths, and what lies at them

A path is shown without the parts that change nothing: empty ones and single dots. Two dots
stay, as they may lead through a link. What lies at a path is asked of a `Disk`. -/

namespace SchemaGrammar.Cli

structure Path where
  /-- The slashes in front of an absolute path. -/
  root : String
  parts : List String
  deriving Repr, DecidableEq

namespace Path

/-- The parts between the slashes of a text, empty ones included. -/
def rawParts (text : String) : List String :=
  (Text.splitAt '/' text.toList).map String.ofList

/-- Does a part of a path stay where it is? -/
def isIdle (part : String) : Bool :=
  part.isEmpty || part == "."

/-- The root of an absolute path is one slash; exactly two slashes are kept. -/
def rootOf (text : String) : String :=
  match (text.toList.takeWhile (· == '/')).length with
  | 0 => ""
  | 2 => "//"
  | _ => "/"

def ofText (text : String) : Path :=
  ⟨rootOf text, (rawParts text).filter fun part => !isIdle part⟩

def text (p : Path) : String :=
  if p.root.isEmpty && p.parts.isEmpty then "." else p.root ++ "/".intercalate p.parts

/-- The last part. -/
def name (p : Path) : String :=
  p.parts.getLast?.getD ""

/-- The folder that holds the path; a path without parts is its own. -/
def parent (p : Path) : Path :=
  { p with parts := p.parts.dropLast }

def join (p : Path) (part : String) : Path :=
  { p with parts := p.parts ++ [part] }

/-- Parts in which two dots take back the part before them, as they do where no link is. -/
def collapse (parts : List String) : List String :=
  parts.foldl (fun place part =>
    if part == ".." && place.any (· != "..") then place.dropLast else place ++ [part]) []

/-- The places that a walk along a path may come by, whichever of its folders are yet to be
    made: two dots take back a folder that is made on the way. -/
def waypoints (p : Path) : List Path :=
  ((List.range (p.parts.length + 1)).flatMap fun count =>
    (List.range (count + 1)).map fun kept =>
      { p with parts := p.parts.take kept ++ collapse ((p.parts.take count).drop kept) }).eraseDups

end Path

/-! ## Disks -/

/-- What lies at a path. -/
inductive Entry where
  | missing
  | folder
  | file (text : String)
  deriving Repr, DecidableEq

def Entry.isFile : Entry → Bool
  | .file _ => true
  | _ => false

/-- What lies at each path. -/
abbrev Disk := Path → Entry

/-! ## Trees of files -/

/-- Files in a working folder and the folders below it, by the parts of their paths. -/
abbrev Tree := List (List String × String)

namespace Tree

/-- A tree from the names and texts of its files. -/
def ofFiles (files : List (String × String)) : Tree :=
  files.map fun (name, text) => ((Path.ofText name).parts, text)

/-- A folder is one that a file lies in, the working folder or a folder above it. -/
def isFolder (tree : Tree) (place : List String) : Bool :=
  place.all (· == "..") ||
    tree.any fun (parts, _) => place.isPrefixOf parts && place.length < parts.length

/-- Go one part on from a place, which must be a folder. -/
def step (tree : Tree) (place : List String) (part : String) : Option (List String) :=
  if !tree.isFolder place then none
  else if part == ".." && place.any (· != "..") then some place.dropLast
  else some (place ++ [part])

/-- Where a path leads. -/
def walk (tree : Tree) (path : Path) : Option (List String) :=
  if path.root.isEmpty then path.parts.foldlM tree.step [] else some ("/" :: path.parts)

def disk (tree : Tree) : Disk := fun path =>
  match tree.walk path with
  | none => .missing
  | some place => match tree.lookup place with
    | some content => .file content
    | none => if place == ["/"] || tree.isFolder place then .folder else .missing

/-- The tree with a file written, over an older one if there is one. The folders on the way are
    made. -/
def write (tree : Tree) (path : Path) (content : String) : Tree :=
  let place := Path.collapse path.parts
  (place, content) :: tree.filter fun (parts, _) => parts != place

end Tree

end SchemaGrammar.Cli
