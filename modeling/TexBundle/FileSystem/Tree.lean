import TexBundle.FileSystem.Basic

/-!
# Directory trees

A file system without links as a value: what stands at each list of names, and the directory that
relative paths start from. Paths are looked up one name at a time, so that the first thing wrong on
the way is what is reported.

* `Tree.locate`: the place that a path means, which may be free;
* `Tree.read`, `Tree.write`, `Tree.makeDirectory`: the operations on files;
* `Tree.listing`: everything below the working directory.
-/

namespace TexBundle

inductive Node where
  | directory
  | file (bytes : Bytes)
deriving DecidableEq, Repr

structure Tree where
  nodes : List (List Text × Node) := []
  cwd : List Text := []
deriving DecidableEq, Repr

namespace Tree

/-- The longest name, in bytes. -/
def maxName : Nat := 255

/-- The longest path, in bytes. -/
def maxPath : Nat := 4095

/-- What stands at a place. The root is always a directory. -/
def node? (t : Tree) (place : List Text) : Option Node :=
  if place = [] then some .directory else t.nodes.lookup place

/-- Puts a node at a place. -/
def put (t : Tree) (place : List Text) (node : Node) : Tree :=
  { t with nodes := (place, node) :: t.nodes.filter (·.1 ≠ place) }

/-- The directory reached by following names. -/
def walk (t : Tree) (place : List Text) : List Text → Except FileError (List Text)
  | [] => .ok place
  | name :: names =>
    if name = ['.'] then walk t place names
    else if name = ['.', '.'] then walk t place.dropLast names
    else if maxName < name.size then .error .nameTooLong
    else match t.node? (place ++ [name]) with
      | none => .error .notFound
      | some (.file _) => .error .notDirectory
      | some .directory => walk t (place ++ [name]) names

/-- What a path means: a directory that is there, or a name in such a directory, with or without
slashes behind it. -/
inductive Location where
  | directory (place : List Text)
  | entry (place : List Text) (name : Text) (slash : Bool)
deriving DecidableEq, Repr

/-- The place that a path means. -/
def locate (t : Tree) (path : Text) : Except FileError Location := do
  if path.contains '\x00' then throw .nulByte
  if path = [] then throw .notFound
  if maxPath < path.size then throw .nameTooLong
  let names := (Path.segments path).filter (· ≠ [])
  let start := if Path.isAbsolute path then [] else t.cwd
  match names.getLast? with
  | none => return .directory start
  | some last =>
    if last = ['.'] ∨ last = ['.', '.'] then return .directory (← t.walk start names)
    else return .entry (← t.walk start names.dropLast) last (path.getLast? == some '/')

/-- What stands at the place that a path means. -/
def find (t : Tree) (path : Text) : Except FileError Node := do
  match ← t.locate path with
  | .directory _ => return .directory
  | .entry place name slash =>
    if maxName < name.size then throw .nameTooLong
    match t.node? (place ++ [name]) with
    | none => throw .notFound
    | some .directory => return .directory
    | some (.file bytes) => if slash then throw .notDirectory else return .file bytes

def read (t : Tree) (path : Text) : Except FileError Bytes := do
  match ← t.find path with
  | .directory => throw .isDirectory
  | .file bytes => return bytes

def write (t : Tree) (path : Text) (bytes : Bytes) : Except FileError Tree := do
  match ← t.locate path with
  | .directory _ => throw .isDirectory
  | .entry place name slash =>
    if slash then throw .isDirectory
    if maxName < name.size then throw .nameTooLong
    if t.node? (place ++ [name]) = some .directory then throw .isDirectory
    return t.put (place ++ [name]) (.file bytes)

def makeDirectory (t : Tree) (path : Text) : Except FileError Tree := do
  match ← t.locate path with
  | .directory _ => throw .exists
  | .entry place name _ =>
    if maxName < name.size then throw .nameTooLong
    if (t.node? (place ++ [name])).isSome then throw .exists
    return t.put (place ++ [name]) .directory

def isDirectory (t : Tree) (path : Text) : Bool :=
  match t.find path with
  | .ok .directory => true
  | _ => false

def isPresent (t : Tree) (path : Text) : Bool :=
  match t.find path with
  | .ok _ => true
  | .error _ => false

/-- A change of the tree, unless it fails. -/
def change (f : Tree → Except FileError Tree) : StateM Tree (Except FileError Unit) := fun t =>
  match f t with
  | .ok t' => (.ok (), t')
  | .error e => (.error e, t)

/-- The operations on a tree that is the state. -/
def fileSystem : FileSystem (StateM Tree) where
  read path := return (← get).read path
  write path bytes := change (·.write path bytes)
  makeDirectory path := change (·.makeDirectory path)
  isDirectory path := return (← get).isDirectory path
  isPresent path := return (← get).isPresent path

/-! ## Listing -/

/-- The order in which a directory comes before what it holds, and names are ordered as texts. -/
def placeLe : List Text → List Text → Bool
  | [], _ => true
  | _ :: _, [] => false
  | a :: as, b :: bs => if a = b then placeLe as bs else Text.le a b

/-- Everything below the working directory by relative path, each directory before what it holds.
Files have their bytes, and directories a slash behind their path. -/
def listing (t : Tree) : List (Text × Option Bytes) :=
  let below := t.nodes.filterMap fun (place, node) =>
    if t.cwd.isPrefixOf place ∧ t.cwd ≠ place then some (place.drop t.cwd.length, node) else none
  (below.mergeSort fun a b => placeLe a.1 b.1).map fun (place, node) =>
    match node with
    | .directory => (Path.ofSegments place ++ "/", none)
    | .file bytes => (Path.ofSegments place, some bytes)

end Tree

end TexBundle
