import TexBundle.Path
import TexBundle.Storage.Error

/-!
# File systems

The few operations on files that this library needs, in any monad, and the paths they take: `/`
separates the names, an absolute path starts with one, and a name `.` stays where it is.

* `FilePath.join`, `FilePath.ancestors`: putting paths together and taking them apart;
* `FileSystem.makeDirectories`: a directory with all that it lies in.
-/

namespace TexBundle

namespace FilePath

/-- `path` as seen from the directory `base`. -/
def join (base path : Text) : Text :=
  if Path.isAbsolute path ∨ base = [] then path
  else if base.getLast? = some '/' then base ++ path
  else base ++ '/' :: path

/-- The names among the segments of a path. A name `.` counts only at the start of a relative
path. -/
def namesIn (segs : List Text) : List Text :=
  let kept := segs.filter fun name => name ≠ [] ∧ name ≠ ['.']
  if segs.head? = some ['.'] then ['.'] :: kept else kept

/-- The names of a path. -/
def names (path : Text) : List Text := namesIn (Path.segments path)

/-- The first segments, up to the one with this number among those that count. -/
def takeCounted (counts : Text → Bool) : Nat → List Text → List Text
  | 0, _ => []
  | _ + 1, [] => []
  | n + 1, seg :: segs => seg :: takeCounted counts (if counts seg then n else n + 1) segs

/-- The first segments of a path, up to the name with this number, from 0 on. -/
def takeNames (segs : List Text) (n : Nat) : List Text :=
  let kept := takeCounted fun name => name ≠ [] ∧ name ≠ ['.']
  if segs.head? = some ['.'] then ['.'] :: kept n segs.tail else kept (n + 1) segs

/-- The beginning of a path with so many of its names, as it is written: slashes and `.` between two
names are kept, and what follows the last one is cut off. -/
def upTo (path : Text) : Nat → Text
  | 0 => if Path.isAbsolute path then ['/'] else []
  | n + 1 => Path.ofSegments (takeNames (Path.segments path) n)

/-- The directory a path lies in; a path without names lies in none. -/
def parent? (path : Text) : Option Text :=
  match (names path).length with
  | 0 => none
  | n + 1 => some (upTo path n)

/-- The paths with fewer and fewer names, the path itself first. -/
def ancestors (path : Text) : List Text :=
  path :: ((List.range (names path).length).reverse.map (upTo path))

end FilePath

/-- Operations on files and directories. Files are read and written as a whole. -/
structure FileSystem (m : Type → Type) where
  read : (path : Text) → m (Except FileError Bytes)
  write : (path : Text) → Bytes → m (Except FileError Unit)
  makeDirectory : (path : Text) → m (Except FileError Unit)
  isDirectory : (path : Text) → m Bool
  isPresent : (path : Text) → m Bool

namespace FileSystem

variable {m : Type → Type} [Monad m]

/-- What making a directory comes to that may be there already. -/
def orPresent (fs : FileSystem m) (path : Text) (e : FileError) : m (Except FileError Unit) := do
  return if ← fs.isDirectory path then .ok () else .error e

/-- Makes the first of the paths, and before it those it lies in, as far as they are missing. The
empty path needs no making. -/
def makeFirst (fs : FileSystem m) : List Text → m (Except FileError Unit)
  | [] => return .ok ()
  | path :: outer => do
    if path = [] then return .ok ()
    match ← fs.makeDirectory path with
    | .ok () => return .ok ()
    | .error .notFound =>
      match ← fs.makeFirst outer with
      | .error e => return .error e
      | .ok () =>
        match ← fs.makeDirectory path with
        | .ok () => return .ok ()
        | .error e => fs.orPresent path e
    | .error e => fs.orPresent path e

/-- Makes a directory with all that it lies in. -/
def makeDirectories (fs : FileSystem m) (path : Text) : m (Except FileError Unit) :=
  fs.makeFirst (FilePath.ancestors path)

/-- Makes the directory that a path lies in. -/
def makeParent (fs : FileSystem m) (path : Text) : m (Except FileError Unit) :=
  match FilePath.parent? path with
  | some dir => fs.makeDirectories dir
  | none => return .ok ()

end FileSystem

end TexBundle
