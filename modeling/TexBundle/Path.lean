import TexBundle.Text.Blank

/-!
# Bundle paths

Paths inside a bundle are relative and separated by `/`. Nothing here looks at a file system.

* `canonical`: no empty or `.` segment, and `..` only at the front;
* `target`: the file that an include directive means, seen from a directory;
* `climbs`, `escapes`: the two tests that keep requests and packages inside a directory;
* `below`: a path below a storage prefix.
-/

namespace TexBundle.Path

def isAbsolute (path : Text) : Bool := path.head? == some '/'

def segments (path : Text) : List Text := path.splitBy (· == '/')

def ofSegments (segs : List Text) : Text := ['/'].intercalate segs

/-- One more segment behind a canonical list, which is held in reverse. A `..` takes back the last
segment, unless there is none or that one is `..` too. -/
def push (done : List Text) (seg : Text) : List Text :=
  if seg = [] ∨ seg = ['.'] then done
  else if seg = ['.', '.'] then
    match done with
    | last :: done' => if last = ['.', '.'] then seg :: done else done'
    | [] => [seg]
  else seg :: done

/-- The canonical form. A `..` that would climb above the root is kept. -/
def canonical (path : Text) : Text :=
  ofSegments ((segments path).foldl push []).reverse

/-- Everything before the last `/`; empty for a path of one segment. -/
def directory (path : Text) : Text :=
  match path.breakAtLast? '/' with
  | some (dir, _) => dir
  | none => []

/-- The last segment. -/
def fileName (path : Text) : Text :=
  match path.breakAtLast? '/' with
  | some (_, name) => name
  | none => path

/-- What follows the last dot of the last segment, if something stands on both sides of that dot. -/
def extension? (path : Text) : Option Text :=
  match (fileName path).breakAtLast? '.' with
  | some (stem, ext) => if stem = [] ∨ ext = [] then none else some ext
  | none => none

def hasExtension (path : Text) : Bool := (extension? path).isSome

/-- Whether two dots in a row occur anywhere. -/
def climbs (path : Text) : Bool := path.includes ".."

/-- Slashes of either kind. -/
def isSlash (c : Char) : Bool := c == '/' || c == '\\'

/-- Whether a segment, cut at slashes of either kind, is `..`. -/
def hasParentSegment (path : Text) : Bool := (path.splitBy isSlash).any (· == ['.', '.'])

/-- Whether a path is absolute or has a segment `..`, so that it may leave a directory it is joined
to. -/
def escapes (path : Text) : Bool :=
  (match path with
    | c :: _ => isSlash c
    | [] => false) || hasParentSegment path

def dropSlashes (path : Text) : Text := path.dropWhile (· == '/')

def dropEndSlashes (path : Text) : Text := (path.reverse.dropWhile (· == '/')).reverse

/-- A storage prefix and a relative path joined by exactly one slash; an empty prefix adds none. -/
def below (base relative : Text) : Text :=
  let base := dropEndSlashes base
  if base = [] then dropSlashes relative else base ++ '/' :: dropSlashes relative

/-- The argument of a directive without surrounding blanks and without one brace at each end. -/
def bareArgument (raw : Text) : Text :=
  let arg := Text.trim raw
  let arg := if arg.head? = some '{' then arg.tail else arg
  let arg := if arg.getLast? = some '}' then arg.dropLast else arg
  Text.trim arg

/-- The path that an include directive with argument `raw` means in a file of directory `dir`. A name
without extension gets `.tex`. An empty argument means the empty path, which names no file. -/
def target (dir raw : Text) : Text :=
  let arg := bareArgument raw
  if arg = [] then []
  else
    let file := if hasExtension arg then arg else arg ++ ".tex"
    canonical (if dir = [] then file else dir ++ '/' :: file)

end TexBundle.Path
