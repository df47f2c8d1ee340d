import TexBundle.Path
import TexBundle.Source.Include

/-!
# Include expansion

Expansion replaces each include directive by the expanded text of the file it means, between two
marker lines. It works on texts alone and always succeeds: a directive that cannot or may not be
followed stays as written, and the report says why.

* a directive whose file is being expanded already becomes one skip marker;
* a file more than `maxDepth` levels down is taken over unexpanded;
* every splice is charged to a budget of bytes, its markers and line breaks included;
* a directive whose file is not among the sources stays as it is.
-/

namespace TexBundle

/-- Texts by path. Of two texts with one path the one that comes first counts. -/
abbrev Sources := List (Text × Text)

/-- How far expansion may go. -/
structure Limits where
  maxDepth : Nat := 25
  maxBytes : Nat := 8 * 1024 * 1024
deriving DecidableEq, Repr

namespace Marker

def opening (path : Text) : Text := "% >>> ferrotex: begin include " ++ path

def closing (path : Text) : Text := "% <<< ferrotex: end include " ++ path

def skipped (path : Text) : Text := "% ferrotex: skipped recursive include " ++ path

end Marker

/-- What happened while texts were expanded. The paths are those that the directives mean. -/
structure Report where
  /-- Files spliced in, each before the files spliced into it. -/
  included : List Text := []
  /-- Files replaced by a skip marker. -/
  skipped : List Text := []
  /-- Files that are not among the sources. -/
  missing : List Text := []
  /-- Whether some file was taken over unexpanded. -/
  depthLimited : Bool := false
  /-- Bytes charged to the budget. -/
  spliced : Nat := 0
  /-- Whether some directive was left because of the budget. -/
  exhausted : Bool := false
deriving DecidableEq, Repr

/-- What happened in two texts that stand one behind the other. -/
def Report.append (r s : Report) : Report where
  included := r.included ++ s.included
  skipped := r.skipped ++ s.skipped
  missing := r.missing ++ s.missing
  depthLimited := r.depthLimited || s.depthLimited
  spliced := r.spliced + s.spliced
  exhausted := r.exhausted || s.exhausted

instance : Append Report := ⟨Report.append⟩

structure Expansion where
  text : Text
  report : Report
deriving DecidableEq, Repr

namespace Expansion

/-- The text of the file that a path means; the empty path means none. -/
def sourceOf? (sources : Sources) (path : Text) : Option Text :=
  if path = [] then none else sources.lookup path

/-- Whether a line is at its end behind a text; `ended` says so of what comes before it. -/
def endsLine (ended : Bool) (t : Text) : Bool := t.getLast?.elim ended (· == '\n')

/-- Whether text that follows a block has to be moved to a line of its own. -/
def needsBreak (following : Text) : Bool :=
  !following.isEmpty && !("\n" : Text).isPrefixOf following && !("\r\n" : Text).isPrefixOf following

/-- A block that starts and ends on lines of its own, without an empty line around it. -/
def onOwnLines (ended : Bool) (block following : Text) : Text :=
  (if ended then "" else "\n") ++ (block ++ if needsBreak following then "\n" else "")

/-- A file's expanded text between its markers. -/
def block (path body : Text) : Text :=
  Marker.opening path ++ "\n" ++ (body ++ ((if endsLine true body then "" else "\n") ++
    Marker.closing path))

/-- What splicing a file in costs: its text, both markers and four line breaks. -/
def charge (path source : Text) : Nat :=
  source.size + (Marker.opening path).size + (Marker.closing path).size + 4

/-- Expands the text of the file at a path, when so many bytes have been spliced in already. -/
abbrev Expander := (path source : Text) → (spent : Nat) → Expansion

/-- What takes the place of a directive, written as `lexeme`, that means the file at `path`. -/
def follow (sources : Sources) (limits : Limits) (chain : List Text) (nested : Expander)
    (path lexeme following : Text) (ended : Bool) (spent : Nat) : Expansion :=
  match sourceOf? sources path with
  | none => ⟨lexeme, { missing := [path] }⟩
  | some source =>
    let cost := charge path source
    if path ∈ chain then
      ⟨onOwnLines ended (Marker.skipped path) following, { skipped := [path] }⟩
    else if limits.maxBytes < spent + cost then ⟨lexeme, { exhausted := true }⟩
    else
      let body := nested path source (spent + cost)
      ⟨onOwnLines ended (block path body.text) following,
        { included := [path], spliced := cost } ++ body.report⟩

/-- Follows the directives of a file in directory `dir` one after the other. -/
def splice (sources : Sources) (limits : Limits) (dir : Text) (chain : List Text)
    (nested : Expander) : Segments Source.Directive → (ended : Bool) → (spent : Nat) → Expansion
  | .tail text, _, _ => ⟨text, {}⟩
  | .found before lexeme directive rest, ended, spent =>
    let ended := endsLine ended before
    let here := follow sources limits chain nested (Path.target dir directive.argument) lexeme
      rest.text ended spent
    let behind := splice sources limits dir chain nested rest (endsLine ended here.text)
      (spent + here.report.spliced)
    ⟨before ++ (here.text ++ behind.text), here.report ++ behind.report⟩

/-- Expands the text of a file and of those it includes, so many levels deep. `chain` holds the paths
of the files that it was included from. -/
def expand (sources : Sources) (limits : Limits) : (levels : Nat) → (chain : List Text) → Expander
  | 0, _ => fun _ text _ => ⟨text, { depthLimited := true }⟩
  | levels + 1, chain => fun path text =>
    splice sources limits (Path.directory path) (path :: chain)
      (expand sources limits levels (path :: chain)) (Source.directives text) true

/-- Expands the text of the file at `path`, which is the first of its own chain. -/
def ofRoot (sources : Sources) (limits : Limits) (path text : Text) : Expansion :=
  expand sources limits (limits.maxDepth + 1) [] path text 0

end Expansion

end TexBundle
