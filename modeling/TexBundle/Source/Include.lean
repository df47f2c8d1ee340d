import TexBundle.Text.Blank
import TexBundle.Source.Comment

/-!
# Include directives

`\input`, `\include` and `\subfile` name a file, either in braces or as a bare word after a blank.
The argument is kept as written; `directives` cuts a source at the directives outside comments.

* `Directive.read?`: the directive at the start of a text, and the text behind it;
* `text_directives`: nothing of the source is lost.
-/

namespace TexBundle.Source

inductive IncludeCommand where
  | input
  | includeFile
  | subfile
deriving DecidableEq, Repr

def IncludeCommand.name : IncludeCommand → Text
  | input => "input"
  | includeFile => "include"
  | subfile => "subfile"

/-- The command that the text starts with. No name is the start of another one. -/
def IncludeCommand.read? (t : Text) : Option (IncludeCommand × Text) :=
  [IncludeCommand.input, .includeFile, .subfile].findSome? fun command =>
    (Text.stripPrefix? command.name t).map (command, ·)

/-- One include directive, its argument untrimmed as between the braces (or the bare word). -/
structure Directive where
  command : IncludeCommand
  argument : Text
deriving DecidableEq, Repr

namespace Directive

/-- Characters of a braced argument. -/
def isBraced (c : Char) : Bool := c != '{' && c != '}'

/-- Characters of a bare argument. -/
def isBare (c : Char) : Bool := !isBlank c && c != '{' && c != '}' && c != '\\' && c != '%'

/-- An argument in braces, blanks before it allowed. -/
def braced? (t : Text) : Option (Text × Text) :=
  match t.dropWhile isBlank with
  | '{' :: body =>
    match body.dropWhile isBraced with
    | '}' :: rest => some (body.takeWhile isBraced, rest)
    | _ => none
  | _ => none

/-- A bare word behind at least one blank; it is not empty. -/
def bare? (t : Text) : Option (Text × Text) :=
  let word := t.dropWhile isBlank
  if word.length < t.length ∧ word.takeWhile isBare ≠ [] then
    some (word.takeWhile isBare, word.dropWhile isBare)
  else none

/-- The directive at the start of a text. Longer names such as `\inputencoding` have neither kind of
argument where it is expected, so they are not read. -/
def read? : Text → Option (Directive × Text)
  | '\\' :: t => do
    let (command, t) ← IncludeCommand.read? t
    let (argument, rest) ← braced? t <|> bare? t
    return (⟨command, argument⟩, rest)
  | _ => none

end Directive

/-- A source cut at its include directives, those in comments left out. -/
def directives (source : Text) : Segments Directive :=
  uncommented (.cut Directive.read? source)

theorem text_directives (source : Text) : (directives source).text = source := by
  rw [directives, text_uncommented, Segments.text_cut]

end TexBundle.Source
