import TexBundle.Bibliography.Entry
import TexBundle.Outline
import TexBundle.Settings

/-!
# Reference sections

Cited bibliography entries as one-line citations, `[key] title — author — year`.

* `clamp`: a field value shortened to a number of characters;
* `formatEntry`: the line of one entry;
* `Reference.section?`: the lines of the cited entries, or of the first few if nothing is cited.
-/

namespace TexBundle

structure ReferenceSection where
  id : Text
  title : Text
  lines : List Text
deriving DecidableEq, Repr

/-- A section of the first level with one paragraph per line. -/
def ReferenceSection.outline (s : ReferenceSection) : Outline :=
  .heading s.id s.title 1 (s.lines.map .paragraph)

namespace Reference

/-- A value without grouping braces, its blanks collapsed. -/
def clean (value : Text) : Text :=
  Text.collapse (value.filter fun c => c != '{' && c != '}')

/-- A cleaned value of at most `limit` characters. What is cut off leaves an ellipsis, which counts
too. -/
def clamp (limit : Nat) (value : Text) : Text :=
  let text := clean value
  if text.length ≤ limit then text
  else if limit = 0 then []
  else Text.trimEnd (text.take (limit - 1)) ++ ['…']

/-- The first four bytes of a date, or all of it if no character ends there. -/
def yearOfDate (date : Text) : Text := (date.takeBytes? 4).getD date

def year? (e : Entry) : Option Text := e.field? "year" <|> (e.field? "date").map yearOfDate

/-- The parts of an entry's line, those that are empty left out. -/
def parts (settings : Settings) (e : Entry) : List Text :=
  ([(e.field? "title").map (clamp settings.titleLimit.toNat),
    (e.field? "author").map (clamp settings.authorLimit.toNat),
    (year? e).map (clamp settings.yearLimit.toNat)].filterMap id).filter (· ≠ [])

/-- The line of one entry. A part that is missing leaves no separator. -/
def formatEntry (settings : Settings) (e : Entry) : Text :=
  let label := "[" ++ e.key ++ "]"
  match parts settings e with
  | [] => label
  | parts => label ++ " " ++ (" — " : Text).intercalate parts

/-- The entries to list: those of the cited keys in citation order, or, if nothing is cited, the
first ones of the bibliography. -/
def chosen (settings : Settings) (cited : List Text) (b : Bibliography) : List Entry :=
  if cited = [] then b.entries.take settings.referenceFallbackLimit.toNat
  else cited.filterMap b.last?

/-- The reference section of a document, if there is anything to list. -/
def section? (settings : Settings) (id : Text) (cited : List Text) (b : Bibliography) :
    Option ReferenceSection :=
  match chosen settings cited b with
  | [] => none
  | entries => some ⟨id ++ "-references", "References", entries.map (formatEntry settings)⟩

end Reference

end TexBundle
