import TexBundle.Text.Blank
import TexBundle.Source.Comment

/-!
# Citations

A citation command has `cite` or `Cite` in its name (`\cite`, `\parencite`, `\Citep`), may carry a
star and up to two optional arguments, and lists its keys in braces. `citedKeys` collects the keys of
all citations outside comments, each once, in order of first appearance.
-/

namespace TexBundle.Source

/-- Skips one argument in square brackets and the blanks behind it, if a closed one stands there. -/
def skipOption (t : Text) : Text :=
  match t with
  | '[' :: body =>
    match body.dropWhile (· != ']') with
    | ']' :: rest => Text.trimStart rest
    | _ => t
  | _ => t

/-- Skips a star and then blanks. -/
def skipStar (t : Text) : Text :=
  match t with
  | '*' :: rest => Text.trimStart rest
  | _ => Text.trimStart t

def isCiteName (name : Text) : Bool := name.includes "cite" || name.includes "Cite"

/-- The key list of the citation at the start of a text, as written between the braces. -/
def Citation.read? : Text → Option (Text × Text)
  | '\\' :: t =>
    if isCiteName (t.takeWhile Char.isAlpha) then
      match skipOption (skipOption (skipStar (t.dropWhile Char.isAlpha))) with
      | '{' :: body =>
        match body.dropWhile (· != '}') with
        | '}' :: rest => some (body.takeWhile (· != '}'), rest)
        | _ => none
      | _ => none
    else none
  | _ => none

/-- The keys of one list. A star stands for the whole bibliography and names no key. -/
def keysOfList (list : Text) : List Text :=
  ((list.splitBy (· == ',')).map Text.trim).filter fun key => key ≠ [] ∧ key ≠ ['*']

def citedKeys (source : Text) : List Text :=
  ((uncommented (.cut Citation.read? source)).values.flatMap keysOfList).eraseDups

end TexBundle.Source
