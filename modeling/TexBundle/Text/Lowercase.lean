import TexBundle.Text.Lowercase.Table
import TexBundle.Text.Basic

/-!
# Lower case

The lower-case form of a text in any script. Only two things go beyond a map on characters: a
capital I with a dot becomes two characters, and a capital sigma at the end of a word has a form of
its own, so that the form of a text is not built from the forms of its parts.
-/

namespace TexBundle.Text

def CaseRange.has (r : CaseRange) (c : Char) : Bool :=
  r.first ≤ c.toNat && c.toNat ≤ r.last && (c.toNat - r.first) % r.step == 0

def isCaseIgnorable (c : Char) : Bool := caseIgnorableRanges.any (·.has c)

def isCased (c : Char) : Bool := casedRanges.any (·.has c)

/-- The lower-case form of a character on its own. -/
def lowercaseChar (c : Char) : Text :=
  if c = 'İ' then ['i', '\u0307']
  else match lowercaseRanges.find? (·.has c) with
    | some r => [Char.ofNat (r.target + (c.toNat - r.first))]
    | none => [c]

/-- Whether the first character that is not case-ignorable is a cased one. -/
def startsCased (t : Text) : Bool :=
  match t.dropWhile isCaseIgnorable with
  | c :: _ => isCased c
  | [] => false

/-- The form of a capital sigma: the final one if a cased character comes before it and none
after it. `before` is read backwards. -/
def lowercaseSigma (before behind : Text) : Char :=
  if startsCased before && !startsCased behind then 'ς' else 'σ'

/-- The lower-case form of a text that stands behind `before`, which is read backwards. -/
def lowercaseAfter (before : Text) : Text → Text
  | [] => []
  | c :: t =>
    (if c = 'Σ' then [lowercaseSigma before t] else lowercaseChar c) ++
      lowercaseAfter (c :: before) t

def lowercase (t : Text) : Text := lowercaseAfter [] t

end TexBundle.Text
