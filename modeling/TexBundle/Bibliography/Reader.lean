import TexBundle.Bibliography.Entry
import TexBundle.Bibliography.Fields
import TexBundle.Text.Segments

/-!
# Reading bibliographies

A block is `@kind` followed by a group in braces or parentheses. Text between blocks is ignored, and
an `@` that starts no closed block is passed over, so that a broken entry does not hide the next.

* `Block.read?`: the block at the start of a text, and the text behind it;
* `located`: the entries with their byte ranges, of each key the first;
* `ofText`: the same without ranges.
-/

namespace TexBundle.Bibliography

/-- Kinds of blocks that hold no entry. -/
def auxiliaryKinds : List Text := ["comment", "string", "preamble"]

/-- The delimiter that closes a block. -/
def closer? : Char → Option Char
  | '{' => some '}'
  | '(' => some ')'
  | _ => none

/-- The key and the field list of an entry's body. -/
def splitBody (body : Text) : Text × Text := (body.breakAt? ',').getD (body, [])

/-- The entry that a block of some kind holds, if it is no auxiliary block and has a key. -/
def entryOf? (kind body : Text) : Option Entry :=
  let (key, fields) := splitBody body
  let key := Text.trim key
  if kind ∈ auxiliaryKinds ∨ key = [] then none
  else some ⟨kind, key, firstOfEachName (readFields fields)⟩

/-- The block at the start of a text: the entry it holds, if any, and the text behind it. -/
def Block.read? : Text → Option (Option Entry × Text)
  | '@' :: t =>
    let kind := t.takeWhile Char.isAlpha
    if kind = [] then none
    else match Text.trimStart (t.dropWhile Char.isAlpha) with
      | c :: t => do
        let (body, rest) ← closing? c (← closer? c) 0 t
        return (entryOf? (Text.asciiLower kind) body, rest)
      | [] => none
  | _ => none

/-- The blocks of a text, from left to right. -/
def blocks (t : Text) : Segments (Option Entry) := .cut Block.read? t

/-- Every entry of the text with its byte range, from the `@` to the closing delimiter. -/
def allLocated (t : Text) : List (Located Entry) :=
  ((blocks t).locate 0).filterMap fun block => block.value.map fun e => ⟨block.start, block.stop, e⟩

/-- The entries with their byte ranges; of several with one key, the first. -/
def located (t : Text) : List (Located Entry) :=
  (allLocated t).eraseDupsBy fun a b => a.value.key == b.value.key

/-- The bibliography written in a text. -/
def ofText (t : Text) : Bibliography := ⟨(located t).map (·.value)⟩

end TexBundle.Bibliography
