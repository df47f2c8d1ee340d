import TexBundle.Text.Basic

/-!
# JSON values and their text

The values that this library writes: numbers are natural, and an object keeps its members in order.

* `Json.compact`: the text without any blanks;
* `Json.pretty`: the text with one element or member per line, indented by two spaces a level.
-/

namespace TexBundle

inductive Json where
  | null
  | bool (b : Bool)
  | number (n : Nat)
  | string (s : Text)
  | array (items : List Json)
  | object (members : List (Text × Json))
deriving Repr

namespace Json

/-- A character as it is written in a string: quotes, backslashes and controls are escaped. -/
def escapeChar (c : Char) : Text :=
  match c with
  | '"' => "\\\""
  | '\\' => "\\\\"
  | '\x08' => "\\b"
  | '\t' => "\\t"
  | '\n' => "\\n"
  | '\x0c' => "\\f"
  | '\r' => "\\r"
  | c =>
    if c.toNat < 0x20 then
      "\\u00" ++ [Nat.digitChar (c.toNat / 16), Nat.digitChar (c.toNat % 16)]
    else [c]

def stringText (s : Text) : Text := "\"" ++ s.flatMap escapeChar ++ "\""

/-- The text of a value without parts. -/
def boolText (b : Bool) : Text := if b then "true" else "false"

mutual

/-- The text without blanks. -/
def compact : Json → Text
  | null => "null"
  | bool b => boolText b
  | number n => Text.ofNat n
  | string s => stringText s
  | array items => "[" ++ compactItems items ++ "]"
  | object members => "\x7b" ++ compactMembers members ++ "\x7d"

def compactItems : List Json → Text
  | [] => []
  | [v] => compact v
  | v :: vs => compact v ++ "," ++ compactItems vs

def compactMembers : List (Text × Json) → Text
  | [] => []
  | [(k, v)] => stringText k ++ ":" ++ compact v
  | (k, v) :: ms => stringText k ++ ":" ++ compact v ++ "," ++ compactMembers ms

end

/-- A line break and the indentation of a level. -/
def newLine (level : Nat) : Text := '\n' :: List.replicate (2 * level) ' '

mutual

/-- The text of a value that stands at a level of indentation. -/
def prettyAt (level : Nat) : Json → Text
  | null => "null"
  | bool b => boolText b
  | number n => Text.ofNat n
  | string s => stringText s
  | array [] => "[]"
  | array (v :: vs) => "[" ++ prettyItems (level + 1) (v :: vs) ++ newLine level ++ "]"
  | object [] => "\x7b\x7d"
  | object (m :: ms) => "\x7b" ++ prettyMembers (level + 1) (m :: ms) ++ newLine level ++ "\x7d"

def prettyItems (level : Nat) : List Json → Text
  | [] => []
  | [v] => newLine level ++ prettyAt level v
  | v :: vs => newLine level ++ prettyAt level v ++ "," ++ prettyItems level vs

def prettyMembers (level : Nat) : List (Text × Json) → Text
  | [] => []
  | [(k, v)] => newLine level ++ stringText k ++ ": " ++ prettyAt level v
  | (k, v) :: ms =>
    newLine level ++ stringText k ++ ": " ++ prettyAt level v ++ "," ++ prettyMembers level ms

end

/-- The text with one element or member per line. -/
def pretty (v : Json) : Text := prettyAt 0 v

/-- A member of an object. -/
def member (name : Text) (value : Json) : List (Text × Json) := [(name, value)]

/-- A member that is left out if it has no value. -/
def optionalMember (name : Text) (value : Option Json) : List (Text × Json) :=
  value.toList.map (name, ·)

end Json

end TexBundle
