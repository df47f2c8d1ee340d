import TexBundle.Json.Number

/-!
# Reading JSON text

Reading never fails. It gives a tree that also shows where the text stops being JSON, and which of
its parts are well-formed but have no value (a number out of range, half a surrogate pair). A decoder
walks the tree in the order of the text, so that the first thing wrong is what it reports.

* `Reading.ofText`: the tree of a text, and whether anything but blanks follows;
* `Reading.isWellFormed`: whether the text of a part may be skipped;
* `Reading.isReadable`: whether a part has a value within a number of levels.
-/

namespace TexBundle.Json

/-- What a text says, as far as it can be read. In an object a key without a value is `none`, and
`stray` is what stands where the next key or the closing brace should be. -/
inductive Reading where
  | null
  | bool (b : Bool)
  | integer (n : Int)
  | float (x : Binary64)
  | string (s : Text)
  | array (items : List Reading) (closed : Bool)
  | object (members : List (Option Text × Reading)) (stray : Option Reading)
  | valueless
  | broken
deriving Repr

namespace Reading

/-! ## Strings -/

/-- A part of a string: a character, or a code unit written in hexadecimal. -/
inductive StringPart where
  | char (c : Char)
  | unit (n : Nat)
deriving DecidableEq, Repr

def hexDigit? (c : Char) : Option Nat :=
  if c.isDigit then some (c.toNat - '0'.toNat)
  else if 'a' ≤ c ∧ c ≤ 'f' then some (c.toNat - 'a'.toNat + 10)
  else if 'A' ≤ c ∧ c ≤ 'F' then some (c.toNat - 'A'.toNat + 10)
  else none

def hexUnit? (a b c d : Char) : Option Nat := do
  return ((← hexDigit? a) * 16 + (← hexDigit? b)) * 256 + ((← hexDigit? c) * 16 + (← hexDigit? d))

/-- What a backslash and one more character stand for. -/
def escape? : Char → Option Char
  | '"' => some '"'
  | '\\' => some '\\'
  | '/' => some '/'
  | 'b' => some '\x08'
  | 'f' => some '\x0c'
  | 'n' => some '\n'
  | 'r' => some '\r'
  | 't' => some '\t'
  | _ => none

/-- The parts of a string behind its opening quote, and the text behind the closing one. -/
def stringParts? : Text → Option (List StringPart × Text)
  | [] => none
  | '"' :: t => some ([], t)
  | '\\' :: 'u' :: a :: b :: c :: d :: t => do
    let n ← hexUnit? a b c d
    let (parts, rest) ← stringParts? t
    return (.unit n :: parts, rest)
  | '\\' :: c :: t => do
    let c ← escape? c
    let (parts, rest) ← stringParts? t
    return (.char c :: parts, rest)
  | c :: t => do
    let (parts, rest) ← if c.toNat < 0x20 then none else stringParts? t
    return (.char c :: parts, rest)

def isHighSurrogate (n : Nat) : Bool := 0xD800 ≤ n && n < 0xDC00

def isLowSurrogate (n : Nat) : Bool := 0xDC00 ≤ n && n < 0xE000

/-- The text of a string; a surrogate that is not half of a pair has none. -/
def textOfParts? : List StringPart → Option Text
  | [] => some []
  | .char c :: parts => (textOfParts? parts).map (c :: ·)
  | .unit n :: parts =>
    if isHighSurrogate n then
      match parts with
      | .unit m :: parts =>
        if isLowSurrogate m then
          (textOfParts? parts).map
            (Char.ofNat (0x10000 + (n - 0xD800) * 0x400 + (m - 0xDC00)) :: ·)
        else none
      | _ => none
    else if isLowSurrogate n then none
    else (textOfParts? parts).map (Char.ofNat n :: ·)

/-! ## Values -/

def isSpace (c : Char) : Bool := c == ' ' || c == '\n' || c == '\t' || c == '\r'

def skipSpace (t : Text) : Text := t.dropWhile isSpace

def ofNumber : NumberValue → Reading
  | .integer n => .integer n
  | .float x => .float x
  | .outOfRange => .valueless

/-- A literal name; a text that has another one is not read further. -/
def literal (name : Text) (v : Reading) (t : Text) : Reading × Option Text :=
  match Text.stripPrefix? name t with
  | some rest => (v, some rest)
  | none => (.broken, none)

/-- A value that is not a container. -/
def scalar (t : Text) : Reading × Option Text :=
  match t with
  | 'n' :: _ => literal "null" .null t
  | 't' :: _ => literal "true" (.bool true) t
  | 'f' :: _ => literal "false" (.bool false) t
  | '"' :: t =>
    match stringParts? t with
    | some (parts, rest) => ((textOfParts? parts).elim .valueless .string, some rest)
    | none => (.broken, none)
  | t =>
    match NumberText.read? t with
    | some (x, rest) => (ofNumber x.value, some rest)
    | none => (.broken, none)

mutual

/-- The value at the start of a text, and the text behind it unless it breaks off. No more than two
steps are taken for each character. -/
def value : (steps : Nat) → Text → Reading × Option Text
  | 0, _ => (.broken, none)
  | n + 1, t =>
    match skipSpace t with
    | '[' :: t =>
      match skipSpace t with
      | ']' :: rest => (.array [] true, some rest)
      | t =>
        let (items, rest?) := elements n t
        (.array items rest?.isSome, rest?)
    | '{' :: t =>
      match skipSpace t with
      | '}' :: rest => (.object [] none, some rest)
      | t =>
        let (ms, stray, rest?) := members n t
        (.object ms stray, rest?)
    | t => scalar t

/-- The elements of an array up to its closing bracket. -/
def elements : (steps : Nat) → Text → List Reading × Option Text
  | 0, _ => ([], none)
  | n + 1, t =>
    let (v, rest?) := value n t
    match rest?.map skipSpace with
    | some (',' :: t) =>
      let (vs, rest?) := elements n t
      (v :: vs, rest?)
    | some (']' :: rest) => ([v], some rest)
    | _ => ([v], none)

/-- The members of an object up to its closing brace, or up to what stands there instead of a
key. -/
def members : (steps : Nat) → Text → List (Option Text × Reading) × Option Reading × Option Text
  | 0, _ => ([], some .broken, none)
  | n + 1, t =>
    match skipSpace t with
    | '"' :: t =>
      match stringParts? t with
      | none => ([], some .broken, none)
      | some (parts, t) =>
        let key := textOfParts? parts
        match skipSpace t with
        | ':' :: t =>
          let (v, rest?) := value n t
          match rest?.map skipSpace with
          | some (',' :: t) =>
            let (ms, stray, rest?) := members n t
            ((key, v) :: ms, stray, rest?)
          | some ('}' :: rest) => ([(key, v)], none, some rest)
          | _ => ([(key, v)], some .broken, none)
        | _ => ([(key, .broken)], some .broken, none)
    | t => ([], some (value n t).1, none)

end

/-- The tree of a whole text; the flag says that nothing but blanks follows the value. -/
def ofText (t : Text) : Reading × Bool :=
  let (v, rest?) := value (2 * t.length + 2) t
  (v, (rest?.map skipSpace) == some [])

/-! ## Two tests -/

mutual

/-- Whether the text of a part is JSON, with or without a value. -/
def isWellFormed : Reading → Bool
  | broken => false
  | array items closed => allWellFormed items && closed
  | object ms stray => membersWellFormed ms && stray.isNone
  | _ => true

def allWellFormed : List Reading → Bool
  | [] => true
  | v :: vs => isWellFormed v && allWellFormed vs

def membersWellFormed : List (Option Text × Reading) → Bool
  | [] => true
  | (_, v) :: ms => isWellFormed v && membersWellFormed ms

end

mutual

/-- Whether a part has a value that nests at most `depth` levels. -/
def isReadable (depth : Nat) : Reading → Bool
  | broken => false
  | valueless => false
  | array items closed =>
    match depth with
    | 0 => false
    | depth + 1 => allReadable depth items && closed
  | object ms stray =>
    match depth with
    | 0 => false
    | depth + 1 => membersReadable depth ms && stray.isNone
  | _ => true

def allReadable (depth : Nat) : List Reading → Bool
  | [] => true
  | v :: vs => isReadable depth v && allReadable depth vs

def membersReadable (depth : Nat) : List (Option Text × Reading) → Bool
  | [] => true
  | (k, v) :: ms => k.isSome && isReadable depth v && membersReadable depth ms

end

end Reading

end TexBundle.Json
