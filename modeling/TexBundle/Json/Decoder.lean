import TexBundle.Json.Reading
import TexBundle.Text.Quoted

/-!
# Decoding JSON

A decoder turns a reading into a typed value or reports the first thing wrong in the order of the
text. What is missing from an object is reported only after all of its members are right.

* `Decoder.text`, `Decoder.unsigned`, `Decoder.list`, `Decoder.option`: the basic decoders;
* `Record`: the fields of a structure, written as an object or as a list in the declared order;
* `Decoder.run`: a decoder applied to a whole text.
-/

namespace TexBundle.Json

inductive DecodeError where
  | malformed
  | invalidType (found expected : Text)
  | invalidValue (found expected : Text)
  | invalidLength (length : Nat) (expected : Text)
  | missingField (name : Text)
  | duplicateField (name : Text)
  | unknownVariant (name : Text) (known : List Text)
deriving DecidableEq, Repr

/-- A name as it is shown in messages. -/
def ticked (name : Text) : Text := '\x60' :: name ++ ['\x60']

def DecodeError.message : DecodeError → Text
  | malformed => "malformed JSON"
  | invalidType found expected => "invalid type: " ++ found ++ ", expected " ++ expected
  | invalidValue found expected => "invalid value: " ++ found ++ ", expected " ++ expected
  | invalidLength n expected => "invalid length " ++ Text.ofNat n ++ ", expected " ++ expected
  | missingField name => "missing field " ++ ticked name
  | duplicateField name => "duplicate field " ++ ticked name
  | unknownVariant name [a, b] =>
    "unknown variant " ++ ticked name ++ ", expected " ++ ticked a ++ " or " ++ ticked b
  | unknownVariant name known =>
    "unknown variant " ++ ticked name ++ ", expected one of " ++
      (", " : Text).intercalate (known.map ticked)

/-- The digits of an integer, with a minus sign if it is negative. -/
def integerText (n : Int) : Text := (if n < 0 then ['-'] else []) ++ Text.ofNat n.natAbs

namespace Reading

/-- What a value is called in a message; a part that has no value has no name. -/
def describe? : Reading → Option Text
  | null => some "null"
  | bool b => some ("boolean " ++ ticked (if b then "true".toList else "false".toList))
  | integer n => some ("integer " ++ ticked (integerText n))
  | float x => some ("floating point " ++ ticked x.text)
  | string s => some ("string " ++ s.quoted)
  | array _ _ => some "sequence"
  | object _ _ => some "map"
  | valueless | broken => none

/-- The error of a value of the wrong type. -/
def mismatch (expected : Text) (v : Reading) : DecodeError :=
  v.describe?.elim .malformed (.invalidType · expected)

end Reading

/-- Levels that a value may nest. -/
def maxDepth : Nat := 127

/-- Decodes a reading that may nest so many levels. -/
abbrev Decoder (α : Type) := (depth : Nat) → Reading → Except DecodeError α

namespace Decoder

def text : Decoder Text := fun _ v =>
  match v with
  | .string s => .ok s
  | v => .error (v.mismatch "a string")

/-- A number below `bound`; `name` is what the type is called. -/
def below (bound : Nat) (name : Text) : Decoder Nat := fun _ v =>
  match v with
  | .integer n =>
    if 0 ≤ n ∧ n < bound then .ok n.toNat
    else .error (.invalidValue ("integer " ++ ticked (integerText n)) name)
  | v => .error (v.mismatch name)

def map {α β : Type} (f : α → β) (d : Decoder α) : Decoder β := fun depth v => (d depth v).map f

/-- A byte. -/
def byte : Decoder UInt8 := (below UInt8.size "u8").map UInt8.ofNat

/-- A word of 64 bits, called `name`. -/
def word (name : Text) : Decoder UInt64 := (below UInt64.size name).map UInt64.ofNat

/-- The elements of an array, in order. -/
def elements {α : Type} (d : Decoder α) (depth : Nat) (closed : Bool) :
    List Reading → Except DecodeError (List α)
  | [] => if closed then .ok [] else .error .malformed
  | v :: vs => do return (← d depth v) :: (← elements d depth closed vs)

def list {α : Type} (d : Decoder α) : Decoder (List α) := fun depth v =>
  match v, depth with
  | .array _ _, 0 => .error .malformed
  | .array items closed, depth + 1 => elements d depth closed items
  | v, _ => .error (v.mismatch "a sequence")

/-- `null` or a value. -/
def option {α : Type} (d : Decoder α) : Decoder (Option α) := fun depth v =>
  match v with
  | .null => .ok none
  | v => (d depth v).map some

/-- Decodes a whole text. -/
def run {α : Type} (d : Decoder α) (t : Text) : Except DecodeError α :=
  let (v, complete) := Reading.ofText t
  match d maxDepth v with
  | .ok a => if complete then .ok a else .error .malformed
  | .error e => .error e

end Decoder

/-! ## Structures -/

/-- What a field means that is not written. -/
inductive Absent (α : Type) where
  /-- It has to be written. -/
  | refused
  /-- It may be left out of an object, but not of a list. -/
  | fromObject (value : α)
  | always (value : α)

def Absent.inObject {α : Type} (name : Text) : Absent α → Except DecodeError α
  | refused => .error (.missingField name)
  | fromObject a | always a => .ok a

/-- An error with the place of the member it comes from. -/
abbrev Placed := Nat × DecodeError

/-- Both results, or the error that comes first. -/
def bothPlaced {α β : Type} : Except Placed α → Except Placed β → Except Placed (α × β)
  | .ok a, .ok b => .ok (a, b)
  | .error e, .ok _ => .error e
  | .ok _, .error e => .error e
  | .error e, .error e' => .error (if e.1 ≤ e'.1 then e else e')

/-- The fields of a structure, of which a value of type `α` is made. -/
structure Record (α : Type) where
  names : List Text
  /-- From the members of an object. -/
  ofMembers : (depth : Nat) → List (Option Text × Reading) → Except Placed α
  /-- From the elements of a list, `n` of which have been used for other fields; gives back the
  elements that are left. -/
  ofElements : (expected : Text) → (depth n : Nat) → (closed : Bool) → List Reading →
    Except DecodeError (α × List Reading)

namespace Record

variable {α β : Type}

/-- No fields at all. -/
def make (a : α) : Record α where
  names := []
  ofMembers _ _ := .ok a
  ofElements _ _ _ _ items := .ok (a, items)

/-- The value of the first member with a name. What is missing is placed behind all members. -/
def member (name : Text) (d : Decoder α) (absent : Absent α) (depth : Nat)
    (ms : List (Option Text × Reading)) : Except Placed α :=
  match ms.findIdx? (·.1 == some name) with
  | some i =>
    match ms[i]? with
    | some (_, v) => (d depth v).mapError (i, ·)
    | none => .error (i, .malformed)
  | none => (absent.inObject name).mapError (ms.length + 1, ·)

/-- The value of the next element. -/
def element (d : Decoder α) (absent : Absent α) (expected : Text) (depth n : Nat) (closed : Bool) :
    List Reading → Except DecodeError (α × List Reading)
  | v :: vs => do return (← d depth v, vs)
  | [] =>
    if closed then
      match absent with
      | .always a => .ok (a, [])
      | _ => .error (.invalidLength n expected)
    else .error .malformed

/-- One more field. -/
def field (r : Record (α → β)) (name : Text) (d : Decoder α) (absent : Absent α) : Record β where
  names := r.names ++ [name]
  ofMembers depth ms :=
    (bothPlaced (r.ofMembers depth ms) (member name d absent depth ms)).map fun (f, a) => f a
  ofElements expected depth n closed items := do
    let (f, items) ← r.ofElements expected depth n closed items
    let (a, items) ← element d absent expected depth (n + r.names.length) closed items
    return (f a, items)

/-- The first member from place `i` on that no structure with these field names may have: one without
a key, a field written twice, or an unknown member that is not well-formed. -/
def faultyMember? (names : List Text) :
    (i : Nat) → (seen : List Text) → List (Option Text × Reading) → Option Placed
  | _, _, [] => none
  | i, _, (none, _) :: _ => some (i, .malformed)
  | i, seen, (some key, v) :: ms =>
    if key ∈ seen then some (i, .duplicateField key)
    else if key ∈ names then faultyMember? names (i + 1) (key :: seen) ms
    else if v.isWellFormed then faultyMember? names (i + 1) seen ms
    else some (i, .malformed)

/-- The first fault in an object as a whole. -/
def checkMembers (names : List Text) (ms : List (Option Text × Reading)) (stray : Option Reading) :
    Except Placed Unit :=
  match faultyMember? names 0 [] ms with
  | some fault => .error fault
  | none => if stray.isSome then .error (ms.length, .malformed) else .ok ()

def fromMembers (r : Record α) (depth : Nat) (ms : List (Option Text × Reading))
    (stray : Option Reading) : Except DecodeError α :=
  match bothPlaced (checkMembers r.names ms stray) (r.ofMembers depth ms) with
  | .ok (_, a) => .ok a
  | .error (_, e) => .error e

/-- How many fields a structure has, in words. -/
def sized (r : Record α) (name : Text) : Text :=
  let n := r.names.length
  name ++ " with " ++ Text.ofNat n ++ if n = 1 then " element".toList else " elements".toList

/-- Decodes a structure; `name` is what it is called in messages. -/
def decoder (r : Record α) (name : Text) : Decoder α := fun depth v =>
  match v, depth with
  | .object _ _, 0 => .error .malformed
  | .array _ _, 0 => .error .malformed
  | .object ms stray, depth + 1 => r.fromMembers depth ms stray
  | .array items closed, depth + 1 => do
    let (a, rest) ← r.ofElements (r.sized name) depth 0 closed items
    if rest = [] ∧ closed then return a else throw .malformed
  | v, _ => .error (v.mismatch name)

end Record

/-! ## Enumerations -/

/-- A value without data: its name, or an object whose only member has that name and is `null`. -/
def Decoder.enumeration {α : Type} (variants : List (Text × α)) : Decoder α := fun depth v =>
  let variant (name : Text) : Except DecodeError α :=
    (variants.lookup name).elim (.error (.unknownVariant name (variants.map (·.1)))) .ok
  match v, depth with
  | .string name, _ => variant name
  | .object _ _, 0 => .error .malformed
  | .object [] (some key), _ + 1 => .error (key.mismatch "variant identifier")
  | .object ((some name, v) :: ms) stray, _ + 1 => do
    let a ← variant name
    match v with
    | .null => if ms = [] ∧ stray.isNone then return a else throw .malformed
    | v => throw (v.mismatch "unit")
  | _, _ => .error .malformed

end TexBundle.Json
