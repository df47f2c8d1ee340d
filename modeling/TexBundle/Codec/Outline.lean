import TexBundle.Json.Basic
import TexBundle.Json.Decoder
import TexBundle.Outline

/-!
# JSON of outlines

A node is an object whose member `type` says what it is. On reading that member may stand anywhere,
or the node may be a list with the type first. The node as a whole has to be readable before its
other members are looked at, so that nested nodes are decoded from text that is known to be right.
-/

namespace TexBundle

open Json

namespace Outline

mutual

def toJson : Outline → Json
  | heading id title level children =>
    .object [("type", .string "section"), ("id", .string id), ("title", .string title),
      ("level", .number level.toNat), ("children", .array (childrenJson children))]
  | paragraph text => .object [("type", .string "paragraph"), ("text", .string text)]

def childrenJson : List Outline → List Json
  | [] => []
  | node :: nodes => toJson node :: childrenJson nodes

end

/-- What the member `type` may say. -/
inductive Kind where
  | heading
  | paragraph
deriving DecidableEq, Repr

def kinds : List (Text × Kind) := [("section", .heading), ("paragraph", .paragraph)]

def kindNamed (name : Text) : Except DecodeError Kind :=
  (kinds.lookup name).elim (.error (.unknownVariant name (kinds.map (·.1)))) .ok

/-- The kind of the outermost node, as its text is read. -/
def readKind (v : Reading) : Except DecodeError Kind :=
  match v with
  | .string name => kindNamed name
  | v => .error (v.mismatch "variant identifier")

/-- The kind of a nested node, which may be given by its number too. -/
def nestedKind (v : Reading) : Except DecodeError Kind :=
  match v with
  | .integer 0 => .ok .heading
  | .integer 1 => .ok .paragraph
  | .integer n =>
    if n < 0 then .error (v.mismatch "variant identifier")
    else .error (.invalidValue ("integer " ++ ticked (integerText n)) "variant index 0 <= i < 2")
  | v => readKind v

/-- The fields of a section, given the decoder of its children. -/
def sectionRecord (node : Decoder Outline) : Record Outline :=
  Record.make Outline.heading
    |>.field "id" .text .refused
    |>.field "title" .text .refused
    |>.field "level" .byte .refused
    |>.field "children" node.list .refused

def paragraphRecord : Record Outline :=
  (Record.make Outline.paragraph).field "text" .text .refused

def recordOf (node : Decoder Outline) : Kind → Record Outline
  | .heading => sectionRecord node
  | .paragraph => paragraphRecord

def Kind.title : Kind → Text
  | .heading => "struct variant IrNode::Section"
  | .paragraph => "struct variant IrNode::Paragraph"

/-- The name of a list of exactly `n` elements. -/
def exactly (n : Nat) : Text :=
  Text.ofNat n ++ (if n = 1 then " element".toList else " elements".toList) ++ " in sequence"

/-- A node from its other members. -/
def ofMembers (node : Decoder Outline) (kind : Kind) (depth : Nat)
    (ms : List (Option Text × Reading)) : Except DecodeError Outline :=
  (recordOf node kind).fromMembers depth ms none

/-- A node from the elements behind its kind. -/
def ofElements (node : Decoder Outline) (kind : Kind) (depth : Nat) (items : List Reading) :
    Except DecodeError Outline := do
  let r := recordOf node kind
  let (a, rest) ← r.ofElements (r.sized kind.title) depth 0 true items
  if rest.isEmpty then return a
  else throw (.invalidLength items.length (exactly r.names.length))

/-- The kind among the members, and the members without it. `read` reads the kind; every other member
up to the first fault has to pass `pass`. -/
def splitMembers (read : Reading → Except DecodeError Kind) (pass : Reading → Bool) :
    Option Kind → List (Option Text × Reading) →
      Except DecodeError (Option Kind × List (Option Text × Reading))
  | kind, [] => .ok (kind, [])
  | _, (none, _) :: _ => .error .malformed
  | kind, (some key, v) :: ms =>
    if key = "type" then
      match kind with
      | some _ => .error (.duplicateField key)
      | none => do splitMembers read pass (some (← read v)) ms
    else if pass v then do
      let (kind, rest) ← splitMembers read pass kind ms
      return (kind, (some key, v) :: rest)
    else .error .malformed

/-- A node. `inner` reads the kind and `node` decodes the children. -/
def decodeWith (read : Reading → Except DecodeError Kind) (node : Decoder Outline) :
    Decoder Outline := fun depth v =>
  match v, depth with
  | .object _ _, 0 => .error .malformed
  | .array _ _, 0 => .error .malformed
  | .object ms stray, depth + 1 => do
    let (kind, ms) ← splitMembers read (·.isReadable depth) none ms
    if stray.isSome then throw .malformed
    match kind with
    | some kind => ofMembers node kind depth ms
    | none => throw (.missingField "type")
  | .array (v :: items) closed, depth + 1 => do
    let kind ← read v
    if Reading.allReadable depth items && closed then ofElements node kind depth items
    else throw .malformed
  | .array [] closed, _ + 1 => .error (if closed then .missingField "type" else .malformed)
  | v, _ => .error (v.mismatch "internally tagged enum IrNode")

/-- The nested nodes of a node that is known to be readable in so many levels. -/
def nestedDecoder : (levels : Nat) → Decoder Outline
  | 0 => fun _ _ => .error .malformed
  | levels + 1 => decodeWith nestedKind (nestedDecoder levels)

def decoder : Decoder Outline := decodeWith readKind (nestedDecoder maxDepth)

end Outline

end TexBundle
