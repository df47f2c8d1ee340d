import TexBundle.Proofs.Json.Scalars

/-!
# Layouts of JSON text

Both ways of writing a value only differ in the blanks between its tokens.

* `Layout`, `Json.print`: the text of a value with blanks of any kind;
* `compact_eq`, `pretty_eq`: the two ways of writing are of this form.
-/

namespace TexBundle.Json

open Reading

/-! ## Layouts -/

/-- The blanks between tokens: in front of an element or member of a level, or of the bracket that
closes one, and behind a colon. -/
structure Layout where
  gap : Nat → Text
  pad : Text
  isSpace_gap : ∀ level, ∀ c ∈ gap level, isSpace c = true
  isSpace_pad : ∀ c ∈ pad, isSpace c = true

/-- No blanks at all. -/
def Layout.dense : Layout where
  gap _ := []
  pad := []
  isSpace_gap _ _ h := absurd h List.not_mem_nil
  isSpace_pad _ h := absurd h List.not_mem_nil

/-- A line for each element and member. -/
def Layout.lines : Layout where
  gap := newLine
  pad := [' ']
  isSpace_gap level c h := by
    obtain rfl | h := List.mem_cons.1 h
    · rfl
    · rw [List.eq_of_mem_replicate h]
      rfl
  isSpace_pad c h := by
    rw [List.mem_singleton.1 h]
    rfl

mutual

/-- The text of a value that stands at a level. -/
def print (l : Layout) (level : Nat) : Json → Text
  | null => "null"
  | bool b => boolText b
  | number n => Text.ofNat n
  | string s => stringText s
  | array [] => "[]"
  | array (v :: vs) =>
    '[' :: (l.gap (level + 1) ++ printItems l (level + 1) (v :: vs) ++ l.gap level ++ [']'])
  | object [] => "\x7b\x7d"
  | object (m :: ms) =>
    '{' :: (l.gap (level + 1) ++ printMembers l (level + 1) (m :: ms) ++ l.gap level ++ ['}'])

/-- The elements without the blanks around all of them. -/
def printItems (l : Layout) (level : Nat) : List Json → Text
  | [] => []
  | [v] => print l level v
  | v :: vs => print l level v ++ ',' :: (l.gap level ++ printItems l level vs)

def printMembers (l : Layout) (level : Nat) : List (Text × Json) → Text
  | [] => []
  | [(k, v)] => stringText k ++ ':' :: (l.pad ++ print l level v)
  | (k, v) :: ms =>
    stringText k ++ ':' :: (l.pad ++ print l level v) ++
      ',' :: (l.gap level ++ printMembers l level ms)

end

theorem printItems_cons_cons (l : Layout) (level : Nat) (v w : Json) (vs : List Json) :
    printItems l level (v :: w :: vs) =
      print l level v ++ ',' :: (l.gap level ++ printItems l level (w :: vs)) := by
  rw [printItems]
  simp

theorem printMembers_cons_cons (l : Layout) (level : Nat) (k : Text) (v : Json) (m : Text × Json)
    (ms : List (Text × Json)) :
    printMembers l level ((k, v) :: m :: ms) =
      stringText k ++ ':' :: (l.pad ++ print l level v) ++
        ',' :: (l.gap level ++ printMembers l level (m :: ms)) := by
  rw [printMembers]
  simp

mutual

theorem compact_eq (level : Nat) : ∀ v : Json, compact v = print .dense level v
  | null => by rw [compact, print]
  | bool b => by rw [compact, print]
  | number n => by rw [compact, print]
  | string s => by rw [compact, print]
  | array [] => by rw [compact, compactItems, print]; rfl
  | array (v :: vs) => by
    rw [compact, print, compactItems_eq (level + 1) (v :: vs)]
    simp [Layout.dense]
  | object [] => by rw [compact, compactMembers, print]; rfl
  | object (m :: ms) => by
    rw [compact, print, compactMembers_eq (level + 1) (m :: ms)]
    simp [Layout.dense]

theorem compactItems_eq (level : Nat) : ∀ vs : List Json,
    compactItems vs = printItems .dense level vs
  | [] => by rw [compactItems, printItems]
  | [v] => by rw [compactItems, printItems, compact_eq level v]
  | v :: w :: vs => by
    rw [compactItems, printItems_cons_cons, compact_eq level v, compactItems_eq level (w :: vs)]
    · simp [Layout.dense]
    · simp

theorem compactMembers_eq (level : Nat) : ∀ ms : List (Text × Json),
    compactMembers ms = printMembers .dense level ms
  | [] => by rw [compactMembers, printMembers]
  | [(k, v)] => by
    rw [compactMembers, printMembers, compact_eq level v]
    simp [Layout.dense]
  | (k, v) :: m :: ms => by
    rw [compactMembers, printMembers_cons_cons, compact_eq level v,
      compactMembers_eq level (m :: ms)]
    · simp [Layout.dense]
    · simp

end

mutual

theorem prettyAt_eq (level : Nat) : ∀ v : Json, prettyAt level v = print .lines level v
  | null => by rw [prettyAt, print]
  | bool b => by rw [prettyAt, print]
  | number n => by rw [prettyAt, print]
  | string s => by rw [prettyAt, print]
  | array [] => by rw [prettyAt, print]
  | array (v :: vs) => by
    rw [prettyAt, print, prettyItems_eq (level + 1) (v :: vs) (by simp)]
    simp [Layout.lines]
  | object [] => by rw [prettyAt, print]
  | object (m :: ms) => by
    rw [prettyAt, print, prettyMembers_eq (level + 1) (m :: ms) (by simp)]
    simp [Layout.lines]

theorem prettyItems_eq (level : Nat) : ∀ vs : List Json, vs ≠ [] →
    prettyItems level vs = newLine level ++ printItems .lines level vs
  | [], h => absurd rfl h
  | [v], _ => by rw [prettyItems, printItems, prettyAt_eq level v]
  | v :: w :: vs, _ => by
    rw [prettyItems, printItems_cons_cons, prettyAt_eq level v,
      prettyItems_eq level (w :: vs) (by simp)]
    · simp [Layout.lines]
    · simp

theorem prettyMembers_eq (level : Nat) : ∀ ms : List (Text × Json), ms ≠ [] →
    prettyMembers level ms = newLine level ++ printMembers .lines level ms
  | [], h => absurd rfl h
  | [(k, v)], _ => by
    rw [prettyMembers, printMembers, prettyAt_eq level v]
    simp [Layout.lines]
  | (k, v) :: m :: ms, _ => by
    rw [prettyMembers, printMembers_cons_cons, prettyAt_eq level v,
      prettyMembers_eq level (m :: ms) (by simp)]
    · simp [Layout.lines]
    · simp

end

theorem pretty_eq (v : Json) : pretty v = print .lines 0 v := prettyAt_eq 0 v

end TexBundle.Json
