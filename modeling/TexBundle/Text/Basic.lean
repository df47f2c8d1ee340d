/-!
# Texts

A text is its list of characters, and bytes are a list of octets. Offsets and sizes of texts count
UTF-8 bytes, whatever the characters.

* `Text.splitBy`, `Text.breakAt?`, `Text.breakAtLast?`: the ways a text is cut in this library;
* `flatten_splitBy`, `eq_of_breakAt?`, `eq_of_breakAtLast?`: cutting loses only the separators.
-/

namespace TexBundle

abbrev Text := List Char

abbrev Bytes := List UInt8

instance : LawfulBEq Text := inferInstance

/-- String literals stand for texts. -/
instance : Coe String Text := ⟨String.toList⟩

namespace Text

/-- The size in UTF-8 bytes. -/
def size : Text → Nat
  | [] => 0
  | c :: t => c.utf8Size + size t

@[simp] theorem size_nil : size [] = 0 := rfl

@[simp] theorem size_cons (c : Char) (t : Text) : size (c :: t) = c.utf8Size + size t := rfl

@[simp] theorem size_append (s t : Text) : size (s ++ t) = size s + size t := by
  induction s with
  | nil => simp
  | cons c s ih => simp [ih, Nat.add_assoc]

/-- The prefix of exactly `n` bytes, if a character ends there. -/
def takeBytes? : Nat → Text → Option Text
  | 0, _ => some []
  | _ + 1, [] => none
  | n + 1, c :: t =>
    if c.utf8Size ≤ n + 1 then (takeBytes? (n + 1 - c.utf8Size) t).map (c :: ·) else none

/-! ## Cutting -/

/-- The pieces between the characters that satisfy `p`: one more than there are such characters. -/
def splitBy (p : Char → Bool) : Text → List Text
  | [] => [[]]
  | c :: t =>
    if p c then [] :: splitBy p t
    else match splitBy p t with
      | [] => [[c]]
      | s :: ss => (c :: s) :: ss

theorem splitBy_ne_nil (p : Char → Bool) (t : Text) : splitBy p t ≠ [] := by
  cases t with
  | nil => simp [splitBy]
  | cons c t =>
    rw [splitBy]
    split
    · simp
    · split <;> simp

/-- The pieces hold every character that is no separator, in order. -/
theorem flatten_splitBy (p : Char → Bool) (t : Text) : (splitBy p t).flatten = t.filter (!p ·) := by
  induction t with
  | nil => rfl
  | cons c t ih =>
    rw [splitBy]
    split
    · simp_all
    · split
      · exact absurd ‹_› (splitBy_ne_nil p t)
      · simp_all

/-- The texts before and after the first `c`. -/
def breakAt? (c : Char) : Text → Option (Text × Text)
  | [] => none
  | d :: t => if d = c then some ([], t) else (breakAt? c t).map fun (a, b) => (d :: a, b)

theorem eq_of_breakAt? {c : Char} {t a b : Text} (h : breakAt? c t = some (a, b)) :
    t = a ++ c :: b := by
  induction t generalizing a with
  | nil => simp [breakAt?] at h
  | cons d t ih =>
    rw [breakAt?] at h
    split at h
    · simp_all
    · obtain ⟨⟨a', b'⟩, h', he⟩ := Option.map_eq_some_iff.1 h
      simp only [Prod.mk.injEq] at he
      obtain ⟨rfl, rfl⟩ := he
      simp [← ih h']

theorem length_of_breakAt? {c : Char} {t a b : Text} (h : breakAt? c t = some (a, b)) :
    b.length < t.length := by
  rw [eq_of_breakAt? h]
  simp
  omega

/-- The texts before and after the last `c`. -/
def breakAtLast? (c : Char) (t : Text) : Option (Text × Text) :=
  (breakAt? c t.reverse).map fun (b, a) => (a.reverse, b.reverse)

theorem eq_of_breakAtLast? {c : Char} {t a b : Text} (h : breakAtLast? c t = some (a, b)) :
    t = a ++ c :: b := by
  obtain ⟨⟨b', a'⟩, h', he⟩ := Option.map_eq_some_iff.1 h
  simp only [Prod.mk.injEq] at he
  obtain ⟨rfl, rfl⟩ := he
  simpa using congrArg List.reverse (eq_of_breakAt? h')

/-! ## Searching and comparing -/

/-- Whether `needle` occurs somewhere in a text. -/
def includes (t needle : Text) : Bool :=
  match t with
  | [] => needle.isEmpty
  | c :: t => needle.isPrefixOf (c :: t) || includes t needle

/-- The text after `p`, if it starts with `p`. -/
def stripPrefix? : Text → Text → Option Text
  | [], t => some t
  | _ :: _, [] => none
  | c :: p, d :: t => if c = d then stripPrefix? p t else none

theorem stripPrefix?_eq_some_iff {p t r : Text} : stripPrefix? p t = some r ↔ t = p ++ r := by
  induction p generalizing t with
  | nil => simp [stripPrefix?]
  | cons c p ih =>
    cases t with
    | nil => simp [stripPrefix?]
    | cons d t =>
      rw [stripPrefix?]
      split
      · simp_all
      · simp_all [eq_comm]

/-- ASCII letters in lower case, all other characters as they are. -/
def asciiLower (t : Text) : Text := t.map Char.toLower

/-- Equality up to the case of ASCII letters. -/
def sameAscii (s t : Text) : Bool := asciiLower s == asciiLower t

/-- The order of texts by their UTF-8 bytes, which is the order by code points. -/
def le (s t : Text) : Bool := !(List.lex t s fun a b => a.val < b.val)

/-- The decimal digits of a number. -/
def ofNat (n : Nat) : Text := Nat.toDigits 10 n

end Text

end TexBundle
