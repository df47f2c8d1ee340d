import TexBundle.Text.Blank
import TexBundle.Text.Lowercase

/-!
# Fields of a bibliography entry

`name = value` pairs, separated by commas. A value stands in braces, in quotes, or bare up to the
next comma. Reading never fails: whatever stands between a delimited value and the next comma is
dropped, and an unclosed value reaches to the end.

* `closing?`: the delimiter that closes a group, counting nested groups of its own kind;
* `Value.read`: one value and what follows it;
* `readFields`: all pairs, in order.
-/

namespace TexBundle.Bibliography

/-- The texts before and after the delimiter that closes `depth + 1` open groups. -/
def closing? (left right : Char) (depth : Nat) : Text → Option (Text × Text)
  | [] => none
  | c :: t =>
    if c = right ∧ c ≠ left ∧ depth = 0 then some ([], t)
    else
      let depth := if c = left then depth + 1 else if c = right then depth - 1 else depth
      (closing? left right depth t).map fun (a, b) => (c :: a, b)

theorem eq_of_closing? {left right : Char} {depth : Nat} {t a b : Text}
    (h : closing? left right depth t = some (a, b)) : t = a ++ right :: b := by
  induction t generalizing depth a with
  | nil => simp [closing?] at h
  | cons c t ih =>
    rw [closing?] at h
    split at h
    · simp_all
    · obtain ⟨⟨a', b'⟩, h', he⟩ := Option.map_eq_some_iff.1 h
      simp only [Prod.mk.injEq] at he
      obtain ⟨rfl, rfl⟩ := he
      simp [← ih h']

namespace Value

/-- The texts before and after the quote that ends a quoted value. A backslash escapes the next
character; `escaped` says that one has just been read. -/
def quoted? (escaped : Bool) : Text → Option (Text × Text)
  | [] => none
  | c :: t =>
    if c = '"' && !escaped then some ([], t)
    else (quoted? (c = '\\' && !escaped) t).map fun (a, b) => (c :: a, b)

theorem eq_of_quoted? {escaped : Bool} {t a b : Text} (h : quoted? escaped t = some (a, b)) :
    t = a ++ '"' :: b := by
  induction t generalizing escaped a with
  | nil => simp [quoted?] at h
  | cons c t ih =>
    rw [quoted?] at h
    split at h
    · simp_all
    · obtain ⟨⟨a', b'⟩, h', he⟩ := Option.map_eq_some_iff.1 h
      simp only [Prod.mk.injEq] at he
      obtain ⟨rfl, rfl⟩ := he
      simp [← ih h']

/-- The text from the next comma on. -/
def skipToComma (t : Text) : Text := t.dropWhile (· != ',')

/-- One value, untrimmed, and the text from the comma behind it on. -/
def read (t : Text) : Text × Text :=
  match t with
  | '{' :: t =>
    match closing? '{' '}' 0 t with
    | some (value, rest) => (value, skipToComma rest)
    | none => (t, [])
  | '"' :: t =>
    match quoted? false t with
    | some (value, rest) => (value, skipToComma rest)
    | none => (t, [])
  | t => (t.takeWhile (· != ','), skipToComma t)

theorem length_skipToComma_le (t : Text) : (skipToComma t).length ≤ t.length :=
  (List.dropWhile_sublist _).length_le

theorem length_read_le (t : Text) : (read t).2.length ≤ t.length := by
  unfold read
  split
  · rename_i t
    split
    · rename_i value rest h
      have := length_skipToComma_le rest
      have := congrArg List.length (eq_of_closing? h)
      simp only [List.length_append, List.length_cons] at *
      omega
    · simp
  · rename_i t
    split
    · rename_i value rest h
      have := length_skipToComma_le rest
      have := congrArg List.length (eq_of_quoted? h)
      simp only [List.length_append, List.length_cons] at *
      omega
    · simp
  · exact length_skipToComma_le _

end Value

/-- Blanks and commas, which may stand before a field. -/
def isFieldGap (c : Char) : Bool := isBlank c || c == ','

/-- All pairs of a field list, the names in lower case and the values trimmed. Text without `=`
behind the last pair is dropped. -/
def readFields (t : Text) : List (Text × Text) :=
  match _h : Text.breakAt? '=' (t.dropWhile isFieldGap) with
  | none => []
  | some (name, behind) =>
    let value := Value.read (Text.trimStart behind)
    (Text.lowercase (Text.trim name), Text.trim value.1) :: readFields value.2
termination_by t.length
decreasing_by
  have h₁ := Text.length_of_breakAt? _h
  have h₂ : (t.dropWhile isFieldGap).length ≤ t.length := (List.dropWhile_sublist _).length_le
  have h₃ := Value.length_read_le (Text.trimStart behind)
  have h₄ := Text.length_trimStart_le behind
  omega

/-- Pairs with a name, of each name the first. -/
def firstOfEachName (pairs : List (Text × Text)) : List (Text × Text) :=
  (pairs.filter (·.1 ≠ [])).eraseDupsBy fun a b => a.1 == b.1

end TexBundle.Bibliography
