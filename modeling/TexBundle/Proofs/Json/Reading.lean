import TexBundle.Proofs.Json.Printing

/-!
# Reading JSON text that has been written

* `Json.tree`: the reading that a value should have;
* `value_print`: it is the one that its text has, whatever the blanks between its tokens are;
* `ofText_compact`, `ofText_pretty`: so it is the reading of the whole text;
* `isReadable_tree`: the levels that the reading nests are those of the value.
-/

namespace TexBundle.Json

open Reading

mutual

/-- The reading of a value's text. -/
def tree : Json → Reading
  | null => .null
  | bool b => .bool b
  | number n => .integer n
  | string s => .string s
  | array items => .array (trees items) true
  | object ms => .object (memberTrees ms) none

def trees : List Json → List Reading
  | [] => []
  | v :: vs => tree v :: trees vs

def memberTrees : List (Text × Json) → List (Option Text × Reading)
  | [] => []
  | (k, v) :: ms => (some k, tree v) :: memberTrees ms

end

mutual

/-- All numbers are read as integers. -/
def Fits : Json → Prop
  | number n => n ≤ NumberText.maxWhole
  | array items => AllFit items
  | object ms => MembersFit ms
  | _ => True

def AllFit : List Json → Prop
  | [] => True
  | v :: vs => Fits v ∧ AllFit vs

def MembersFit : List (Text × Json) → Prop
  | [] => True
  | (_, v) :: ms => Fits v ∧ MembersFit ms

end

mutual

/-- The levels that a value nests. -/
def depth : Json → Nat
  | array items => depthOfAll items + 1
  | object ms => depthOfMembers ms + 1
  | _ => 0

def depthOfAll : List Json → Nat
  | [] => 0
  | v :: vs => max (depth v) (depthOfAll vs)

def depthOfMembers : List (Text × Json) → Nat
  | [] => 0
  | (_, v) :: ms => max (depth v) (depthOfMembers ms)

end

/-! ## Blanks -/

theorem skipSpace_append {b : Text} (hb : ∀ c ∈ b, isSpace c = true) (t : Text) :
    skipSpace (b ++ t) = skipSpace t :=
  List.dropWhile_append_of_pos hb

theorem skipSpace_cons {c : Char} (hc : isSpace c = false) (t : Text) :
    skipSpace (c :: t) = c :: t :=
  List.dropWhile_cons_of_neg (by simp [hc])

/-- What the text of a value starts with is neither blank nor closes anything. -/
def StartsValue (c : Char) : Prop := isSpace c = false ∧ c ≠ ']' ∧ c ≠ '}'

instance (c : Char) : Decidable (StartsValue c) := inferInstanceAs (Decidable (_ ∧ _))

theorem startsValue_of_isDigit {c : Char} (h : c.isDigit = true) : StartsValue c := by
  refine ⟨?_, ?_, ?_⟩
  · refine Bool.eq_false_iff.2 fun hspace => ?_
    simp only [isSpace, Bool.or_eq_true, beq_iff_eq] at hspace
    rcases hspace with ((rfl | rfl) | rfl) | rfl <;> exact absurd h (by decide)
  · rintro rfl
    exact absurd h (by decide)
  · rintro rfl
    exact absurd h (by decide)

theorem exists_print_eq (l : Layout) (level : Nat) (v : Json) :
    ∃ c t, print l level v = c :: t ∧ StartsValue c := by
  cases v with
  | null => exact ⟨'n', _, by rw [print]; rfl, by decide⟩
  | bool b =>
    cases b with
    | false => exact ⟨'f', _, by rw [print]; rfl, by decide⟩
    | true => exact ⟨'t', _, by rw [print]; rfl, by decide⟩
  | number n =>
    obtain ⟨c, t, hn⟩ := List.exists_cons_of_ne_nil (ofNat_ne_nil n)
    exact ⟨c, t, by rw [print, hn],
      startsValue_of_isDigit (isDigit_of_mem_ofNat (hn ▸ List.mem_cons_self))⟩
  | string s => exact ⟨'"', _, by rw [print]; rfl, by decide⟩
  | array items =>
    cases items with
    | nil => exact ⟨'[', _, by rw [print]; rfl, by decide⟩
    | cons v vs => exact ⟨'[', _, by rw [print], by decide⟩
  | object ms =>
    cases ms with
    | nil => exact ⟨'{', _, by rw [print]; rfl, by decide⟩
    | cons m ms => exact ⟨'{', _, by rw [print], by decide⟩

theorem exists_printItems_eq (l : Layout) (level : Nat) (v : Json) (vs : List Json) :
    ∃ c t, printItems l level (v :: vs) = c :: t ∧ StartsValue c := by
  obtain ⟨c, t, ht, hc⟩ := exists_print_eq l level v
  cases vs with
  | nil => exact ⟨c, t, by rw [printItems, ht], hc⟩
  | cons w vs => exact ⟨c, _, by rw [printItems_cons_cons, ht, List.cons_append], hc⟩

theorem exists_printMembers_eq (l : Layout) (level : Nat) (m : Text × Json)
    (ms : List (Text × Json)) : ∃ t, printMembers l level (m :: ms) = '"' :: t := by
  cases ms with
  | nil => exact ⟨_, by rw [printMembers]; rfl⟩
  | cons m' ms => exact ⟨_, by rw [printMembers_cons_cons]; rfl⟩

/-! ## Values without parts -/

theorem scalar_boolText (b : Bool) (rest : Text) :
    scalar (boolText b ++ rest) = (.bool b, some rest) := by
  cases b <;> simp [boolText, scalar, literal, Text.stripPrefix?]

theorem scalar_null (rest : Text) : scalar ("null" ++ rest) = (.null, some rest) := by
  simp [scalar, literal, Text.stripPrefix?]

theorem stringText_append (s rest : Text) :
    stringText s ++ rest = '"' :: (s.flatMap escapeChar ++ '"' :: rest) := by
  simp [stringText]

theorem scalar_stringText (s rest : Text) :
    scalar (stringText s ++ rest) = (.string s, some rest) := by
  obtain ⟨parts, hparts, htext⟩ := stringParts?_flatMap s rest
  rw [stringText_append, scalar, hparts]
  simp only [htext]
  rfl

theorem scalar_ofNat {n : Nat} {rest : Text} (hn : n ≤ NumberText.maxWhole)
    (h : EndsNumber rest) : scalar (Text.ofNat n ++ rest) = (.integer n, some rest) := by
  obtain ⟨c, t, hc⟩ := List.exists_cons_of_ne_nil (ofNat_ne_nil n)
  have hdigit := isDigit_of_mem_ofNat (hc ▸ List.mem_cons_self : c ∈ Text.ofNat n)
  have hread := NumberText.read?_ofNat n h
  rw [hc, List.cons_append] at hread ⊢
  have hne (d : Char) (hd : d.isDigit = false) : c ≠ d := by
    rintro rfl
    rw [hd] at hdigit
    cases hdigit
  have hvalue := NumberText.value_ofNat hn
  rw [hc] at hvalue
  rw [scalar]
  · simp only [hread, hvalue]
    rfl
  · exact fun _ e => hne 'n' (by decide) (List.cons.inj e).1
  · exact fun _ e => hne 't' (by decide) (List.cons.inj e).1
  · exact fun _ e => hne 'f' (by decide) (List.cons.inj e).1
  · exact fun _ e => hne '"' (by decide) (List.cons.inj e).1

/-! ## Values -/

theorem value_scalar {c : Char} {b t : Text} {n : Nat} (hb : ∀ c ∈ b, isSpace c = true)
    (hc : isSpace c = false) (harray : c ≠ '[') (hobject : c ≠ '{') :
    value (n + 1) (b ++ c :: t) = scalar (c :: t) := by
  rw [value, skipSpace_append hb, skipSpace_cons hc]
  split
  · rename_i heq
    exact absurd (List.cons.inj heq).1 harray
  · rename_i heq
    exact absurd (List.cons.inj heq).1 hobject
  · rfl

section

variable {b gap t t' rest : Text} {c : Char} {n : Nat} {v : Reading} {items : List Reading}
  {rest? : Option Text}

theorem value_empty_array (hb : ∀ c ∈ b, isSpace c = true) (n : Nat) (rest : Text) :
    value (n + 1) (b ++ '[' :: ']' :: rest) = (.array [] true, some rest) := by
  have hskip : skipSpace (']' :: rest) = ']' :: rest := skipSpace_cons (by decide) _
  rw [value, skipSpace_append hb, skipSpace_cons (by decide)]
  simp only [hskip]

theorem value_array (hb : ∀ c ∈ b, isSpace c = true) (hgap : ∀ c ∈ gap, isSpace c = true)
    (hc : StartsValue c) (h : elements n (c :: t) = (items, some rest)) :
    value (n + 1) (b ++ '[' :: (gap ++ c :: t)) = (.array items true, some rest) := by
  have hskip : skipSpace (gap ++ c :: t) = c :: t := by
    rw [skipSpace_append hgap, skipSpace_cons hc.1]
  rw [value, skipSpace_append hb, skipSpace_cons (by decide)]
  simp only [hskip]
  split
  · rename_i heq
    exact absurd (List.cons.inj heq).1 hc.2.1
  · rw [h]
    rfl

theorem elements_last (hgap : ∀ c ∈ gap, isSpace c = true)
    (hv : value n t = (v, some (gap ++ ']' :: rest))) :
    elements (n + 1) t = ([v], some rest) := by
  have hskip : skipSpace (gap ++ ']' :: rest) = ']' :: rest := by
    rw [skipSpace_append hgap, skipSpace_cons (by decide)]
  rw [elements, hv]
  simp only [Option.map_some, hskip]

theorem elements_cons (hv : value n t = (v, some (',' :: t')))
    (h : elements n t' = (items, rest?)) : elements (n + 1) t = (v :: items, rest?) := by
  have hskip : skipSpace (',' :: t') = ',' :: t' := skipSpace_cons (by decide) _
  rw [elements, hv]
  simp only [Option.map_some, hskip, h]

variable {members' : List (Option Text × Reading)} {stray : Option Reading}

theorem value_empty_object (hb : ∀ c ∈ b, isSpace c = true) (n : Nat) (rest : Text) :
    value (n + 1) (b ++ '{' :: '}' :: rest) = (.object [] none, some rest) := by
  have hskip : skipSpace ('}' :: rest) = '}' :: rest := skipSpace_cons (by decide) _
  rw [value, skipSpace_append hb, skipSpace_cons (by decide)]
  simp only [hskip]

theorem value_object (hb : ∀ c ∈ b, isSpace c = true) (hgap : ∀ c ∈ gap, isSpace c = true)
    (hc : StartsValue c) (h : members n (c :: t) = (members', none, some rest)) :
    value (n + 1) (b ++ '{' :: (gap ++ c :: t)) = (.object members' none, some rest) := by
  have hskip : skipSpace (gap ++ c :: t) = c :: t := by
    rw [skipSpace_append hgap, skipSpace_cons hc.1]
  rw [value, skipSpace_append hb, skipSpace_cons (by decide)]
  simp only [hskip]
  split
  · rename_i heq
    exact absurd (List.cons.inj heq).1 hc.2.2
  · rw [h]

theorem members_last (hb : ∀ c ∈ b, isSpace c = true) (hgap : ∀ c ∈ gap, isSpace c = true)
    (k : Text) (hv : value n t = (v, some (gap ++ '}' :: rest))) :
    members (n + 1) (b ++ (stringText k ++ ':' :: t)) = ([(some k, v)], none, some rest) := by
  obtain ⟨parts, hparts, htext⟩ := stringParts?_flatMap k (':' :: t)
  have hskip : skipSpace (gap ++ '}' :: rest) = '}' :: rest := by
    rw [skipSpace_append hgap, skipSpace_cons (by decide)]
  have hcolon : skipSpace (':' :: t) = ':' :: t := skipSpace_cons (by decide) _
  rw [members, skipSpace_append hb, stringText_append, skipSpace_cons (by decide)]
  simp only [hparts, htext, hcolon, hv, Option.map_some, hskip]

theorem members_cons (hb : ∀ c ∈ b, isSpace c = true) (k : Text)
    (hv : value n t = (v, some (',' :: t'))) (h : members n t' = (members', stray, rest?)) :
    members (n + 1) (b ++ (stringText k ++ ':' :: t)) =
      ((some k, v) :: members', stray, rest?) := by
  obtain ⟨parts, hparts, htext⟩ := stringParts?_flatMap k (':' :: t)
  have hskip : skipSpace (',' :: t') = ',' :: t' := skipSpace_cons (by decide) _
  have hcolon : skipSpace (':' :: t) = ':' :: t := skipSpace_cons (by decide) _
  rw [members, skipSpace_append hb, stringText_append, skipSpace_cons (by decide)]
  simp only [hparts, htext, hcolon, hv, Option.map_some, hskip, h]

end

theorem isDigit_of_isSpace {c : Char} (h : isSpace c = true) :
    c.isDigit = false ∧ c ≠ '.' ∧ c ≠ 'e' ∧ c ≠ 'E' := by
  simp only [isSpace, Bool.or_eq_true, beq_iff_eq] at h
  rcases h with ((rfl | rfl) | rfl) | rfl <;> decide

theorem endsNumber_append {gap t : Text} (hgap : ∀ c ∈ gap, isSpace c = true)
    (ht : EndsNumber t) : EndsNumber (gap ++ t) := by
  cases gap with
  | nil => exact ht
  | cons c gap =>
    rintro d hd
    obtain rfl : c = d := Option.some.inj hd
    exact isDigit_of_isSpace (hgap c List.mem_cons_self)

mutual

/-- A value is read from its text, behind any blanks. Each value and each element takes a step, and
has a character at least: two steps a character are enough. -/
theorem value_print (l : Layout) : ∀ (v : Json) (level n : Nat) (b rest : Text),
    (∀ c ∈ b, isSpace c = true) → Fits v → EndsNumber rest →
    2 * (print l level v).length ≤ n + 1 →
    value n (b ++ (print l level v ++ rest)) = (tree v, some rest)
  | v, level, 0, b, rest, _, _, _, hn => by
    obtain ⟨c, t, hprint, -⟩ := exists_print_eq l level v
    rw [hprint, List.length_cons] at hn
    omega
  | null, level, n + 1, b, rest, hb, _, _, _ => by
    rw [print, tree, ← scalar_null rest]
    exact value_scalar hb (by decide) (by decide) (by decide)
  | bool v, level, n + 1, b, rest, hb, _, _, _ => by
    rw [print, tree, ← scalar_boolText v rest]
    cases v <;> exact value_scalar hb (by decide) (by decide) (by decide)
  | number m, level, n + 1, b, rest, hb, hfits, hrest, _ => by
    rw [Fits] at hfits
    rw [print, tree, ← scalar_ofNat hfits hrest]
    obtain ⟨c, t, hc⟩ := List.exists_cons_of_ne_nil (ofNat_ne_nil m)
    have hdigit := isDigit_of_mem_ofNat (hc ▸ List.mem_cons_self : c ∈ Text.ofNat m)
    rw [hc]
    exact value_scalar hb (startsValue_of_isDigit hdigit).1
      (by rintro rfl; exact absurd hdigit (by decide))
      (by rintro rfl; exact absurd hdigit (by decide))
  | string s, level, n + 1, b, rest, hb, _, _, _ => by
    rw [print, tree, ← scalar_stringText s rest]
    exact value_scalar hb (by decide) (by decide) (by decide)
  | array [], level, n + 1, b, rest, hb, _, _, _ => by
    rw [print, tree, trees]
    exact value_empty_array hb n rest
  | array (v :: vs), level, n + 1, b, rest, hb, hfits, _, hn => by
    rw [Fits] at hfits
    rw [print] at hn ⊢
    simp only [List.length_cons, List.length_append, List.length_nil] at hn
    have hitems := elements_print l (v :: vs) (level + 1) n [] (l.gap level) rest (by simp)
      (l.isSpace_gap level) hfits (by simp) (by omega)
    obtain ⟨c, t, ht, hc⟩ := exists_printItems_eq l (level + 1) v vs
    rw [List.nil_append, ht] at hitems
    have hvalue := value_array hb (l.isSpace_gap (level + 1)) hc hitems
    simpa [ht, tree] using hvalue
  | object [], level, n + 1, b, rest, hb, _, _, _ => by
    rw [print, tree, memberTrees]
    exact value_empty_object hb n rest
  | object (m :: ms), level, n + 1, b, rest, hb, hfits, _, hn => by
    rw [Fits] at hfits
    rw [print] at hn ⊢
    simp only [List.length_cons, List.length_append, List.length_nil] at hn
    have hmembers := members_print l (m :: ms) (level + 1) n [] (l.gap level) rest (by simp)
      (l.isSpace_gap level) hfits (by simp) (by omega)
    obtain ⟨t, ht⟩ := exists_printMembers_eq l (level + 1) m ms
    rw [List.nil_append, ht] at hmembers
    have hvalue := value_object hb (l.isSpace_gap (level + 1)) (by decide) hmembers
    simpa [ht, tree] using hvalue

theorem elements_print (l : Layout) : ∀ (vs : List Json) (level n : Nat) (b gap rest : Text),
    (∀ c ∈ b, isSpace c = true) → (∀ c ∈ gap, isSpace c = true) → AllFit vs → vs ≠ [] →
    2 * (printItems l level vs).length ≤ n →
    elements n (b ++ (printItems l level vs ++ (gap ++ ']' :: rest))) = (trees vs, some rest)
  | [], _, _, _, _, _, _, _, _, h, _ => absurd rfl h
  | [v], level, 0, b, gap, rest, _, _, _, _, hn => by
    obtain ⟨c, t, ht, -⟩ := exists_printItems_eq l level v []
    simp [ht] at hn
  | [v], level, n + 1, b, gap, rest, hb, hgap, hfits, _, hn => by
    rw [AllFit] at hfits
    rw [printItems] at hn ⊢
    rw [trees, trees]
    exact elements_last hgap (value_print l v level n b _ hb hfits.1
      (endsNumber_append hgap (by rintro c ⟨⟩; decide)) (by omega))
  | v :: w :: vs, level, 0, b, gap, rest, _, _, _, _, hn => by
    obtain ⟨c, t, ht, -⟩ := exists_printItems_eq l level v (w :: vs)
    simp [ht] at hn
  | v :: w :: vs, level, n + 1, b, gap, rest, hb, hgap, hfits, _, hn => by
    rw [AllFit] at hfits
    rw [printItems_cons_cons] at hn ⊢
    simp only [List.length_cons, List.length_append] at hn
    have hitems := elements_print l (w :: vs) level n (l.gap level) gap rest (l.isSpace_gap level)
      hgap hfits.2 (by simp) (by omega)
    have hvalue := value_print l v level n b (',' :: (l.gap level ++
      (printItems l level (w :: vs) ++ (gap ++ ']' :: rest)))) hb hfits.1
      (by rintro c ⟨⟩; decide) (by omega)
    rw [trees]
    simpa using elements_cons hvalue hitems

theorem members_print (l : Layout) : ∀ (ms : List (Text × Json)) (level n : Nat)
    (b gap rest : Text),
    (∀ c ∈ b, isSpace c = true) → (∀ c ∈ gap, isSpace c = true) → MembersFit ms → ms ≠ [] →
    2 * (printMembers l level ms).length ≤ n →
    members n (b ++ (printMembers l level ms ++ (gap ++ '}' :: rest))) =
      (memberTrees ms, none, some rest)
  | [], _, _, _, _, _, _, _, _, h, _ => absurd rfl h
  | (k, v) :: ms, level, 0, b, gap, rest, _, _, _, _, hn => by
    obtain ⟨t, ht⟩ := exists_printMembers_eq l level (k, v) ms
    simp [ht] at hn
  | [(k, v)], level, n + 1, b, gap, rest, hb, hgap, hfits, _, hn => by
    rw [MembersFit] at hfits
    rw [printMembers] at hn ⊢
    simp only [List.length_cons, List.length_append] at hn
    have hvalue := value_print l v level n l.pad (gap ++ '}' :: rest) l.isSpace_pad hfits.1
      (endsNumber_append hgap (by rintro c ⟨⟩; decide)) (by omega)
    rw [memberTrees, memberTrees]
    simpa using members_last hb hgap k hvalue
  | (k, v) :: m :: ms, level, n + 1, b, gap, rest, hb, hgap, hfits, _, hn => by
    rw [MembersFit] at hfits
    rw [printMembers_cons_cons] at hn ⊢
    simp only [List.length_cons, List.length_append] at hn
    have hmembers := members_print l (m :: ms) level n (l.gap level) gap rest
      (l.isSpace_gap level) hgap hfits.2 (by simp) (by omega)
    have hvalue := value_print l v level n l.pad (',' :: (l.gap level ++
      (printMembers l level (m :: ms) ++ (gap ++ '}' :: rest)))) l.isSpace_pad hfits.1
      (by rintro c ⟨⟩; decide) (by omega)
    rw [memberTrees]
    simpa using members_cons hb k hvalue hmembers

end

theorem ofText_print (l : Layout) {v : Json} (h : Fits v) :
    ofText (print l 0 v) = (tree v, true) := by
  have hvalue := value_print l v 0 (2 * (print l 0 v).length + 2) [] [] (by simp) h
    (by rintro c ⟨⟩) (by omega)
  rw [List.nil_append, List.append_nil] at hvalue
  rw [ofText, hvalue]
  rfl

theorem ofText_compact {v : Json} (h : Fits v) : ofText v.compact = (tree v, true) := by
  rw [compact_eq 0 v, ofText_print .dense h]

theorem ofText_pretty {v : Json} (h : Fits v) : ofText v.pretty = (tree v, true) := by
  rw [pretty_eq, ofText_print .lines h]

/-! ## Levels -/

mutual

theorem isReadable_tree : ∀ (v : Json) (n : Nat), isReadable n (tree v) = decide (depth v ≤ n)
  | null, _ => by rw [tree, isReadable, depth] <;> simp
  | bool _, _ => by rw [tree, isReadable, depth] <;> simp
  | number _, _ => by rw [tree, isReadable, depth] <;> simp
  | string _, _ => by rw [tree, isReadable, depth] <;> simp
  | array items, 0 => by simp [tree, isReadable, depth]
  | array items, n + 1 => by
    rw [tree, isReadable, allReadable_trees items n, depth]
    simp
  | object ms, 0 => by simp [tree, isReadable, depth]
  | object ms, n + 1 => by
    rw [tree, isReadable, membersReadable_memberTrees ms n, depth]
    simp

theorem allReadable_trees : ∀ (vs : List Json) (n : Nat),
    allReadable n (trees vs) = decide (depthOfAll vs ≤ n)
  | [], _ => by simp [trees, allReadable, depthOfAll]
  | v :: vs, n => by
    rw [trees, allReadable, isReadable_tree v n, allReadable_trees vs n, depthOfAll,
      ← Bool.decide_and]
    exact decide_eq_decide.2 Nat.max_le.symm

theorem membersReadable_memberTrees : ∀ (ms : List (Text × Json)) (n : Nat),
    membersReadable n (memberTrees ms) = decide (depthOfMembers ms ≤ n)
  | [], _ => by simp [memberTrees, membersReadable, depthOfMembers]
  | (k, v) :: ms, n => by
    rw [memberTrees, membersReadable, isReadable_tree v n, membersReadable_memberTrees ms n,
      depthOfMembers, Option.isSome_some, Bool.true_and, ← Bool.decide_and]
    exact decide_eq_decide.2 Nat.max_le.symm

end

theorem depthOfMembers_le_iff {ms : List (Text × Json)} {n : Nat} :
    depthOfMembers ms ≤ n ↔ ∀ m ∈ ms, isReadable n (tree m.2) = true := by
  induction ms with
  | nil => simp [depthOfMembers]
  | cons m ms ih =>
    rw [depthOfMembers, Nat.max_le, ih, List.forall_mem_cons, isReadable_tree, decide_eq_true_iff]

end TexBundle.Json
