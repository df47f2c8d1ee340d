import TexBundle.Proofs.Bibliography.RoundTrip
import TexBundle.Proofs.Text.Lowercase

/-!
# Text that belongs to no field

Where a field can start, text is read up to the next `=`, commas and all. Text that belongs to no
field is therefore dropped behind the last field, but in front of another one it becomes a part of
the name of that field, which is then not found under its own name.

* `PrintedField.nameBehind`, `PrintedField.readFields_behind`: a field behind loose text;
* `PrintedEntry.entryWith_eq`, `PrintedEntry.exists_lookup_entryWith_ne`: when an entry has its own
  fields, and when it has not;
* `StrayEntry.lookup_eq_iff_length_le`: a segment between two commas of a field list is harmless
  exactly if no field stands behind it.
-/

namespace TexBundle.Bibliography

/-! ## Names -/

theorem comma_mem_lowercase_iff {t : Text} : ',' ∈ Text.lowercase t ↔ ',' ∈ t :=
  Text.mem_lowercase_iff (by decide) (by decide)

namespace PrintedField

variable (f : PrintedField)

theorem comma_not_mem_pair : ',' ∉ f.pair.1 := fun h =>
  absurd (List.all_eq_true.1 f.name_plain _ (comma_mem_lowercase_iff.1 h)) (by decide)

/-- The name under which a field is read if the text `s` stands in front of its comma. -/
def nameBehind (s : Text) : Text :=
  Text.lowercase (Text.trim ((s ++ ',' :: f.name.text).dropWhile isFieldGap))

theorem nameBehind_nil : f.nameBehind [] = f.pair.1 := by
  rw [nameBehind, List.nil_append, List.dropWhile_cons_of_pos rfl, f.trim_dropWhile_name]
  rfl

/-- Loose text brings the comma behind it into the name. -/
theorem comma_mem_nameBehind {s : Text} {c : Char} (hc : c ∈ s) (hgap : isFieldGap c = false) :
    ',' ∈ f.nameBehind s := by
  have hmem := (Text.mem_dropWhile_iff hgap).2 hc
  have hdrop : (s ++ ',' :: f.name.text).dropWhile isFieldGap =
      s.dropWhile isFieldGap ++ ',' :: f.name.text := by
    rw [List.dropWhile_append, if_neg fun h => List.ne_nil_of_mem hmem (List.isEmpty_iff.1 h)]
  rw [nameBehind, comma_mem_lowercase_iff, Text.mem_trim_iff rfl, hdrop]
  exact List.mem_append_right _ List.mem_cons_self

theorem readFields_name_behind {s : Text} (hs : '=' ∉ s) (behind : Text) :
    readFields (s ++ ',' :: (f.name.text ++ '=' :: behind)) =
      (f.nameBehind s, Text.trim (Value.read (Text.trimStart behind)).1) ::
        readFields (Value.read (Text.trimStart behind)).2 := by
  have hequals : '=' ∉ s ++ ',' :: f.name.text := fun h => (List.mem_append.1 h).elim hs fun h =>
    f.equals_not_mem_name ((List.mem_cons.1 h).resolve_left (by decide))
  rw [← List.cons_append, ← List.append_assoc, readFields_equals hequals]
  rfl

/-- A field behind loose text is read with that text in its name. -/
theorem readFields_behind {s : Text} (hs : '=' ∉ s) {rest : Text}
    (hrest : Value.skipToComma rest = rest) :
    readFields (s ++ ',' :: (f.text ++ rest)) =
      (f.nameBehind s, f.value.inner.content) :: readFields rest := by
  obtain ⟨raw, hread, htrim⟩ := f.value.read_text f.before f.after hrest
  have hname := f.readFields_name_behind hs (f.before.1 ++ (f.value.text ++ (f.after.1 ++ rest)))
  rw [hread, htrim] at hname
  rw [← hname, text]
  simp only [List.append_assoc, List.cons_append]

end PrintedField

/-! ## Looking fields up -/

theorem lookup_eq_find? (pairs : List (Text × Text)) (name : Text) :
    pairs.lookup name = (pairs.find? (·.1 == name)).map (·.2) := by
  induction pairs with
  | nil => rfl
  | cons p pairs ih =>
    by_cases h : p.1 = name
    · rw [List.find?_cons_of_pos (by simpa using h), List.lookup_cons, beq_iff_eq.2 h.symm]
      rfl
    · rw [List.find?_cons_of_neg (by simpa using h), List.lookup_cons,
        beq_false_of_ne (Ne.symm h), ih]

/-- The first pair of each name is the one that is found among all. -/
theorem lookup_firstOfEachName {name : Text} (h : name ≠ []) (pairs : List (Text × Text)) :
    (firstOfEachName pairs).lookup name = pairs.lookup name := by
  rw [lookup_eq_find?, lookup_eq_find?, firstOfEachName_eq_firsts, find?_firsts, List.find?_filter]
  refine congrArg _ (List.find?_congr fun p _ => ?_)
  by_cases hp : p.1 = name
  · simp [hp, h]
  · simp [hp]

/-- A name with a comma is found among the pairs in which it occurs. -/
theorem exists_lookup_ne {pairs pairs' : List (Text × Text)} (h : ∀ p ∈ pairs, ',' ∉ p.1)
    {p : Text × Text} (hp : p ∈ pairs') (hcomma : ',' ∈ p.1) :
    ∃ name, (firstOfEachName pairs').lookup name ≠ (firstOfEachName pairs).lookup name := by
  have hne : p.1 ≠ [] := List.ne_nil_of_mem hcomma
  refine ⟨p.1, fun heq => ?_⟩
  rw [lookup_firstOfEachName hne, lookup_firstOfEachName hne] at heq
  have hnone : pairs.lookup p.1 = none := List.lookup_eq_none_iff.2 fun q hq =>
    bne_iff_ne.2 fun he => h q hq (he ▸ hcomma)
  have hfound := List.lookup_eq_none_iff.1 (heq.trans hnone) p hp
  exact absurd hfound (by simp)

/-! ## Entries with other text behind the key -/

theorem PrintedBlock.ofText_text {b : PrintedBlock} {e : Entry} (h : b.entry? = some e) :
    ofText b.text = ⟨[e]⟩ := by
  have hblocks := blocks_text_append b []
  rw [List.append_nil, h] at hblocks
  rw [ofText, located_eq_firsts, allLocated_eq, hblocks, blocks, Segments.cut]
  rfl

namespace PrintedEntry

variable (e : PrintedEntry) {t : Text}

/-- The block of an entry, with another text behind its key. -/
def blockWith (t : Text) (h : balanced e.delimiter.left e.delimiter.right 0 t = true) :
    PrintedBlock where
  kind := e.kind
  before := e.before
  delimiter := e.delimiter
  body := e.key.text ++ t
  kind_ne_nil := e.kind_ne_nil
  kind_letters := e.kind_letters
  balanced_body := e.delimiter.balanced_append
    (e.delimiter.balanced_padded (e.delimiter.balanced_of_plain e.key_plain)) h

theorem ofText_blockWith (h : balanced e.delimiter.left e.delimiter.right 0 t = true)
    (ht : Value.skipToComma t = t) : ofText (e.blockWith t h).text = ⟨[e.entryWith t]⟩ :=
  PrintedBlock.ofText_text (e.entryOf?_append ht)

theorem ofText_text : ofText e.text = ⟨[e.entry]⟩ :=
  PrintedBlock.ofText_text (b := e.block) e.entryOf?_body

variable {e}

theorem entryWith_eq (h : readFields t = e.fields.map PrintedField.pair) :
    e.entryWith t = e.entry := by
  rw [entryWith, h, firstOfEachName_pairs]
  rfl

theorem exists_lookup_entryWith_ne {p : Text × Text} (hp : p ∈ readFields t) (hcomma : ',' ∈ p.1) :
    ∃ name, (e.entryWith t).fields.lookup name ≠ e.entry.fields.lookup name := by
  have hpairs : ∀ p ∈ e.fields.map PrintedField.pair, ',' ∉ p.1 := by
    intro p hp
    obtain ⟨f, -, rfl⟩ := List.mem_map.1 hp
    exact f.comma_not_mem_pair
  rw [entry, ← firstOfEachName_pairs]
  exact exists_lookup_ne hpairs hp hcomma

end PrintedEntry

/-! ## Stray segments -/

/-- An entry with a segment between the commas of its field list that is no field, behind the first
`place` fields. -/
structure StrayEntry where
  entry : PrintedEntry
  place : Nat
  segment : Text
  segment_plain : segment.all isNameChar = true := by decide
  segment_not_blank : segment.allBlank = false := by decide

namespace StrayEntry

variable (s : StrayEntry)

/-- The segment, with the comma in front of it and the fields behind it. -/
def remainder : Text :=
  ',' :: (s.segment ++ PrintedEntry.fieldList (s.entry.fields.drop s.place) s.entry.ending)

def fieldList : Text := (s.entry.fields.take s.place).flatMap (',' :: ·.text) ++ s.remainder

theorem skipToComma_fieldList : Value.skipToComma s.fieldList = s.fieldList := by
  rw [fieldList]
  cases s.entry.fields.take s.place <;> rfl

theorem balanced_fieldList :
    balanced s.entry.delimiter.left s.entry.delimiter.right 0 s.fieldList = true := by
  let d := s.entry.delimiter
  have hpart {fields : List PrintedField} (hsub : fields ⊆ s.entry.fields)
      (ending : Option Blanks) :
      balanced d.left d.right 0 (PrintedEntry.fieldList fields ending) = true :=
    d.balanced_fieldList ending fun hd f hf => s.entry.parenthesized hd f (hsub hf)
  have hfront := hpart (List.take_subset s.place s.entry.fields) none
  have hbehind := hpart (List.drop_subset s.place s.entry.fields) s.entry.ending
  have hsegment := d.balanced_of_plain (unreserved_of_plain s.segment_plain)
  have hremainder := d.balanced_comma (d.balanced_append hsegment hbehind)
  rw [PrintedEntry.fieldList, Option.elim_none, List.append_nil] at hfront
  exact d.balanced_append hfront hremainder

def block : PrintedBlock := s.entry.blockWith s.fieldList s.balanced_fieldList

def text : Text := s.block.text

theorem ofText_text : ofText s.text = ⟨[s.entry.entryWith s.fieldList]⟩ :=
  s.entry.ofText_blockWith s.balanced_fieldList s.skipToComma_fieldList

theorem equals_not_mem_segment : '=' ∉ s.segment := fun h =>
  absurd (List.all_eq_true.1 s.segment_plain _ h) (by decide)

theorem exists_not_gap : ∃ c ∈ s.segment, isFieldGap c = false := by
  obtain ⟨c, hc, hblank⟩ := List.all_eq_false.1 s.segment_not_blank
  have hcomma : c ≠ ',' := by
    rintro rfl
    exact absurd (List.all_eq_true.1 s.segment_plain _ hc) (by decide)
  exact ⟨c, hc, by simpa [isFieldGap, hcomma] using hblank⟩

/-- Behind the last field, the segment is dropped. -/
theorem readFields_of_le (h : s.entry.fields.length ≤ s.place) :
    readFields s.fieldList = s.entry.fields.map PrintedField.pair := by
  have hremainder : '=' ∉ s.remainder := by
    rw [remainder, List.drop_eq_nil_of_le h, List.mem_cons, List.mem_append]
    rintro (h | h | h)
    · exact absurd h (by decide)
    · exact s.equals_not_mem_segment h
    · exact PrintedEntry.ending_not_mem rfl (by decide) _ h
  rw [fieldList, readFields_fields_append _ rfl, readFields_eq_nil hremainder, List.append_nil,
    List.take_of_length_le h]

/-- The field behind the segment takes it into its name, and all others are read as they are. -/
theorem readFields_of_drop {f : PrintedField} {fields : List PrintedField}
    (h : s.entry.fields.drop s.place = f :: fields) :
    readFields s.fieldList = (s.entry.fields.take s.place).map PrintedField.pair ++
      (f.nameBehind s.segment, f.value.inner.content) :: fields.map PrintedField.pair := by
  rw [fieldList, readFields_fields_append _ rfl, remainder, h, PrintedEntry.fieldList_cons,
    readFields_comma, f.readFields_behind s.equals_not_mem_segment
      (PrintedEntry.skipToComma_fieldList _ _), PrintedEntry.readFields_fieldList]

/-- A stray segment leaves all fields as they are exactly if no field stands behind it. -/
theorem lookup_eq_iff_length_le : ∃ x y, ofText s.text = ⟨[x]⟩ ∧ ofText s.entry.text = ⟨[y]⟩ ∧
    x.kind = y.kind ∧ x.key = y.key ∧
      ((∀ name, x.fields.lookup name = y.fields.lookup name) ↔
        s.entry.fields.length ≤ s.place) := by
  refine ⟨s.entry.entryWith s.fieldList, s.entry.entry, s.ofText_text, s.entry.ofText_text,
    rfl, rfl, fun hlookup => ?_, fun hplace name => ?_⟩
  · by_contra hplace
    obtain ⟨f, fields, hdrop⟩ : ∃ f fields, s.entry.fields.drop s.place = f :: fields :=
      List.exists_cons_of_ne_nil fun hnil => hplace (List.drop_eq_nil_iff.1 hnil)
    obtain ⟨c, hc, hgap⟩ := s.exists_not_gap
    have hmem : (f.nameBehind s.segment, f.value.inner.content) ∈ readFields s.fieldList := by
      rw [s.readFields_of_drop hdrop]
      exact List.mem_append_right _ List.mem_cons_self
    obtain ⟨name, hne⟩ :=
      PrintedEntry.exists_lookup_entryWith_ne hmem (f.comma_mem_nameBehind hc hgap)
    exact hne (hlookup name)
  · rw [PrintedEntry.entryWith_eq (s.readFields_of_le hplace)]

/-- A word without a value in front of two fields: the first of them is not found under its name. -/
theorem exists_lookup_ne_drafted : ∃ s : StrayEntry,
    s.text = "@misc\x7bk, draft, title=\x7bA\x7d, year=2003\x7d" ∧
      ofText s.text = ⟨[⟨"misc", "k", [
        (("draft, title", "A") : Text × Text), (("year", "2003") : Text × Text)]⟩]⟩ ∧
      ofText s.entry.text = ⟨[⟨"misc", "k", [
        (("title", "A") : Text × Text), (("year", "2003") : Text × Text)]⟩]⟩ := by
  let title : PrintedField := {
    name := { content := "title", before := ⟨" ", rfl⟩ }
    value := { style := .braced, inner := { content := "A" } } }
  let year : PrintedField := {
    name := { content := "year", before := ⟨" ", rfl⟩ }
    value := { style := .bare, inner := { content := "2003" } } }
  let s : StrayEntry := {
    entry := {
      kind := "misc"
      delimiter := .braces
      key := { content := "k" }
      fields := [title, year] }
    place := 0
    segment := " draft" }
  have hread : readFields s.fieldList =
      [(("draft, title", "A") : Text × Text), (("year", "2003") : Text × Text)] :=
    (s.readFields_of_drop (f := title) rfl).trans rfl
  refine ⟨s, rfl, ?_, ?_⟩
  · rw [s.ofText_text, PrintedEntry.entryWith, hread]
    rfl
  · rw [s.entry.ofText_text]
    rfl

end StrayEntry

end TexBundle.Bibliography
