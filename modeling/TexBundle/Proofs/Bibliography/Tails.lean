import TexBundle.Proofs.Bibliography.LooseText

/-!
# Tails of concatenations

A delimited value can be the first piece of a string concatenation. The pieces behind it are
dropped, but only up to the first comma, also if that stands inside of a piece. What is left of them
from there on is loose text in front of the next field.

* `Piece`, `TailedField`, `TailedEntry`: fields with more pieces behind their values;
* `TailedField.spill`: what is left of these pieces;
* `TailedField.readFields_list`: the fields that are read, each behind what is left of the one
  before;
* `TailedEntry.lookup_eq_iff_comma_not_mem`: an entry has the same fields as without its tails
  exactly if no tail in front of another field has a comma.
-/

namespace TexBundle.Bibliography

theorem Value.skipToComma_append_of_mem {s : Text} (h : ',' ∈ s) (t : Text) :
    skipToComma (s ++ t) = skipToComma s ++ t := by
  have hmem : ',' ∈ s.dropWhile (· != ',') := (Text.mem_dropWhile_iff rfl).2 h
  rw [skipToComma, List.dropWhile_append,
    if_neg fun hnil => List.ne_nil_of_mem hmem (List.isEmpty_iff.1 hnil)]
  rfl

/-! ## Pieces -/

/-- A piece of a string concatenation, with the sign in front of it. -/
structure Piece where
  before : Blanks := ⟨[], rfl⟩
  between : Blanks := ⟨[], rfl⟩
  value : PrintedValue
  delimited : value.style ≠ .bare := by decide

namespace Piece

def text (p : Piece) : Text := p.before.1 ++ '#' :: (p.between.1 ++ p.value.text)

/-- A piece ends with the delimiter of its value. -/
theorem exists_concat (p : Piece) : ∃ t c, p.text = t ++ [c] ∧ c ≠ ',' ∧ isFieldGap c = false := by
  obtain ⟨before, between, ⟨style, inner, admitted⟩, delimited⟩ := p
  cases style with
  | braced =>
    refine ⟨before.1 ++ '#' :: (between.1 ++ '{' :: inner.text), '}', ?_, by decide, rfl⟩
    simp [text, PrintedValue.text]
  | quoted =>
    refine ⟨before.1 ++ '#' :: (between.1 ++ '"' :: inner.text), '"', ?_, by decide, rfl⟩
    simp [text, PrintedValue.text]
  | bare => exact absurd rfl delimited

theorem balanced_text (d : Delimiter) {p : Piece}
    (h : d = .parentheses → balanced '(' ')' 0 p.value.inner.content = true) :
    balanced d.left d.right 0 p.text = true := by
  have hsign : balanced d.left d.right 0 ['#'] = true := by cases d <;> rfl
  have hvalue := d.balanced_append (d.balanced_blanks p.between) (d.balanced_value h)
  exact d.balanced_append (d.balanced_blanks p.before) (d.balanced_append hsign hvalue)

end Piece

/-! ## Fields -/

/-- A field as it is written, with more pieces behind its value, which is delimited if there are
any. -/
structure TailedField where
  field : PrintedField
  tail : List Piece := []
  delimited : field.value.style = .bare → tail = [] := by decide

namespace TailedField

def tailText (f : TailedField) : Text := f.tail.flatMap Piece.text

def text (f : TailedField) : Text :=
  f.field.name.text ++
    '=' :: (f.field.before.1 ++ (f.field.value.text ++ (f.tailText ++ f.field.after.1)))

/-- What is left of the tail in front of the next field: all from its first comma on. -/
def spill (f : TailedField) : Text :=
  if ',' ∈ f.tailText then Value.skipToComma f.tailText ++ f.field.after.1 else []

/-- Fields as they are written behind the key, each with the comma in front of it. -/
def list (fields : List TailedField) (ending : Option Blanks) : Text :=
  fields.flatMap (',' :: ·.text) ++ PrintedEntry.fieldList [] ending

theorem list_cons (f : TailedField) (fields : List TailedField) (ending : Option Blanks) :
    list (f :: fields) ending = ',' :: (f.text ++ list fields ending) := by
  simp only [list, List.flatMap_cons, List.cons_append, List.append_assoc]

theorem skipToComma_list (fields : List TailedField) (ending : Option Blanks) :
    Value.skipToComma (list fields ending) = list fields ending := by
  cases fields with
  | nil => exact PrintedEntry.skipToComma_fieldList [] ending
  | cons => rfl

theorem balanced_tailText (d : Delimiter) {f : TailedField}
    (h : d = .parentheses → ∀ p ∈ f.tail, balanced '(' ')' 0 p.value.inner.content = true) :
    balanced d.left d.right 0 f.tailText = true := by
  rw [tailText]
  generalize f.tail = tail at h
  induction tail with
  | nil => cases d <;> rfl
  | cons p tail ih =>
    have hpiece := p.balanced_text d fun hd => h hd p List.mem_cons_self
    exact d.balanced_append hpiece (ih fun hd q hq => h hd q (List.mem_cons_of_mem _ hq))

theorem balanced_text (d : Delimiter) {f : TailedField}
    (hvalue : d = .parentheses → balanced '(' ')' 0 f.field.value.inner.content = true)
    (htail : d = .parentheses → ∀ p ∈ f.tail, balanced '(' ')' 0 p.value.inner.content = true) :
    balanced d.left d.right 0 f.text = true := by
  have hname := d.balanced_padded (d.balanced_of_plain f.field.name_unreserved)
  have hequals : balanced d.left d.right 0 ['='] = true := by cases d <;> rfl
  have hpieces := d.balanced_append (d.balanced_value hvalue)
    (d.balanced_append (balanced_tailText d htail) (d.balanced_blanks f.field.after))
  have hbehind := d.balanced_append (d.balanced_blanks f.field.before) hpieces
  exact d.balanced_append hname (d.balanced_append hequals hbehind)

theorem balanced_list (d : Delimiter) {fields : List TailedField} (ending : Option Blanks)
    (hvalues : d = .parentheses →
      ∀ f ∈ fields, balanced '(' ')' 0 f.field.value.inner.content = true)
    (htails : d = .parentheses →
      ∀ f ∈ fields, ∀ p ∈ f.tail, balanced '(' ')' 0 p.value.inner.content = true) :
    balanced d.left d.right 0 (list fields ending) = true := by
  induction fields with
  | nil =>
    have hnone : ∀ f ∈ ([] : List PrintedField),
        balanced '(' ')' 0 f.value.inner.content = true := List.forall_mem_nil _
    exact d.balanced_fieldList ending fun _ => hnone
  | cons f fields ih =>
    have htext := balanced_text d (fun hd => hvalues hd f List.mem_cons_self)
      fun hd => htails hd f List.mem_cons_self
    have hrest := ih (fun hd g hg => hvalues hd g (List.mem_cons_of_mem _ hg))
      fun hd g hg => htails hd g (List.mem_cons_of_mem _ hg)
    rw [list_cons]
    exact d.balanced_comma (d.balanced_append htext hrest)

/-! ## Reading -/

theorem spill_eq_nil {f : TailedField} (h : ',' ∉ f.tailText) : f.spill = [] := if_neg h

/-- What is left of a tail with a comma starts with that comma and ends with a delimiter. -/
theorem exists_not_gap {f : TailedField} (h : ',' ∈ f.tailText) :
    ∃ c ∈ f.spill, isFieldGap c = false := by
  have htail : f.tail ≠ [] := by
    rintro hnil
    rw [tailText, hnil] at h
    exact absurd h List.not_mem_nil
  obtain ⟨t, c, htext, hc, hgap⟩ := (f.tail.getLast htail).exists_concat
  have hlast : f.tailText = (f.tail.dropLast.flatMap Piece.text ++ t) ++ [c] := by
    rw [tailText, ← List.dropLast_concat_getLast htail, List.flatMap_append, List.flatMap_singleton,
      htext, List.dropLast_concat, List.append_assoc]
  have hfront : ',' ∈ f.tail.dropLast.flatMap Piece.text ++ t := by
    rw [hlast] at h
    exact (List.mem_append.1 h).resolve_right fun hmem => hc (List.mem_singleton.1 hmem).symm
  refine ⟨c, ?_, hgap⟩
  rw [spill, if_pos h, hlast, Value.skipToComma_append_of_mem hfront]
  exact List.mem_append_left _ (List.mem_append_right _ List.mem_cons_self)

theorem skipToComma_tailText (f : TailedField) {rest : Text}
    (hrest : Value.skipToComma rest = rest) :
    Value.skipToComma (f.tailText ++ (f.field.after.1 ++ rest)) = f.spill ++ rest := by
  rw [spill]
  split
  next h => rw [Value.skipToComma_append_of_mem h, List.append_assoc]
  next h =>
    rw [Value.skipToComma_append h,
      Value.skipToComma_append (Text.not_mem_of_allBlank f.field.after.2 rfl), hrest]
    rfl

/-- A field is read with the loose text in front of it in its name, and leaves what is left of its
tail to the next. -/
theorem readFields_behind (f : TailedField) {s : Text} (hs : '=' ∉ s) {rest : Text}
    (hrest : Value.skipToComma rest = rest) :
    readFields (s ++ ',' :: (f.text ++ rest)) =
      (f.field.nameBehind s, f.field.value.inner.content) :: readFields (f.spill ++ rest) := by
  by_cases hstyle : f.field.value.style = .bare
  · have htail : f.tailText = [] := by rw [tailText, f.delimited hstyle]; rfl
    have htext : f.text = f.field.text := by rw [text, htail]; rfl
    rw [htext, f.field.readFields_behind hs hrest, spill_eq_nil (htail ▸ List.not_mem_nil)]
    rfl
  · have hname := f.field.readFields_name_behind hs
      (f.field.before.1 ++ (f.field.value.text ++ (f.tailText ++ (f.field.after.1 ++ rest))))
    rw [f.field.value.read_delimited hstyle, f.field.value.inner.trim_text,
      f.skipToComma_tailText hrest] at hname
    rw [← hname, text]
    simp only [List.append_assoc, List.cons_append]

/-- The fields that are read if the text `s` stands in front of the first comma. -/
def pairs (s : Text) : List TailedField → List (Text × Text)
  | [] => []
  | f :: fields => (f.field.nameBehind s, f.field.value.inner.content) :: pairs f.spill fields

theorem readFields_list {s : Text} (hs : '=' ∉ s) {fields : List TailedField}
    (hspills : ∀ f ∈ fields, '=' ∉ f.spill) (ending : Option Blanks) :
    readFields (s ++ list fields ending) = pairs s fields := by
  induction fields generalizing s with
  | nil =>
    exact readFields_eq_nil fun h => (List.mem_append.1 h).elim hs
      (PrintedEntry.ending_not_mem rfl (by decide) ending)
  | cons f fields ih =>
    rw [list_cons, f.readFields_behind hs (skipToComma_list fields ending),
      ih (hspills f List.mem_cons_self) fun g hg => hspills g (List.mem_cons_of_mem _ hg), pairs]

/-- Without a comma, tails are dropped altogether. The last one may have commas. -/
theorem pairs_nil_eq {fields : List TailedField} (h : ∀ f ∈ fields.dropLast, ',' ∉ f.tailText) :
    pairs [] fields = fields.map (·.field.pair) := by
  induction fields with
  | nil => rfl
  | cons f fields ih =>
    rw [pairs, f.field.nameBehind_nil, List.map_cons]
    cases fields with
    | nil => rfl
    | cons g fields =>
      rw [List.dropLast_cons_cons, List.forall_mem_cons] at h
      rw [spill_eq_nil h.1, ih h.2]
      rfl

/-- A tail with a comma gets into the name of the field behind it. -/
theorem exists_mem_pairs {fields : List TailedField} {f : TailedField}
    (hf : f ∈ fields.dropLast) (hcomma : ',' ∈ f.tailText) (s : Text) :
    ∃ p ∈ pairs s fields, ',' ∈ p.1 := by
  induction fields generalizing s with
  | nil => cases hf
  | cons g fields ih =>
    cases fields with
    | nil => cases hf
    | cons k fields =>
      rw [List.dropLast_cons_cons, List.mem_cons] at hf
      rcases hf with rfl | hf
      · obtain ⟨c, hc, hgap⟩ := exists_not_gap hcomma
        exact ⟨_, List.mem_cons_of_mem _ List.mem_cons_self, k.field.comma_mem_nameBehind hc hgap⟩
      · obtain ⟨p, hp, hname⟩ := ih hf g.spill
        exact ⟨p, List.mem_cons_of_mem _ hp, hname⟩

theorem equals_not_mem_spill {f : TailedField} (h : '=' ∉ Value.skipToComma f.tailText) :
    '=' ∉ f.spill := by
  rw [spill]
  split
  · exact fun hmem => (List.mem_append.1 hmem).elim h
      (Text.not_mem_of_allBlank f.field.after.2 rfl)
  · exact List.not_mem_nil

end TailedField

/-! ## Entries -/

/-- An entry as it is written, with more pieces behind its values; `entry` is the same entry with
these tails removed. -/
structure TailedEntry where
  entry : PrintedEntry
  fields : List TailedField
  fields_eq : fields.map (·.field) = entry.fields := by rfl
  parenthesized : entry.delimiter = .parentheses →
    ∀ f ∈ fields, ∀ p ∈ f.tail, balanced '(' ')' 0 p.value.inner.content = true := by decide

namespace TailedEntry

variable (e : TailedEntry)

def fieldList : Text := TailedField.list e.fields e.entry.ending

theorem balanced_fieldList :
    balanced e.entry.delimiter.left e.entry.delimiter.right 0 e.fieldList = true := by
  refine TailedField.balanced_list e.entry.delimiter e.entry.ending (fun hd f hf => ?_)
    e.parenthesized
  exact e.entry.parenthesized hd f.field (e.fields_eq ▸ List.mem_map_of_mem hf)

def block : PrintedBlock := e.entry.blockWith e.fieldList e.balanced_fieldList

def text : Text := e.block.text

theorem ofText_text : ofText e.text = ⟨[e.entry.entryWith e.fieldList]⟩ :=
  e.entry.ofText_blockWith e.balanced_fieldList (TailedField.skipToComma_list _ _)

variable {e}

theorem readFields_fieldList (hequals : ∀ f ∈ e.fields, '=' ∉ Value.skipToComma f.tailText) :
    readFields e.fieldList = TailedField.pairs [] e.fields :=
  TailedField.readFields_list List.not_mem_nil
    (fun f hf => TailedField.equals_not_mem_spill (hequals f hf)) e.entry.ending

/-- If no tail has an equals sign behind a comma, where it would end a name, then the tails leave all
fields as they are exactly if no tail in front of another field has a comma. -/
theorem lookup_eq_iff_comma_not_mem
    (hequals : ∀ f ∈ e.fields, '=' ∉ Value.skipToComma f.tailText) :
    ∃ x y, ofText e.text = ⟨[x]⟩ ∧ ofText e.entry.text = ⟨[y]⟩ ∧ x.kind = y.kind ∧ x.key = y.key ∧
      ((∀ name, x.fields.lookup name = y.fields.lookup name) ↔
        ∀ f ∈ e.fields.dropLast, ',' ∉ f.tailText) := by
  have hread := readFields_fieldList hequals
  refine ⟨e.entry.entryWith e.fieldList, e.entry.entry, e.ofText_text, e.entry.ofText_text,
    rfl, rfl, fun hlookup f hf hcomma => ?_, fun hcommas name => ?_⟩
  · obtain ⟨p, hp, hname⟩ := TailedField.exists_mem_pairs hf hcomma []
    obtain ⟨name, hne⟩ := PrintedEntry.exists_lookup_entryWith_ne (hread ▸ hp) hname
    exact hne (hlookup name)
  · rw [PrintedEntry.entryWith_eq]
    rw [hread, TailedField.pairs_nil_eq hcommas, ← e.fields_eq, List.map_map]
    rfl

/-- The tail of the first field has an equals sign in it, and that of the last a comma. -/
theorem lookup_eq_iff_comma_not_mem_mixed : ∃ e : TailedEntry,
    (∀ f ∈ e.fields, '=' ∉ Value.skipToComma f.tailText) ∧
      e.text = "@misc(k,title=\x7bA\x7d#\"x=y\" #\x7b(z)\x7d ,author=\"B\"#\"C,D\",)" ∧
      ∃ x y, ofText e.text = ⟨[x]⟩ ∧ ofText e.entry.text = ⟨[y]⟩ ∧
        ∀ name, x.fields.lookup name = y.fields.lookup name := by
  let title : TailedField := {
    field :=
      { name := { content := "title" }
        value := { style := .braced, inner := { content := "A" } }
        after := ⟨" ", rfl⟩ }
    tail := [
      { value := { style := .quoted, inner := { content := "x=y" } } },
      { before := ⟨" ", rfl⟩
        value := { style := .braced, inner := { content := "(z)" } } }] }
  let author : TailedField := {
    field :=
      { name := { content := "author" }
        value := { style := .quoted, inner := { content := "B" } } }
    tail := [{ value := { style := .quoted, inner := { content := "C,D" } } }] }
  let e : TailedEntry := {
    entry := {
      kind := "misc"
      delimiter := .parentheses
      key := { content := "k" }
      fields := [title.field, author.field]
      ending := some ⟨[], rfl⟩ }
    fields := [title, author] }
  have hequals : ∀ f ∈ e.fields, '=' ∉ Value.skipToComma f.tailText := by decide
  have hcommas : ∀ f ∈ e.fields.dropLast, ',' ∉ f.tailText := by decide
  obtain ⟨x, y, hx, hy, -, -, hiff⟩ := lookup_eq_iff_comma_not_mem hequals
  exact ⟨e, hequals, rfl, x, y, hx, hy, hiff.2 hcommas⟩

/-- A name in two pieces, with a comma in the second: the field behind it is not found under its
name. -/
theorem exists_lookup_ne_joined : ∃ e : TailedEntry,
    e.text = "@misc\x7bk,author=\"Knuth\"#\", D\",year=2003\x7d" ∧
      ofText e.text = ⟨[⟨"misc", "k", [
        (("author", "Knuth") : Text × Text), (("d\",year", "2003") : Text × Text)]⟩]⟩ ∧
      ofText e.entry.text = ⟨[⟨"misc", "k", [
        (("author", "Knuth") : Text × Text), (("year", "2003") : Text × Text)]⟩]⟩ := by
  let author : TailedField := {
    field :=
      { name := { content := "author" }
        value := { style := .quoted, inner := { content := "Knuth" } } }
    tail := [{ value := { style := .quoted, inner := { content := ", D" } } }] }
  let year : TailedField := {
    field :=
      { name := { content := "year" }
        value := { style := .bare, inner := { content := "2003" } } } }
  let e : TailedEntry := {
    entry := {
      kind := "misc"
      delimiter := .braces
      key := { content := "k" }
      fields := [author.field, year.field] }
    fields := [author, year] }
  have hequals : ∀ f ∈ e.fields, '=' ∉ Value.skipToComma f.tailText := by decide
  have hspill : author.spill = ", D\"" := by rfl
  have hname : year.field.nameBehind ", D\"" = "d\",year" := by rfl
  have hread : readFields e.fieldList =
      [(("author", "Knuth") : Text × Text), (("d\",year", "2003") : Text × Text)] := by
    rw [readFields_fieldList hequals, TailedField.pairs, author.field.nameBehind_nil,
      TailedField.pairs, hspill, hname]
    rfl
  refine ⟨e, rfl, ?_, ?_⟩
  · rw [e.ofText_text, PrintedEntry.entryWith, hread]
    rfl
  · rw [e.entry.ofText_text]
    rfl

end TailedEntry

end TexBundle.Bibliography
