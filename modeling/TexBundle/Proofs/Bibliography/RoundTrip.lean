import TexBundle.Proofs.Bibliography.Blocks
import TexBundle.Proofs.Bibliography.Printing
import TexBundle.Proofs.Text.Lowercase
import TexBundle.Proofs.Text.Segments

/-!
# Reading printed bibliographies

What has been printed is read again, whatever its layout. Each part is read off the front of a text
that goes on behind it; behind a field stands nothing or a comma, so that `skipToComma` stays where
it is.

* `PrintedValue.read_text`: a value, in any style;
* `readFields_text`, `PrintedEntry.readFields_fieldList`: one field, and all fields of an entry;
* `PrintedEntry.read?_text`: an entry, in braces or parentheses;
* `located_text`: a file, with the byte ranges of its entries.
-/

namespace TexBundle.Bibliography

/-! ## Values -/

theorem Value.skipToComma_append {s : Text} (h : ',' ∉ s) (t : Text) :
    skipToComma (s ++ t) = skipToComma t :=
  List.dropWhile_append_of_pos fun _ hc => bne_iff_ne.2 (ne_of_mem_of_not_mem hc h)

theorem Value.takeWhile_append {s t : Text} (h : ',' ∉ s) (ht : skipToComma t = t) :
    (s ++ t).takeWhile (· != ',') = s := by
  have hsplit : t.takeWhile (· != ',') ++ skipToComma t = t := List.takeWhile_append_dropWhile
  rw [ht, List.append_left_eq_self] at hsplit
  rw [List.takeWhile_append_of_pos fun _ hc => bne_iff_ne.2 (ne_of_mem_of_not_mem hc h), hsplit,
    List.append_nil]

theorem Value.read_braced {s : Text} (h : balanced '{' '}' 0 s = true) (t : Text) :
    read ('{' :: (s ++ '}' :: t)) = (s, skipToComma t) := by
  simp only [read, closing?_append (by decide) h]

theorem Value.read_quoted {s : Text} (h : quotable s = true) (t : Text) :
    read ('"' :: (s ++ '"' :: t)) = (s, skipToComma t) := by
  simp only [read, quoted?_append h]

theorem Value.read_bare {s a t : Text} (hs : Style.bare.admits s = true) (ha : a.allBlank = true)
    (ht : skipToComma t = t) : read (s ++ (a ++ t)) = (s ++ a, t) := by
  simp only [Style.admits, Bool.and_eq_true, Bool.not_eq_true', List.isEmpty_eq_false_iff,
    List.all_eq_true, bne_iff_ne] at hs
  obtain ⟨⟨hne, hplain⟩, hquote⟩ := hs
  have hcomma : ',' ∉ s ++ a := fun h =>
    (List.mem_append.1 h).elim (fun h => absurd (hplain _ h) (by decide))
      (Text.not_mem_of_allBlank ha rfl)
  obtain ⟨c, s, rfl⟩ := List.exists_cons_of_ne_nil hne
  have hbrace : c ≠ '{' := by
    rintro rfl
    exact absurd (hplain _ List.mem_cons_self) (by decide)
  rw [← List.append_assoc, List.cons_append, List.cons_append]
  unfold read
  split
  · exact absurd (List.cons.inj ‹_›).1 hbrace
  · exact absurd (congrArg some (List.cons.inj ‹_›).1) hquote
  · rw [← List.cons_append, ← List.cons_append, takeWhile_append hcomma ht,
      skipToComma_append hcomma, ht]

/-- Behind a delimited value, everything up to a comma is dropped. -/
theorem PrintedValue.read_delimited {v : PrintedValue} (h : v.style ≠ .bare) (before : Blanks)
    (behind : Text) :
    Value.read (Text.trimStart (before.1 ++ (v.text ++ behind))) =
      (v.inner.text, Value.skipToComma behind) := by
  rw [Text.trimStart_append before.2]
  obtain ⟨style, inner, admitted⟩ := v
  cases style with
  | braced =>
    simp only [text, List.cons_append, List.append_assoc, List.nil_append]
    rw [Text.trimStart_cons rfl, Value.read_braced (Delimiter.braces.balanced_padded admitted)]
  | quoted =>
    obtain ⟨-, hquotable⟩ := Bool.and_eq_true_iff.1 admitted
    simp only [text, List.cons_append, List.append_assoc, List.nil_append]
    rw [Text.trimStart_cons rfl, Value.read_quoted (inner.quotable_text hquotable)]
  | bare => exact absurd rfl h

/-- A value is read up to the comma behind it, whatever its style. -/
theorem PrintedValue.read_text (v : PrintedValue) (before after : Blanks) {rest : Text}
    (hrest : Value.skipToComma rest = rest) :
    ∃ raw, Value.read (Text.trimStart (before.1 ++ (v.text ++ (after.1 ++ rest)))) = (raw, rest) ∧
      Text.trim raw = v.inner.content := by
  by_cases hstyle : v.style = .bare
  · rw [Text.trimStart_append before.2]
    obtain ⟨style, ⟨before, content, after', trimmed⟩, admitted⟩ := v
    obtain rfl : style = .bare := hstyle
    have hblank := Text.allBlank_append after'.2 after.2
    refine ⟨content ++ (after'.1 ++ after.1), ?_, Text.trim_append trimmed hblank⟩
    have hread := Value.read_bare admitted hblank hrest
    simp only [text, PaddedText.text, List.append_assoc] at hread ⊢
    have hne : content ≠ [] := by
      rintro rfl
      exact Bool.false_ne_true admitted
    rw [Text.trimStart_append before.2, Text.trimStart_append_of_trim trimmed hne, hread]
  · have hskip : Value.skipToComma (after.1 ++ rest) = rest := by
      rw [Value.skipToComma_append (Text.not_mem_of_allBlank after.2 rfl), hrest]
    exact ⟨v.inner.text, by rw [v.read_delimited hstyle, hskip], v.inner.trim_text⟩

/-! ## Fields -/

theorem readFields_eq (t : Text) :
    readFields t = match Text.breakAt? '=' (t.dropWhile isFieldGap) with
      | none => []
      | some (name, behind) =>
        let value := Value.read (Text.trimStart behind)
        (Text.lowercase (Text.trim name), Text.trim value.1) :: readFields value.2 := by
  rw [readFields]
  split <;> simp_all

theorem readFields_comma (t : Text) : readFields (',' :: t) = readFields t := by
  rw [readFields_eq, readFields_eq t, List.dropWhile_cons_of_pos rfl]

/-- The name goes from the first character that is neither blank nor a comma to the first `=`. -/
theorem readFields_equals {t : Text} (h : '=' ∉ t) (behind : Text) :
    readFields (t ++ '=' :: behind) =
      (Text.lowercase (Text.trim (t.dropWhile isFieldGap)),
        Text.trim (Value.read (Text.trimStart behind)).1) ::
          readFields (Value.read (Text.trimStart behind)).2 := by
  have hdrop : (t ++ '=' :: behind).dropWhile isFieldGap =
      t.dropWhile isFieldGap ++ '=' :: behind := by
    rw [List.dropWhile_append]
    split
    next hnil =>
      rw [List.isEmpty_iff.1 hnil]
      rfl
    next => rfl
  have hname : '=' ∉ t.dropWhile isFieldGap := (Text.mem_dropWhile_iff rfl).not.2 h
  rw [readFields_eq, hdrop, Text.breakAt?_append_cons hname]

theorem readFields_eq_nil {t : Text} (h : '=' ∉ t) : readFields t = [] := by
  have hname : '=' ∉ t.dropWhile isFieldGap := (Text.mem_dropWhile_iff rfl).not.2 h
  rw [readFields_eq, Text.breakAt?_eq_none_iff.2 hname]

theorem firstOfEachName_eq_firsts (pairs : List (Text × Text)) :
    firstOfEachName pairs = firsts Prod.fst (pairs.filter (·.1 ≠ [])) :=
  eraseDupsBy_eq_firsts Prod.fst (fun _ _ => beq_iff_eq) _

theorem isFieldGap_of_mem (b : Blanks) : ∀ c ∈ b.1, isFieldGap c = true := fun c hc => by
  rw [isFieldGap, List.all_eq_true.1 b.2 c hc, Bool.true_or]

namespace PrintedField

variable (f : PrintedField)

theorem equals_not_mem_name : '=' ∉ f.name.text := fun h =>
  absurd (List.all_eq_true.1 f.name_plain _ (PaddedText.mem_content rfl h)) (by decide)

theorem trim_dropWhile_name : Text.trim (f.name.text.dropWhile isFieldGap) = f.name.content := by
  obtain ⟨c, t, hname⟩ := List.exists_cons_of_ne_nil f.name_ne_nil
  have hblank : isBlank c = false :=
    Text.not_isBlank_of_trim f.name.trimmed (by rw [hname, List.head?_cons])
  have hcomma : c ≠ ',' := by
    rintro rfl
    exact absurd (List.all_eq_true.1 f.name_plain _ (hname ▸ List.mem_cons_self)) (by decide)
  have hgap : isFieldGap c = false := by simp [isFieldGap, hblank, hcomma]
  have hdrop : f.name.text.dropWhile isFieldGap = f.name.content ++ f.name.after.1 := by
    rw [PaddedText.text, List.dropWhile_append_of_pos (isFieldGap_of_mem f.name.before), hname,
      List.cons_append, List.dropWhile_cons_of_neg (by simp [hgap])]
  rw [hdrop, Text.trim_append f.name.trimmed f.name.after.2]

end PrintedField

/-- One field is read off a list of fields. -/
theorem readFields_text (f : PrintedField) {rest : Text} (hrest : Value.skipToComma rest = rest) :
    readFields (f.text ++ rest) = f.pair :: readFields rest := by
  obtain ⟨raw, hread, htrim⟩ := f.value.read_text f.before f.after hrest
  have htext : f.text ++ rest =
      f.name.text ++ '=' :: (f.before.1 ++ (f.value.text ++ (f.after.1 ++ rest))) := by
    simp only [PrintedField.text, List.append_assoc, List.cons_append]
  rw [htext, readFields_equals f.equals_not_mem_name, hread, htrim, f.trim_dropWhile_name]
  rfl

theorem Value.skipToComma_eq_self_iff {t : Text} :
    skipToComma t = t ↔ t = [] ∨ ∃ u, t = ',' :: u := by
  cases t with
  | nil => exact iff_of_true rfl (.inl rfl)
  | cons c t =>
    by_cases hc : c = ','
    · subst hc
      exact iff_of_true rfl (.inr ⟨t, rfl⟩)
    · have hskip : skipToComma (c :: t) = skipToComma t :=
        List.dropWhile_cons_of_pos (bne_iff_ne.2 hc)
      have hle := length_skipToComma_le t
      refine iff_of_false (fun h => ?_) (by simp [hc])
      have hlength := congrArg List.length (hskip.symm.trans h)
      rw [List.length_cons] at hlength
      omega

/-- All fields are read off a text, and then what stands behind them. -/
theorem readFields_fields_append (fields : List PrintedField) {rest : Text}
    (hrest : Value.skipToComma rest = rest) :
    readFields (fields.flatMap (',' :: ·.text) ++ rest) =
      fields.map PrintedField.pair ++ readFields rest := by
  induction fields with
  | nil => rfl
  | cons f fields ih =>
    have hskip : Value.skipToComma (fields.flatMap (',' :: ·.text) ++ rest) =
        fields.flatMap (',' :: ·.text) ++ rest := by
      cases fields with
      | nil => exact hrest
      | cons => rfl
    rw [List.flatMap_cons, List.append_assoc, List.cons_append, readFields_comma,
      readFields_text f hskip, ih, List.map_cons, List.cons_append]

/-- The key is cut off at the first comma. -/
theorem splitBody_append {key t : Text} (hkey : ',' ∉ key) (ht : Value.skipToComma t = t) :
    ∃ fields, splitBody (key ++ t) = (key, fields) ∧ readFields fields = readFields t := by
  rw [splitBody]
  rcases Value.skipToComma_eq_self_iff.1 ht with rfl | ⟨u, rfl⟩
  · refine ⟨[], ?_, rfl⟩
    rw [List.append_nil, Text.breakAt?_eq_none_iff.2 hkey]
    rfl
  · refine ⟨u, ?_, (readFields_comma u).symm⟩
    rw [Text.breakAt?_append_cons hkey]
    rfl

namespace PrintedEntry

theorem ending_not_mem {c : Char} (hblank : isBlank c = false) (hcomma : c ≠ ',')
    (ending : Option Blanks) : c ∉ fieldList [] ending := by
  cases ending with
  | none => exact List.not_mem_nil
  | some b => exact List.not_mem_cons_of_ne_of_not_mem hcomma (Text.not_mem_of_allBlank b.2 hblank)

theorem skipToComma_fieldList (fields : List PrintedField) (ending : Option Blanks) :
    Value.skipToComma (fieldList fields ending) = fieldList fields ending := by
  cases fields with
  | nil => cases ending <;> rfl
  | cons => rfl

/-- All fields are read off the text behind the key. -/
theorem readFields_fieldList (fields : List PrintedField) (ending : Option Blanks) :
    readFields (fieldList fields ending) = fields.map PrintedField.pair := by
  have hending : readFields (fieldList [] ending) = [] :=
    readFields_eq_nil (ending_not_mem rfl (by decide) ending)
  have hfields := readFields_fields_append fields (skipToComma_fieldList [] ending)
  rwa [hending, List.append_nil] at hfields

theorem firstOfEachName_pairs (fields : List PrintedField) :
    firstOfEachName (fields.map PrintedField.pair) =
      firsts Prod.fst (fields.map PrintedField.pair) := by
  have hnames : ∀ p ∈ fields.map PrintedField.pair, p.1 ≠ [] := by
    intro p hp
    obtain ⟨f, -, rfl⟩ := List.mem_map.1 hp
    exact Text.lowercase_ne_nil f.name_ne_nil
  rw [firstOfEachName_eq_firsts, List.filter_eq_self.2 (by simpa using hnames)]

/-- What the entry would be if another text stood behind its key. -/
def entryWith (e : PrintedEntry) (t : Text) : Entry where
  kind := Text.asciiLower e.kind
  key := e.key.content
  fields := firstOfEachName (readFields t)

theorem entryWith_fieldList (e : PrintedEntry) :
    e.entryWith (fieldList e.fields e.ending) = e.entry := by
  rw [entryWith, readFields_fieldList, firstOfEachName_pairs]
  rfl

theorem entryOf?_append (e : PrintedEntry) {t : Text} (ht : Value.skipToComma t = t) :
    entryOf? (Text.asciiLower e.kind) (e.key.text ++ t) = some (e.entryWith t) := by
  have hcomma : ',' ∉ e.key.text := fun h =>
    absurd (List.all_eq_true.1 e.key_plain _ (PaddedText.mem_content rfl h)) (by decide)
  obtain ⟨fields, hsplit, hread⟩ := splitBody_append hcomma ht
  have hentry : ¬(Text.asciiLower e.kind ∈ auxiliaryKinds ∨ e.key.content = []) :=
    not_or.2 ⟨e.kind_entry, e.key_ne_nil⟩
  rw [entryOf?, hsplit]
  simp only [e.key.trim_text]
  rw [if_neg hentry, hread]
  rfl

theorem entryOf?_body (e : PrintedEntry) :
    entryOf? (Text.asciiLower e.kind) e.body = some e.entry := by
  rw [body, e.entryOf?_append (skipToComma_fieldList _ _), e.entryWith_fieldList]

end PrintedEntry

/-! ## Entries -/

namespace PrintedEntry

/-- The block that an entry is. -/
def block (e : PrintedEntry) : PrintedBlock where
  kind := e.kind
  before := e.before
  delimiter := e.delimiter
  body := e.body
  kind_ne_nil := e.kind_ne_nil
  kind_letters := e.kind_letters
  balanced_body := e.balanced_body

theorem read?_text (e : PrintedEntry) (rest : Text) :
    Block.read? (e.text ++ rest) = some (some e.entry, rest) := by
  rw [← e.entryOf?_body]
  exact e.block.read?_text rest

end PrintedEntry

/-! ## Files -/

namespace PrintedFile

/-- The blocks that the entries are. -/
def blocks (es : List (Gap × PrintedEntry)) : List (Gap × PrintedBlock) :=
  es.map fun e => (e.1, e.2.block)

theorem textOf_eq (es : List (Gap × PrintedEntry)) (ending : Text) :
    textOf es ending = PrintedBlock.textOf (blocks es) ending := by
  induction es with
  | nil => rfl
  | cons e es ih =>
    rw [textOf, ih]
    rfl

theorem locate_eq (n : Nat) (es : List (Gap × PrintedEntry)) :
    locate n es = (PrintedBlock.locate n (blocks es)).filterMap holding? := by
  induction es generalizing n with
  | nil => rfl
  | cons e es ih =>
    have hentry : e.2.block.entry? = some e.2.entry := e.2.entryOf?_body
    have hblocks : blocks (e :: es) = (e.1, e.2.block) :: blocks es := rfl
    rw [locate, ih, hblocks, PrintedBlock.locate, hentry]
    rfl

/-- The entries that are meant are the blocks of the text that hold one. -/
theorem filterMap_locate_blocks (n : Nat) (es : List (Gap × PrintedEntry)) (ending : Gap) :
    (((Bibliography.blocks (textOf es ending.1)).locate n).filterMap fun block =>
      block.value.map fun e => (⟨block.start, block.stop, e⟩ : Located Entry)) = locate n es := by
  rw [textOf_eq, PrintedBlock.locate_blocks_textOf, locate_eq]
  rfl

end PrintedFile

/-- Printed entries are read again: in order, with the byte ranges of their texts, and of several
with one key the first. -/
theorem located_text (f : PrintedFile) :
    located f.text = firsts (fun e => e.value.key) (PrintedFile.locate 0 f.entries) := by
  rw [located, allLocated, PrintedFile.text, PrintedFile.filterMap_locate_blocks]
  exact eraseDupsBy_eq_firsts _ (fun _ _ => beq_iff_eq) _

/-- Two entries in which every style and delimiter occurs, and a name that occurs twice. -/
def PrintedFile.mixed : PrintedFile where
  entries := [
    (⟨"see ", by decide⟩, {
      kind := "Misc"
      delimiter := .braces
      key := { content := "x" }
      fields := [
        { name := { content := "Year", before := ⟨" ", rfl⟩ }
          value := { style := .bare, inner := { content := "1999" } } },
        { name := { content := "year" }
          value := { style := .quoted, inner := { content := ['\\', '"', '@'] } } }]
      ending := some ⟨" ", rfl⟩ }),
    (⟨[], by decide⟩, {
      kind := "book"
      before := ⟨" ", rfl⟩
      delimiter := .parentheses
      key := { content := "y" }
      fields := [
        { name := { content := "title", after := ⟨" ", rfl⟩ }
          value := { style := .braced, inner := { content := "a (b)" } } }] })]
  ending := ⟨[], by decide⟩

theorem located_text_mixed :
    located "see @Misc\x7bx, Year=1999,year=\"\\\"@\", \x7d@book (y,title =\x7ba (b)\x7d)" =
      [⟨4, 36, "misc", "x", [(("year", "1999") : Text × Text)]⟩,
        ⟨36, 60, "book", "y", [(("title", "a (b)") : Text × Text)]⟩] :=
  (located_text PrintedFile.mixed).trans rfl

end TexBundle.Bibliography
