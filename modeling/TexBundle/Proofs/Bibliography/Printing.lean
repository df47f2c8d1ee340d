import TexBundle.Bibliography.Reader
import TexBundle.Proofs.Bibliography.Groups
import TexBundle.Proofs.Text.Cutting
import Mathlib.Data.List.Find

/-!
# Printed bibliographies

The ways to write a list of entries down. A printed form says which entries are meant and how they
are laid out: how entries and values are delimited, the blanks between any two parts, and the text
around the entries. Forms that cannot be read back cannot be built.

* `PrintedValue`, `PrintedField`, `PrintedEntry`, `PrintedFile`: the forms, with their texts;
* `PrintedEntry.entry`, `PrintedFile.locate`: the entries that they mean;
* `firsts`: of the items with one key, the first;
* `PrintedEntry.balanced_body`: nothing in an entry closes it before its end.
-/

namespace TexBundle.Bibliography

/-! ## Items with a key -/

/-- Of the items with one key, the first. -/
def firsts {α β : Type} [DecidableEq β] (key : α → β) : List α → List α
  | [] => []
  | a :: l => a :: (firsts key l).filter fun b => key b ≠ key a

section

variable {α β : Type} [DecidableEq β] (key : α → β)

theorem firsts_filter_ne (k : β) (l : List α) :
    firsts key (l.filter fun a => key a ≠ k) = (firsts key l).filter fun a => key a ≠ k := by
  induction l with
  | nil => rfl
  | cons a l ih =>
    by_cases ha : key a = k
    · rw [List.filter_cons_of_neg (by simpa using ha), ih, firsts,
        List.filter_cons_of_neg (by simpa using ha), ha, List.filter_filter]
      simp
    · rw [List.filter_cons_of_pos (by simpa using ha), firsts, ih, firsts,
        List.filter_cons_of_pos (by simpa using ha), List.filter_filter, List.filter_filter]
      simp only [Bool.and_comm]

theorem eraseDupsBy_eq_firsts {same : α → α → Bool}
    (hsame : ∀ a b, same a b = true ↔ key a = key b) (l : List α) :
    l.eraseDupsBy same = firsts key l := by
  match l with
  | [] => rfl
  | a :: l =>
    have hfilter : (l.filter fun b => decide (same b a = false)) =
        l.filter fun b => key b ≠ key a := by
      refine List.filter_congr fun b _ => ?_
      rw [decide_eq_decide, ne_eq, ← hsame, Bool.not_eq_true]
    rw [List.eraseDupsBy_cons, hfilter, eraseDupsBy_eq_firsts hsame, firsts_filter_ne, firsts]
termination_by l.length
decreasing_by exact Nat.lt_succ_of_le (List.length_filter_le _ _)

variable {key}

theorem mem_firsts_iff {a : α} {l : List α} :
    a ∈ firsts key l ↔
      ∃ before after, l = before ++ a :: after ∧ ∀ b ∈ before, key b ≠ key a := by
  induction l with
  | nil => simp [firsts]
  | cons b l ih =>
    rw [firsts, List.mem_cons, List.mem_filter, ih, decide_eq_true_eq]
    constructor
    · rintro (rfl | ⟨⟨before, after, rfl, h⟩, hab⟩)
      · exact ⟨[], l, rfl, by simp⟩
      · exact ⟨b :: before, after, rfl, List.forall_mem_cons.2 ⟨Ne.symm hab, h⟩⟩
    · rintro ⟨before, after, hl, h⟩
      cases before with
      | nil => exact .inl (List.cons.inj hl).1.symm
      | cons c before =>
        obtain ⟨rfl, rfl⟩ := List.cons.inj hl
        obtain ⟨hab, h⟩ := List.forall_mem_cons.1 h
        exact .inr ⟨⟨before, after, rfl, h⟩, Ne.symm hab⟩

variable (key)

theorem firsts_sublist (l : List α) : (firsts key l).Sublist l := by
  induction l with
  | nil => exact .slnil
  | cons a l ih => exact (List.filter_sublist.trans ih).cons_cons a

theorem firsts_map {γ : Type} (f : γ → α) (l : List γ) :
    firsts key (l.map f) = (firsts (fun a => key (f a)) l).map f := by
  induction l with
  | nil => rfl
  | cons a l ih =>
    rw [List.map_cons, firsts, ih, List.filter_map, firsts, List.map_cons]
    rfl

/-- Of two lists, the second adds the items whose key the first does not have. -/
theorem firsts_append (l l' : List α) :
    firsts key (l ++ l') =
      firsts key l ++ (firsts key l').filter fun b => key b ∉ (firsts key l).map key := by
  induction l with
  | nil => simp [firsts]
  | cons a l ih =>
    rw [List.cons_append, firsts, ih, List.filter_append, List.filter_filter, firsts,
      List.cons_append]
    congr 2
    refine List.filter_congr fun b _ => ?_
    by_cases hb : key b = key a
    · simp [hb]
    · have hmem : key b ∈ ((firsts key l).filter fun c => key c ≠ key a).map key ↔
          key b ∈ (firsts key l).map key := by
        simp only [List.mem_map, List.mem_filter, decide_eq_true_eq]
        exact ⟨fun ⟨c, ⟨hc, _⟩, he⟩ => ⟨c, hc, he⟩, fun ⟨c, hc, he⟩ => ⟨c, ⟨hc, he ▸ hb⟩, he⟩⟩
      simp only [List.map_cons, List.mem_cons, hmem, hb, ne_eq, not_false_eq_true, decide_true,
        Bool.true_and, false_or]

theorem nodup_map_firsts (l : List α) : ((firsts key l).map key).Nodup := by
  induction l with
  | nil => exact List.nodup_nil
  | cons a l ih =>
    rw [firsts, List.map_cons, List.nodup_cons]
    refine ⟨fun h => ?_, ih.sublist (List.filter_sublist.map key)⟩
    obtain ⟨b, hb, hkey⟩ := List.mem_map.1 h
    simpa [hkey] using (List.mem_filter.1 hb).2

/-- The first item with a key is kept. -/
theorem find?_firsts [BEq β] [LawfulBEq β] (k : β) (l : List α) :
    (firsts key l).find? (key · == k) = l.find? (key · == k) := by
  induction l with
  | nil => rfl
  | cons a l ih =>
    rw [firsts]
    by_cases ha : key a = k
    · rw [List.find?_cons_of_pos (by simpa using ha), List.find?_cons_of_pos (by simpa using ha)]
    · rw [List.find?_cons_of_neg (by simpa using ha), List.find?_cons_of_neg (by simpa using ha),
        List.find?_filter, ← ih]
      -- An item with key `k` has not been dropped together with `a`.
      refine List.find?_congr fun b _ => ?_
      by_cases hb : key b = k <;> simp [hb, Ne.symm ha]

end

/-! ## Parts of a text -/

/-- Commas, braces and parentheses. -/
def isReserved (c : Char) : Bool := [',', '{', '}', '(', ')'].contains c

/-- What a field name is made of. -/
def isNameChar (c : Char) : Bool := !isReserved c && c != '=' && c != '"'

theorem unreserved_of_plain {t : Text} (h : t.all isNameChar = true) :
    t.all (!isReserved ·) = true := by
  refine List.all_eq_true.2 fun c hc => ?_
  have hchar := List.all_eq_true.1 h c hc
  rw [isNameChar, Bool.and_assoc] at hchar
  exact (Bool.and_eq_true_iff.1 hchar).1

/-- Blanks, or nothing. -/
abbrev Blanks := { t : Text // t.allBlank = true }

/-- Text in which no block can start. -/
abbrev Gap := { t : Text // '@' ∉ t }

/-- A trimmed text with blanks around it. -/
structure PaddedText where
  before : Blanks := ⟨[], rfl⟩
  content : Text
  after : Blanks := ⟨[], rfl⟩
  trimmed : content.trim = content := by decide

def PaddedText.text (p : PaddedText) : Text := p.before.1 ++ (p.content ++ p.after.1)

/-! ## Values -/

/-- The delimiters of a value. -/
inductive Style where
  | braced
  | quoted
  | bare
deriving DecidableEq, Repr

/-- Whether a value can be written in a style. -/
def Style.admits : Style → Text → Bool
  | braced, v => balanced '{' '}' 0 v
  | quoted, v => balanced '{' '}' 0 v && quotable v
  | bare, v => !v.isEmpty && v.all (!isReserved ·) && v.head? != some '"'

/-- A value as it is written, with blanks around it inside of its delimiters. -/
structure PrintedValue where
  style : Style
  inner : PaddedText
  admitted : style.admits inner.content = true := by decide

def PrintedValue.text (v : PrintedValue) : Text :=
  match v.style with
  | .braced => '{' :: (v.inner.text ++ ['}'])
  | .quoted => '"' :: (v.inner.text ++ ['"'])
  | .bare => v.inner.text

/-! ## Fields -/

/-- A field as it is written, without the comma in front of it. -/
structure PrintedField where
  name : PaddedText
  before : Blanks := ⟨[], rfl⟩
  value : PrintedValue
  after : Blanks := ⟨[], rfl⟩
  name_ne_nil : name.content ≠ [] := by decide
  name_plain : name.content.all isNameChar = true := by decide

namespace PrintedField

def text (f : PrintedField) : Text :=
  f.name.text ++ '=' :: (f.before.1 ++ (f.value.text ++ f.after.1))

theorem name_unreserved (f : PrintedField) : f.name.content.all (!isReserved ·) = true :=
  unreserved_of_plain f.name_plain

/-- The name in lower case, and the value. -/
def pair (f : PrintedField) : Text × Text := (Text.lowercase f.name.content, f.value.inner.content)

end PrintedField

/-! ## Entries -/

/-- The delimiters of an entry. -/
inductive Delimiter where
  | braces
  | parentheses
deriving DecidableEq, Repr

namespace Delimiter

def left : Delimiter → Char
  | braces => '{'
  | parentheses => '('

def right : Delimiter → Char
  | braces => '}'
  | parentheses => ')'

end Delimiter

/-- An entry as it is written, from its `@` to its closing delimiter. `ending` is the comma behind
the last field with its blanks, if there is one. -/
structure PrintedEntry where
  kind : Text
  before : Blanks := ⟨[], rfl⟩
  delimiter : Delimiter
  key : PaddedText
  fields : List PrintedField
  ending : Option Blanks := none
  kind_ne_nil : kind ≠ [] := by decide
  kind_letters : kind.all Char.isAlpha = true := by decide
  kind_entry : Text.asciiLower kind ∉ auxiliaryKinds := by decide
  key_ne_nil : key.content ≠ [] := by decide
  key_plain : key.content.all (!isReserved ·) = true := by decide
  parenthesized : delimiter = .parentheses →
    ∀ f ∈ fields, balanced '(' ')' 0 f.value.inner.content = true := by decide

namespace PrintedEntry

/-- The fields as they are written behind the key, each with the comma in front of it. -/
def fieldList (fields : List PrintedField) (ending : Option Blanks) : Text :=
  fields.flatMap (',' :: ·.text) ++ ending.elim [] (',' :: ·.1)

theorem fieldList_cons (f : PrintedField) (fields : List PrintedField) (ending : Option Blanks) :
    fieldList (f :: fields) ending = ',' :: (f.text ++ fieldList fields ending) := by
  simp [fieldList]

def body (e : PrintedEntry) : Text := e.key.text ++ fieldList e.fields e.ending

def text (e : PrintedEntry) : Text :=
  '@' :: (e.kind ++ (e.before.1 ++ e.delimiter.left :: (e.body ++ [e.delimiter.right])))

/-- The entry that is meant. -/
def entry (e : PrintedEntry) : Entry where
  kind := Text.asciiLower e.kind
  key := e.key.content
  fields := firsts Prod.fst (e.fields.map PrintedField.pair)

end PrintedEntry

/-! ## Files -/

/-- Entries as they are written, each with the text in front of it, and the text behind the last. -/
structure PrintedFile where
  entries : List (Gap × PrintedEntry)
  ending : Gap

namespace PrintedFile

/-- The text of entries, with more text behind them. -/
def textOf : List (Gap × PrintedEntry) → Text → Text
  | [], ending => ending
  | (gap, e) :: es, ending => gap.1 ++ (e.text ++ textOf es ending)

def text (f : PrintedFile) : Text := textOf f.entries f.ending.1

/-- The entries that are meant, with the byte ranges of their texts; the first gap starts at byte
`n`. -/
def locate (n : Nat) : List (Gap × PrintedEntry) → List (Located Entry)
  | [] => []
  | (gap, e) :: es =>
    let start := n + Text.size gap.1
    let stop := start + Text.size e.text
    ⟨start, stop, e.entry⟩ :: locate stop es

end PrintedFile

/-! ## What can be read back -/

theorem quotable_blanks (b : Blanks) : quotable b.1 = true :=
  quotable_of_ne fun _ hc => ⟨ne_of_mem_of_not_mem hc (Text.not_mem_of_allBlank b.2 rfl),
    ne_of_mem_of_not_mem hc (Text.not_mem_of_allBlank b.2 rfl)⟩

namespace PaddedText

variable (p : PaddedText)

theorem trim_text : Text.trim p.text = p.content :=
  Text.trim_append_append p.before.2 p.trimmed p.after.2

variable {p}

theorem mem_content {c : Char} (hc : isBlank c = false) (h : c ∈ p.text) : c ∈ p.content := by
  rcases List.mem_append.1 h with h | h
  · exact absurd h (Text.not_mem_of_allBlank p.before.2 hc)
  · rcases List.mem_append.1 h with h | h
    · exact h
    · exact absurd h (Text.not_mem_of_allBlank p.after.2 hc)

theorem quotable_text (h : quotable p.content = true) : quotable p.text = true :=
  quotable_append (quotable_blanks p.before) (quotable_append h (quotable_blanks p.after))

end PaddedText

namespace Delimiter

variable (d : Delimiter)

theorem right_ne_left : d.right ≠ d.left := by cases d <;> decide

theorem isReserved_left : isReserved d.left = true := by cases d <;> rfl

theorem isReserved_right : isReserved d.right = true := by cases d <;> rfl

theorem isBlank_left : isBlank d.left = false := by cases d <;> rfl

theorem isBlank_right : isBlank d.right = false := by cases d <;> rfl

theorem balanced_of_plain {t : Text} (h : t.all (!isReserved ·) = true) :
    balanced d.left d.right 0 t = true := by
  refine balanced_of_ne fun c hc => ⟨?_, ?_⟩ <;> rintro rfl
  · exact absurd (List.all_eq_true.1 h _ hc) (by simp [d.isReserved_left])
  · exact absurd (List.all_eq_true.1 h _ hc) (by simp [d.isReserved_right])

theorem balanced_append {s t : Text} (hs : balanced d.left d.right 0 s = true)
    (ht : balanced d.left d.right 0 t = true) : balanced d.left d.right 0 (s ++ t) = true :=
  Bibliography.balanced_append hs ht

theorem balanced_blanks (b : Blanks) : balanced d.left d.right 0 b.1 = true :=
  balanced_of_ne fun _ hc => ⟨ne_of_mem_of_not_mem hc (Text.not_mem_of_allBlank b.2 d.isBlank_left),
    ne_of_mem_of_not_mem hc (Text.not_mem_of_allBlank b.2 d.isBlank_right)⟩

theorem balanced_padded {p : PaddedText} (h : balanced d.left d.right 0 p.content = true) :
    balanced d.left d.right 0 p.text = true :=
  d.balanced_append (d.balanced_blanks p.before) (d.balanced_append h (d.balanced_blanks p.after))

/-- A value balances in either kind of delimiters. -/
theorem balanced_value {v : PrintedValue}
    (h : d = .parentheses → balanced '(' ')' 0 v.inner.content = true) :
    balanced d.left d.right 0 v.text = true := by
  obtain ⟨style, inner, admitted⟩ := v
  -- Braces balance because the style admits the value, parentheses because the entry asks for it.
  cases d with
  | braces =>
    cases style with
    | braced => exact balanced_group (by decide) (balanced_padded .braces admitted)
    | quoted =>
      obtain ⟨hbalanced, -⟩ := Bool.and_eq_true_iff.1 admitted
      have hinner := balanced_padded .braces hbalanced
      exact balanced_append .braces (s := ['"']) rfl (balanced_append .braces hinner rfl)
    | bare =>
      obtain ⟨hplain, -⟩ := Bool.and_eq_true_iff.1 admitted
      exact balanced_padded .braces (balanced_of_plain .braces (Bool.and_eq_true_iff.1 hplain).2)
  | parentheses =>
    have hinner := balanced_padded .parentheses (h rfl)
    cases style with
    | braced =>
      exact balanced_append .parentheses (s := ['{']) rfl (balanced_append .parentheses hinner rfl)
    | quoted =>
      exact balanced_append .parentheses (s := ['"']) rfl (balanced_append .parentheses hinner rfl)
    | bare => exact hinner

theorem balanced_field {f : PrintedField}
    (h : d = .parentheses → balanced '(' ')' 0 f.value.inner.content = true) :
    balanced d.left d.right 0 f.text = true := by
  have hname := d.balanced_padded (d.balanced_of_plain f.name_unreserved)
  have hequals : balanced d.left d.right 0 ['='] = true := by cases d <;> rfl
  have hvalue := d.balanced_append (d.balanced_blanks f.before)
    (d.balanced_append (d.balanced_value h) (d.balanced_blanks f.after))
  exact d.balanced_append hname (d.balanced_append hequals hvalue)

theorem balanced_comma {t : Text} (h : balanced d.left d.right 0 t = true) :
    balanced d.left d.right 0 (',' :: t) = true :=
  d.balanced_append (s := [',']) (by cases d <;> rfl) h

theorem balanced_fieldList {fields : List PrintedField} (ending : Option Blanks)
    (h : d = .parentheses → ∀ f ∈ fields, balanced '(' ')' 0 f.value.inner.content = true) :
    balanced d.left d.right 0 (PrintedEntry.fieldList fields ending) = true := by
  induction fields with
  | nil =>
    cases ending with
    | none => rfl
    | some b => exact d.balanced_comma (d.balanced_blanks b)
  | cons f fields ih =>
    rw [PrintedEntry.fieldList_cons]
    refine d.balanced_comma (d.balanced_append ?_ ?_)
    · exact d.balanced_field fun hd => h hd f List.mem_cons_self
    · exact ih fun hd g hg => h hd g (List.mem_cons_of_mem _ hg)

end Delimiter

namespace PrintedEntry

/-- Nothing in an entry closes it before its end. -/
theorem balanced_body (e : PrintedEntry) :
    balanced e.delimiter.left e.delimiter.right 0 e.body = true :=
  e.delimiter.balanced_append
    (e.delimiter.balanced_padded (e.delimiter.balanced_of_plain e.key_plain))
    (e.delimiter.balanced_fieldList e.ending e.parenthesized)

end PrintedEntry

end TexBundle.Bibliography
