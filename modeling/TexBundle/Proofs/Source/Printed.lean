import TexBundle.Source.Citation
import TexBundle.Proofs.Bibliography.Blocks
import TexBundle.Proofs.Source.Comment
import TexBundle.Proofs.Source.Reader
import TexBundle.Proofs.Text.Offsets

/-!
# Printed commands

Commands as they are written one after the other, with text around them in which neither a command
nor a comment starts. A star, options and blanks may stand in front of what a command is about.

* `Inert`: no backslash and no percent sign;
* `PrintedStar`, `PrintedOption`: what may stand in front of an argument, and how it is passed over;
* `textOf`, `places`: the whole text, and where each command stands in it;
* `Finds.locate_cut`: a reader that knows its commands finds them where they stand, and nothing else;
* `uncommented_eq_self`: without percent signs, nothing stands in a comment.
-/

namespace TexBundle.Source

open Bibliography (Blanks not_isAlpha_of_isBlank)
open LineState (plain comment)

/-! ## Inert text -/

/-- A text in which neither a command nor a comment starts. -/
def Inert (t : Text) : Prop := '\\' ∉ t ∧ '%' ∉ t

instance (t : Text) : Decidable (Inert t) := inferInstanceAs (Decidable (_ ∧ _))

theorem inert_nil : Inert [] := by decide

@[simp] theorem inert_append_iff {s t : Text} : Inert (s ++ t) ↔ Inert s ∧ Inert t := by
  simp only [Inert, List.mem_append, not_or]
  exact and_and_and_comm

@[simp] theorem inert_cons_iff {c : Char} {t : Text} :
    Inert (c :: t) ↔ (c ≠ '\\' ∧ c ≠ '%') ∧ Inert t := by
  simp only [Inert, List.mem_cons, not_or, ne_comm (a := c)]
  exact and_and_and_comm

@[simp] theorem inert_blanks (b : Blanks) : Inert b.1 :=
  ⟨Text.not_mem_of_allBlank b.2 (by decide), Text.not_mem_of_allBlank b.2 (by decide)⟩

/-- Text around commands. -/
abbrev Gap := { t : Text // Inert t }

/-! ## In front of an argument -/

/-- An option or an argument in braces starts a text. -/
def OpensArgument (t : Text) : Prop := t.head? = some '[' ∨ t.head? = some '{'

theorem OpensArgument.trimStart {t : Text} (h : OpensArgument t) : Text.trimStart t = t := by
  refine Text.trimStart_eq_self_iff.2 fun c hc => ?_
  rcases h with h | h <;> obtain rfl := Option.some.inj (h.symm.trans hc) <;> decide

/-- A star, or none, and blanks. -/
structure PrintedStar where
  starred : Bool := false
  after : Blanks := ⟨[], rfl⟩

/-- An option in brackets, and blanks. -/
structure PrintedOption where
  content : Text
  after : Blanks := ⟨[], rfl⟩
  inert : Inert content := by decide
  closed : ']' ∉ content := by decide

namespace PrintedStar

def text (s : PrintedStar) : Text := (if s.starred then ['*'] else []) ++ s.after.1

theorem inert_text (s : PrintedStar) : Inert s.text := by
  rw [text]
  split <;> simp

theorem skipStar_text (s : PrintedStar) {t : Text} (h : OpensArgument t) :
    skipStar (s.text ++ t) = t := by
  obtain ⟨starred, blanks, hblanks⟩ := s
  have htrim : Text.trimStart (blanks ++ t) = t := by
    rw [Text.trimStart_append hblanks, h.trimStart]
  cases starred with
  | true => exact htrim
  | false =>
    have hstar : ∀ u, blanks ++ t ≠ '*' :: u := by
      intro u hu
      cases blanks with
      | nil =>
        rw [List.nil_append] at hu
        subst hu
        exact absurd h (by simp [OpensArgument])
      | cons c blanks =>
        obtain rfl := (List.cons.inj hu).1
        exact absurd (List.all_eq_true.1 hblanks '*' List.mem_cons_self) (by decide)
    show skipStar (blanks ++ t) = t
    unfold skipStar
    split
    · exact absurd ‹_› (hstar _)
    · exact htrim

/-- The name of a command ends in front of a star, blanks or an argument. -/
theorem not_isAlpha_of_head? (s : PrintedStar) {t : Text} (h : OpensArgument t) {c : Char}
    (hc : (s.text ++ t).head? = some c) : c.isAlpha = false := by
  obtain ⟨starred, blanks, hblanks⟩ := s
  cases starred with
  | true =>
    obtain rfl := Option.some.inj hc
    decide
  | false =>
    cases blanks with
    | nil => rcases h with h | h <;> obtain rfl := Option.some.inj (h.symm.trans hc) <;> decide
    | cons d blanks =>
      obtain rfl := Option.some.inj hc
      exact not_isAlpha_of_isBlank (List.all_eq_true.1 hblanks d List.mem_cons_self)

end PrintedStar

namespace PrintedOption

def text (o : PrintedOption) : Text := '[' :: (o.content ++ ']' :: o.after.1)

/-- Options one after the other. -/
def textOf (os : List PrintedOption) : Text := os.flatMap text

theorem inert_textOf (os : List PrintedOption) : Inert (textOf os) := by
  induction os with
  | nil => exact inert_nil
  | cons o os ih =>
    have hrest : Inert (os.flatMap text) := ih
    simp [textOf, text, o.inert, hrest]

theorem opensArgument_textOf (os : List PrintedOption) (body : Text) :
    OpensArgument (textOf os ++ '{' :: body) := by
  cases os with
  | nil => exact .inr rfl
  | cons o os => exact .inl rfl

/-- Each time, one option is passed over, as long as there is one. -/
theorem skipOption_textOf (os : List PrintedOption) (body : Text) :
    skipOption (textOf os ++ '{' :: body) = textOf os.tail ++ '{' :: body := by
  cases os with
  | nil => rfl
  | cons o os =>
    have htext : textOf (o :: os) ++ '{' :: body =
        '[' :: (o.content ++ ']' :: (o.after.1 ++ (textOf os ++ '{' :: body))) := by
      simp [textOf, text]
    rw [htext, skipOption_closed o.closed, Text.trimStart_append o.after.2,
      (opensArgument_textOf os body).trimStart, List.tail_cons]

end PrintedOption

/-! ## Commands one after the other -/

section

variable {α β : Type} (text : α → Text)

/-- Items as they are written, each with the text in front of it, and more text behind the last. -/
def textOf : List (Gap × α) → (ending : Text) → Text
  | [], ending => ending
  | (gap, a) :: items, ending => gap.1 ++ (text a ++ textOf items ending)

/-- Where the items stand; the first gap starts at byte `n`. -/
def places (n : Nat) : List (Gap × α) → List (Located α)
  | [] => []
  | (gap, a) :: items =>
    let start := n + Text.size gap.1
    let stop := start + Text.size (text a)
    ⟨start, stop, a⟩ :: places stop items

variable {text} in
theorem lt_stop_of_mem_places (hne : ∀ a, text a ≠ []) {n : Nat} {items : List (Gap × α)}
    {o : Located α} (h : o ∈ places text n items) : n < o.stop := by
  induction items generalizing n with
  | nil => cases h
  | cons item items ih =>
    obtain ⟨gap, a⟩ := item
    have hstop : n < n + Text.size gap.1 + Text.size (text a) :=
      (Nat.le_add_right n _).trans_lt (Nat.lt_add_of_pos_right (Text.size_pos (hne a)))
    rcases List.mem_cons.1 h with rfl | h
    · exact hstop
    · exact hstop.trans (ih h)

variable {text} in
/-- Each item ends behind the end of the one before it. -/
theorem pairwise_places (hne : ∀ a, text a ≠ []) (n : Nat) (items : List (Gap × α)) :
    (places text n items).Pairwise fun o p => o.stop < p.stop := by
  induction items generalizing n with
  | nil => exact .nil
  | cons item items ih => exact .cons (fun _ ho => lt_stop_of_mem_places hne ho) (ih _)

theorem percent_not_mem_textOf (h : ∀ a, '%' ∉ text a) (items : List (Gap × α)) (ending : Gap) :
    '%' ∉ textOf text items ending.1 := by
  induction items with
  | nil => exact ending.2.2
  | cons item items ih =>
    obtain ⟨gap, a⟩ := item
    simp [textOf, gap.2.2, h a, ih]

/-- What an item means, in place of the item. -/
def means (value : α → β) (o : Located α) : Located β := ⟨o.start, o.stop, value o.value⟩

theorem map_value_means (value : α → β) (n : Nat) (items : List (Gap × α)) :
    ((places text n items).map (means value)).map (·.value) = items.map (value ·.2) := by
  induction items generalizing n with
  | nil => rfl
  | cons item items ih =>
    obtain ⟨gap, a⟩ := item
    rw [places, List.map_cons, List.map_cons, List.map_cons, ih]
    rfl

/-- A reader reads some of the items, and passes over the others. -/
structure Finds (read? : Text → Option (β × Text)) (keep : α → Bool) (value : α → β) : Prop where
  backslash : ∀ {c t}, c ≠ '\\' → read? (c :: t) = none
  ne_nil : ∀ a, text a ≠ []
  found : ∀ {a} t, keep a = true → read? (text a ++ t) = some (value a, t)
  passed : ∀ {a} t, keep a = false →
    Segments.cut read? (text a ++ t) = (Segments.cut read? t).prepend (text a)

variable {text} {read? : Text → Option (β × Text)} {keep : α → Bool} {value : α → β}

theorem stripPrefix?_bind_eq_none {c d : Char} {front t : Text} {α : Type}
    (next? : Text → Option α) (h : d ≠ c) :
    (Text.stripPrefix? (c :: front) (d :: t)).bind next? = none := by
  rw [Text.stripPrefix?, if_neg (Ne.symm h)]
  rfl

theorem read?_inert (hslash : ∀ {c t}, c ≠ '\\' → read? (c :: t) = none) {g u : Text}
    (hg : '\\' ∉ g) (hu : u <:+ g) (hne : u ≠ []) (t : Text) : read? (u ++ t) = none := by
  obtain ⟨c, u, rfl⟩ := List.exists_cons_of_ne_nil hne
  exact hslash (ne_of_mem_of_not_mem (hu.subset List.mem_cons_self) hg)

theorem cut_inert (hslash : ∀ {c t}, c ≠ '\\' → read? (c :: t) = none) {g : Text} (hg : '\\' ∉ g)
    (t : Text) : Segments.cut read? (g ++ t) = (Segments.cut read? t).prepend g :=
  Segments.cut_append fun _ hu hne => read?_inert hslash hg hu hne t

theorem Finds.locate_cut (h : Finds text read? keep value) (n : Nat) (items : List (Gap × α))
    (ending : Gap) :
    (Segments.cut read? (textOf text items ending.1)).locate n =
      ((places text n items).filter (keep ·.value)).map (means value) := by
  induction items generalizing n with
  | nil =>
    rw [textOf, Segments.cut_eq_tail_of_not_mem h.backslash ending.2.1]
    rfl
  | cons item items ih =>
    obtain ⟨gap, a⟩ := item
    rw [textOf, cut_inert h.backslash gap.2.1, Segments.locate_prepend, places, List.filter_cons]
    by_cases hkeep : keep a = true
    · rw [Segments.cut_of_read? (h.ne_nil a) (h.found _ hkeep), Segments.locate, ih, if_pos hkeep]
      rfl
    · rw [h.passed _ (Bool.not_eq_true _ ▸ hkeep), Segments.locate_prepend, ih, if_neg hkeep]

end

/-! ## Comments -/

theorem after_ne_comment {st : LineState} (hst : st ≠ comment) {t : Text} (h : '%' ∉ t) :
    st.after t ≠ comment := by
  induction t generalizing st with
  | nil => exact hst
  | cons c t ih =>
    rw [List.mem_cons, not_or] at h
    refine ih ?_ h.2
    unfold LineState.step
    split <;> simp_all

theorem filter_eq_self {α : Type} {st : LineState} (hst : st ≠ comment) {s : Segments α}
    (h : '%' ∉ s.text) : s.filter LineState.after (· != comment) st = s := by
  induction s generalizing st with
  | tail t => rfl
  | found b l v rest ih =>
    rw [Segments.text, List.mem_append, List.mem_append, not_or, not_or] at h
    have hhere : st.after b ≠ comment := after_ne_comment hst h.1.1
    rw [Segments.filter, if_pos (bne_iff_ne.2 hhere), ih (after_ne_comment hhere h.1.2) h.2]

theorem uncommented_eq_self {α : Type} {s : Segments α} (h : '%' ∉ s.text) : uncommented s = s :=
  filter_eq_self (by decide) h

end TexBundle.Source
