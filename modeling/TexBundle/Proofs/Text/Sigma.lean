import TexBundle.Proofs.Text.Lowercase
import Mathlib.Data.List.TakeWhile

/-!
# Lower case and longer texts

The lower-case form of a longer text goes on from the form of its start, unless the start ends in a
capital sigma that is the last letter of a word there and no longer is in the longer text.

* `EndsInSigma`: the texts with such an end;
* `lowercaseBetween_eq_iff`: what comes behind a text makes a difference to nothing else;
* `lowercase_isPrefix_iff`: the texts whose form goes on in the form of a longer one;
* `lowercaseBetween_append_cons`, `lowercase_append_cons`: a sign cuts the form of a text where it
  cuts the text.
-/

namespace TexBundle.Text

variable {c : Char} {s t before behind : Text}

/-- A text behind `before`, which is read backwards, ends in a capital sigma: a cased character
comes before it, and nothing but case-ignorable characters after it. -/
def EndsInSigma (before t : Text) : Prop :=
  ∃ word mark, t = word ++ 'Σ' :: mark ∧ startsCased (word.reverse ++ before) = true ∧
    mark.all isCaseIgnorable = true

/-! ## The form of a sigma -/

theorem startsCased_append_of_ignorable (h : t.all isCaseIgnorable = true) (behind : Text) :
    startsCased (t ++ behind) = startsCased behind := by
  rw [startsCased, List.dropWhile_append_of_pos (List.all_eq_true.1 h), ← startsCased]

theorem startsCased_of_ignorable (h : t.all isCaseIgnorable = true) : startsCased t = false := by
  have hempty := startsCased_append_of_ignorable h []
  rwa [List.append_nil] at hempty

theorem startsCased_append_of_not_ignorable (h : ¬t.all isCaseIgnorable = true) (behind : Text) :
    startsCased (t ++ behind) = startsCased t := by
  obtain ⟨c, u, hdrop⟩ : ∃ c u, t.dropWhile isCaseIgnorable = c :: u := by
    refine List.exists_cons_of_ne_nil fun hnil => h (List.all_eq_true.2 ?_)
    exact List.dropWhile_eq_nil_iff.1 hnil
  rw [startsCased, startsCased, List.dropWhile_append, hdrop]
  rfl

theorem lowercaseSigma_append_eq_iff :
    lowercaseSigma before (t ++ behind) = lowercaseSigma before t ↔
      ¬(startsCased before = true ∧ t.all isCaseIgnorable = true ∧ startsCased behind = true) := by
  rw [lowercaseSigma, lowercaseSigma]
  by_cases hall : t.all isCaseIgnorable = true
  · rw [startsCased_append_of_ignorable hall, startsCased_of_ignorable hall]
    cases startsCased before <;> cases startsCased behind <;> simp [hall]
  · rw [startsCased_append_of_not_ignorable hall]
    exact iff_of_true rfl fun h => hall h.2.1

/-! ## Behind a text -/

theorem not_endsInSigma_nil : ¬EndsInSigma before [] := by
  rintro ⟨word, mark, h, -⟩
  simp at h

theorem endsInSigma_cons_iff :
    EndsInSigma before (c :: t) ↔
      (c = 'Σ' ∧ startsCased before = true ∧ t.all isCaseIgnorable = true) ∨
        EndsInSigma (c :: before) t := by
  constructor
  · rintro ⟨word, mark, h, hbefore, hmark⟩
    cases word with
    | nil =>
      obtain ⟨rfl, rfl⟩ := List.cons.inj h
      exact .inl ⟨rfl, hbefore, hmark⟩
    | cons d word =>
      obtain ⟨rfl, rfl⟩ := List.cons.inj h
      rw [List.reverse_cons, List.append_assoc] at hbefore
      exact .inr ⟨word, mark, rfl, hbefore, hmark⟩
  · rintro (⟨rfl, hbefore, hmark⟩ | ⟨word, mark, rfl, hbefore, hmark⟩)
    · exact ⟨[], t, rfl, hbefore, hmark⟩
    · refine ⟨c :: word, mark, rfl, ?_, hmark⟩
      rwa [List.reverse_cons, List.append_assoc]

/-- What comes behind a text makes a difference to a sigma at its end, and to nothing else. -/
theorem lowercaseBetween_eq_iff :
    lowercaseBetween before behind t = lowercaseBetween before [] t ↔
      ¬(EndsInSigma before t ∧ startsCased behind = true) := by
  induction t generalizing before with
  | nil => exact iff_of_true rfl fun h => not_endsInSigma_nil h.1
  | cons c t ih =>
    rw [lowercaseBetween, lowercaseBetween, List.append_nil, endsInSigma_cons_iff]
    by_cases hc : c = 'Σ'
    · simp only [if_pos hc, List.singleton_append, List.cons.injEq, ih,
        lowercaseSigma_append_eq_iff]
      grind
    · simp only [if_neg hc, List.append_right_inj, ih]
      simp [hc]

theorem lowercase_isPrefix_iff :
    lowercase s <+: lowercase (s ++ t) ↔ ¬(EndsInSigma [] s ∧ startsCased t = true) := by
  rw [← lowercaseBetween_eq_iff, lowercase_append, lowercase, lowercaseAfter_eq]
  constructor
  · rintro ⟨rest, h⟩
    refine (List.append_inj_left h ?_).symm
    rw [length_lowercaseBetween, length_lowercaseBetween]
  · intro h
    rw [h]
    exact List.prefix_append _ _

/-! ## Signs -/

/-- Where a digit, a sign or a blank of ASCII cuts a text, it cuts the form. -/
theorem lowercaseBetween_append_cons (hc : c.toNat ≤ '@'.toNat) (s t : Text) :
    lowercaseBetween before behind (s ++ c :: t) =
      lowercaseBetween before (c :: t ++ behind) s ++
        c :: lowercaseBetween (c :: (s.reverse ++ before)) behind t := by
  have hascii : c.toNat < 128 := Nat.lt_of_le_of_lt hc (by decide)
  have hsigma : c ≠ 'Σ' := by
    rintro rfl
    exact absurd hascii (by decide)
  have hupper : ¬c.isUpper = true := fun h =>
    Nat.not_lt.2 (isUpper_iff.1 h).1 (Nat.lt_of_le_of_lt hc (by decide))
  rw [lowercaseBetween_append, lowercaseBetween, if_neg hsigma, lowercaseChar_of_ascii hascii,
    toLower_eq_self hupper]
  rfl

theorem lowercase_append_cons (hc : c.toNat ≤ '@'.toNat)
    (h : ¬(EndsInSigma [] s ∧ startsCased (c :: t) = true)) :
    lowercase (s ++ c :: t) = lowercase s ++ c :: lowercaseBetween (c :: s.reverse) [] t := by
  rw [lowercase, lowercaseAfter_eq, lowercaseBetween_append_cons hc, List.append_nil,
    List.append_nil, lowercaseBetween_eq_iff.2 h, lowercase, lowercaseAfter_eq]

/-- A dot may stand inside a word. -/
theorem startsCased_dot (t : Text) : startsCased ('.' :: t) = startsCased t :=
  startsCased_append_of_ignorable (t := ['.']) (by decide) t

end TexBundle.Text
