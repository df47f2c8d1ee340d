import TexBundle.Proofs.Text.Cutting
import Mathlib.Data.List.Chain

/-!
# Collapsed texts

A text is collapsed if its blanks are single spaces between other characters.

* `Collapsed`: a text with no other blanks;
* `eq_collapse_iff`: collapsing gives the one collapsed text with the same words;
* `Collapsed.trimEnd_take`, `Collapsed.concat`: a beginning of a collapsed text, its end trimmed, is
  collapsed, and so it is with another character behind it;
* `Collapsed.le_length_trimEnd_take`: this trimming takes away one character at most.
-/

namespace TexBundle.Text

/-- No blank at either end, none but spaces, and no two of them in a row. -/
structure Collapsed (t : Text) : Prop where
  trim_eq : trim t = t
  eq_space : ∀ c ∈ t, isBlank c = true → c = ' '
  isChain : t.IsChain fun c d => isBlank c = true → isBlank d = false

variable {s t w : Text} {ws : List Text} {c : Char} {n : Nat}

theorem trim_eq_self_iff : trim t = t ↔
    (∀ c, t.head? = some c → isBlank c = false) ∧ ∀ c, t.getLast? = some c → isBlank c = false := by
  rw [← trimStart_eq_self_iff, ← trimEnd_eq_self_iff]
  constructor
  · intro h
    have hstart := trimStart_of_trim h
    rw [trim, hstart] at h
    exact ⟨hstart, h⟩
  · rintro ⟨hstart, hend⟩
    rw [trim, hstart, hend]

/-- What is trimmed away at the end are blanks. -/
theorem exists_eq_trimEnd_append (t : Text) : ∃ b, t = trimEnd t ++ b ∧ b.allBlank = true := by
  refine ⟨(t.reverse.takeWhile isBlank).reverse, ?_, ?_⟩
  · rw [trimEnd, ← List.reverse_append, List.takeWhile_append_dropWhile, List.reverse_reverse]
  · rw [allBlank, List.all_reverse]
    exact List.all_eq_true.2 fun c hc => List.mem_takeWhile_imp hc

theorem trimEnd_trimEnd (t : Text) : trimEnd (trimEnd t) = trimEnd t := by
  rw [trimEnd_eq_self_iff]
  intro c hc
  rw [trimEnd, List.getLast?_reverse] at hc
  have hhead := List.head?_dropWhile_not isBlank t.reverse
  rw [hc] at hhead
  simpa using hhead

/-- A text with its end trimmed is the longest beginning that does not end in a blank. -/
theorem isPrefix_trimEnd (h : s <+: t) (hs : trimEnd s = s) : s <+: trimEnd t := by
  obtain ⟨b, ht, hb⟩ := exists_eq_trimEnd_append t
  rw [ht] at h
  obtain hle | hge := List.prefix_or_prefix_of_prefix h (List.prefix_append (trimEnd t) b)
  · exact hle
  · obtain ⟨b', rfl⟩ := hge
    have hb' : allBlank b' = true :=
      List.all_eq_true.2 fun c hc =>
        List.all_eq_true.1 hb c (((List.prefix_append_right_inj _).1 h).subset hc)
    rw [trimEnd_append hb', trimEnd_trimEnd] at hs
    rw [← hs]

/-! ## Words -/

theorem collapsed_of_no_blank (h : ∀ c ∈ w, isBlank c = false) : Collapsed w where
  trim_eq := trim_eq_self_iff.2
    ⟨fun c hc => h c (List.mem_of_mem_head? hc), fun c hc => h c (List.mem_of_getLast? hc)⟩
  eq_space c hc hblank := absurd (h c hc) (by simp [hblank])
  isChain := List.Pairwise.isChain <|
    List.pairwise_of_forall_mem_list fun c _ d hd (_ : isBlank c = true) => h d hd

theorem isBlank_space : isBlank ' ' = true := by decide

/-- A space may stand between collapsed texts. -/
theorem Collapsed.append_space (hs : Collapsed s) (ht : Collapsed t) (hsne : s ≠ [])
    (htne : t ≠ []) : Collapsed (s ++ ' ' :: t) where
  trim_eq := by
    obtain ⟨hhead, hlast⟩ := trim_eq_self_iff.1 hs.trim_eq
    obtain ⟨-, hend⟩ := trim_eq_self_iff.1 ht.trim_eq
    rw [trim_eq_self_iff, List.head?_append_of_ne_nil _ hsne,
      List.getLast?_append_of_ne_nil _ (List.cons_ne_nil _ _), List.getLast?_cons_of_ne_nil htne]
    exact ⟨hhead, hend⟩
  eq_space c hc hblank := by
    rw [List.mem_append, List.mem_cons] at hc
    obtain hc | rfl | hc := hc
    · exact hs.eq_space c hc hblank
    · rfl
    · exact ht.eq_space c hc hblank
  isChain := by
    obtain ⟨-, hlast⟩ := trim_eq_self_iff.1 hs.trim_eq
    obtain ⟨hhead, -⟩ := trim_eq_self_iff.1 ht.trim_eq
    refine hs.isChain.append (ht.isChain.cons fun d hd _ => hhead d hd) fun c hc d _ hblank => ?_
    rw [hlast c hc] at hblank
    cases hblank

theorem collapsed_intercalate (h : ∀ w ∈ ws, w ≠ [] ∧ ∀ c ∈ w, isBlank c = false) :
    Collapsed ([' '].intercalate ws) := by
  induction ws with
  | nil => exact collapsed_of_no_blank (by simp)
  | cons w ws ih =>
    obtain ⟨⟨hne, hw⟩, hws⟩ := List.forall_mem_cons.1 h
    cases ws with
    | nil => simpa using collapsed_of_no_blank hw
    | cons v ws =>
      have hrest : [' '].intercalate (v :: ws) ≠ [] := by
        obtain ⟨hv, -⟩ := hws v List.mem_cons_self
        cases ws <;> simp [hv]
      rw [List.intercalate_cons_cons, List.append_assoc, List.singleton_append]
      exact (collapsed_of_no_blank hw).append_space (ih hws) hne hrest

theorem of_mem_words (h : w ∈ words t) : w ≠ [] ∧ ∀ c ∈ w, isBlank c = false := by
  obtain ⟨hmem, hne⟩ := List.mem_filter.1 h
  exact ⟨by simpa using hne, fun c hc => not_of_mem_splitBy hmem hc⟩

theorem collapsed_collapse (t : Text) : Collapsed (collapse t) :=
  collapsed_intercalate fun _ => of_mem_words

theorem words_append_cons (hc : isBlank c = true) (s t : Text) :
    words (s ++ c :: t) = words s ++ words t := by
  rw [words, splitBy_append_cons hc, List.filter_append]
  rfl

theorem words_eq_singleton (hne : w ≠ []) (h : ∀ c ∈ w, isBlank c = false) : words w = [w] := by
  rw [words, splitBy_eq_singleton h, List.filter_cons_of_pos (by simpa using hne), List.filter_nil]

theorem words_intercalate (h : ∀ w ∈ ws, w ≠ [] ∧ ∀ c ∈ w, isBlank c = false) :
    words ([' '].intercalate ws) = ws := by
  induction ws with
  | nil => rfl
  | cons w ws ih =>
    obtain ⟨⟨hne, hw⟩, hws⟩ := List.forall_mem_cons.1 h
    cases ws with
    | nil => simpa using words_eq_singleton hne hw
    | cons v ws =>
      rw [List.intercalate_cons_cons, List.append_assoc, List.singleton_append,
        words_append_cons isBlank_space, words_eq_singleton hne hw, ih hws]
      rfl

theorem words_collapse (t : Text) : words (collapse t) = words t :=
  words_intercalate fun _ => of_mem_words

/-- A collapsed text is one word, or its first word and more. -/
theorem Collapsed.word_or_first (h : Collapsed t) :
    (∀ c ∈ t, isBlank c = false) ∨ ∃ w rest, t = w ++ ' ' :: rest ∧ w ≠ [] ∧
      (∀ c ∈ w, isBlank c = false) ∧ rest ≠ [] ∧ Collapsed rest := by
  obtain ⟨hhead, hlast⟩ := trim_eq_self_iff.1 h.trim_eq
  have hsplit : t.takeWhile (!isBlank ·) ++ t.dropWhile (!isBlank ·) = t :=
    List.takeWhile_append_dropWhile
  have hword : ∀ c ∈ t.takeWhile (!isBlank ·), isBlank c = false := fun c hc => by
    simpa using List.mem_takeWhile_imp hc
  cases hdrop : t.dropWhile (!isBlank ·) with
  | nil =>
    rw [hdrop, List.append_nil] at hsplit
    exact .inl (hsplit ▸ hword)
  | cons c rest =>
    rw [hdrop] at hsplit
    generalize t.takeWhile (!isBlank ·) = w at hsplit hword
    subst hsplit
    have hblank : isBlank c = true := by
      have hnot := List.head?_dropWhile_not (!isBlank ·) (w ++ c :: rest)
      rw [hdrop] at hnot
      simpa using hnot
    obtain rfl := h.eq_space c (by simp) hblank
    have hrest : rest ≠ [] := by
      rintro rfl
      rw [hlast ' ' (by simp)] at hblank
      cases hblank
    have hw : w ≠ [] := by
      rintro rfl
      rw [hhead ' ' (by simp)] at hblank
      cases hblank
    have hchain := h.isChain.right_of_append
    refine .inr ⟨w, rest, rfl, hw, hword, hrest, trim_eq_self_iff.2 ⟨fun d hd => ?_, fun d hd => ?_⟩,
      fun d hd => h.eq_space d (by simp [hd]), hchain.tail⟩
    · exact hchain.rel_head? hd hblank
    · refine hlast d ?_
      rw [List.getLast?_append_of_ne_nil _ (List.cons_ne_nil _ _),
        List.getLast?_cons_of_ne_nil hrest, hd]

/-- By induction on the number of characters, one word after the other. -/
theorem Collapsed.collapse_eq (h : Collapsed t) : collapse t = t := by
  induction hn : t.length using Nat.strong_induction_on generalizing t with
  | _ n ih =>
    obtain hword | ⟨w, rest, rfl, hw, hword, hrest, hcollapsed⟩ := h.word_or_first
    · by_cases hne : t = []
      · rw [hne]
        rfl
      · rw [collapse, words_eq_singleton hne hword, List.intercalate_singleton]
    · have ih := ih rest.length (by simp [← hn]; omega) hcollapsed rfl
      have hwords : words rest ≠ [] := fun e => by
        rw [collapse, e] at ih
        exact hrest ih.symm
      rw [collapse, words_append_cons isBlank_space, words_eq_singleton hw hword,
        List.singleton_append, List.intercalate_cons_of_ne_nil hwords, ← collapse, ih,
        List.append_assoc, List.singleton_append]

/-- Of all texts with the same words, one is collapsed. -/
theorem eq_collapse_iff : s = collapse t ↔ Collapsed s ∧ words s = words t := by
  constructor
  · rintro rfl
    exact ⟨collapsed_collapse t, words_collapse t⟩
  · rintro ⟨hcollapsed, hwords⟩
    rw [← hcollapsed.collapse_eq, collapse, hwords, ← collapse]

/-! ## Beginnings -/

theorem trimEnd_take_isPrefix (t : Text) (n : Nat) : trimEnd (t.take n) <+: t :=
  (trimEnd_isPrefix _).trans (List.take_prefix n t)

theorem Collapsed.trimEnd_take (h : Collapsed t) (n : Nat) : Collapsed (trimEnd (t.take n)) := by
  have hpre := trimEnd_take_isPrefix t n
  refine ⟨trim_eq_self_iff.2 ⟨fun c hc => ?_, trimEnd_eq_self_iff.1 (trimEnd_trimEnd _)⟩,
    fun c hc => h.eq_space c (hpre.subset hc), h.isChain.prefix hpre⟩
  obtain ⟨more, hmore⟩ := hpre
  refine (trim_eq_self_iff.1 h.trim_eq).1 c ?_
  rw [← hmore, List.head?_append, hc, Option.some_or]

theorem Collapsed.concat (h : Collapsed t) (hc : isBlank c = false) : Collapsed (t ++ [c]) where
  trim_eq := by
    obtain ⟨hhead, -⟩ := trim_eq_self_iff.1 h.trim_eq
    refine trim_eq_self_iff.2 ⟨fun d hd => ?_, fun d hd => ?_⟩
    · rw [List.head?_append, Option.or_eq_some_iff] at hd
      obtain hd | ⟨-, hd⟩ := hd
      · exact hhead d hd
      · obtain rfl : c = d := by simpa using hd
        exact hc
    · obtain rfl : c = d := by simpa using hd
      exact hc
  eq_space d hd hblank := by
    obtain hd | rfl := by simpa using hd
    · exact h.eq_space d hd hblank
    · rw [hc] at hblank
      cases hblank
  isChain := h.isChain.append (List.isChain_singleton c) fun _ _ d hd _ => by
    obtain rfl : c = d := by simpa using hd
    exact hc

/-- No two blanks stand in a row that could be trimmed away. -/
theorem Collapsed.le_length_trimEnd_take (h : Collapsed t) (hn : n ≤ t.length) :
    n ≤ (trimEnd (t.take n)).length + 1 := by
  obtain ⟨b, htake, hb⟩ := exists_eq_trimEnd_append (t.take n)
  have hlength := congrArg List.length htake
  rw [List.length_take, Nat.min_eq_left hn, List.length_append] at hlength
  have hshort : b.length ≤ 1 := by
    match b with
    | [] => exact Nat.zero_le 1
    | [_] => exact Nat.le_refl 1
    | c :: d :: _ =>
      have hchain := h.isChain.take n
      rw [htake] at hchain
      have hblank (x : Char) (hx : x ∈ c :: d :: _) := List.all_eq_true.1 hb x hx
      have hnot := hchain.right_of_append.rel (hblank c (by simp))
      rw [hblank d (by simp)] at hnot
      cases hnot
  omega

end TexBundle.Text
