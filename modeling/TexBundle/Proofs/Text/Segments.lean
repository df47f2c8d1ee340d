import TexBundle.Text.Segments

/-!
# Laws of segments

* `Segments.lexemes`: the occurrences as they are written;
* `head?_of_mem_lexemes_cut`: occurrences start the way that their reader asks for;
* `cut_append`, `cut_of_read?`: a text is cut step by step, at what its reader finds.
-/

namespace TexBundle.Segments

variable {α : Type}

/-- The occurrences as written, in order. -/
def lexemes : Segments α → List Text
  | tail _ => []
  | found _ l _ rest => l :: rest.lexemes

@[simp] theorem lexemes_prepend (t : Text) (s : Segments α) :
    (s.prepend t).lexemes = s.lexemes := by
  cases s <;> rfl

theorem mem_lexemes_of_mem_filter {σ : Type} {step : σ → Text → σ} {keep : σ → Bool} {st : σ}
    {s : Segments α} {l : Text} (h : l ∈ (s.filter step keep st).lexemes) : l ∈ s.lexemes := by
  induction s generalizing st with
  | tail t => exact h
  | found b l' v rest ih =>
    simp only [filter] at h
    split at h
    · rcases List.mem_cons.1 h with rfl | h
      · exact List.mem_cons_self
      · exact List.mem_cons_of_mem _ (ih h)
    · rw [lexemes_prepend] at h
      exact List.mem_cons_of_mem _ (ih h)

/-- If a reader finds its pattern only where some character stands, occurrences start with it. -/
theorem head?_of_mem_lexemes_cut {read? : Text → Option (α × Text)} {first : Char}
    (h : ∀ c t, (read? (c :: t)).isSome → c = first) {t l : Text}
    (hl : l ∈ (cut read? t).lexemes) : l.head? = some first := by
  fun_induction cut read? t with
  | case1 => simp [lexemes] at hl
  | case2 c t hr ih => exact ih (by simpa using hl)
  | case3 c t v rest hr n ih =>
    rcases List.mem_cons.1 hl with rfl | hl
    · rw [List.head?_cons, h c t (by rw [hr]; rfl)]
    · exact ih hl

/-! ## Cutting -/

@[simp] theorem values_prepend (t : Text) (s : Segments α) : (s.prepend t).values = s.values := by
  cases s <;> rfl

@[simp] theorem prepend_nil (s : Segments α) : s.prepend [] = s := by
  cases s <;> rfl

theorem prepend_prepend (t u : Text) (s : Segments α) :
    (s.prepend u).prepend t = s.prepend (t ++ u) := by
  cases s <;> simp [prepend]

theorem locate_prepend (n : Nat) (t : Text) (s : Segments α) :
    (s.prepend t).locate n = s.locate (n + Text.size t) := by
  cases s with
  | tail u => rfl
  | found u l v rest => simp only [prepend, locate, Text.size_append, Nat.add_assoc]

theorem mem_values_of_mem_filter {σ : Type} {step : σ → Text → σ} {keep : σ → Bool} {st : σ}
    {s : Segments α} {v : α} (h : v ∈ (s.filter step keep st).values) : v ∈ s.values := by
  induction s generalizing st with
  | tail t => exact h
  | found b l w rest ih =>
    simp only [filter] at h
    split at h
    · rcases List.mem_cons.1 h with rfl | h
      · exact List.mem_cons_self
      · exact List.mem_cons_of_mem _ (ih h)
    · rw [values_prepend] at h
      exact List.mem_cons_of_mem _ (ih h)

variable {read? : Text → Option (α × Text)}

/-- What an occurrence means is what the reader says where it stands. -/
theorem exists_read?_of_mem_values_cut {t : Text} {v : α} (h : v ∈ (cut read? t).values) :
    ∃ u rest, read? u = some (v, rest) := by
  fun_induction cut read? t with
  | case1 => simp [values] at h
  | case2 c t hr ih => exact ih (by simpa using h)
  | case3 c t w rest hr n ih =>
    rcases List.mem_cons.1 h with rfl | h
    · exact ⟨_, _, hr⟩
    · exact ih h

/-- A character at which nothing can be read stands before the first occurrence behind it. -/
theorem cut_cons {c : Char} {t : Text} (h : read? (c :: t) = none) :
    cut read? (c :: t) = (cut read? t).prepend [c] := by
  rw [cut]
  simp only [h]

/-- Text in which nothing starts stands before the first occurrence behind it. -/
theorem cut_append {g t : Text} (h : ∀ u, u <:+ g → u ≠ [] → read? (u ++ t) = none) :
    cut read? (g ++ t) = (cut read? t).prepend g := by
  induction g with
  | nil => simp
  | cons c g ih =>
    have hc : read? (c :: (g ++ t)) = none := h _ (List.suffix_refl _) (List.cons_ne_nil c g)
    rw [List.cons_append, cut_cons hc, ih fun u hu => h u (hu.trans (List.suffix_cons c g)),
      prepend_prepend]
    rfl

/-- A text in which nothing starts is not cut. -/
theorem cut_eq_tail {t : Text} (h : ∀ u, u <:+ t → u ≠ [] → read? u = none) :
    cut read? t = tail t := by
  have hcut : cut read? (t ++ []) = (cut read? []).prepend t :=
    cut_append fun u hu hne => by rw [List.append_nil]; exact h u hu hne
  rw [List.append_nil, cut, prepend, List.append_nil] at hcut
  exact hcut

/-- Nor is a text without the character that all occurrences start with. -/
theorem cut_eq_tail_of_not_mem {d : Char} (hread : ∀ {c t}, c ≠ d → read? (c :: t) = none)
    {t : Text} (h : d ∉ t) : cut read? t = tail t := by
  refine cut_eq_tail fun u hu hne => ?_
  obtain ⟨c, u, rfl⟩ := List.exists_cons_of_ne_nil hne
  exact hread (ne_of_mem_of_not_mem (hu.subset List.mem_cons_self) h)

/-- An occurrence at the start, with nothing before it. -/
theorem cut_of_read? {l rest : Text} {v : α} (hl : l ≠ [])
    (h : read? (l ++ rest) = some (v, rest)) :
    cut read? (l ++ rest) = found [] l v (cut read? rest) := by
  obtain ⟨c, l, rfl⟩ := List.exists_cons_of_ne_nil hl
  rw [List.cons_append] at h ⊢
  rw [cut]
  simp only [h, List.length_append, Nat.add_sub_cancel, List.take_left, List.drop_left]

/-- An occurrence that is the whole text. -/
theorem cut_eq_found {t : Text} {v : α} (ht : t ≠ []) (h : read? t = some (v, [])) :
    cut read? t = found [] t v (tail []) := by
  have hcut : cut read? (t ++ []) = found [] t v (cut read? []) :=
    cut_of_read? ht (by rw [List.append_nil]; exact h)
  rwa [List.append_nil, cut] at hcut

end TexBundle.Segments
