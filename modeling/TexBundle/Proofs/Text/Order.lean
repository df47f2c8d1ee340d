import TexBundle.Text.Basic

/-!
# The order of texts

In this order the texts with one beginning stand together, and that beginning itself stands before
them.

* `le_total`, `le_trans`, `le_antisymm`: it is an order of all texts;
* `range_eq_filter`: in a sorted list, the run that starts at a beginning is all that begins so;
* `head?_mergeSort_le_iff`: the first of the sorted texts is the least one.
-/

namespace TexBundle.Text

variable {α : Type} {key : α → Text} {s t u : Text} {c d : Char}

@[simp] theorem le_nil_left (t : Text) : le [] t = true := by
  cases t <;> simp [le]

@[simp] theorem le_nil_right : le (c :: s) [] = false := by
  simp [le]

theorem le_cons_cons :
    le (c :: s) (d :: t) = true ↔ c.toNat < d.toNat ∨ c = d ∧ le s t = true := by
  have hlt : d.val < c.val ↔ d.toNat < c.toNat := UInt32.lt_iff_toNat_lt
  have heq : c = d ↔ c.toNat = d.toNat := Char.toNat_inj.symm
  have heq' : d = c ↔ d.toNat = c.toNat := Char.toNat_inj.symm
  simp only [le, List.lex, Bool.not_eq_true', Bool.or_eq_false_iff, decide_eq_false_iff_not, hlt,
    Bool.and_eq_false_iff, beq_eq_false_iff_ne, ne_eq, heq, heq']
  cases List.lex t s fun a b => decide (a.val < b.val) <;> simp <;> omega

theorem le_total (s t : Text) : (le s t || le t s) = true := by
  induction s generalizing t with
  | nil => simp
  | cons c s ih =>
    cases t with
    | nil => simp
    | cons d t =>
      have hst := ih t
      simp only [Bool.or_eq_true, le_cons_cons] at hst ⊢
      rcases Nat.lt_trichotomy c.toNat d.toNat with h | h | h
      · exact .inl (.inl h)
      · rw [Char.toNat_inj] at h
        exact hst.imp (fun hs => .inr ⟨h, hs⟩) (fun ht => .inr ⟨h.symm, ht⟩)
      · exact .inr (.inl h)

theorem le_trans (h : le s t = true) (h' : le t u = true) : le s u = true := by
  induction s generalizing t u with
  | nil => simp
  | cons c s ih =>
    cases t with
    | nil => simp at h
    | cons d t =>
      cases u with
      | nil => simp at h'
      | cons e u =>
        rw [le_cons_cons] at h h' ⊢
        rcases h with h | ⟨rfl, h⟩
        · rcases h' with h' | ⟨rfl, -⟩
          · exact .inl (Nat.lt_trans h h')
          · exact .inl h
        · rcases h' with h' | ⟨rfl, h'⟩
          · exact .inl h'
          · exact .inr ⟨rfl, ih h h'⟩

/-- A text between two with one first character has that one, too, and its rest lies between
theirs. -/
theorem cons_le_cons_le (h : le (c :: s) (d :: t) = true) (h' : le (d :: t) (c :: u) = true) :
    c = d ∧ le s t = true ∧ le t u = true := by
  rw [le_cons_cons] at h h'
  rcases h with h | ⟨rfl, h⟩
  · rcases h' with h' | ⟨rfl, -⟩
    · omega
    · exact absurd h (Nat.lt_irrefl _)
  · rcases h' with h' | ⟨-, h'⟩
    · exact absurd h' (Nat.lt_irrefl _)
    · exact ⟨rfl, h, h'⟩

theorem le_antisymm (h : le s t = true) (h' : le t s = true) : s = t := by
  induction s generalizing t with
  | nil =>
    cases t with
    | nil => rfl
    | cons d t => simp at h'
  | cons c s ih =>
    cases t with
    | nil => simp at h
    | cons d t =>
      obtain ⟨rfl, hst, hts⟩ := cons_le_cons_le h h'
      rw [ih hst hts]

/-! ## Texts with one beginning -/

theorem le_append (s t : Text) : le s (s ++ t) = true := by
  induction s with
  | nil => exact le_nil_left t
  | cons c s ih => exact le_cons_cons.2 (.inr ⟨rfl, ih⟩)

/-- What lies between a beginning and a text that begins so begins so, too. -/
theorem prefix_of_le (hst : le s t = true) (htu : le t (s ++ u) = true) : s <+: t := by
  induction s generalizing t with
  | nil => exact List.nil_prefix
  | cons c s ih =>
    cases t with
    | nil => simp at hst
    | cons d t =>
      obtain ⟨rfl, hst', htu'⟩ := cons_le_cons_le hst htu
      exact List.cons_prefix_cons.2 ⟨rfl, ih hst' htu'⟩

theorem takeWhile_eq_filter {l : List α} (h : l.Pairwise fun a b => le (key a) (key b) = true)
    (hs : ∀ a ∈ l, le s (key a) = true) :
    (l.takeWhile fun a => s.isPrefixOf (key a)) = l.filter fun a => s.isPrefixOf (key a) := by
  induction l with
  | nil => rfl
  | cons a l ih =>
    obtain ⟨ha, hl⟩ := List.pairwise_cons.1 h
    obtain ⟨hsa, hsl⟩ := List.forall_mem_cons.1 hs
    by_cases hpre : s.isPrefixOf (key a) = true
    · rw [List.takeWhile_cons, List.filter_cons, if_pos hpre, if_pos hpre, ih hl hsl]
    · -- A later key that begins with `s` would have this one between `s` and itself.
      have hnone : ∀ b ∈ l, ¬s.isPrefixOf (key b) = true := by
        intro b hb hb'
        obtain ⟨r, hr⟩ := List.isPrefixOf_iff_prefix.1 hb'
        have hab := ha b hb
        rw [← hr] at hab
        exact hpre (List.isPrefixOf_iff_prefix.2 (prefix_of_le hsa hab))
      rw [List.takeWhile_cons, List.filter_cons, if_neg hpre, if_neg hpre,
        List.filter_eq_nil_iff.2 hnone]

/-- In a list sorted by key, the keys that begin with `s` stand together, at the first key that is
not before `s`. -/
theorem range_eq_filter {l : List α} (h : l.Pairwise fun a b => le (key a) (key b) = true) :
    ((l.dropWhile fun a => !le s (key a)).takeWhile fun a => s.isPrefixOf (key a)) =
      l.filter fun a => s.isPrefixOf (key a) := by
  induction l with
  | nil => rfl
  | cons a l ih =>
    obtain ⟨ha, hl⟩ := List.pairwise_cons.1 h
    by_cases hsa : le s (key a) = true
    · have hsl : ∀ b ∈ a :: l, le s (key b) = true :=
        List.forall_mem_cons.2 ⟨hsa, fun b hb => le_trans hsa (ha b hb)⟩
      rw [List.dropWhile_cons_of_neg (by simpa using hsa), takeWhile_eq_filter h hsl]
    · have hnot : ¬s.isPrefixOf (key a) = true := by
        intro hpre
        obtain ⟨r, hr⟩ := List.isPrefixOf_iff_prefix.1 hpre
        exact hsa (by rw [← hr]; exact le_append s r)
      rw [List.dropWhile_cons_of_pos (by simpa using hsa), ih hl, List.filter_cons, if_neg hnot]

/-! ## The least text -/

theorem head?_mergeSort_le_iff {l : List Text} :
    (l.mergeSort le).head? = some s ↔ s ∈ l ∧ ∀ t ∈ l, le s t = true := by
  have hmem : ∀ t, t ∈ l.mergeSort le ↔ t ∈ l := fun t => List.mem_mergeSort
  have hsorted : (l.mergeSort le).Pairwise fun s t => le s t = true :=
    List.pairwise_mergeSort (fun s t u => le_trans (s := s) (t := t) (u := u)) le_total l
  cases hl : l.mergeSort le with
  | nil =>
    rw [hl] at hmem
    have hnil : s ∉ l := fun hs => List.not_mem_nil ((hmem s).2 hs)
    simp [hnil]
  | cons u us =>
    rw [hl] at hmem hsorted
    have hleast : ∀ t ∈ l, le u t = true := by
      intro t ht
      rcases List.mem_cons.1 ((hmem t).2 ht) with rfl | ht'
      · simpa using le_total t t
      · exact List.rel_of_pairwise_cons hsorted ht'
    have hu : u ∈ l := (hmem u).1 List.mem_cons_self
    rw [List.head?_cons, Option.some_inj]
    constructor
    · rintro rfl
      exact ⟨hu, hleast⟩
    · rintro ⟨hs, hsl⟩
      exact le_antisymm (hleast s hs) (hsl u hu)

end TexBundle.Text
