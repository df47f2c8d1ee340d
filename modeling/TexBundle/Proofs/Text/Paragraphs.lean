import TexBundle.Proofs.Text.Cutting

/-!
# Paragraph breaks

A line that is empty or blank ends a paragraph. Whether a text has one is settled line by line, and
for a text that has been put together from pieces, where the pieces meet.

* `Text.Unbroken`: no line of a text is empty or blank;
* `Text.unbroken_append_newline`: a line break joins two such texts, unless it follows another one;
* `Text.GoodStart`, `Text.GoodEnd`: the two ends of a piece whose inner lines are known to be good;
* `Text.unbroken_iff_goodEnd`, `Text.Behind.unbroken_iff`: nothing but these ends matters then.
-/

namespace TexBundle.Text

variable {s t u : Text}

/-- What stands before the first line break. -/
def firstLine (t : Text) : Text := (t.splitBy (· == '\n')).headD []

/-- What stands behind the last line break. -/
def lastLine (t : Text) : Text := (t.splitBy (· == '\n')).getLastD []

/-- The lines of a text, without the line breaks. One at the end starts no further line. -/
def rows (t : Text) : List Text :=
  if lastLine t = [] then (t.splitBy (· == '\n')).dropLast else t.splitBy (· == '\n')

/-- No line is empty or blank. -/
def Unbroken (t : Text) : Prop := ∀ row ∈ t.rows, allBlank row = false

instance (t : Text) : Decidable (Unbroken t) := inferInstanceAs (Decidable (∀ _ ∈ _, _))

/-! ## First and last lines -/

theorem splitBy_newline (s t : Text) :
    splitBy (· == '\n') (s ++ '\n' :: t) = splitBy (· == '\n') s ++ splitBy (· == '\n') t :=
  splitBy_append_cons (by rfl) s t

theorem splitBy_line (h : '\n' ∉ t) : splitBy (· == '\n') t = [t] :=
  splitBy_eq_singleton fun _ hc => beq_false_of_ne fun e => h (e ▸ hc)

theorem firstLine_newline (s t : Text) : firstLine (s ++ '\n' :: t) = firstLine s := by
  obtain ⟨p, ps, hp⟩ := List.exists_cons_of_ne_nil (splitBy_ne_nil (· == '\n') s)
  rw [firstLine, firstLine, splitBy_newline, hp]
  rfl

theorem lastLine_newline (s t : Text) : lastLine (s ++ '\n' :: t) = lastLine t := by
  rw [lastLine, lastLine, splitBy_newline, List.getLastD_eq_getLast?, List.getLastD_eq_getLast?,
    List.getLast?_append_of_ne_nil _ (splitBy_ne_nil _ t)]

theorem firstLine_line (h : '\n' ∉ t) : firstLine t = t := by
  rw [firstLine, splitBy_line h]
  rfl

theorem lastLine_line (h : '\n' ∉ t) : lastLine t = t := by
  rw [lastLine, splitBy_line h]
  rfl

/-- A text is one line, or its first line and more. -/
theorem line_or_first (t : Text) :
    '\n' ∉ t ∨ ∃ line rest, t = line ++ '\n' :: rest ∧ '\n' ∉ line := by
  by_cases h : '\n' ∈ t
  · obtain ⟨line, rest, ht, hline⟩ := List.eq_append_cons_of_mem h
    exact .inr ⟨line, rest, ht, hline⟩
  · exact .inl h

/-- A text is one line, or more and its last line. -/
theorem line_or_last (t : Text) :
    '\n' ∉ t ∨ ∃ rest line, t = rest ++ '\n' :: line ∧ '\n' ∉ line := by
  cases h : breakAtLast? '\n' t with
  | none => exact .inl (breakAtLast?_eq_none_iff.1 h)
  | some p =>
    obtain ⟨rest, line⟩ := p
    exact .inr ⟨rest, line, eq_of_breakAtLast? h, not_mem_of_breakAtLast? h⟩

theorem firstLine_append (h : '\n' ∉ s) (t : Text) : firstLine (s ++ t) = s ++ firstLine t := by
  obtain ht | ⟨line, rest, rfl, hline⟩ := line_or_first t
  · rw [firstLine_line ht, firstLine_line (by simp [h, ht])]
  · rw [← List.append_assoc, firstLine_newline, firstLine_newline, firstLine_line hline,
      firstLine_line (by simp [h, hline])]

/-- What stands before the last line break does not count. -/
theorem lastLine_append (s : Text) (h : '\n' ∈ t) : lastLine (s ++ t) = lastLine t := by
  obtain ⟨a, b, rfl⟩ := List.append_of_mem h
  rw [← List.append_assoc, lastLine_newline, lastLine_newline]

/-- What follows without a line break goes on with the last line. -/
theorem lastLine_append_line (s : Text) (h : '\n' ∉ t) : lastLine (s ++ t) = lastLine s ++ t := by
  obtain hs | ⟨rest, line, rfl, hline⟩ := line_or_last s
  · rw [lastLine_line hs, lastLine_line (by simp [hs, h])]
  · rw [List.append_assoc, List.cons_append, lastLine_newline, lastLine_newline, lastLine_line hline,
      lastLine_line (by simp [hline, h])]

theorem lastLine_eq_nil_iff : lastLine t = [] ↔ t = [] ∨ t.getLast? = some '\n' := by
  obtain ht | ⟨rest, line, rfl, hline⟩ := line_or_last t
  · rw [lastLine_line ht]
    exact (or_iff_left fun e => ht (List.mem_of_getLast? e)).symm
  · rw [lastLine_newline, lastLine_line hline, List.getLast?_append_of_ne_nil _ (by simp)]
    cases line with
    | nil => simp
    | cons c line =>
      rw [List.getLast?_cons_cons]
      simpa using fun e => hline (List.mem_of_getLast? e)

/-! ## Texts without paragraph breaks -/

theorem unbroken_nil : Unbroken [] := by
  decide

theorem unbroken_line_iff (h : '\n' ∉ t) : Unbroken t ↔ t = [] ∨ allBlank t = false := by
  rw [Unbroken, rows, lastLine_line h, splitBy_line h]
  split <;> simp_all

theorem unbroken_append_newline (s t : Text) :
    Unbroken (s ++ '\n' :: t) ↔ (Unbroken s ∧ lastLine s ≠ []) ∧ Unbroken t := by
  have hpieces : (∀ row ∈ splitBy (· == '\n') s, allBlank row = false) ↔
      Unbroken s ∧ lastLine s ≠ [] := by
    constructor
    · intro h
      have hlast : lastLine s ∈ splitBy (· == '\n') s := by
        rw [lastLine, List.getLastD_eq_getLast?, List.getLast?_eq_some_getLast (splitBy_ne_nil _ s)]
        exact List.getLast_mem _
      have hne : lastLine s ≠ [] := fun e => by simpa [e, allBlank] using h _ hlast
      rw [Unbroken, rows, if_neg hne]
      exact ⟨h, hne⟩
    · rintro ⟨h, hne⟩
      rwa [Unbroken, rows, if_neg hne] at h
  have hrows : rows (s ++ '\n' :: t) = splitBy (· == '\n') s ++ rows t := by
    rw [rows, rows, lastLine_newline, splitBy_newline]
    split
    · exact List.dropLast_append_of_ne_nil (splitBy_ne_nil _ t)
    · rfl
  rw [Unbroken, hrows, List.forall_mem_append, hpieces]
  rfl

theorem unbroken_line_append (h : '\n' ∉ s) (t : Text) :
    Unbroken (s ++ '\n' :: t) ↔ allBlank s = false ∧ Unbroken t := by
  rw [unbroken_append_newline, unbroken_line_iff h, lastLine_line h]
  refine and_congr_left fun _ => ⟨fun ⟨hs, hne⟩ => hs.resolve_left hne, fun hs => ⟨.inr hs, ?_⟩⟩
  rintro rfl
  cases hs

/-! ## The ends of a piece -/

/-- The first line is neither empty nor blank, unless there is nothing at all. -/
def GoodStart (t : Text) : Prop := t = [] ∨ allBlank (firstLine t) = false

/-- What stands behind the last line break is not blank, unless it is nothing. -/
def GoodEnd (t : Text) : Prop := lastLine t = [] ∨ allBlank (lastLine t) = false

instance (t : Text) : Decidable (GoodEnd t) := inferInstanceAs (Decidable (_ ∨ _))

theorem goodStart_line_append (h : '\n' ∉ s) (t : Text) :
    GoodStart (s ++ '\n' :: t) ↔ allBlank s = false := by
  rw [GoodStart, firstLine_newline, firstLine_line h, or_iff_right (by simp)]

/-- There are no paragraph breaks behind the first line. -/
def Behind (t : Text) : Prop := ∀ rest, '\n' :: rest <:+ t → Unbroken rest

theorem Behind.of_suffix (h : Behind t) (hs : s <:+ t) : Behind s :=
  fun rest hrest => h rest (hrest.trans hs)

theorem Unbroken.behind (h : Unbroken t) : Behind t := by
  rintro rest ⟨front, rfl⟩
  exact ((unbroken_append_newline front rest).1 h).2

/-- The first line does not count. -/
theorem Behind.append (h : Behind t) (hs : '\n' ∉ s) : Behind (s ++ t) := by
  rintro rest ⟨front, hfront⟩
  obtain ⟨middle, rfl, hmiddle⟩ | ⟨middle, rfl, hmiddle⟩ := List.append_eq_append_iff.1 hfront
  · cases middle with
    | nil => exact h rest ⟨[], hmiddle⟩
    | cons c middle =>
      obtain rfl := (List.cons.inj hmiddle).1
      simp at hs
  · exact h rest ⟨middle, hmiddle.symm⟩

theorem Behind.unbroken_iff (h : Behind t) : Unbroken t ↔ GoodStart t := by
  obtain ht | ⟨line, rest, rfl, hline⟩ := line_or_first t
  · rw [unbroken_line_iff ht, GoodStart, firstLine_line ht]
  · rw [unbroken_line_append hline, goodStart_line_append hline, and_iff_left (h _ ⟨line, rfl⟩)]

/-- A text without paragraph breaks that is cut somewhere gets one only from the cut. -/
theorem unbroken_iff_goodEnd (h : Unbroken (s ++ t)) : Unbroken s ↔ GoodEnd s := by
  obtain hs | ⟨rest, line, rfl, hline⟩ := line_or_last s
  · rw [unbroken_line_iff hs, GoodEnd, lastLine_line hs]
  · rw [List.append_assoc, List.cons_append, unbroken_append_newline] at h
    rw [unbroken_append_newline, and_iff_right h.1, unbroken_line_iff hline, GoodEnd,
      lastLine_newline, lastLine_line hline]

theorem GoodEnd.goodStart (hs : GoodEnd s) (h : Unbroken (s ++ t)) : GoodStart s := by
  have hbroken := (unbroken_iff_goodEnd h).2 hs
  exact hbroken.behind.unbroken_iff.1 hbroken

/-- A text that is cut out at both ends gets them only from the two cuts. -/
theorem Behind.unbroken_append_iff (h : Behind (s ++ t)) :
    Unbroken s ↔ GoodStart s ∧ GoodEnd s := by
  obtain hs | ⟨line, rest, rfl, hline⟩ := line_or_first s
  · rw [unbroken_line_iff hs, GoodStart, GoodEnd, firstLine_line hs, lastLine_line hs, and_self]
  · have hrest : Unbroken (rest ++ t) := h _ ⟨line, by simp⟩
    rw [unbroken_line_append hline, goodStart_line_append hline, unbroken_iff_goodEnd hrest,
      GoodEnd, GoodEnd, lastLine_newline]

end TexBundle.Text
