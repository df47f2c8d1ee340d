import TexBundle.Bibliography.Fields

/-!
# Groups and quotes

The texts that can stand between delimiters: a reader that looks for the end of a group or of quotes
finds it behind such a text, whatever follows.

* `balanced`, `balanced_induction`, `closing?_eq_some_iff`: what can stand in a group, which ends
  behind it;
* `closing?_eq_none`: a balanced text ends no group that was opened in front of it;
* `IsGroup`, `isGroup_of_balanced`: the same by counting, a group ends where as many have been
  closed as opened;
* `quotable`, `Value.quoted?_append`: what can stand in quotes.
-/

namespace TexBundle.Bibliography

/-! ## Groups -/

/-- Whether the groups of a text balance if `depth` of them are open in front of it: none is closed
that is not open, and none is still open at the end. -/
def balanced (left right : Char) : Nat → Text → Bool
  | depth, [] => depth == 0
  | depth, c :: t =>
    if c = left then balanced left right (depth + 1) t
    else if c = right then depth != 0 && balanced left right (depth - 1) t
    else balanced left right depth t

section

variable {left right : Char}

/-- Induction on what a balanced text starts with: a group is opened, one is closed, or neither. -/
theorem balanced_induction {motive : Nat → Text → Prop} (nil : motive 0 [])
    (opens : ∀ depth t, motive (depth + 1) t → motive depth (left :: t))
    (closes : ∀ depth t, right ≠ left → motive depth t → motive (depth + 1) (right :: t))
    (other : ∀ depth c t, c ≠ left → c ≠ right → motive depth t → motive depth (c :: t))
    {depth : Nat} {t : Text} (h : balanced left right depth t = true) : motive depth t := by
  induction t generalizing depth with
  | nil =>
    obtain rfl : depth = 0 := by simpa [balanced] using h
    exact nil
  | cons c t ih =>
    rw [balanced] at h
    by_cases hl : c = left
    · rw [if_pos hl] at h
      exact hl ▸ opens depth t (ih h)
    · rw [if_neg hl] at h
      by_cases hr : c = right
      · rw [if_pos hr] at h
        obtain ⟨hdepth, h⟩ := Bool.and_eq_true_iff.1 h
        obtain ⟨depth, rfl⟩ := Nat.exists_eq_succ_of_ne_zero (bne_iff_ne.1 hdepth)
        exact hr ▸ closes depth t (hr ▸ hl) (ih h)
      · rw [if_neg hr] at h
        exact other depth c t hl hr (ih h)

theorem balanced_append {m n : Nat} {s t : Text} (hs : balanced left right m s = true)
    (ht : balanced left right n t = true) : balanced left right (m + n) (s ++ t) = true := by
  refine balanced_induction (motive := fun m s => balanced left right (m + n) (s ++ t) = true)
    ?_ ?_ ?_ ?_ hs
  · rwa [Nat.zero_add, List.nil_append]
  · intro m s ih
    rwa [List.cons_append, balanced, if_pos rfl, Nat.add_right_comm]
  · intro m s hne ih
    rwa [List.cons_append, balanced, if_neg hne, if_pos rfl, Nat.succ_add]
  · intro m c s hl hr ih
    rwa [List.cons_append, balanced, if_neg hl, if_neg hr]

theorem balanced_of_ne {t : Text} (h : ∀ c ∈ t, c ≠ left ∧ c ≠ right) :
    balanced left right 0 t = true := by
  induction t with
  | nil => rfl
  | cons c t ih =>
    obtain ⟨hl, hr⟩ := h c List.mem_cons_self
    rw [balanced, if_neg hl, if_neg hr]
    exact ih fun d hd => h d (List.mem_cons_of_mem _ hd)

theorem balanced_group {t : Text} (hne : right ≠ left) (h : balanced left right 0 t = true) :
    balanced left right 0 (left :: (t ++ [right])) = true := by
  have hclose : balanced left right 1 [right] = true := by
    rw [balanced, if_neg hne, if_pos rfl]
    rfl
  rw [balanced, if_pos rfl]
  exact balanced_append h hclose

/-- The group ends behind a balanced body. -/
theorem closing?_append (hne : right ≠ left) {depth : Nat} {body : Text}
    (h : balanced left right depth body = true) (rest : Text) :
    closing? left right depth (body ++ right :: rest) = some (body, rest) := by
  refine balanced_induction (motive := fun depth body =>
    closing? left right depth (body ++ right :: rest) = some (body, rest)) ?_ ?_ ?_ ?_ h
  · rw [List.nil_append, closing?, if_pos ⟨rfl, hne, rfl⟩]
  · intro depth body ih
    rw [List.cons_append, closing?, if_neg fun hc => hc.2.1 rfl, if_pos rfl]
    simp only [ih, Option.map_some]
  · intro depth body _ ih
    rw [List.cons_append, closing?, if_neg fun hc => Nat.succ_ne_zero depth hc.2.2, if_neg hne,
      if_pos rfl]
    simp only [Nat.add_sub_cancel, ih, Option.map_some]
  · intro depth c body hl hr ih
    rw [List.cons_append, closing?, if_neg fun hc => hr hc.1, if_neg hl, if_neg hr]
    simp only [ih, Option.map_some]

/-- Only a balanced body stands before the end of a group. -/
theorem balanced_of_closing? {depth : Nat} {t body rest : Text}
    (h : closing? left right depth t = some (body, rest)) :
    balanced left right depth body = true := by
  induction t generalizing depth body with
  | nil => cases h
  | cons c t ih =>
    rw [closing?] at h
    by_cases hend : c = right ∧ c ≠ left ∧ depth = 0
    · rw [if_pos hend] at h
      obtain ⟨rfl, -⟩ := Prod.mk.inj (Option.some.inj h)
      rw [hend.2.2]
      rfl
    · rw [if_neg hend] at h
      obtain ⟨⟨body', rest'⟩, hclosing, hbody⟩ := Option.map_eq_some_iff.1 h
      obtain ⟨rfl, rfl⟩ := Prod.mk.inj hbody
      have hbalanced := ih hclosing
      rw [balanced]
      by_cases hl : c = left
      · rwa [if_pos hl] at hbalanced ⊢
      · rw [if_neg hl] at hbalanced ⊢
        by_cases hr : c = right
        · rw [if_pos hr] at hbalanced ⊢
          have hdepth : depth ≠ 0 := fun hdepth => hend ⟨hr, hl, hdepth⟩
          rwa [bne_iff_ne.2 hdepth, Bool.true_and]
        · rwa [if_neg hr] at hbalanced ⊢

/-- A group ends behind the balanced body at its start, if there is one. -/
theorem closing?_eq_some_iff (hne : right ≠ left) {depth : Nat} {t body rest : Text} :
    closing? left right depth t = some (body, rest) ↔
      t = body ++ right :: rest ∧ balanced left right depth body = true := by
  constructor
  · exact fun h => ⟨eq_of_closing? h, balanced_of_closing? h⟩
  · rintro ⟨rfl, h⟩
    exact closing?_append hne h rest

/-- Up to any place in a balanced text, no group is closed that is not open. -/
theorem count_le_of_balanced {depth : Nat} {t p : Text} (hne : right ≠ left)
    (h : balanced left right depth t = true) (hp : p <+: t) :
    p.count right ≤ depth + p.count left := by
  refine balanced_induction (motive := fun depth t =>
    ∀ p, p <+: t → p.count right ≤ depth + p.count left) ?_ ?_ ?_ ?_ h p hp
  · intro p hp
    rw [List.prefix_nil.1 hp]
    exact Nat.le_refl 0
  · intro depth t ih p hp
    rcases List.prefix_cons_iff.1 hp with rfl | ⟨p, rfl, ht⟩
    · exact Nat.zero_le _
    · rw [List.count_cons_of_ne hne.symm, List.count_cons_self, ← Nat.add_assoc,
        Nat.add_right_comm]
      exact ih p ht
  · intro depth t _ ih p hp
    rcases List.prefix_cons_iff.1 hp with rfl | ⟨p, rfl, ht⟩
    · exact Nat.zero_le _
    · rw [List.count_cons_self, List.count_cons_of_ne hne, Nat.succ_add]
      exact Nat.succ_le_succ (ih p ht)
  · intro depth c t hl hr ih p hp
    rcases List.prefix_cons_iff.1 hp with rfl | ⟨p, rfl, ht⟩
    · exact Nat.zero_le _
    · rw [List.count_cons_of_ne hr, List.count_cons_of_ne hl]
      exact ih p ht

/-- At the end of a balanced text, every group has been closed. -/
theorem count_eq_of_balanced {depth : Nat} {t : Text} (hne : right ≠ left)
    (h : balanced left right depth t = true) : t.count right = depth + t.count left := by
  refine balanced_induction (motive := fun depth t => t.count right = depth + t.count left)
    ?_ ?_ ?_ ?_ h
  · rfl
  · intro depth t ih
    rw [List.count_cons_of_ne hne.symm, List.count_cons_self, ih, Nat.add_right_comm,
      Nat.add_assoc]
  · intro depth t _ ih
    rw [List.count_cons_self, List.count_cons_of_ne hne, ih, Nat.add_right_comm]
  · intro depth c t hl hr ih
    rw [List.count_cons_of_ne hr, List.count_cons_of_ne hl, ih]

/-- Behind a text that closes nothing, a balanced text closes only what it has opened itself. -/
theorem closing?_eq_none (hne : right ≠ left) {depth : Nat} {s t : Text} (hs : right ∉ s)
    (ht : balanced left right 0 t = true) : closing? left right depth (s ++ t) = none := by
  rw [Option.eq_none_iff_forall_ne_some]
  rintro ⟨body, rest⟩ h
  obtain ⟨htext, hbody⟩ := (closing?_eq_some_iff hne).1 h
  rw [List.append_cons, List.append_eq_append_iff] at htext
  rcases htext with ⟨q, hq, hrest⟩ | ⟨q, rfl, -⟩
  · -- Up to the end of the group, one more is closed than opened, and all of them in `t`.
    have hbodyCount := count_eq_of_balanced hne hbody
    have hqCount := count_le_of_balanced hne ht ⟨rest, hrest.symm⟩
    have hright := congrArg (List.count right) hq
    have hleft := congrArg (List.count left) hq
    rw [List.count_append, List.count_append, List.count_eq_zero.2 hs, List.count_cons_self,
      List.count_nil] at hright
    rw [List.count_append, List.count_append, List.count_cons_of_ne hne, List.count_nil] at hleft
    omega
  · exact hs (List.mem_append_left _ (List.mem_append_right _ List.mem_cons_self))

/-- A group as a whole: from its opening delimiter to the one that closes it, which is the first
place where as many groups have been closed as opened. -/
structure IsGroup (left right : Char) (t : Text) : Prop where
  head : t.head? = some left
  last : t.getLast? = some right
  closed : t.count right = t.count left
  unclosed : ∀ p, p <+: t → p ≠ [] → p ≠ t → p.count right < p.count left

theorem isGroup_of_balanced {body : Text} (hne : right ≠ left)
    (h : balanced left right 0 body = true) : IsGroup left right (left :: (body ++ [right])) where
  head := rfl
  last := by rw [← List.cons_append, List.getLast?_concat]
  closed := by
    have hcount := count_eq_of_balanced hne h
    rw [Nat.zero_add] at hcount
    simp only [List.count_cons_of_ne hne.symm, List.count_cons_self, List.count_append, hcount,
      List.count_cons_of_ne hne, List.count_nil]
  unclosed p hp hnil hwhole := by
    rcases List.prefix_cons_iff.1 hp with rfl | ⟨p, rfl, ht⟩
    · exact absurd rfl hnil
    · -- What stands before the closing delimiter lies in the body.
      have hbody : p <+: body :=
        (List.prefix_concat_iff.1 ht).resolve_left fun he => hwhole (he ▸ rfl)
      have hcount := count_le_of_balanced hne h hbody
      rw [List.count_cons_of_ne hne.symm, List.count_cons_self]
      omega

end

/-! ## Quotes -/

/-- Whether a text can stand in quotes: a backslash escapes every quote in it, and its last
character escapes nothing. -/
def quotable : Text → Bool
  | [] => true
  | c :: t =>
    if c = '\\' then
      match t with
      | [] => false
      | _ :: t => quotable t
    else c != '"' && quotable t

theorem quotable_cons {c : Char} (hc : c ≠ '\\') (t : Text) :
    quotable (c :: t) = (c != '"' && quotable t) := by
  rw [quotable.eq_def]
  exact if_neg hc

theorem quotable_append {s t : Text} (hs : quotable s = true) (ht : quotable t = true) :
    quotable (s ++ t) = true := by
  fun_induction quotable s with
  | case1 => exact ht
  | case2 => cases hs
  | case3 d s ih =>
    exact ih hs
  | case4 c s hne ih =>
    obtain ⟨hquote, hs⟩ := Bool.and_eq_true_iff.1 hs
    rw [List.cons_append, quotable_cons hne, hquote, ih hs]
    rfl

theorem quotable_of_ne {t : Text} (h : ∀ c ∈ t, c ≠ '\\' ∧ c ≠ '"') : quotable t = true := by
  induction t with
  | nil => rfl
  | cons c t ih =>
    obtain ⟨hescape, hquote⟩ := h c List.mem_cons_self
    rw [quotable_cons hescape, bne_iff_ne.2 hquote, ih fun d hd => h d (List.mem_cons_of_mem _ hd)]
    rfl

/-- The quotes end behind a quotable text. -/
theorem Value.quoted?_append {t : Text} (h : quotable t = true) (rest : Text) :
    quoted? false (t ++ '"' :: rest) = some (t, rest) := by
  fun_induction quotable t with
  | case1 => simp [quoted?]
  | case2 => cases h
  | case3 c t ih => simp [quoted?, ih h]
  | case4 c t hescape ih =>
    obtain ⟨hquote, h⟩ := Bool.and_eq_true_iff.1 h
    simp [quoted?, bne_iff_ne.1 hquote, hescape, ih h]

end TexBundle.Bibliography
