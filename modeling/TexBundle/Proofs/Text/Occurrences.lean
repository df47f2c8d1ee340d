import TexBundle.Proofs.Text.Offsets
import TexBundle.Proofs.Text.Reader
import TexBundle.Proofs.Text.Segments

/-!
# Occurrences from left to right

What a scan finds, by its rules: a character at which nothing can be read is passed over, an
occurrence is taken as a whole, and the scan goes on behind it. Ranges count bytes from some number
on.

* `Occurrences`, `Occurrences.unique`: these rules, which leave nothing open;
* `occurrences_iff`: cutting a text follows them;
* `Occurrences.pairwise`: no two occurrences overlap;
* `Occurrences.exists_of_mem`: the text in the range of an occurrence is what its reader took;
* `Occurrences.mem_or_inside`: whatever can be read is found, unless it starts inside of what has been
  taken already.
-/

namespace TexBundle

variable {α : Type}

/-- Scanning a text whose first character stands at byte `n`. -/
inductive Occurrences (read? : Text → Option (α × Text)) :
    Nat → Text → List (Located α) → Prop where
  | done (n : Nat) : Occurrences read? n [] []
  | pass {n : Nat} {c : Char} {t : Text} {os : List (Located α)} (hread : read? (c :: t) = none)
    (h : Occurrences read? (n + c.utf8Size) t os) : Occurrences read? n (c :: t) os
  | take {n : Nat} {l t : Text} {v : α} {os : List (Located α)} (hne : l ≠ [])
    (hread : read? (l ++ t) = some (v, t)) (h : Occurrences read? (n + Text.size l) t os) :
    Occurrences read? n (l ++ t) (⟨n, n + Text.size l, v⟩ :: os)

/-- The text in the range of an occurrence, in a text whose first character stands at byte `n`. -/
def Located.Covers (o : Located α) (n : Nat) (t lexeme rest : Text) : Prop :=
  ∃ before, t = before ++ (lexeme ++ rest) ∧ o.start = n + Text.size before ∧
    o.stop = o.start + Text.size lexeme

namespace Located.Covers

variable {o : Located α} {n : Nat} {t lexeme rest : Text}

theorem append (l : Text) (h : o.Covers (n + Text.size l) t lexeme rest) :
    o.Covers n (l ++ t) lexeme rest := by
  obtain ⟨before, rfl, hstart, hstop⟩ := h
  refine ⟨l ++ before, (List.append_assoc ..).symm, ?_, hstop⟩
  rw [hstart, Text.size_append, Nat.add_assoc]

theorem start_lt (h : o.Covers n t lexeme rest) (hne : lexeme ≠ []) : o.start < o.stop := by
  obtain ⟨before, -, -, hstop⟩ := h
  obtain ⟨c, lexeme, rfl⟩ := List.exists_cons_of_ne_nil hne
  have hc := c.utf8Size_pos
  rw [hstop, Text.size_cons]
  omega

theorem stop_le (h : o.Covers n t lexeme rest) : o.stop ≤ n + Text.size t := by
  obtain ⟨before, rfl, hstart, hstop⟩ := h
  rw [hstop, hstart, Text.size_append, Text.size_append]
  omega

end Located.Covers

/-- Where segments are said to stand, their text has their occurrences. -/
theorem Segments.exists_covers {s : Segments α} {n : Nat} {o : Located α} (h : o ∈ s.locate n) :
    ∃ lexeme rest, o.Covers n s.text lexeme rest := by
  induction s generalizing n with
  | tail t => cases h
  | found b l v s ih =>
    rcases List.mem_cons.1 h with rfl | h
    · exact ⟨l, s.text, b, by rw [text, List.append_assoc], rfl, rfl⟩
    · rw [Nat.add_assoc, ← Text.size_append] at h
      obtain ⟨lexeme, rest, hcovers⟩ := ih h
      exact ⟨lexeme, rest, hcovers.append (b ++ l)⟩

namespace Occurrences

variable {read? : Text → Option (α × Text)} {n : Nat} {t : Text} {os os' : List (Located α)}

theorem eq_nil (h : Occurrences read? n [] os) : os = [] := by
  generalize ht : ([] : Text) = t at h
  cases h with
  | done => rfl
  | pass => cases ht
  | take hne => exact absurd (List.append_eq_nil_iff.1 ht.symm).1 hne

theorem of_read?_eq_none {c : Char} (h : Occurrences read? n (c :: t) os)
    (hread : read? (c :: t) = none) : Occurrences read? (n + c.utf8Size) t os := by
  generalize hu : c :: t = u at h hread
  cases h with
  | done => cases hu
  | pass _ h =>
    obtain ⟨rfl, rfl⟩ := List.cons.inj hu
    exact h
  | take _ hread' => rw [hread'] at hread; cases hread

theorem of_read?_eq_some {l : Text} {v : α} (h : Occurrences read? n (l ++ t) os)
    (hne : l ≠ []) (hread : read? (l ++ t) = some (v, t)) :
    ∃ os', os = ⟨n, n + Text.size l, v⟩ :: os' ∧ Occurrences read? (n + Text.size l) t os' := by
  generalize hu : l ++ t = u at h hread
  cases h with
  | done => exact absurd (List.append_eq_nil_iff.1 hu).1 hne
  | pass hread' => rw [hread'] at hread; cases hread
  | take _ hread' h =>
    obtain ⟨rfl, rfl⟩ := Prod.mk.inj (Option.some.inj (hread'.symm.trans hread))
    obtain rfl := List.append_cancel_right hu
    exact ⟨_, rfl, h⟩

/-- At each place at most one rule applies. -/
theorem unique (h : Occurrences read? n t os) (h' : Occurrences read? n t os') : os = os' := by
  induction h generalizing os' with
  | done => exact h'.eq_nil.symm
  | pass hread _ ih => exact ih (h'.of_read?_eq_none hread)
  | take hne hread _ ih =>
    obtain ⟨os', rfl, hrest⟩ := h'.of_read?_eq_some hne hread
    rw [ih hrest]

/-- An occurrence covers some text, and there its reader reads just that. -/
theorem exists_of_mem (h : Occurrences read? n t os) {o : Located α} (ho : o ∈ os) :
    ∃ lexeme rest, o.Covers n t lexeme rest ∧ lexeme ≠ [] ∧
      read? (lexeme ++ rest) = some (o.value, rest) := by
  induction h with
  | done => cases ho
  | @pass n c t os _ _ ih =>
    obtain ⟨lexeme, rest, hcovers, hread⟩ := ih ho
    exact ⟨lexeme, rest, hcovers.append [c], hread⟩
  | @take n l t v os hne hread _ ih =>
    rcases List.mem_cons.1 ho with rfl | ho
    · exact ⟨l, t, ⟨[], rfl, rfl, rfl⟩, hne, hread⟩
    · obtain ⟨lexeme, rest, hcovers, hread⟩ := ih ho
      exact ⟨lexeme, rest, hcovers.append l, hread⟩

theorem le_start (h : Occurrences read? n t os) {o : Located α} (ho : o ∈ os) : n ≤ o.start := by
  obtain ⟨lexeme, rest, ⟨before, -, hstart, -⟩, -⟩ := h.exists_of_mem ho
  exact hstart ▸ Nat.le_add_right n _

/-- Each occurrence starts where the one before it has ended, or behind that. -/
theorem pairwise (h : Occurrences read? n t os) : os.Pairwise fun a b => a.stop ≤ b.start := by
  induction h with
  | done => exact .nil
  | pass _ _ ih => exact ih
  | take _ _ h ih => exact .cons (fun _ ho => h.le_start ho) ih

/-- What can be read somewhere is found there, unless an occurrence that starts before that place goes
on beyond it. -/
theorem mem_or_inside (h : Occurrences read? n t os) {before lexeme rest : Text} {v : α}
    (hne : lexeme ≠ []) (hread : read? (lexeme ++ rest) = some (v, rest))
    (ht : t = before ++ (lexeme ++ rest)) :
    ⟨n + Text.size before, n + Text.size before + Text.size lexeme, v⟩ ∈ os ∨
      ∃ o ∈ os, o.start < n + Text.size before ∧ n + Text.size before < o.stop := by
  induction h generalizing before with
  | done => simp_all
  | @pass n c t os hnone _ ih =>
    cases before with
    | nil =>
      rw [List.nil_append] at ht
      rw [ht, hread] at hnone
      cases hnone
    | cons d before =>
      obtain ⟨rfl, hbehind⟩ := List.cons.inj ht
      rw [Text.size_cons, ← Nat.add_assoc]
      exact ih hbehind
  | @take n l t w os _ hread' _ ih =>
    cases before with
    | nil =>
      rw [List.nil_append] at ht
      rw [ht, hread] at hread'
      obtain ⟨rfl, rfl⟩ := Prod.mk.inj (Option.some.inj hread')
      obtain rfl := List.append_cancel_right ht
      exact .inl List.mem_cons_self
    | cons c before =>
      by_cases hbehind : l <+: c :: before
      · obtain ⟨between, hbetween⟩ := hbehind
        rw [← hbetween, List.append_assoc, List.append_cancel_left_eq] at ht
        rw [← hbetween, Text.size_append, ← Nat.add_assoc]
        exact (ih ht).imp (List.mem_cons_of_mem _) fun ⟨o, ho, hinside⟩ =>
          ⟨o, List.mem_cons_of_mem _ ho, hinside⟩
      · -- The place lies inside of what has been taken here.
        obtain ⟨covered, rfl⟩ : c :: before <+: l := (List.prefix_or_prefix_of_prefix
          (ht ▸ List.prefix_append _ _) (List.prefix_append l t)).resolve_right hbehind
        have hcovered : covered ≠ [] := by
          rintro rfl
          exact hbehind (by rw [List.append_nil])
        refine .inr ⟨_, List.mem_cons_self, ?_, ?_⟩
        · exact Nat.lt_add_of_pos_right (Text.size_pos (List.cons_ne_nil c before))
        · rw [Text.size_append, ← Nat.add_assoc]
          exact Nat.lt_add_of_pos_right (Text.size_pos hcovered)

end Occurrences

variable {read? : Text → Option (α × Text)}

theorem occurrences_cut (hexact : Exact read?) (hproper : Proper read?) (n : Nat) (t : Text) :
    Occurrences read? n t ((Segments.cut read? t).locate n) := by
  fun_induction Segments.cut read? t generalizing n with
  | case1 => exact .done n
  | case2 c t hread ih =>
    rw [Segments.locate_prepend]
    exact .pass hread (ih _)
  | case3 c t v rest hread k ih =>
    obtain ⟨l, hl, hagain⟩ := hexact hread
    have hlength := hproper hread
    -- What has been read is the first character and the `k` behind it.
    obtain ⟨d, l, rfl⟩ : ∃ d l', l = d :: l' := List.exists_cons_of_ne_nil <| by
      rintro rfl
      rw [hl] at hlength
      exact Nat.lt_irrefl _ hlength
    rw [List.cons_append] at hl
    obtain ⟨rfl, rfl⟩ := List.cons.inj hl
    have hk : k = l.length := by simp [k]
    rw [hk, List.drop_left] at ih ⊢
    rw [List.take_left]
    exact .take (List.cons_ne_nil _ _) (hagain rest rfl) (ih _)

/-- Cutting a text finds what a scan finds. -/
theorem occurrences_iff (hexact : Exact read?) (hproper : Proper read?) {n : Nat} {t : Text}
    {os : List (Located α)} :
    Occurrences read? n t os ↔ os = (Segments.cut read? t).locate n :=
  ⟨fun h => h.unique (occurrences_cut hexact hproper n t),
    fun h => h ▸ occurrences_cut hexact hproper n t⟩

end TexBundle
