import TexBundle.Text.Lowercase

/-!
# Lower case and ASCII

A lower-case form has no ASCII capital letter, so that two of them that are equal up to the case of
ASCII letters are equal. Those characters of ASCII that stand in front of the letters are in it
exactly if they are in the text.

* `not_isUpper_lowercaseChar`, `mem_lowercaseChar_iff`: one character;
* `lowercaseBetween`, `lowercase_append`: a part of a text, in its place;
* `asciiLower_lowercase`, `mem_lowercase_iff`, `lowercase_of_isAscii`: a whole text;
* `length_lowercase_append`, `eq_of_isInfix_of_lowercase_eq`: the length does not depend on what
  stands around a text, so that a part has the form of the whole only if it is the whole.
-/

namespace TexBundle.Text

variable {c d : Char} {s t before behind : Text}

theorem isUpper_iff : c.isUpper = true ↔ 'A'.toNat ≤ c.toNat ∧ c.toNat ≤ 'Z'.toNat := by
  refine decide_eq_true_iff.trans ?_
  rw [ge_iff_le, UInt32.le_iff_toNat_le, UInt32.le_iff_toNat_le]
  rfl

theorem toLower_eq_self (h : ¬c.isUpper = true) : c.toLower = c :=
  dif_neg fun hupper => h (decide_eq_true hupper)

theorem toNat_ofNat (n : Nat) : (Char.ofNat n).toNat = n ∨ (Char.ofNat n).toNat = 0 := by
  by_cases h : n.isValidChar
  · exact .inl (by rw [Char.ofNat, dif_pos h]; rfl)
  · exact .inr (by rw [Char.ofNat, dif_neg h]; rfl)

/-! ## One character -/

/-- Lower case is taken from characters behind the digits and signs, to characters behind `Z`. -/
theorem ranges_behind : ∀ r ∈ lowercaseRanges, '@'.toNat < r.first ∧ 'Z'.toNat < r.target := by
  decide +kernel

theorem find?_of_isUpper (h : c.isUpper = true) :
    lowercaseRanges.find? (·.has c) = some ⟨0x41, 0x5A, 1, 0x61⟩ := by
  obtain ⟨hA, hZ⟩ := isUpper_iff.1 h
  refine List.find?_cons_of_pos ?_
  simp only [CaseRange.has, Bool.and_eq_true, decide_eq_true_eq, beq_iff_eq]
  exact ⟨⟨hA, hZ⟩, Nat.mod_one _⟩

theorem not_isUpper_lowercaseChar (h : d ∈ lowercaseChar c) : ¬d.isUpper = true := by
  rw [lowercaseChar] at h
  split at h
  · simp only [List.mem_cons, List.not_mem_nil, or_false] at h
    rcases h with rfl | rfl <;> decide
  · split at h
    · rename_i r hr
      have hr' := (ranges_behind r (List.mem_of_find?_eq_some hr)).2
      rw [List.mem_singleton] at h
      rw [isUpper_iff, h]
      have hA : 0 < 'A'.toNat := by decide
      rcases toNat_ofNat (r.target + (c.toNat - r.first)) with hn | hn
      · omega
      · omega
    · rename_i hnone
      rw [List.mem_singleton] at h
      rw [h]
      intro hc
      rw [find?_of_isUpper hc] at hnone
      cases hnone

/-! ## A whole text -/

theorem not_isUpper_lowercaseAfter {before : Text} (h : d ∈ lowercaseAfter before t) :
    ¬d.isUpper = true := by
  induction t generalizing before with
  | nil => simp [lowercaseAfter] at h
  | cons c t ih =>
    rw [lowercaseAfter, List.mem_append] at h
    rcases h with h | h
    · split at h
      · rw [List.mem_singleton, lowercaseSigma] at h
        split at h <;> subst h <;> decide
      · exact not_isUpper_lowercaseChar h
    · exact ih h

theorem asciiLower_lowercase (t : Text) : asciiLower (lowercase t) = lowercase t := by
  have hmap : (lowercase t).map Char.toLower = (lowercase t).map id :=
    List.map_congr_left fun _ hd => toLower_eq_self (not_isUpper_lowercaseAfter hd)
  rw [asciiLower, hmap, List.map_id]

/-! ## A part of a text -/

/-- The lower-case form of a text that stands between `before`, which is read backwards, and
`behind`. -/
def lowercaseBetween (before behind : Text) : Text → Text
  | [] => []
  | c :: t =>
    (if c = 'Σ' then [lowercaseSigma before (t ++ behind)] else lowercaseChar c) ++
      lowercaseBetween (c :: before) behind t

theorem lowercaseAfter_eq (before t : Text) :
    lowercaseAfter before t = lowercaseBetween before [] t := by
  induction t generalizing before with
  | nil => rfl
  | cons c t ih => rw [lowercaseAfter, lowercaseBetween, ih, List.append_nil]

theorem lowercaseBetween_append (before behind s t : Text) :
    lowercaseBetween before behind (s ++ t) =
      lowercaseBetween before (t ++ behind) s ++
        lowercaseBetween (s.reverse ++ before) behind t := by
  induction s generalizing before with
  | nil => rfl
  | cons c s ih =>
    rw [List.cons_append, lowercaseBetween, lowercaseBetween, ih, List.append_assoc,
      List.append_assoc, List.reverse_cons, List.append_assoc, List.singleton_append]

theorem lowercase_append (s t : Text) :
    lowercase (s ++ t) = lowercaseBetween [] t s ++ lowercaseBetween s.reverse [] t := by
  rw [lowercase, lowercaseAfter_eq, lowercaseBetween_append, List.append_nil, List.append_nil]

/-! ## Characters in front of the letters -/

theorem mem_lowercaseChar_iff (hd : 0 < d.toNat) (hat : d.toNat ≤ '@'.toNat) :
    d ∈ lowercaseChar c ↔ d = c := by
  have hZ : '@'.toNat < 'Z'.toNat := by decide
  rw [lowercaseChar]
  split
  next hc =>
    subst hc
    refine iff_of_false (fun h => ?_) ?_
    · simp only [List.mem_cons, List.not_mem_nil, or_false] at h
      rcases h with rfl | rfl <;> exact absurd hat (by decide)
    · rintro rfl
      exact absurd hat (by decide)
  next =>
    split
    next r hr =>
      obtain ⟨hsource, htarget⟩ := ranges_behind r (List.mem_of_find?_eq_some hr)
      have hhas := List.find?_some hr
      simp only [CaseRange.has, Bool.and_eq_true, decide_eq_true_eq] at hhas
      refine iff_of_false (fun h => ?_) ?_
      · rw [List.mem_singleton] at h
        subst h
        rcases toNat_ofNat (r.target + (c.toNat - r.first)) with hn | hn <;> omega
      · rintro rfl
        omega
    next => rw [List.mem_singleton]

theorem mem_lowercaseBetween_iff (hd : 0 < d.toNat) (hat : d.toNat ≤ '@'.toNat) :
    d ∈ lowercaseBetween before behind t ↔ d ∈ t := by
  induction t generalizing before with
  | nil => rfl
  | cons c t ih =>
    rw [lowercaseBetween, List.mem_append, ih, List.mem_cons]
    refine or_congr_left ?_
    split
    next hc =>
      subst hc
      rw [List.mem_singleton, lowercaseSigma]
      refine iff_of_false ?_ ?_
      · split <;> rintro rfl <;> exact absurd hat (by decide)
      · rintro rfl
        exact absurd hat (by decide)
    next => exact mem_lowercaseChar_iff hd hat

/-- Digits, signs and blanks of ASCII stand in a lower-case form exactly if they stand in the
text. -/
theorem mem_lowercase_iff (hd : 0 < d.toNat) (hat : d.toNat ≤ '@'.toNat) :
    d ∈ lowercase t ↔ d ∈ t := by
  rw [lowercase, lowercaseAfter_eq, mem_lowercaseBetween_iff hd hat]

/-! ## Texts in ASCII -/

/-- Behind the ASCII capitals, no range starts in ASCII. -/
theorem ranges_tail : ∀ r ∈ lowercaseRanges.tail, 128 ≤ r.first := by
  set_option maxRecDepth 8000 in decide

theorem find?_of_ascii (h : c.toNat < 128) (hupper : ¬c.isUpper = true) :
    lowercaseRanges.find? (·.has c) = none := by
  refine List.find?_eq_none.2 fun r hr hhas => ?_
  simp only [CaseRange.has, Bool.and_eq_true, decide_eq_true_eq] at hhas
  rcases List.mem_cons.1 hr with rfl | hr
  · exact hupper (isUpper_iff.2 hhas.1)
  · have hfirst := ranges_tail r hr
    omega

theorem lowercaseChar_of_ascii (h : c.toNat < 128) : lowercaseChar c = [c.toLower] := by
  have hdot : c ≠ 'İ' := by
    rintro rfl
    exact absurd h (by decide)
  have hcapitals : ∀ n < 26, Char.ofNat (0x61 + n) = (Char.ofNat (0x41 + n)).toLower := by decide
  rw [lowercaseChar, if_neg hdot]
  by_cases hupper : c.isUpper = true
  · have hrange : 0x41 ≤ c.toNat ∧ c.toNat ≤ 0x5A := isUpper_iff.1 hupper
    have hcapital := hcapitals (c.toNat - 0x41) (by omega)
    rw [Nat.add_sub_cancel' hrange.1, Char.ofNat_toNat] at hcapital
    rw [find?_of_isUpper hupper, ← hcapital]
  · rw [find?_of_ascii h hupper, toLower_eq_self hupper]

def isAscii (t : Text) : Bool := t.all (·.toNat < 128)

/-- In ASCII, the letters on their own settle the lower-case form. -/
theorem lowercase_of_isAscii (h : isAscii t = true) : lowercase t = asciiLower t := by
  rw [lowercase]
  generalize ([] : Text) = before
  induction t generalizing before with
  | nil => rfl
  | cons c t ih =>
    rw [isAscii, List.all_cons, Bool.and_eq_true] at h
    have hc : c.toNat < 128 := of_decide_eq_true h.1
    have hsigma : c ≠ 'Σ' := by
      rintro rfl
      exact absurd hc (by decide)
    rw [lowercaseAfter, if_neg hsigma, lowercaseChar_of_ascii hc, ih h.2]
    rfl

theorem lowercase_eq_of_sameAscii (hs : isAscii s = true) (ht : isAscii t = true)
    (h : sameAscii s t = true) : lowercase s = lowercase t := by
  rw [lowercase_of_isAscii hs, lowercase_of_isAscii ht]
  exact eq_of_beq h

/-! ## Lengths -/

/-- The capital I with a dot is the only character that becomes two. -/
theorem length_lowercaseChar (c : Char) :
    (lowercaseChar c).length = if c = 'İ' then 2 else 1 := by
  unfold lowercaseChar
  split
  · rfl
  · split <;> rfl

/-- Both forms of a capital sigma are as long as the one it has on its own. -/
theorem length_lowercaseBetween (before behind t : Text) :
    (lowercaseBetween before behind t).length = t.length + t.count 'İ' := by
  induction t generalizing before with
  | nil => rfl
  | cons c t ih =>
    have hchar (sigma : Char) : (if c = 'Σ' then [sigma] else lowercaseChar c).length =
        1 + if c = 'İ' then 1 else 0 := by
      split
      next hc => rw [hc, if_neg (by decide), List.length_singleton]
      next =>
        rw [length_lowercaseChar]
        split <;> rfl
    rw [lowercaseBetween, List.length_append, ih, hchar, List.length_cons, List.count_cons]
    simp only [beq_iff_eq]
    omega

theorem length_lowercase (t : Text) : (lowercase t).length = t.length + t.count 'İ' := by
  rw [lowercase, lowercaseAfter_eq, length_lowercaseBetween]

theorem length_lowercase_append (s t : Text) :
    (lowercase (s ++ t)).length = (lowercase s).length + (lowercase t).length := by
  simp only [length_lowercase, List.length_append, List.count_append]
  omega

theorem lowercaseBetween_eq_nil_iff : lowercaseBetween before behind t = [] ↔ t = [] := by
  rw [← List.length_eq_zero_iff, ← List.length_eq_zero_iff, length_lowercaseBetween]
  constructor
  · omega
  · intro h
    rw [List.length_eq_zero_iff.1 h]
    rfl

theorem lowercase_eq_nil_iff : lowercase t = [] ↔ t = [] := by
  rw [lowercase, lowercaseAfter_eq, lowercaseBetween_eq_nil_iff]

theorem lowercase_ne_nil (h : t ≠ []) : lowercase t ≠ [] := mt lowercase_eq_nil_iff.1 h

theorem eq_of_isInfix_of_lowercase_eq (h : s <:+: t) (hform : lowercase s = lowercase t) :
    s = t := by
  obtain ⟨a, b, rfl⟩ := h
  have hlength := congrArg List.length hform
  rw [length_lowercase_append, length_lowercase_append] at hlength
  have hempty : ∀ u : Text, (lowercase u).length = 0 → u = [] := fun u hu =>
    lowercase_eq_nil_iff.1 (List.length_eq_zero_iff.1 hu)
  obtain rfl := hempty a (by omega)
  obtain rfl := hempty b (by omega)
  rw [List.nil_append, List.append_nil]

end TexBundle.Text
