import TexBundle.Proofs.Text.Collapsing
import TexBundle.References

/-!
# Field values that are cut short

A value is cleaned of braces and superfluous blanks. If it is too long then, an ellipsis takes the
place of its end.

* `eq_clean_iff`: what cleaning gives;
* `clamp_of_le`, `clamp_of_lt`: a value that fits, and one that does not;
* `isBeginning_trimEnd_take`: how much of a long value is kept;
* `clamp_shortens`: what is shown in either case.
-/

namespace TexBundle.Reference

open Text (Collapsed collapse trim trimEnd words)

/-- No brace that groups. -/
def BraceFree (t : Text) : Prop := '{' ∉ t ∧ '}' ∉ t

/-- The longest beginning of a text that has fewer than `limit` characters and no blank at an end. -/
structure IsBeginning (limit : Nat) (text kept : Text) : Prop where
  isPrefix : kept <+: text
  trim_eq : trim kept = kept
  length_lt : kept.length < limit
  longest : ∀ other, other <+: text → trim other = other → other.length < limit → other <+: kept

variable {limit : Nat} {value text t : Text}

/-! ## Cleaning -/

/-- Cleaning leaves the words of the value without its braces, with single spaces between them. -/
theorem eq_clean_iff : t = clean value ↔
    Collapsed t ∧ words t = words (value.filter fun c => c != '{' && c != '}') :=
  Text.eq_collapse_iff

theorem braceFree_clean (value : Text) : BraceFree (clean value) := by
  have hfree (c : Char) (hc : (c != '{' && c != '}') = false) (hne : c ≠ ' ') :
      c ∉ clean value := by
    refine Text.not_mem_intercalate hne fun w hw hmem => ?_
    have hword := Text.isInfix_of_mem_splitBy (List.mem_filter.1 hw).1
    rw [(List.mem_filter.1 (hword.subset hmem)).2] at hc
    cases hc
  exact ⟨hfree '{' (by decide) (by decide), hfree '}' (by decide) (by decide)⟩

theorem clean_eq_self (hfree : BraceFree t) (h : Collapsed t) : clean t = t := by
  have hkept : t.filter (fun c => c != '{' && c != '}') = t :=
    List.filter_eq_self.2 fun c hc => by
      simp [ne_of_mem_of_not_mem hc hfree.1, ne_of_mem_of_not_mem hc hfree.2]
  rw [clean, hkept, h.collapse_eq]

/-! ## Cutting -/

theorem clamp_of_le (h : (clean value).length ≤ limit) : clamp limit value = clean value := by
  rw [clamp]
  exact if_pos h

theorem clamp_of_lt (h : limit < (clean value).length) (hpos : 0 < limit) :
    clamp limit value = trimEnd ((clean value).take (limit - 1)) ++ ['…'] := by
  rw [clamp]
  exact (if_neg (Nat.not_le.2 h)).trans (if_neg (Nat.ne_of_gt hpos))

theorem clamp_zero (value : Text) : clamp 0 value = [] := by
  by_cases h : (clean value).length ≤ 0
  · rw [clamp_of_le h, ← List.length_eq_zero_iff]
    exact Nat.le_zero.1 h
  · rw [clamp]
    exact (if_neg h).trans (if_pos rfl)

/-- A value fits, or nothing may be shown of it, or its end is cut off. -/
theorem clamp_cases (limit : Nat) (value : Text) :
    (clean value).length ≤ limit ∧ clamp limit value = clean value ∨
    limit = 0 ∧ clamp limit value = [] ∨
    (limit < (clean value).length ∧ 0 < limit) ∧
      clamp limit value = trimEnd ((clean value).take (limit - 1)) ++ ['…'] := by
  by_cases hle : (clean value).length ≤ limit
  · exact .inl ⟨hle, clamp_of_le hle⟩
  · obtain rfl | hpos := Nat.eq_zero_or_pos limit
    · exact .inr (.inl ⟨rfl, clamp_zero value⟩)
    · have hlt := Nat.not_le.1 hle
      exact .inr (.inr ⟨⟨hlt, hpos⟩, clamp_of_lt hlt hpos⟩)

theorem isBeginning_trimEnd_take (h : Collapsed text) (hpos : 0 < limit) :
    IsBeginning limit text (trimEnd (text.take (limit - 1))) where
  isPrefix := Text.trimEnd_take_isPrefix _ _
  trim_eq := (h.trimEnd_take _).trim_eq
  length_lt := by
    have hle := (Text.trimEnd_isPrefix (text.take (limit - 1))).length_le
    rw [List.length_take] at hle
    omega
  longest other hother htrim hlength := by
    refine Text.isPrefix_trimEnd ?_ (Text.trimEnd_eq_self_iff.2 (Text.trim_eq_self_iff.1 htrim).2)
    rw [List.prefix_iff_eq_take.1 hother]
    exact List.take_prefix_take_left (by omega)

theorem collapsed_clamp (limit : Nat) (value : Text) : Collapsed (clamp limit value) := by
  have hclean : Collapsed (clean value) := Text.collapsed_collapse _
  obtain ⟨-, h⟩ | ⟨-, h⟩ | ⟨-, h⟩ := clamp_cases limit value
  · rwa [h]
  · rw [h]
    exact Text.collapsed_of_no_blank (by simp)
  · rw [h]
    exact (hclean.trimEnd_take _).concat (by decide)

theorem braceFree_clamp (limit : Nat) (value : Text) : BraceFree (clamp limit value) := by
  have hclean := braceFree_clean value
  obtain ⟨-, h⟩ | ⟨-, h⟩ | ⟨-, h⟩ := clamp_cases limit value
  · rwa [h]
  · rw [h]
    exact ⟨List.not_mem_nil, List.not_mem_nil⟩
  · have hsubset := (Text.trimEnd_take_isPrefix (clean value) (limit - 1)).subset
    rw [h, BraceFree, List.mem_append, List.mem_append, not_or, not_or]
    exact ⟨⟨fun hc => hclean.1 (hsubset hc), by decide⟩, fun hc => hclean.2 (hsubset hc), by decide⟩

/-- The last blank in front of the ellipsis may go, too. -/
theorem length_clamp_of_lt (h : limit < (clean value).length) (hpos : 0 < limit) :
    (clamp limit value).length = limit ∨ (clamp limit value).length = limit - 1 := by
  have hclean : Collapsed (clean value) := Text.collapsed_collapse _
  have hlt := (isBeginning_trimEnd_take hclean hpos).length_lt
  have hle := hclean.le_length_trimEnd_take (n := limit - 1) (by omega)
  rw [clamp_of_lt h hpos, List.length_append, List.length_singleton]
  omega

theorem length_clamp_le (limit : Nat) (value : Text) : (clamp limit value).length ≤ limit := by
  obtain ⟨hle, h⟩ | ⟨-, h⟩ | ⟨⟨hlt, hpos⟩, -⟩ := clamp_cases limit value
  · rwa [h]
  · rw [h]
    exact Nat.zero_le limit
  · obtain h | h := length_clamp_of_lt hlt hpos
    · exact h.le
    · omega

theorem clamp_eq_self (hfree : BraceFree t) (h : Collapsed t) (hle : t.length ≤ limit) :
    clamp limit t = t := by
  have hclean := clean_eq_self hfree h
  rw [clamp_of_le (by rwa [hclean]), hclean]

/-- What is shown of a value has at most `limit` characters, no braces, and no blanks but single
spaces between other characters. It is all of the cleaned value if that fits. If not, and if anything
may be shown, it is the longest beginning that leaves room for an ellipsis, with the ellipsis behind
it, and has `limit` characters or one less. To shorten it again makes no difference. -/
theorem clamp_shortens (limit : Nat) (value : Text) :
    (Collapsed (clean value) ∧
      words (clean value) = words (value.filter fun c => c != '{' && c != '}')) ∧
    (clamp limit value).length ≤ limit ∧
    BraceFree (clamp limit value) ∧ Collapsed (clamp limit value) ∧
    ((clean value).length ≤ limit → clamp limit value = clean value) ∧
    (limit < (clean value).length → 0 < limit →
      (∃ kept, IsBeginning limit (clean value) kept ∧ clamp limit value = kept ++ ['…']) ∧
      ((clamp limit value).length = limit ∨ (clamp limit value).length = limit - 1)) ∧
    clamp limit (clamp limit value) = clamp limit value := by
  have hlength := length_clamp_le limit value
  have hfree := braceFree_clamp limit value
  have hcollapsed := collapsed_clamp limit value
  refine ⟨eq_clean_iff.1 rfl, hlength, hfree, hcollapsed, clamp_of_le, fun hlt hpos => ⟨?_, ?_⟩,
    clamp_eq_self hfree hcollapsed hlength⟩
  · exact ⟨_, isBeginning_trimEnd_take (Text.collapsed_collapse _) hpos, clamp_of_lt hlt hpos⟩
  · exact length_clamp_of_lt hlt hpos

/-- A value that is cut at a space, which is not shown in front of the ellipsis, and one that fits
as soon as it has been cleaned. -/
theorem clamp_shortens_of_two :
    let cut : Text := "ab \u2003 \x7bc\x7ddef"
    let whole : Text := " \x7b\x7b a\nb "
    (4 < (clean cut).length ∧ clamp 4 cut = "ab…") ∧ (clean whole).length ≤ 4 ∧
      (∃ kept, IsBeginning 4 (clean cut) kept ∧ clamp 4 cut = kept ++ ['…']) ∧
      clamp 4 whole = clean whole := by
  intro cut whole
  obtain ⟨-, -, -, -, -, hcut, -⟩ := clamp_shortens 4 cut
  obtain ⟨-, -, -, -, hwhole, -, -⟩ := clamp_shortens 4 whole
  have hlong : 4 < (clean cut).length := by decide
  have hshort : (clean whole).length ≤ 4 := by decide
  exact ⟨⟨hlong, by decide⟩, hshort, (hcut hlong (by decide)).1, hwhole hshort⟩

end TexBundle.Reference
