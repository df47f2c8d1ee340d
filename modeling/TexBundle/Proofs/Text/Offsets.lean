import TexBundle.Text.Basic

/-!
# Places in a text, by bytes

* `size_pos`, `size_eq_zero_iff`: only the empty text has no bytes;
* `takeBytes?_size_append`, `takeBytes?_eq_some_iff`: the places at which a text can be cut are those
  where a character ends.
-/

namespace TexBundle.Text

theorem size_pos {t : Text} (h : t ≠ []) : 0 < size t := by
  obtain ⟨c, t, rfl⟩ := List.exists_cons_of_ne_nil h
  exact Nat.add_pos_left c.utf8Size_pos _

theorem size_eq_zero_iff {t : Text} : size t = 0 ↔ t = [] :=
  ⟨fun h => Decidable.byContradiction fun hne => Nat.ne_of_gt (size_pos hne) h, fun h => h ▸ rfl⟩

theorem takeBytes?_size_append (s t : Text) : takeBytes? (size s) (s ++ t) = some s := by
  induction s with
  | nil => rw [size_nil, takeBytes?]
  | cons c s ih =>
    obtain ⟨n, hn⟩ : ∃ n, c.utf8Size + size s = n + 1 :=
      Nat.exists_eq_add_one.2 (Nat.add_pos_left c.utf8Size_pos _)
    have hle : c.utf8Size ≤ n + 1 := hn ▸ Nat.le_add_right _ _
    have hrest : n + 1 - c.utf8Size = size s := by omega
    rw [size_cons, hn, List.cons_append, takeBytes?, if_pos hle, hrest, ih, Option.map_some]

theorem takeBytes?_eq_some_iff {n : Nat} {t s : Text} :
    takeBytes? n t = some s ↔ ∃ r, t = s ++ r ∧ n = size s := by
  constructor
  · intro h
    fun_induction takeBytes? n t generalizing s with
    | case1 t =>
      obtain rfl := Option.some.inj h
      exact ⟨t, rfl, rfl⟩
    | case2 => cases h
    | case3 n c t hle ih =>
      obtain ⟨s, hs, rfl⟩ := Option.map_eq_some_iff.1 h
      obtain ⟨r, rfl, hn⟩ := ih hs
      exact ⟨r, rfl, by rw [size_cons, ← hn]; omega⟩
    | case4 => cases h
  · rintro ⟨r, rfl, rfl⟩
    exact takeBytes?_size_append s r

end TexBundle.Text
