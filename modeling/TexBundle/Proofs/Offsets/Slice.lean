import TexBundle.Proofs.Text.Cutting
import TexBundle.Proofs.Text.Offsets
import TexBundle.Proofs.Text.Reader

/-!
# Slices by byte offsets

A scanner can hold places in a text as numbers of bytes, and cut the text there. Not every number is
such a place: it may lie beyond the end or inside of a character. Here a cut at such a place is a
fault, which stops the scanner.

* `Fault`, `Scan`: what can go wrong, and computations in which it can;
* `sliceTo`, `sliceFrom`, `slice`: parts of a text between byte offsets;
* `offset?`, `lastOffset?`: where a character stands, in bytes;
* `sliceTo_eq_ok_iff`, `sliceFrom_eq_ok_iff`, `slice_eq_ok_iff`: where a text can be cut.
-/

namespace TexBundle.Offsets

/-- What stops a scanner. -/
inductive Fault where
  /-- A slice that ends before it starts, or whose ends are no places of its text. -/
  | slice
  /-- A byte beyond the end. -/
  | index
  /-- A range that ends before it starts. -/
  | range
  /-- A round of a loop that comes no nearer to the end of the text. -/
  | stuck
deriving DecidableEq, Repr

abbrev Scan := Except Fault

theorem ok_bind {α β : Type} (a : α) (f : α → Scan β) : (Except.ok a >>= f) = f a := rfl

theorem bind_eq_ok_iff {α β : Type} {x : Scan α} {f : α → Scan β} {r : β} :
    (x >>= f) = .ok r ↔ ∃ a, x = .ok a ∧ f a = .ok r := by
  cases x with
  | error fault => exact ⟨fun h => (nomatch h), fun ⟨_, h, _⟩ => (nomatch h)⟩
  | ok a => simp [ok_bind]

/-! ## Slices -/

/-- The text up to byte `n`, if a character ends there. -/
def sliceTo (n : Nat) (t : Text) : Scan Text :=
  match t.takeBytes? n with
  | some s => .ok s
  | none => .error .slice

/-- The text from byte `n` on. -/
def sliceFrom (n : Nat) (t : Text) : Scan Text := do
  return t.drop (← sliceTo n t).length

/-- The text between two bytes. -/
def slice (start stop : Nat) (t : Text) : Scan Text :=
  if start ≤ stop then sliceFrom start t >>= sliceTo (stop - start) else .error .slice

variable {t a b : Text} {c : Char} {n start stop : Nat}

theorem sliceTo_eq_ok_iff : sliceTo n t = .ok a ↔ ∃ b, t = a ++ b ∧ n = Text.size a := by
  rw [← Text.takeBytes?_eq_some_iff, sliceTo]
  cases t.takeBytes? n <;> simp

theorem sliceTo_of_eq (ht : t = a ++ b) (hn : n = Text.size a) : sliceTo n t = .ok a :=
  sliceTo_eq_ok_iff.2 ⟨b, ht, hn⟩

theorem sliceFrom_of_eq (ht : t = a ++ b) (hn : n = Text.size a) : sliceFrom n t = .ok b := by
  rw [sliceFrom, sliceTo_of_eq ht hn, ok_bind, ht, List.drop_left]
  rfl

theorem sliceFrom_eq_ok_iff : sliceFrom n t = .ok b ↔ ∃ a, t = a ++ b ∧ n = Text.size a := by
  constructor
  · intro h
    obtain ⟨a, hto, -⟩ := bind_eq_ok_iff.1 h
    obtain ⟨b', ht, hn⟩ := sliceTo_eq_ok_iff.1 hto
    obtain rfl := Except.ok.inj ((sliceFrom_of_eq ht hn).symm.trans h)
    exact ⟨a, ht, hn⟩
  · rintro ⟨a, ht, hn⟩
    exact sliceFrom_of_eq ht hn

/-- A cut behind a character of one byte. -/
theorem sliceFrom_succ (hc : c.utf8Size = 1) (ht : t = a ++ c :: b) (hn : n = Text.size a) :
    sliceFrom (n + 1) t = .ok b := by
  refine sliceFrom_of_eq (a := a ++ [c]) (by rw [ht, List.append_assoc, List.singleton_append]) ?_
  rw [Text.size_append, Text.size_cons, hc, hn]
  rfl

/-- A text is sliced between places where characters end, the second one not before the first. -/
theorem slice_eq_ok_iff : slice start stop t = .ok b ↔
    ∃ a rest, t = a ++ (b ++ rest) ∧ start = Text.size a ∧ stop = start + Text.size b := by
  constructor
  · intro h
    rw [slice] at h
    split at h
    next hle =>
      obtain ⟨u, hfrom, hto⟩ := bind_eq_ok_iff.1 h
      obtain ⟨a, rfl, hstart⟩ := sliceFrom_eq_ok_iff.1 hfrom
      obtain ⟨rest, rfl, hstop⟩ := sliceTo_eq_ok_iff.1 hto
      exact ⟨a, rest, rfl, hstart, by omega⟩
    next => cases h
  · rintro ⟨a, rest, ht, hstart, hstop⟩
    rw [slice, if_pos (hstop ▸ Nat.le_add_right _ _), sliceFrom_of_eq ht hstart, ok_bind,
      sliceTo_of_eq rfl (hstop ▸ Nat.add_sub_cancel_left ..)]

theorem slice_of_eq {rest : Text} (ht : t = a ++ (b ++ rest)) (hstart : start = Text.size a)
    (hstop : stop = start + Text.size b) : slice start stop t = .ok b :=
  slice_eq_ok_iff.2 ⟨a, rest, ht, hstart, hstop⟩

/-- Inside of a character a text cannot be cut. -/
example : slice 0 1 "é" = .error .slice ∧ slice 0 2 "é" = .ok "é" := ⟨rfl, rfl⟩

theorem sliceTo_takeWhile (p : Char → Bool) (t : Text) :
    sliceTo (Text.size (t.takeWhile p)) t = .ok (t.takeWhile p) :=
  sliceTo_of_eq List.takeWhile_append_dropWhile.symm rfl

theorem sliceFrom_takeWhile (p : Char → Bool) (t : Text) :
    sliceFrom (Text.size (t.takeWhile p)) t = .ok (t.dropWhile p) :=
  sliceFrom_of_eq List.takeWhile_append_dropWhile.symm rfl

/-! ## Looking for characters -/

/-- The byte at which the first character stands that satisfies `p`. -/
def offset? (p : Char → Bool) (t : Text) : Option Nat :=
  if t.any p then some (Text.size (t.takeWhile (!p ·))) else none

/-- The byte at which the last `c` stands. -/
def lastOffset? (c : Char) (t : Text) : Option Nat :=
  (t.breakAtLast? c).map fun (before, _) => Text.size before

theorem offset?_eq_none_iff {p : Char → Bool} : offset? p t = none ↔ ∀ c ∈ t, p c = false := by
  simp [offset?]

/-- A text is cut at the first character that satisfies `p`, or all of it comes before that. -/
theorem offset?_cases (p : Char → Bool) (t : Text) :
    offset? p t = none ∧ t.takeWhile (!p ·) = t ∧ t.dropWhile (!p ·) = [] ∨
      offset? p t = some (Text.size (t.takeWhile (!p ·))) := by
  by_cases h : t.any p = true
  · exact .inr (if_pos h)
  · have hnot : ∀ c ∈ t, (!p c) = true := by simpa using h
    exact .inl ⟨if_neg h, List.takeWhile_eq_self_iff.2 hnot, List.dropWhile_eq_nil_iff.2 hnot⟩

theorem offset?_append_cons {p : Char → Bool} {c : Char} (ha : ∀ d ∈ a, p d = false)
    (hc : p c = true) (b : Text) : offset? p (a ++ c :: b) = some (Text.size a) := by
  have hnot : ∀ d ∈ a, (!p d) = true := fun d hd => by rw [ha d hd]; rfl
  have hany : (a ++ c :: b).any p = true :=
    List.any_eq_true.2 ⟨c, List.mem_append_right a List.mem_cons_self, hc⟩
  obtain ⟨htake, -⟩ := span_append_cons (c := c) hnot (by rw [hc]; rfl) b
  rw [offset?, if_pos hany, htake]

theorem offset?_eq_breakAt? (c : Char) (t : Text) :
    offset? (· == c) t = (t.breakAt? c).map fun (before, _) => Text.size before := by
  cases h : t.breakAt? c with
  | none =>
    refine offset?_eq_none_iff.2 fun d hd => beq_eq_false_iff_ne.2 ?_
    exact ne_of_mem_of_not_mem hd (Text.breakAt?_eq_none_iff.1 h)
  | some x =>
    obtain ⟨a, b⟩ := x
    rw [Text.eq_of_breakAt? h]
    have hnot : ∀ d ∈ a, (d == c) = false := fun d hd =>
      beq_eq_false_iff_ne.2 (ne_of_mem_of_not_mem hd (Text.not_mem_of_breakAt? h))
    exact offset?_append_cons hnot (beq_self_eq_true c) b

theorem getD_offset? (p : Char → Bool) (t : Text) :
    (offset? (!p ·) t).getD (Text.size t) = Text.size (t.takeWhile p) := by
  have hcases := offset?_cases (!p ·) t
  simp only [Bool.not_not] at hcases
  rcases hcases with ⟨hnone, htake, -⟩ | hsome
  · rw [hnone, Option.getD_none]
    exact congrArg _ htake.symm
  · rw [hsome, Option.getD_some]

/-- Cutting a text at the first character that is of one byte. -/
theorem slices_of_breakAt? (hc : c.utf8Size = 1) (h : t.breakAt? c = some (a, b)) :
    sliceTo (Text.size a) t = .ok a ∧ sliceFrom (Text.size a + 1) t = .ok b :=
  ⟨sliceTo_of_eq (Text.eq_of_breakAt? h) rfl, sliceFrom_succ hc (Text.eq_of_breakAt? h) rfl⟩

end TexBundle.Offsets
