import TexBundle.Text.Blank
import TexBundle.Proofs.Text.Cutting
import Mathlib.Data.List.TakeWhile

/-!
# What a reader looks at

A reader takes a piece off the front of a text. The readers of this library never look further than
one character behind their piece, so that nothing else in the text has an effect on what they take.

* `Exact`, `Passes`: this property, of readers with a result and of those that only move on;
* `Proper`: a reader never stands still;
* `Exact.bind`, `Passes.exact`, `Passes.trans`: readers one after the other;
* `exact_span`, `passes_stripPrefix`, `passes_trimStart`: the pieces that readers are made of.
-/

namespace TexBundle

variable {α β : Type} {p : Char → Bool}

/-- A reader takes a piece off the front, and does the same whatever stands behind that piece and
the next character. -/
def Exact (read? : Text → Option (α × Text)) : Prop :=
  ∀ ⦃t a rest⦄, read? t = some (a, rest) →
    ∃ l, t = l ++ rest ∧ ∀ rest', rest'.head? = rest.head? → read? (l ++ rest') = some (a, rest')

/-- The same for a reader that has nothing to tell but where it ends. -/
def Passes (pass? : Text → Option Text) : Prop :=
  ∀ ⦃t rest⦄, pass? t = some rest →
    ∃ l, t = l ++ rest ∧ ∀ rest', rest'.head? = rest.head? → pass? (l ++ rest') = some rest'

/-- Every result of a reader uses up some text. -/
def Proper (read? : Text → Option (α × Text)) : Prop :=
  ∀ ⦃t a rest⦄, read? t = some (a, rest) → rest.length < t.length

theorem head?_append_congr {s t : Text} (h : s.head? = t.head?) (l : Text) :
    (l ++ s).head? = (l ++ t).head? := by
  cases l with
  | nil => exact h
  | cons => rfl

/-! ## Readers one after the other -/

theorem Exact.bind {read? : Text → Option (α × Text)} {next? : α → Text → Option (β × Text)}
    (h : Exact read?) (hnext : ∀ a, Exact (next? a)) :
    Exact fun t => (read? t).bind fun x => next? x.1 x.2 := by
  intro t b rest hread
  obtain ⟨⟨a, mid⟩, hfirst, hsecond⟩ := Option.bind_eq_some_iff.1 hread
  obtain ⟨l, rfl, hl⟩ := h hfirst
  obtain ⟨k, rfl, hk⟩ := hnext a hsecond
  refine ⟨l ++ k, by rw [List.append_assoc], fun rest' hrest => ?_⟩
  show (read? (l ++ k ++ rest')).bind _ = _
  rw [List.append_assoc, hl _ (head?_append_congr hrest k), Option.bind_some, hk rest' hrest]

theorem Passes.exact {pass? : Text → Option Text} {next? : Text → Option (β × Text)}
    (h : Passes pass?) (hnext : Exact next?) : Exact fun t => (pass? t).bind next? := by
  intro t b rest hread
  obtain ⟨mid, hfirst, hsecond⟩ := Option.bind_eq_some_iff.1 hread
  obtain ⟨l, rfl, hl⟩ := h hfirst
  obtain ⟨k, rfl, hk⟩ := hnext hsecond
  refine ⟨l ++ k, by rw [List.append_assoc], fun rest' hrest => ?_⟩
  show (pass? (l ++ k ++ rest')).bind _ = _
  rw [List.append_assoc, hl _ (head?_append_congr hrest k), Option.bind_some, hk rest' hrest]

theorem Passes.trans {pass? next? : Text → Option Text} (h : Passes pass?) (hnext : Passes next?) :
    Passes fun t => (pass? t).bind next? := by
  intro t rest hread
  obtain ⟨mid, hfirst, hsecond⟩ := Option.bind_eq_some_iff.1 hread
  obtain ⟨l, rfl, hl⟩ := h hfirst
  obtain ⟨k, rfl, hk⟩ := hnext hsecond
  refine ⟨l ++ k, by rw [List.append_assoc], fun rest' hrest => ?_⟩
  show (pass? (l ++ k ++ rest')).bind _ = _
  rw [List.append_assoc, hl _ (head?_append_congr hrest k), Option.bind_some, hk rest' hrest]

/-- A reader that asks for a certain start uses that up. -/
theorem Exact.proper {front : Text} {next? : Text → Option (β × Text)} (h : Exact next?)
    (hne : front ≠ []) : Proper fun t => (Text.stripPrefix? front t).bind next? := by
  intro t b rest hread
  obtain ⟨mid, hfirst, hsecond⟩ := Option.bind_eq_some_iff.1 hread
  obtain ⟨l, rfl, -⟩ := h hsecond
  obtain rfl := Text.stripPrefix?_eq_some_iff.1 hfirst
  have hpos := List.length_pos_iff.2 hne
  simp only [List.length_append]
  omega

/-- A reader that goes on, after its result, to where something else ends. -/
theorem Exact.passes {read? : Text → Option (α × Text)} {pass? : Text → Option Text}
    (h : Exact read?) (hpass : Passes pass?) :
    Exact fun t => (read? t).bind fun x => (pass? x.2).map (x.1, ·) := by
  have hnext (a : α) : Exact fun t => (pass? t).map (a, ·) := by
    intro t b rest hread
    obtain ⟨rest, hend, hb⟩ := Option.map_eq_some_iff.1 hread
    obtain ⟨rfl, rfl⟩ := Prod.mk.inj hb
    obtain ⟨l, rfl, hl⟩ := hpass hend
    refine ⟨l, rfl, fun rest' hrest => ?_⟩
    show (pass? (l ++ rest')).map _ = _
    rw [hl rest' hrest, Option.map_some]
  exact h.bind hnext

/-! ## Pieces -/

/-- A piece of characters in a class, in front of a character that is not. -/
theorem span_append {l rest : Text} (hl : ∀ c ∈ l, p c = true)
    (hrest : ∀ c, rest.head? = some c → p c = false) :
    (l ++ rest).takeWhile p = l ∧ (l ++ rest).dropWhile p = rest := by
  have hnil : rest.takeWhile p = [] := by
    cases rest with
    | nil => rfl
    | cons c rest => exact List.takeWhile_cons_of_neg (by simp [hrest c rfl])
  have htake : (l ++ rest).takeWhile p = l := by
    rw [List.takeWhile_append_of_pos hl, hnil, List.append_nil]
  refine ⟨htake, ?_⟩
  have hall : (l ++ rest).takeWhile p ++ (l ++ rest).dropWhile p = l ++ rest :=
    List.takeWhile_append_dropWhile
  rw [htake] at hall
  exact List.append_cancel_left hall

theorem span_append_cons {c : Char} {l : Text} (hl : ∀ d ∈ l, p d = true) (hc : p c = false)
    (rest : Text) : (l ++ c :: rest).takeWhile p = l ∧ (l ++ c :: rest).dropWhile p = c :: rest :=
  span_append hl (by rintro d ⟨rfl⟩; exact hc)

theorem not_of_head?_dropWhile {t : Text} {c : Char} (h : (t.dropWhile p).head? = some c) :
    p c = false := by
  have hnot := List.head?_dropWhile_not p t
  rwa [h] at hnot

/-- Where a piece of characters in a class ends does not depend on what stands behind the next
character. -/
theorem span_congr (p : Char → Bool) (t : Text) {rest : Text}
    (h : rest.head? = (t.dropWhile p).head?) :
    (t.takeWhile p ++ rest).takeWhile p = t.takeWhile p ∧
      (t.takeWhile p ++ rest).dropWhile p = rest :=
  span_append (fun _ hc => List.mem_takeWhile_imp hc) fun _ hc => not_of_head?_dropWhile (h ▸ hc)

theorem exact_span (p : Char → Bool) : Exact fun t => some (t.takeWhile p, t.dropWhile p) := by
  intro t a rest h
  obtain ⟨rfl, rfl⟩ := Prod.mk.inj (Option.some.inj h)
  refine ⟨_, List.takeWhile_append_dropWhile.symm, fun rest' hrest => ?_⟩
  obtain ⟨htake, hdrop⟩ := span_congr p t hrest
  show some (_, _) = _
  rw [htake, hdrop]

theorem passes_trimStart : Passes fun t => some (Text.trimStart t) := by
  intro t rest h
  obtain rfl := Option.some.inj h
  refine ⟨_, List.takeWhile_append_dropWhile.symm, fun rest' hrest => ?_⟩
  exact congrArg some (span_congr isBlank t hrest).2

theorem passes_stripPrefix (front : Text) : Passes (Text.stripPrefix? front) := by
  intro t rest h
  refine ⟨front, Text.stripPrefix?_eq_some_iff.1 h, fun rest' _ => ?_⟩
  exact Text.stripPrefix?_eq_some_iff.2 rfl

/-- Only results that satisfy a condition are given. -/
theorem Exact.filter {read? : Text → Option (α × Text)} (h : Exact read?) (keep : α → Bool) :
    Exact fun t => (read? t).filter fun x => keep x.1 := by
  intro t a rest hread
  obtain ⟨hfirst, hkeep⟩ := Option.filter_eq_some_iff.1 hread
  obtain ⟨l, rfl, hl⟩ := h hfirst
  refine ⟨l, rfl, fun rest' hrest => ?_⟩
  show (read? (l ++ rest')).filter _ = _
  rw [hl rest' hrest]
  exact Option.filter_eq_some_iff.2 ⟨rfl, hkeep⟩

end TexBundle
