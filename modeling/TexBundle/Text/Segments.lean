import TexBundle.Text.Basic

/-!
# Texts cut at occurrences

A reader takes the text from some position on and answers, if its pattern occurs there, with a
value and the text that follows the occurrence. `Segments.cut` applies a reader at every position
from left to right, going on behind each occurrence, so that occurrences are leftmost and do not
overlap.

* `Segments.text_cut`: cutting loses nothing, whatever the reader;
* `Segments.text_filter`: dropping occurrences leaves their text in place.
-/

namespace TexBundle

/-- A text cut at occurrences: the text before each one, the occurrence itself as written, and what
it means; then the text behind the last one. -/
inductive Segments (α : Type) where
  | tail (text : Text)
  | found (before lexeme : Text) (value : α) (rest : Segments α)
deriving Repr

/-- Where an occurrence stands, in bytes from the start of the text, and what it means. -/
structure Located (α : Type) where
  start : Nat
  stop : Nat
  value : α
deriving Repr

namespace Segments

variable {α : Type}

/-- The whole text again. -/
def text : Segments α → Text
  | tail t => t
  | found b l _ rest => b ++ l ++ rest.text

/-- Puts more text in front of the first occurrence. -/
def prepend (t : Text) : Segments α → Segments α
  | tail u => tail (t ++ u)
  | found b l v rest => found (t ++ b) l v rest

@[simp] theorem text_prepend (t : Text) (s : Segments α) : (s.prepend t).text = t ++ s.text := by
  cases s <;> simp [prepend, text]

def values : Segments α → List α
  | tail _ => []
  | found _ _ v rest => v :: rest.values

/-- The occurrences with their byte ranges, the text starting at byte `n`. -/
def locate (n : Nat) : Segments α → List (Located α)
  | tail _ => []
  | found b l v rest =>
    let start := n + Text.size b
    let stop := start + Text.size l
    ⟨start, stop, v⟩ :: rest.locate stop

theorem map_value_locate (n : Nat) (s : Segments α) : (s.locate n).map (·.value) = s.values := by
  induction s generalizing n with
  | tail _ => rfl
  | found b l v rest ih => simp [locate, values, ih]

/-- Cuts a text at the occurrences that `read?` finds. -/
def cut (read? : Text → Option (α × Text)) : Text → Segments α
  | [] => tail []
  | c :: t =>
    match read? (c :: t) with
    | none => (cut read? t).prepend [c]
    | some (v, rest) =>
      let n := t.length - rest.length
      found [] (c :: t.take n) v (cut read? (t.drop n))
termination_by t => t.length

theorem text_cut (read? : Text → Option (α × Text)) (t : Text) : (cut read? t).text = t := by
  fun_induction cut read? t with
  | case1 => rfl
  | case2 c t h ih => simp [ih]
  | case3 c t v rest h n ih => simp [text, ih]

/-- Keeps the occurrences that `keep` accepts. `keep` is asked from left to right, with a state that
`step` carries over every piece of text. -/
def filter {σ : Type} (step : σ → Text → σ) (keep : σ → Bool) : σ → Segments α → Segments α
  | _, tail t => tail t
  | st, found b l v rest =>
    let here := step st b
    let rest := rest.filter step keep (step here l)
    if keep here then found b l v rest else rest.prepend (b ++ l)

theorem text_filter {σ : Type} (step : σ → Text → σ) (keep : σ → Bool) (st : σ) (s : Segments α) :
    (s.filter step keep st).text = s.text := by
  induction s generalizing st with
  | tail _ => rfl
  | found b l v rest ih =>
    simp only [filter]
    split <;> simp [text, ih]

end Segments

end TexBundle
