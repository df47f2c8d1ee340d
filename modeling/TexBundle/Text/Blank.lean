import TexBundle.Text.Basic

/-!
# Blank characters

The blank characters are those of the Unicode property White_Space. Trimming, collapsing and the
scanners all use this one class.

* `Text.trim`, `Text.words`, `Text.collapse`: what is left without some or all of the blanks;
* `Text.trimStart_eq_self_iff`, `Text.trimEnd_eq_self_iff`: when nothing is trimmed at one end.
-/

namespace TexBundle

/-- The Unicode property White_Space. -/
def isBlank (c : Char) : Bool :=
  let n := c.toNat
  (9 ≤ n && n ≤ 13) || n == 0x20 || n == 0x85 || n == 0xA0 || n == 0x1680 ||
    (0x2000 ≤ n && n ≤ 0x200A) || n == 0x2028 || n == 0x2029 || n == 0x202F || n == 0x205F ||
    n == 0x3000

namespace Text

def trimStart (t : Text) : Text := t.dropWhile isBlank

def trimEnd (t : Text) : Text := (t.reverse.dropWhile isBlank).reverse

def trim (t : Text) : Text := trimEnd (trimStart t)

/-- Nothing but blanks. -/
def allBlank (t : Text) : Bool := t.all isBlank

/-- The maximal runs of characters that are not blank. -/
def words (t : Text) : List Text := (t.splitBy isBlank).filter (!·.isEmpty)

/-- Surrounding blanks removed and every inner run of blanks made one space. -/
def collapse (t : Text) : Text := [' '].intercalate (words t)

@[simp] theorem trimStart_nil : trimStart [] = [] := rfl

@[simp] theorem trim_nil : trim [] = [] := rfl

theorem length_trimStart_le (t : Text) : (trimStart t).length ≤ t.length :=
  (List.dropWhile_sublist _).length_le

theorem trimStart_eq_self_iff {t : Text} :
    trimStart t = t ↔ ∀ c, t.head? = some c → isBlank c = false := by
  cases t with
  | nil => simp
  | cons c t =>
    by_cases h : isBlank c = true
    · have := length_trimStart_le t
      simp only [trimStart, List.dropWhile_cons, h, ite_true, List.head?_cons,
        Option.some.injEq, forall_eq']
      refine ⟨fun e => ?_, by simp⟩
      have := congrArg List.length e
      simp only [trimStart, List.length_cons] at *
      omega
    · simp [trimStart, h]

theorem trimEnd_eq_self_iff {t : Text} :
    trimEnd t = t ↔ ∀ c, t.getLast? = some c → isBlank c = false := by
  have h := trimStart_eq_self_iff (t := t.reverse)
  rw [List.head?_reverse] at h
  rw [← h, trimEnd, trimStart, List.reverse_eq_iff]

end Text

end TexBundle
