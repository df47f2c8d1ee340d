import TexBundle.Json.Basic
import TexBundle.Json.Reading
import TexBundle.Proofs.Text.Reader

/-!
# Strings and numbers in JSON

* `stringParts?_flatMap`: what is written for the characters of a string means these characters;
* `read?_ofNat`, `value_ofNat`: the digits of a number are read as a whole, and mean that number.
-/

namespace TexBundle.Json

open Reading

/-! ## Strings -/

theorem hexUnit?_digitChar :
    ∀ n < 0x20, hexUnit? '0' '0' (Nat.digitChar (n / 16)) (Nat.digitChar (n % 16)) = some n := by
  decide

/-- In front of any text, `e` is read as one part of a string, and that means `c`. -/
def Means (e : Text) (c : Char) : Prop :=
  ∃ part, (∀ t, stringParts? (e ++ t) =
      (stringParts? t).map fun (parts, rest) => (part :: parts, rest)) ∧
    ∀ parts, textOfParts? (part :: parts) = (textOfParts? parts).map (c :: ·)

theorem means_singleton {c : Char} (hquote : c ≠ '"') (hbackslash : c ≠ '\\')
    (hcontrol : ¬ c.toNat < 0x20) : Means [c] c := by
  refine ⟨.char c, fun t => ?_, fun parts => rfl⟩
  rw [List.singleton_append, stringParts?, if_neg hcontrol]
  · cases stringParts? t <;> rfl
  · exact hquote
  · exact fun _ _ _ _ _ e _ => hbackslash e
  · exact fun _ _ e _ => hbackslash e

/-- The only characters that are written as a code are no surrogates, so the unit stands alone. -/
theorem means_control {c : Char} (hcontrol : c.toNat < 0x20) :
    Means ("\\u00" ++ [Nat.digitChar (c.toNat / 16), Nat.digitChar (c.toNat % 16)]) c := by
  have hhigh : isHighSurrogate c.toNat = false := by
    simp only [isHighSurrogate, Bool.and_eq_false_iff, decide_eq_false_iff_not]
    omega
  have hlow : isLowSurrogate c.toNat = false := by
    simp only [isLowSurrogate, Bool.and_eq_false_iff, decide_eq_false_iff_not]
    omega
  refine ⟨.unit c.toNat, fun t => ?_, fun parts => ?_⟩
  · show stringParts? ('\\' :: 'u' :: '0' :: '0' :: (c.toNat / 16).digitChar ::
      (c.toNat % 16).digitChar :: t) = _
    rw [stringParts?, hexUnit?_digitChar c.toNat hcontrol]
    cases stringParts? t <;> rfl
  · rw [textOfParts?.eq_def]
    simp only [hhigh, hlow, Bool.false_eq_true, if_false, Char.ofNat_toNat]

theorem means_escape {c letter : Char} (hletter : letter ≠ 'u')
    (hescape : escape? letter = some c) : Means ['\\', letter] c := by
  refine ⟨.char c, fun t => ?_, fun parts => rfl⟩
  show stringParts? ('\\' :: letter :: t) = _
  rw [stringParts?, hescape]
  · cases stringParts? t <;> rfl
  · rintro _ _ _ _ _ rfl
    exact absurd rfl hletter

theorem means_escapeChar (c : Char) : Means (escapeChar c) c := by
  unfold escapeChar
  split
  case h_8 hquote hbackslash _ _ _ _ _ =>
    split
    case isTrue hcontrol => exact means_control hcontrol
    case isFalse hcontrol => exact means_singleton hquote hbackslash hcontrol
  all_goals exact means_escape (by decide) (by decide)

theorem stringParts?_flatMap (s t : Text) :
    ∃ parts, stringParts? (s.flatMap escapeChar ++ '"' :: t) = some (parts, t) ∧
      textOfParts? parts = some s := by
  induction s with
  | nil => exact ⟨[], rfl, rfl⟩
  | cons c s ih =>
    obtain ⟨parts, hparts, htext⟩ := ih
    obtain ⟨part, hpart, hchar⟩ := means_escapeChar c
    refine ⟨part :: parts, ?_, by rw [hchar, htext]; rfl⟩
    rw [List.flatMap_cons, List.append_assoc, hpart, hparts]
    rfl

/-! ## Numbers -/

/-- No character that could belong to a number comes first. -/
def EndsNumber (t : Text) : Prop :=
  ∀ c ∈ t.head?, c.isDigit = false ∧ c ≠ '.' ∧ c ≠ 'e' ∧ c ≠ 'E'

theorem ofNat_ne_nil (n : Nat) : Text.ofNat n ≠ [] := Nat.toDigits_ne_nil

theorem isDigit_of_mem_ofNat {n : Nat} {c : Char} (h : c ∈ Text.ofNat n) : c.isDigit = true :=
  Nat.isDigit_of_mem_toDigits (by decide) (by decide) h

theorem head?_ofNat {n : Nat} (h : 0 < n) : (Text.ofNat n).head? ≠ some '0' := by
  induction n using Nat.strongRecOn with
  | ind n ih =>
    rw [Text.ofNat, Nat.toDigits_eq_if (by decide)]
    split
    · rename_i hlt
      have hdigits : ∀ n < 10, 0 < n → ([Nat.digitChar n] : Text).head? ≠ some '0' := by decide
      exact hdigits n hlt h
    · rename_i hge
      rw [List.head?_append_of_ne_nil _ Nat.toDigits_ne_nil]
      exact ih (n / 10) (by omega) (by omega)

namespace NumberText

theorem digits?_ofNat {rest : Text} (n : Nat) (h : EndsNumber rest) :
    digits? (Text.ofNat n ++ rest) = some (Text.ofNat n, rest) := by
  obtain ⟨htake, hdrop⟩ := span_append (fun c hc => isDigit_of_mem_ofNat hc)
    fun c hc => (h c hc).1
  rw [digits?, htake, hdrop, if_neg (ofNat_ne_nil n)]

theorem whole?_ofNat {rest : Text} (n : Nat) (h : EndsNumber rest) :
    whole? (Text.ofNat n ++ rest) = some (Text.ofNat n, rest) := by
  have hzero : ¬ ((Text.ofNat n).head? = some '0' ∧ (Text.ofNat n).length ≠ 1) := by
    rintro ⟨hhead, hlength⟩
    by_cases hn : n = 0
    · exact hlength (by rw [hn, Text.ofNat, Nat.toDigits_zero]; rfl)
    · exact head?_ofNat (Nat.pos_of_ne_zero hn) hhead
  rw [whole?, digits?_ofNat n h]
  exact if_neg hzero

theorem fraction?_of_endsNumber {rest : Text} (h : EndsNumber rest) :
    fraction? rest = some (none, rest) := by
  cases rest with
  | nil => rfl
  | cons c rest => rw [fraction?]; exact fun _ e => (h c rfl).2.1 (List.cons.inj e).1

theorem exponent?_of_endsNumber {rest : Text} (h : EndsNumber rest) :
    exponent? rest = some (none, rest) := by
  cases rest with
  | nil => rfl
  | cons c rest => exact if_neg fun e => e.elim (h c rfl).2.2.1 (h c rfl).2.2.2

/-- The digits of a number are read as a whole. -/
theorem read?_ofNat {rest : Text} (n : Nat) (h : EndsNumber rest) :
    read? (Text.ofNat n ++ rest) = some (⟨false, Text.ofNat n, none, none⟩, rest) := by
  obtain ⟨c, digits, hdigits⟩ := List.exists_cons_of_ne_nil (ofNat_ne_nil n)
  have hc : c ≠ '-' := by
    rintro rfl
    have hminus := isDigit_of_mem_ofNat (hdigits ▸ List.mem_cons_self)
    exact absurd hminus (by decide)
  have hwhole := whole?_ofNat n h
  rw [hdigits, List.cons_append] at hwhole ⊢
  rw [read?]
  · simp only [bind, Option.bind, hwhole, fraction?_of_endsNumber h, exponent?_of_endsNumber h]
    rfl
  · exact fun _ e => hc (List.cons.inj e).1

theorem value_ofNat {n : Nat} (h : n ≤ maxWhole) :
    value ⟨false, Text.ofNat n, none, none⟩ = .integer n := by
  have hvalue : valueFrom 0 (Text.ofNat n) = n := by
    rw [valueFrom, ← Nat.ofDigitChars_eq_foldl, Text.ofNat, Nat.ofDigitChars_ten_toDigits]
  simp only [value, hvalue, if_pos h]

end NumberText

end TexBundle.Json
