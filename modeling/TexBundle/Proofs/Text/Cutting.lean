import TexBundle.Text.Blank
import Mathlib.Data.List.Infix
import Mathlib.Data.List.TakeWhile

/-!
# Laws of cutting

What the ways of cutting a text leave in the pieces.

* `splitBy_append_cons`, `isInfix_of_mem_splitBy`: pieces are cut independently of each other, and
  each one stands somewhere in the text;
* `not_mem_of_breakAtLast?`, `breakAtLast?_eq_none_iff`: nothing is found behind the last one;
* `Text.lines`: the lines of a text, without the carriage returns of CRLF line ends;
* `not_isBlank_of_getLast?_trim`: a trimmed text does not end in a blank;
* `trim_append_append`, `mem_trim_iff`: trimming takes away exactly the blanks around a trimmed
  text;
* `includes_iff`: what occurs in a text stands somewhere in it.
-/

namespace TexBundle.Text

/-! ## Pieces between separators -/

theorem splitBy_eq_splitOnP (p : Char → Bool) (t : Text) : splitBy p t = t.splitOnP p := by
  induction t with
  | nil => rfl
  | cons c t ih =>
    rw [splitBy, List.splitOnP_cons_eq_if_modifyHead, ih]
    split
    · rfl
    · cases h : t.splitOnP p with
      | nil => exact absurd h (List.splitOnP_ne_nil p t)
      | cons => rfl

theorem splitBy_append_cons {p : Char → Bool} {c : Char} (h : p c = true) (s t : Text) :
    splitBy p (s ++ c :: t) = splitBy p s ++ splitBy p t := by
  simp only [splitBy_eq_splitOnP, List.splitOnP_append_cons _ _ h]

theorem splitBy_eq_singleton {p : Char → Bool} {t : Text} (h : ∀ c ∈ t, p c = false) :
    splitBy p t = [t] := by
  rw [splitBy_eq_splitOnP, List.splitOnP_eq_singleton h]

/-- The first piece starts the text, and each other piece stands somewhere in it. -/
theorem isPrefix_of_splitBy_eq_cons {p : Char → Bool} {t w : Text} {ws : List Text}
    (h : splitBy p t = w :: ws) : w <+: t ∧ ∀ v ∈ ws, v <:+: t := by
  induction t generalizing w ws with
  | nil =>
    obtain ⟨rfl, rfl⟩ := List.cons.inj h
    simp
  | cons c t ih =>
    obtain ⟨v, vs, hv⟩ := List.exists_cons_of_ne_nil (splitBy_ne_nil p t)
    obtain ⟨hpre, hinf⟩ := ih hv
    rw [splitBy, hv] at h
    split at h
    · obtain ⟨rfl, rfl⟩ := List.cons.inj h
      refine ⟨List.nil_prefix, fun u hu => ?_⟩
      rcases List.mem_cons.1 hu with rfl | hu
      · exact hpre.isInfix.trans (List.suffix_cons c t).isInfix
      · exact (hinf u hu).trans (List.suffix_cons c t).isInfix
    · obtain ⟨rfl, rfl⟩ := List.cons.inj h
      exact ⟨List.cons_prefix_cons.2 ⟨rfl, hpre⟩,
        fun u hu => (hinf u hu).trans (List.suffix_cons c t).isInfix⟩

theorem isInfix_of_mem_splitBy {p : Char → Bool} {t w : Text} (h : w ∈ splitBy p t) :
    w <:+: t := by
  obtain ⟨v, vs, hv⟩ := List.exists_cons_of_ne_nil (splitBy_ne_nil p t)
  obtain ⟨hpre, hinf⟩ := isPrefix_of_splitBy_eq_cons hv
  rw [hv] at h
  rcases List.mem_cons.1 h with rfl | h
  · exact hpre.isInfix
  · exact hinf w h

/-- No piece contains a character that was split on. -/
theorem not_of_mem_splitBy {p : Char → Bool} {t w : Text} (h : w ∈ splitBy p t) {c : Char}
    (hc : c ∈ w) : p c = false := by
  induction t generalizing w with
  | nil =>
    obtain rfl := List.mem_singleton.1 h
    cases hc
  | cons d t ih =>
    obtain ⟨v, vs, hv⟩ := List.exists_cons_of_ne_nil (splitBy_ne_nil p t)
    rw [splitBy, hv] at h
    split at h
    · rcases List.mem_cons.1 h with rfl | h
      · cases hc
      · exact ih (hv ▸ h) hc
    · rename_i hd
      rcases List.mem_cons.1 h with rfl | h
      · rcases List.mem_cons.1 hc with rfl | hc
        · simpa using hd
        · exact ih (hv ▸ List.mem_cons_self) hc
      · exact ih (hv ▸ List.mem_cons_of_mem _ h) hc

theorem not_mem_intercalate {c sep : Char} (hc : c ≠ sep) {pieces : List Text}
    (h : ∀ piece ∈ pieces, c ∉ piece) : c ∉ [sep].intercalate pieces := by
  induction pieces with
  | nil => exact List.not_mem_nil
  | cons piece pieces ih =>
    obtain ⟨hpiece, hpieces⟩ := List.forall_mem_cons.1 h
    by_cases hne : pieces = []
    · rwa [hne, List.intercalate_singleton]
    · rw [List.intercalate_cons_of_ne_nil hne]
      simp [hc, hpiece, ih hpieces]

/-! ## The last occurrence -/

theorem not_mem_of_breakAt? {c : Char} {t a b : Text} (h : breakAt? c t = some (a, b)) : c ∉ a := by
  induction t generalizing a with
  | nil => simp [breakAt?] at h
  | cons d t ih =>
    rw [breakAt?] at h
    split at h
    · simp_all
    · rename_i hd
      obtain ⟨⟨a', b'⟩, h', he⟩ := Option.map_eq_some_iff.1 h
      simp only [Prod.mk.injEq] at he
      obtain ⟨rfl, rfl⟩ := he
      exact List.not_mem_cons_of_ne_of_not_mem (fun e => hd e.symm) (ih h')

theorem breakAt?_eq_none_iff {c : Char} {t : Text} : breakAt? c t = none ↔ c ∉ t := by
  induction t with
  | nil => simp [breakAt?]
  | cons d t ih =>
    rw [breakAt?]
    split
    · simp_all
    · rename_i hd
      rw [Option.map_eq_none_iff, ih, List.mem_cons, not_or]
      exact ⟨fun h => ⟨fun e => hd e.symm, h⟩, And.right⟩

theorem breakAt?_append_cons {c : Char} {a : Text} (h : c ∉ a) (b : Text) :
    breakAt? c (a ++ c :: b) = some (a, b) := by
  induction a with
  | nil => simp [breakAt?]
  | cons d a ih =>
    rw [List.mem_cons, not_or] at h
    simp [breakAt?, Ne.symm h.1, ih h.2]

theorem not_mem_of_breakAtLast? {c : Char} {t a b : Text} (h : breakAtLast? c t = some (a, b)) :
    c ∉ b := by
  obtain ⟨⟨b', a'⟩, h', he⟩ := Option.map_eq_some_iff.1 h
  simp only [Prod.mk.injEq] at he
  obtain ⟨-, rfl⟩ := he
  simpa using not_mem_of_breakAt? h'

theorem breakAtLast?_append_cons {c : Char} {b : Text} (a : Text) (h : c ∉ b) :
    breakAtLast? c (a ++ c :: b) = some (a, b) := by
  simp [breakAtLast?, breakAt?_append_cons (a := b.reverse) (by simpa using h)]

theorem breakAtLast?_eq_none_iff {c : Char} {t : Text} : breakAtLast? c t = none ↔ c ∉ t := by
  simp [breakAtLast?, breakAt?_eq_none_iff]

/-! ## Lines -/

/-- A line without the carriage return of a CRLF line end. -/
def dropReturn (line : Text) : Text := if line.getLast? = some '\r' then line.dropLast else line

/-- The lines of a text, cut at its line feeds. -/
def lines (t : Text) : List Text := (t.splitBy (· == '\n')).map dropReturn

@[simp] theorem dropReturn_append_return (line : Text) : dropReturn (line ++ ['\r']) = line := by
  simp [dropReturn]

theorem dropReturn_eq_self {line : Text} (h : line.getLast? ≠ some '\r') : dropReturn line = line :=
  if_neg h

theorem dropReturn_isPrefix (line : Text) : dropReturn line <+: line := by
  rw [dropReturn]
  split
  · exact List.dropLast_prefix line
  · exact List.prefix_refl line

theorem lines_append_newline (s t : Text) : lines (s ++ '\n' :: t) = lines s ++ lines t := by
  rw [lines, splitBy_append_cons (by rfl), List.map_append]
  rfl

theorem lines_eq_singleton {t : Text} (h : '\n' ∉ t) : lines t = [dropReturn t] := by
  rw [lines, splitBy_eq_singleton]
  · rfl
  · intro c hc
    exact beq_false_of_ne fun e => h (e ▸ hc)

theorem isInfix_of_mem_lines {t line : Text} (h : line ∈ lines t) : line <:+: t := by
  obtain ⟨w, hw, rfl⟩ := List.mem_map.1 h
  exact (dropReturn_isPrefix w).isInfix.trans (isInfix_of_mem_splitBy hw)

/-! ## Trimming -/

theorem not_isBlank_of_getLast?_trim {t : Text} {c : Char} (h : (trim t).getLast? = some c) :
    isBlank c = false := by
  rw [trim, trimEnd, List.getLast?_reverse] at h
  have := List.head?_dropWhile_not isBlank (trimStart t).reverse
  rw [h] at this
  simpa using this

theorem not_mem_of_allBlank {b : Text} (hb : b.allBlank = true) {c : Char}
    (hc : isBlank c = false) : c ∉ b :=
  fun h => Bool.false_ne_true (hc.symm.trans (List.all_eq_true.1 hb c h))

theorem allBlank_append {s t : Text} (hs : s.allBlank = true) (ht : t.allBlank = true) :
    allBlank (s ++ t) = true := by
  rw [allBlank, List.all_append, ← allBlank, ← allBlank, hs, ht]
  rfl

theorem trimStart_append {b : Text} (hb : b.allBlank = true) (t : Text) :
    trimStart (b ++ t) = trimStart t :=
  List.dropWhile_append_of_pos (List.all_eq_true.1 hb)

theorem trimStart_cons {c : Char} (hc : isBlank c = false) (t : Text) :
    trimStart (c :: t) = c :: t :=
  List.dropWhile_cons_of_neg (by simp [hc])

theorem trimEnd_append {b : Text} (hb : b.allBlank = true) (t : Text) :
    trimEnd (t ++ b) = trimEnd t := by
  have hr : allBlank b.reverse = true := by rwa [allBlank, List.all_reverse]
  rw [trimEnd, trimEnd, List.reverse_append]
  exact congrArg List.reverse (trimStart_append hr t.reverse)

theorem trimStart_of_trim {t : Text} (h : trim t = t) : trimStart t = t := by
  have hle := (List.dropWhile_sublist isBlank (l := (trimStart t).reverse)).length_le
  have htrim := congrArg List.length h
  have hstart := length_trimStart_le t
  rw [List.length_reverse] at hle
  rw [trim, trimEnd, List.length_reverse] at htrim
  exact (List.dropWhile_sublist isBlank).eq_of_length (by rw [← trimStart]; omega)

theorem not_isBlank_of_trim {t : Text} (ht : trim t = t) {c : Char} (hc : t.head? = some c) :
    isBlank c = false :=
  trimStart_eq_self_iff.1 (trimStart_of_trim ht) c hc

theorem trimStart_append_of_trim {t : Text} (ht : trim t = t) (hne : t ≠ []) (u : Text) :
    trimStart (t ++ u) = t ++ u := by
  obtain ⟨c, t, rfl⟩ := List.exists_cons_of_ne_nil hne
  rw [List.cons_append, trimStart_cons (not_isBlank_of_trim ht rfl)]

/-- What is not blank may be put in front of a trimmed text. -/
theorem trim_cons {t : Text} (ht : trim t = t) {c : Char} (hc : isBlank c = false) :
    trim (c :: t) = c :: t := by
  have hend : trimEnd t = t := by
    have hstart := trimStart_of_trim ht
    rwa [trim, hstart] at ht
  rw [trim, trimStart_cons hc, trimEnd_eq_self_iff]
  intro d hd
  cases t with
  | nil =>
    obtain rfl : c = d := by simpa using hd
    exact hc
  | cons e t =>
    apply trimEnd_eq_self_iff.1 hend
    rwa [List.getLast?_cons_cons] at hd

theorem trim_append {t a : Text} (ht : trim t = t) (ha : a.allBlank = true) :
    trim (t ++ a) = t := by
  by_cases hne : t = []
  · subst hne
    rw [List.nil_append, trim, trimStart, List.dropWhile_eq_nil_iff.2 (List.all_eq_true.1 ha)]
    rfl
  · rw [trim, trimStart_append_of_trim ht hne, trimEnd_append ha]
    rwa [trim, trimStart_of_trim ht] at ht

/-- A trimmed text with blanks on both sides, trimmed. -/
theorem trim_append_append {b t a : Text} (hb : b.allBlank = true) (ht : trim t = t)
    (ha : a.allBlank = true) : trim (b ++ (t ++ a)) = t := by
  rw [trim, trimStart_append hb, ← trim, trim_append ht ha]

theorem trimEnd_isPrefix (t : Text) : trimEnd t <+: t := by
  rw [← List.reverse_suffix, trimEnd, List.reverse_reverse]
  exact List.dropWhile_suffix _

theorem trim_isInfix (t : Text) : trim t <:+: t :=
  (trimEnd_isPrefix _).isInfix.trans (List.dropWhile_suffix _).isInfix

theorem mem_dropWhile_iff {p : Char → Bool} {c : Char} (hc : p c = false) {t : Text} :
    c ∈ t.dropWhile p ↔ c ∈ t := by
  refine ⟨fun h => (List.dropWhile_sublist p).subset h, fun h => ?_⟩
  rw [← List.takeWhile_append_dropWhile (p := p) (l := t)] at h
  refine (List.mem_append.1 h).resolve_left fun htake => ?_
  exact Bool.false_ne_true (hc.symm.trans (List.mem_takeWhile_imp htake))

/-- Only blanks are trimmed away. -/
theorem mem_trim_iff {c : Char} (hc : isBlank c = false) {t : Text} : c ∈ trim t ↔ c ∈ t := by
  rw [trim, trimEnd, List.mem_reverse, mem_dropWhile_iff hc, List.mem_reverse, trimStart,
    mem_dropWhile_iff hc]

theorem trim_trim (t : Text) : trim (trim t) = trim t := by
  have hstart : trimStart (trim t) = trim t := by
    refine trimStart_eq_self_iff.2 fun c hc => ?_
    obtain ⟨u, hu⟩ := trimEnd_isPrefix (trimStart t)
    have hhead : (trimStart t).head? = some c := by
      rw [← hu, ← trim, List.head?_append, hc, Option.some_or]
    have hblank := List.head?_dropWhile_not isBlank t
    rw [← trimStart, hhead] at hblank
    exact hblank
  rw [trim, hstart, trimEnd_eq_self_iff]
  exact fun _ => not_isBlank_of_getLast?_trim

/-! ## Searching -/

theorem includes_iff {t needle : Text} : includes t needle = true ↔ needle <:+: t := by
  induction t with
  | nil => simp [includes]
  | cons c t ih =>
    rw [includes, Bool.or_eq_true, List.isPrefixOf_iff_prefix, ih, List.infix_cons_iff]

end TexBundle.Text
