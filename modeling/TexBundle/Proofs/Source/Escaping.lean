import TexBundle.Proofs.Offsets.Bytes
import TexBundle.Proofs.Text.Paragraphs
import Mathlib.Algebra.Ring.Parity
import Mathlib.Data.List.DropRight

/-!
# Percent signs that start comments

A percent sign starts a comment unless a backslash escapes it, and a backslash may be escaped
itself. So what counts is whether the number of backslashes in front of the percent sign is even.

* `slashes`: how many backslashes a text ends in;
* `StartsComment`: some percent sign on a line has an even number of them in front of it;
* `after_line`: what a reader remembers of a line is whether one has, and else the parity;
* `isCommentedAt?_iff_startsComment`: where a text is inside a comment.
-/

namespace TexBundle.Source

open LineState (plain escaped comment)
open Text (lastLine)

/-- The number of backslashes that a text ends in. -/
def slashes (t : Text) : Nat := (t.rtakeWhile (· == '\\')).length

/-- Some percent sign has an even number of backslashes in front of it. -/
def StartsComment (line : Text) : Prop :=
  ∃ front behind, line = front ++ '%' :: behind ∧ Even (slashes front)

variable {t line : Text} {c : Char}

/-! ## One character more -/

theorem slashes_concat_slash (t : Text) : slashes (t ++ ['\\']) = slashes t + 1 := by
  rw [slashes, List.rtakeWhile_concat_pos _ _ _ (by rfl), List.length_append]
  rfl

theorem slashes_concat (h : c ≠ '\\') (t : Text) : slashes (t ++ [c]) = 0 := by
  rw [slashes, List.rtakeWhile_concat_neg _ _ _ (by simpa using h), List.length_nil]

theorem StartsComment.append (h : StartsComment line) (t : Text) : StartsComment (line ++ t) := by
  obtain ⟨front, behind, rfl, heven⟩ := h
  exact ⟨front, behind ++ t, by rw [List.append_assoc, List.cons_append], heven⟩

theorem startsComment_concat_iff :
    StartsComment (t ++ [c]) ↔ StartsComment t ∨ c = '%' ∧ Even (slashes t) := by
  constructor
  · rintro ⟨front, behind, ht, heven⟩
    obtain rfl | ⟨behind, d, rfl⟩ := List.eq_nil_or_concat' behind
    · obtain ⟨rfl, hc⟩ := List.append_inj' ht rfl
      exact .inr ⟨List.singleton_inj.1 hc, heven⟩
    · rw [← List.cons_append, ← List.append_assoc] at ht
      exact .inl ⟨front, behind, (List.append_inj' ht rfl).1, heven⟩
  · rintro (h | ⟨rfl, heven⟩)
    · exact h.append [c]
    · exact ⟨t, [], rfl, heven⟩

/-! ## Lines -/

/-- By induction on the line, read from its end. Outside comments, the state holds the parity of the
number of backslashes that have just been read. -/
theorem after_line (h : '\n' ∉ line) :
    (plain.after line = comment ↔ StartsComment line) ∧
      (plain.after line ≠ comment → (plain.after line = plain ↔ Even (slashes line))) := by
  induction line using List.reverseRecOn with
  | nil => exact ⟨by simp [StartsComment], fun _ => by simp [slashes]⟩
  | append_singleton t c ih =>
    rw [List.mem_append, List.mem_singleton, not_or] at h
    obtain ⟨hcomment, hparity⟩ := ih h.1
    rw [LineState.after_append, LineState.after_cons, LineState.after_nil,
      startsComment_concat_iff, ← hcomment]
    by_cases hst : plain.after t = comment
    · rw [hst, LineState.step_comment (Ne.symm h.2)]
      simp
    · have heven := hparity hst
      by_cases hslash : c = '\\'
      · subst hslash
        rw [slashes_concat_slash, Nat.even_add_one, ← heven]
        cases hafter : plain.after t <;> simp_all [LineState.step]
      · rw [slashes_concat hslash, ← heven]
        by_cases hpercent : c = '%'
        · subst hpercent
          cases hafter : plain.after t <;> simp_all [LineState.step]
        · have hstep : (plain.after t).step c = plain := by
            unfold LineState.step
            split <;> simp_all
          simp [hstep, hst, hpercent]

theorem isCommented_iff_startsComment (before : Text) :
    isCommented before = true ↔ StartsComment (lastLine before) := by
  obtain h | ⟨rest, line, rfl, hline⟩ := Text.line_or_last before
  · rw [isCommented_iff, Text.lastLine_line h, (after_line h).1]
  · rw [isCommented_iff, Text.lastLine_newline, Text.lastLine_line hline, LineState.after_append,
      LineState.after_cons, LineState.step_newline, (after_line hline).1]

/-! ## Places in a text -/

theorem isCommentedAt?_eq_some_iff {text : Text} {pos : Nat} {answer : Bool} :
    isCommentedAt? text pos = some answer ↔
      ∃ before rest, text = before ++ rest ∧ pos = Text.size before ∧
        (answer = true ↔ StartsComment (lastLine before)) := by
  rw [isCommentedAt?, Option.map_eq_some_iff]
  constructor
  · rintro ⟨before, hbefore, rfl⟩
    obtain ⟨rest, htext, hpos⟩ := Text.takeBytes?_eq_some_iff.1 hbefore
    exact ⟨before, rest, htext, hpos, isCommented_iff_startsComment before⟩
  · rintro ⟨before, rest, htext, hpos, hanswer⟩
    refine ⟨before, Text.takeBytes?_eq_some_iff.2 ⟨rest, htext, hpos⟩, ?_⟩
    rw [Bool.eq_iff_iff, isCommented_iff_startsComment, hanswer]

/-- What stands on the line before two places decides whether they are inside comments. -/
theorem isCommentedAt?_congr {text text' : Text} {pos pos' : Nat}
    (h : (text.takeBytes? pos).map lastLine = (text'.takeBytes? pos').map lastLine) :
    isCommentedAt? text pos = isCommentedAt? text' pos' := by
  rw [isCommentedAt?, isCommentedAt?]
  cases hbefore : text.takeBytes? pos with
  | none =>
    rw [hbefore, Option.map_none, eq_comm, Option.map_eq_none_iff] at h
    rw [h, Option.map_none]
  | some before =>
    rw [hbefore, Option.map_some, eq_comm, Option.map_eq_some_iff] at h
    obtain ⟨before', hbefore', hline⟩ := h
    rw [hbefore', Option.map_some, Option.map_some, Option.some.injEq, Bool.eq_iff_iff,
      isCommented_iff_startsComment, isCommented_iff_startsComment, hline]

/-- A search byte by byte is stopped at places where the text cannot be cut, and at all others it
comes to the same answer. -/
theorem commentedAt_eq_ok_iff {text : Text} {pos : Nat} {answer : Bool} :
    Offsets.commentedAt text pos = .ok answer ↔ isCommentedAt? text pos = some answer := by
  rw [isCommentedAt?]
  cases hbefore : text.takeBytes? pos with
  | none =>
    have hslice : Offsets.sliceTo pos text = .error .slice := by rw [Offsets.sliceTo, hbefore]
    rw [Offsets.commentedAt, hslice]
    constructor <;> rintro ⟨⟩
  | some before =>
    obtain ⟨rest, rfl, rfl⟩ := Text.takeBytes?_eq_some_iff.1 hbefore
    rw [Offsets.commentedAt_append, Option.map_some, Except.ok.injEq, Option.some.injEq]

/-- A place where a character starts or ends is inside a comment exactly if, between the start of
its line and this place, some percent sign stands behind an even number of backslashes. So nothing
else matters but what stands on the line before it, and a comment goes on along the line. A search
byte by byte that remembers one bit gives the same answers. -/
theorem isCommentedAt?_iff_startsComment (text : Text) :
    (∀ pos answer, isCommentedAt? text pos = some answer ↔
      ∃ before rest, text = before ++ rest ∧ pos = Text.size before ∧
        (answer = true ↔ StartsComment (lastLine before))) ∧
    (∀ text' pos pos', (text.takeBytes? pos).map lastLine = (text'.takeBytes? pos').map lastLine →
      isCommentedAt? text pos = isCommentedAt? text' pos') ∧
    (∀ before line rest, text = before ++ (line ++ rest) → '\n' ∉ line →
      isCommentedAt? text (Text.size before) = some true →
      isCommentedAt? text (Text.size (before ++ line)) = some true) ∧
    ∀ pos answer, Offsets.commentedAt text pos = .ok answer ↔
      isCommentedAt? text pos = some answer := by
  refine ⟨fun pos answer => isCommentedAt?_eq_some_iff, fun text' pos pos' => isCommentedAt?_congr,
    ?_, fun pos answer => commentedAt_eq_ok_iff⟩
  rintro before line rest rfl hline hbefore
  rw [isCommentedAt?_append, Option.some.injEq, isCommented_iff_startsComment] at hbefore
  rw [← List.append_assoc, isCommentedAt?_append, Option.some.injEq, isCommented_iff_startsComment,
    Text.lastLine_append_line before hline]
  exact hbefore.append line

/-- Three percent signs on one line, behind one, two and three backslashes. The second one starts a
comment, and the line above does not matter. -/
theorem isCommentedAt?_iff_startsComment_of_three :
    let above : Text := "% é\n"
    let line : Text := "\\%é\\\\%"
    let rest : Text := "\\\\\\%é"
    let text := above ++ (line ++ rest)
    ('\n' ∉ rest ∧ (text.takeBytes? 9).map lastLine = (line.takeBytes? 4).map lastLine) ∧
      isCommentedAt? text 9 = some false ∧ isCommentedAt? text 12 = some true ∧
      isCommentedAt? text (Text.size text) = some true ∧ isCommentedAt? text 8 = none ∧
      StartsComment line ∧ Offsets.commentedAt text 12 = .ok true := by
  intro above line rest text
  obtain ⟨hplaces, hlines, halong, hbytes⟩ := isCommentedAt?_iff_startsComment text
  have hinside : isCommentedAt? text 12 = some true := by decide
  have hprefix : (text.takeBytes? 9).map lastLine = (line.takeBytes? 4).map lastLine := by decide
  have hend : isCommentedAt? text (Text.size (above ++ line ++ rest)) = some true :=
    halong (above ++ line) rest [] (by simp [text]) (by decide) hinside
  refine ⟨⟨by decide, hprefix⟩, (hlines line 9 4 hprefix).trans (by decide), hinside, ?_, by decide,
    ?_, (hbytes 12 true).2 hinside⟩
  · rwa [List.append_assoc] at hend
  · exact ⟨"\\%é\\\\", [], by decide, by decide⟩

end TexBundle.Source
