import TexBundle.Proofs.Expansion.Trace
import TexBundle.Proofs.Path
import TexBundle.Proofs.Text.Segments

/-!
# Marker lines

The marker lines of an expanded text, read back from its lines, are those of its trace: no line of a
source is taken for one, and each marker has a line of its own.

* `Mark.read?_eq_some_iff`: which lines are marker lines;
* `Unfolds.marks_text`: reading the lines of an expanded text gives the markers of its trace.
-/

namespace TexBundle

open Expansion

/-- A marker line. -/
inductive Mark where
  | opening (path : Text)
  | closing (path : Text)
  | skipped (path : Text)
deriving DecidableEq, Repr

/-- What marker lines have in common, and sources are assumed to be free of. -/
def Marker.tag : Text := "ferrotex:"

namespace Expansion

theorem needsBreak_eq_false_iff {t : Text} :
    needsBreak t = false ↔ t = [] ∨ (∃ x, t = '\n' :: x) ∨ ∃ x, t = '\r' :: '\n' :: x := by
  simp only [needsBreak, Bool.and_eq_false_iff, Bool.not_eq_false', List.isEmpty_iff,
    List.isPrefixOf_iff_prefix, or_assoc]
  constructor
  · rintro (rfl | ⟨x, rfl⟩ | ⟨x, rfl⟩)
    exacts [.inl rfl, .inr (.inl ⟨x, rfl⟩), .inr (.inr ⟨x, rfl⟩)]
  · rintro (rfl | ⟨x, rfl⟩ | ⟨x, rfl⟩)
    exacts [.inl rfl, .inr (.inl ⟨x, rfl⟩), .inr (.inr ⟨x, rfl⟩)]

theorem needsBreak_append {t : Text} (h : needsBreak t = false) (hne : t ≠ []) (u : Text) :
    needsBreak (t ++ u) = false := by
  obtain rfl | ⟨x, rfl⟩ | ⟨x, rfl⟩ := needsBreak_eq_false_iff.1 h
  · exact absurd rfl hne
  · rfl
  · rfl

end Expansion

namespace Mark

def path : Mark → Text
  | opening p | closing p | skipped p => p

def line : Mark → Text
  | opening p => Marker.opening p
  | closing p => Marker.closing p
  | skipped p => Marker.skipped p

/-- A marker line up to its path. -/
def lead : Mark → Text
  | opening _ => "% >>> ferrotex: begin include "
  | closing _ => "% <<< ferrotex: end include "
  | skipped _ => "% ferrotex: skipped recursive include "

def opening? : Mark → Option Text
  | opening p => some p
  | _ => none

def skipped? : Mark → Option Text
  | skipped p => some p
  | _ => none

@[simp] theorem opening?_opening (p : Text) : (opening p).opening? = some p := rfl
@[simp] theorem opening?_closing (p : Text) : (closing p).opening? = none := rfl
@[simp] theorem opening?_skipped (p : Text) : (skipped p).opening? = none := rfl
@[simp] theorem skipped?_opening (p : Text) : (opening p).skipped? = none := rfl
@[simp] theorem skipped?_closing (p : Text) : (closing p).skipped? = none := rfl
@[simp] theorem skipped?_skipped (p : Text) : (skipped p).skipped? = some p := rfl

/-- The marker that a line starts with. -/
def read? (line : Text) : Option Mark :=
  ((Text.stripPrefix? (lead (opening [])) line).map opening).or <|
    ((Text.stripPrefix? (lead (closing [])) line).map closing).or <|
      (Text.stripPrefix? (lead (skipped [])) line).map skipped

/-- The marker lines of a text, from top to bottom. -/
def ofText (t : Text) : List Mark := t.lines.filterMap read?

theorem line_eq (m : Mark) : m.line = m.lead ++ m.path := by
  cases m <;> rfl

theorem newline_not_mem_lead (m : Mark) : '\n' ∉ m.lead := by
  have h : '\n' ∉ lead (opening []) ∧ '\n' ∉ lead (closing []) ∧ '\n' ∉ lead (skipped []) := by
    decide +kernel
  cases m
  exacts [h.1, h.2.1, h.2.2]

theorem getLast?_lead (m : Mark) : m.lead.getLast? = some ' ' := by
  cases m <;> rfl

theorem tag_isInfix_lead (m : Mark) : Marker.tag <:+: m.lead := by
  cases m
  · exact ⟨"% >>> ".toList, " begin include ".toList, rfl⟩
  · exact ⟨"% <<< ".toList, " end include ".toList, rfl⟩
  · exact ⟨"% ".toList, " skipped recursive include ".toList, rfl⟩

/-- A line starts with a marker exactly if it is one. -/
theorem read?_eq_some_iff {line : Text} {m : Mark} : read? line = some m ↔ line = m.line := by
  constructor
  · intro h
    rw [m.line_eq]
    simp only [read?, Option.or_eq_some_iff, Option.map_eq_some_iff,
      Text.stripPrefix?_eq_some_iff] at h
    obtain ⟨p, rfl, rfl⟩ | ⟨-, ⟨p, rfl, rfl⟩ | ⟨-, p, rfl, rfl⟩⟩ := h <;> rfl
  · rintro rfl
    cases m <;> rfl

theorem read?_line (m : Mark) : read? m.line = some m := read?_eq_some_iff.2 rfl

/-! ## Marker lines of a text -/

@[simp] theorem ofText_nil : ofText [] = [] := rfl

theorem ofText_append_newline (s t : Text) : ofText (s ++ '\n' :: t) = ofText s ++ ofText t := by
  rw [ofText, Text.lines_append_newline, List.filterMap_append]
  rfl

/-- A text without the tag has no marker line. -/
theorem ofText_eq_nil {t : Text} (h : ¬ Marker.tag <:+: t) : ofText t = [] := by
  rw [ofText, List.filterMap_eq_nil_iff]
  intro line hline
  refine Option.eq_none_iff_forall_ne_some.2 fun m hm => h ?_
  rw [read?_eq_some_iff, line_eq] at hm
  exact m.tag_isInfix_lead.trans ((List.prefix_append ..).isInfix.trans
    (hm ▸ Text.isInfix_of_mem_lines hline))

/-- A path that leaves the line of its marker as it is. -/
structure Fits (path : Text) : Prop where
  newline : '\n' ∉ path
  carriageReturn : path.getLast? ≠ some '\r'

section

variable {m : Mark} (h : Fits m.path)

include h

theorem newline_not_mem_line : '\n' ∉ m.line := by
  rw [line_eq, List.mem_append, not_or]
  exact ⟨m.newline_not_mem_lead, h.newline⟩

theorem getLast?_line : m.line.getLast? ≠ some '\n' ∧ m.line.getLast? ≠ some '\r' := by
  refine ⟨fun e => newline_not_mem_line h (List.mem_of_getLast? e), fun e => ?_⟩
  rw [line_eq, List.getLast?_append, m.getLast?_lead] at e
  cases hp : m.path.getLast? with
  | none => simp [hp] at e
  | some c => exact h.carriageReturn (by simpa [hp] using e)

theorem ofText_line : ofText m.line = [m] := by
  rw [ofText, Text.lines_eq_singleton (newline_not_mem_line h),
    Text.dropReturn_eq_self (getLast?_line h).2]
  exact List.filterMap_cons_some m.read?_line

theorem ofText_line_return : ofText (m.line ++ ['\r']) = [m] := by
  rw [ofText, Text.lines_eq_singleton (by simp [newline_not_mem_line h]),
    Text.dropReturn_append_return]
  exact List.filterMap_cons_some m.read?_line

/-- Behind a marker, what is not moved to a line of its own ends the marker's line. -/
theorem ofText_line_append {t : Text} (ht : needsBreak t = false) :
    ofText (m.line ++ t) = m :: ofText t := by
  obtain rfl | ⟨x, rfl⟩ | ⟨x, rfl⟩ := needsBreak_eq_false_iff.1 ht
  · rw [List.append_nil, ofText_line h, ofText_nil]
  · rw [ofText_append_newline, ofText_line h, ← List.nil_append ('\n' :: x), ofText_append_newline]
    rfl
  · have hr : ofText ['\r'] = [] := rfl
    rw [← List.singleton_append, ← List.append_assoc, ofText_append_newline, ofText_line_return h,
      ofText_append_newline, hr]
    rfl

/-- A marker's line is not at its end. -/
theorem endsLine_line (ended : Bool) : endsLine ended m.line = false := by
  have hl := (getLast?_line h).1
  rw [line_eq, List.getLast?_append, m.getLast?_lead] at hl
  rw [endsLine, line_eq, List.getLast?_append, m.getLast?_lead]
  cases hp : m.path.getLast? with
  | none => rfl
  | some c => simpa [hp] using hl

end

/-- What is put on a line of its own is read by itself. -/
theorem ofText_append_lineBreak (s t : Text) :
    ofText (s ++ ((if endsLine true s then "" else "\n") ++ t)) = ofText s ++ ofText t := by
  split
  · rename_i he
    rcases List.eq_nil_or_concat s with rfl | ⟨s, c, rfl⟩
    · rfl
    · obtain rfl : c = '\n' := by simpa [endsLine] using he
      have hs := ofText_append_newline s []
      rw [ofText_nil, List.append_nil] at hs
      rw [List.concat_eq_append, hs, String.toList_empty, List.nil_append, List.append_assoc]
      exact ofText_append_newline s t
  · exact ofText_append_newline s t

theorem ofText_append_onOwnLines (s block following t : Text) :
    ofText (s ++ (onOwnLines (endsLine true s) block following ++ t)) =
      ofText s ++ ofText (block ++ ((if needsBreak following then "\n" else "") ++ t)) := by
  rw [onOwnLines, List.append_assoc, List.append_assoc, ofText_append_lineBreak]

theorem ofText_block_append {p : Text} (h : Fits p) (body t : Text) :
    ofText (block p body ++ t) =
      opening p :: (ofText body ++ ofText (Marker.closing p ++ t)) := by
  have hl : ofText (Marker.opening p) = [opening p] := ofText_line (m := opening p) h
  rw [block, List.append_assoc, List.append_assoc, List.append_assoc, List.append_assoc]
  refine (ofText_append_newline (Marker.opening p) _).trans ?_
  rw [hl, List.singleton_append, ← ofText_append_lineBreak]
  rfl

end Mark

/-! ## Marker lines of a trace -/

namespace Expansion

open Source (Directive)

/-- The markers of a trace, from top to bottom. -/
def Trace.marks : Trace → List Mark
  | tail _ | deep _ => []
  | kept _ _ _ _ rest => rest.marks
  | skipped _ _ p rest => .skipped p :: rest.marks
  | spliced _ _ p body rest => .opening p :: (body.marks ++ .closing p :: rest.marks)

theorem Trace.filterMap_opening?_marks (tr : Trace) :
    tr.marks.filterMap Mark.opening? = tr.report.included := by
  induction tr with
  | tail t => rfl
  | deep t => rfl
  | kept b l p c rest ih => simpa [marks, report] using ih
  | skipped b l p rest ih => simpa [marks, report, List.filterMap_cons] using ih
  | spliced b l p body rest ihb ihr => simp [marks, report, List.filterMap_cons, ihb, ihr]

theorem Trace.filterMap_skipped?_marks (tr : Trace) :
    tr.marks.filterMap Mark.skipped? = tr.report.skipped := by
  induction tr with
  | tail t => rfl
  | deep t => rfl
  | kept b l p c rest ih => simpa [marks, report] using ih
  | skipped b l p rest ih => simp [marks, report, ih]
  | spliced b l p body rest ihb ihr => simp [marks, report, List.filterMap_cons, ihb, ihr]

theorem endsLine_append (ended : Bool) (s t : Text) :
    endsLine ended (s ++ t) = endsLine (endsLine ended s) t := by
  simp only [endsLine, List.getLast?_append]
  cases t.getLast? <;> rfl

theorem endsLine_eq_true_iff {t : Text} :
    endsLine true t = true ↔ t = [] ∨ t.getLast? = some '\n' := by
  rw [endsLine]
  cases t using List.reverseRecOn <;> simp

theorem endsLine_cons (c : Char) (t : Text) (ended : Bool) :
    endsLine ended (c :: t) = endsLine true (c :: t) := by
  simp [endsLine, List.getLast?_cons]

theorem endsLine_onOwnLines {block : Text} (h : ∀ ended, endsLine ended block = false)
    (ended ended' : Bool) (following : Text) :
    endsLine ended' (onOwnLines ended block following) = needsBreak following := by
  rw [onOwnLines, endsLine_append, endsLine_append, h]
  split
  · rename_i hb
    exact hb.symm
  · rename_i hb
    exact (Bool.not_eq_true _ ▸ hb : needsBreak following = false).symm

theorem endsLine_block {p : Text} (h : Mark.Fits p) (body : Text) (ended : Bool) :
    endsLine ended (block p body) = false := by
  rw [block, endsLine_append, endsLine_append, endsLine_append]
  exact Mark.endsLine_line (m := .closing p) h _

/-- Whether all occurrences start with a backslash. -/
def Commands {α : Type} (s : Segments α) : Prop := ∀ l ∈ s.lexemes, l.head? = some '\\'

theorem Commands.head? {α : Type} {b l : Text} {v : α} {rest : Segments α}
    (h : Commands (.found b l v rest)) : l.head? = some '\\' :=
  h l List.mem_cons_self

theorem Commands.rest {α : Type} {b l : Text} {v : α} {rest : Segments α}
    (h : Commands (.found b l v rest)) : Commands rest :=
  fun l hl => h l (List.mem_cons_of_mem _ hl)

theorem commands_directives (t : Text) : Commands (Source.directives t) := by
  intro l hl
  have hcut := Segments.mem_lexemes_of_mem_filter hl
  refine Segments.head?_of_mem_lexemes_cut (fun c t hr => ?_) hcut
  unfold Source.Directive.read? at hr
  split at hr
  · simp_all
  · simp at hr

/-! ## The markers of an expanded text -/

/-- If a text with a directive in it may follow a block, then because of what stands before the
directive, which ends the block's line. -/
theorem needsBreak_before {b l t : Text} (hl : l.head? = some '\\')
    (h : needsBreak (b ++ (l ++ t)) = false) :
    (∀ u, needsBreak (b ++ u) = false) ∧ ∀ ended, endsLine ended b = endsLine true b := by
  obtain ⟨l, rfl⟩ : ∃ l', l = '\\' :: l' := List.head?_eq_some_iff.1 hl
  obtain h | ⟨x, h⟩ | ⟨x, h⟩ := needsBreak_eq_false_iff.1 h
  · simp at h
  · match b, h with
    | [], h => simp at h
    | c :: b, h =>
      obtain rfl : c = '\n' := by simpa using (List.cons.inj h).1
      exact ⟨fun u => rfl, endsLine_cons '\n' b⟩
  · match b, h with
    | [], h => simp at h
    | [c], h => simp at h
    | c :: d :: b, h =>
      obtain ⟨rfl, rfl⟩ : c = '\r' ∧ d = '\n' := by
        simp only [List.cons_append, List.cons.injEq] at h
        exact ⟨h.1, h.2.1⟩
      exact ⟨fun u => rfl, endsLine_cons '\r' ('\n' :: b)⟩

variable {sources : Sources} {limits : Limits} {levels spent : Nat} {chain : List Text}
  {s : Segments Directive} {tr : Trace}

/-- Text that may follow a block still may when it is expanded, and is expanded as on a new line. -/
theorem Unfolds.text_of_needsBreak_eq_false (h : Unfolds sources limits levels chain s spent tr)
    (hc : Commands s) (hn : needsBreak tr.source = false) (ended : Bool) :
    tr.text ended = tr.text true ∧ needsBreak (tr.text true) = false := by
  cases h with
  | deep | tail => exact ⟨rfl, hn⟩
  | missing | skipped | exhausted | spliced =>
    obtain ⟨ht, he⟩ := needsBreak_before hc.head? hn
    exact ⟨by simp only [Trace.text, he ended], ht _⟩

/-- Behind a marker the expanded text is read as on a new line. -/
theorem Unfolds.ofText_line_append (h : Unfolds sources limits levels chain s spent tr)
    (hc : Commands s) {m : Mark} (hm : Mark.Fits m.path) :
    Mark.ofText (m.line ++ ((if needsBreak tr.source then "\n" else "") ++
      tr.text (needsBreak tr.source))) = m :: Mark.ofText (tr.text true) := by
  split
  · rename_i hn
    rw [hn]
    refine (Mark.ofText_append_newline m.line _).trans ?_
    rw [Mark.ofText_line hm]
    rfl
  · rename_i hn
    have hn : needsBreak tr.source = false := by simpa using hn
    obtain ⟨ht, hb⟩ := h.text_of_needsBreak_eq_false hc hn (needsBreak tr.source)
    rw [ht, String.toList_empty, List.nil_append, Mark.ofText_line_append hm hb]

/-- Sources that say nothing of markers themselves, with paths of one line. -/
def Plain (sources : Sources) : Prop :=
  ∀ path source, sources.lookup path = some source → ¬ Marker.tag <:+: source ∧ '\n' ∉ path

theorem plain_of_forall_mem (h : ∀ f ∈ sources, ¬ Marker.tag <:+: f.2 ∧ '\n' ∉ f.1) :
    Plain sources :=
  fun _ _ hs => h _ (mem_of_lookup hs)

/-- A path that a directive means fits behind a marker if it is of one line. -/
theorem fits_target {dir raw path : Text} (hp : path = Path.target dir raw) (h : '\n' ∉ path) :
    Mark.Fits path where
  newline := h
  carriageReturn e := absurd (Path.not_isBlank_of_getLast?_target (hp ▸ e)) (by decide)

theorem ofText_append_eq_nil {u b t : Text} (h : ¬ Marker.tag <:+: u ++ (b ++ t)) :
    Mark.ofText (u ++ b) = [] := by
  refine Mark.ofText_eq_nil fun hi => h (hi.trans ?_)
  rw [← List.append_assoc]
  exact (List.prefix_append ..).isInfix

theorem not_isInfix_of_append {tag u b l t : Text} (h : ¬ tag <:+: u ++ (b ++ (l ++ t))) :
    ¬ tag <:+: t := by
  refine fun hi => h (hi.trans ?_)
  rw [← List.append_assoc, ← List.append_assoc]
  exact (List.suffix_append ..).isInfix

/-- The marker lines of an expanded text are those of its trace, in the same order. `u` is the part
of the source that stands on the line before. -/
theorem Unfolds.marks_text (h : Unfolds sources limits levels chain s spent tr)
    (hplain : Plain sources) (hc : Commands s) (u : Text) (hu : ¬ Marker.tag <:+: u ++ tr.source) :
    Mark.ofText (u ++ tr.text (endsLine true u)) = tr.marks := by
  induction h generalizing u with
  | deep | tail => exact Mark.ofText_eq_nil hu
  | @missing _ _ _ b l _ _ _ _ _ _ _ _ ih | @exhausted _ _ _ b l _ _ _ _ _ _ _ _ _ _ _ ih =>
    -- What is kept belongs to the same piece of the source as what follows.
    have := ih hc.rest (u ++ (b ++ l)) (by simpa only [Trace.source, List.append_assoc] using hu)
    simpa only [Trace.text, Trace.marks, endsLine_append, List.append_assoc] using this
  | @skipped _ _ _ b _ _ _ _ path _ tr hp hs _ hr ih =>
    have hfits : Mark.Fits path := fits_target hp (hplain _ _ (lookup_of_sourceOf? hs)).2
    have hmark := hr.ofText_line_append hc.rest (m := .skipped path) hfits
    have hline : ∀ ended, endsLine ended (Marker.skipped path) = false :=
      Mark.endsLine_line (m := .skipped path) hfits
    have hrest : Mark.ofText (tr.text true) = tr.marks := ih hc.rest [] (not_isInfix_of_append hu)
    simp only [Trace.text]
    rw [endsLine_onOwnLines hline, ← endsLine_append, ← List.append_assoc,
      Mark.ofText_append_onOwnLines, ofText_append_eq_nil hu, List.nil_append,
      Trace.marks, ← hrest]
    exact hmark
  | @spliced _ _ _ b l _ _ _ path _ body tr hp hs _ _ hbody hr ihb ihr =>
    have hfits : Mark.Fits path := fits_target hp (hplain _ _ (lookup_of_sourceOf? hs)).2
    have hmark := hr.ofText_line_append hc.rest (m := .closing path) hfits
    have hb : Mark.ofText (body.text true) = body.marks := ihb (commands_directives _) [] (by
      rw [hbody.source_eq_of_directives]
      exact (hplain _ _ (lookup_of_sourceOf? hs)).1)
    have hrest : Mark.ofText (tr.text true) = tr.marks := ihr hc.rest [] (not_isInfix_of_append hu)
    simp only [Trace.text]
    rw [endsLine_onOwnLines (endsLine_block hfits _), ← endsLine_append, ← List.append_assoc,
      Mark.ofText_append_onOwnLines, ofText_append_eq_nil hu, List.nil_append,
      Mark.ofText_block_append hfits, hb, Trace.marks, ← hrest]
    exact congrArg (Mark.opening path :: body.marks ++ ·) hmark

end Expansion

end TexBundle
