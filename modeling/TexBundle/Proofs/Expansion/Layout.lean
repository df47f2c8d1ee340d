import TexBundle.Proofs.Expansion.Markers
import Mathlib.Data.List.Chain

/-!
# The layout of an expansion

An expanded text is put together from parts of the sources, markers and line breaks. Each marker has
a line of its own, and where neither the root nor a source has an empty line, there is none in
between either.

* `Part`, `Trace.parts`: the parts of an expanded text, so that a marker that was put in can be told
  from a line of a source that looks like one;
* `Part.Lined`, `Unfolds.lined_parts`: each marker starts where a line starts, and ends where a line
  ends;
* `Text.Dense`, `Unfolds.dense_text`: no two line feeds in a row;
* `dense_ofRoot`: both for an expansion.
-/

namespace TexBundle

/-! ## Texts without empty lines -/

namespace Text

variable {s t : Text}

/-- No two line feeds in a row. -/
def Dense (t : Text) : Prop := ¬ ['\n', '\n'] <:+: t

instance (t : Text) : Decidable (Dense t) := inferInstanceAs (Decidable (¬ _))

theorem dense_iff_isChain : Dense t ↔ t.IsChain fun c d => ¬ (c = '\n' ∧ d = '\n') := by
  rw [List.isChain_iff_forall_rel_of_append_cons_cons, Dense]
  constructor
  · rintro h c d l r rfl ⟨rfl, rfl⟩
    exact h ⟨l, r, by simp⟩
  · rintro h ⟨l, r, ht⟩
    have hsplit : t = l ++ '\n' :: '\n' :: r := by simp [← ht]
    exact h hsplit ⟨rfl, rfl⟩

/-- Where two texts meet, two line feeds may meet. -/
theorem dense_append_iff :
    Dense (s ++ t) ↔ Dense s ∧ Dense t ∧ (s.getLast? = some '\n' → t.head? ≠ some '\n') := by
  simp only [dense_iff_isChain, List.isChain_append, Option.mem_def]
  refine and_congr_right fun _ => and_congr_right fun _ => ?_
  constructor
  · exact fun h hs ht => h _ hs _ ht ⟨rfl, rfl⟩
  · rintro h c hc d hd ⟨rfl, rfl⟩
    exact h hc hd

theorem dense_of_not_mem (h : '\n' ∉ t) : Dense t := fun hi => h (hi.subset List.mem_cons_self)

end Text

namespace Expansion

open Source (Directive)
open Text (Dense dense_append_iff)

/-! ## Parts -/

/-- A part of an expanded text: copied from a source, or put in. -/
inductive Part where
  | copied (text : Text)
  | lineBreak
  | marker (mark : Mark)
deriving DecidableEq, Repr

namespace Part

def text : Part → Text
  | copied t => t
  | lineBreak => "\n"
  | marker m => m.line

def mark? : Part → Option Mark
  | marker m => some m
  | _ => none

/-- The text that parts make up. -/
def join (parts : List Part) : Text := parts.flatMap text

/-- The parts of what is put on lines of its own. -/
def onOwnLines (ended : Bool) (parts : List Part) (following : Text) : List Part :=
  (if ended then [] else [lineBreak]) ++ (parts ++ if needsBreak following then [lineBreak] else [])

/-- The parts of a file between its markers. -/
def block (path : Text) (body : List Part) : List Part :=
  marker (.opening path) :: lineBreak ::
    (body ++ ((if endsLine true (join body) then [] else [lineBreak]) ++ [marker (.closing path)]))

@[simp] theorem join_nil : join [] = [] := rfl

@[simp] theorem join_cons (part : Part) (parts : List Part) :
    join (part :: parts) = part.text ++ join parts :=
  List.flatMap_cons

@[simp] theorem join_append (parts more : List Part) :
    join (parts ++ more) = join parts ++ join more :=
  List.flatMap_append

theorem join_onOwnLines (ended : Bool) (parts : List Part) (following : Text) :
    join (onOwnLines ended parts following) =
      Expansion.onOwnLines ended (join parts) following := by
  rw [onOwnLines, Expansion.onOwnLines, join_append, join_append]
  split <;> split <;> simp [text]

theorem join_block (path : Text) (body : List Part) :
    join (block path body) = Expansion.block path (join body) := by
  simp only [block, Expansion.block, join_cons, join_append, join_nil, List.append_nil,
    List.append_assoc]
  split <;> rfl

theorem filterMap_mark?_onOwnLines (ended : Bool) (parts : List Part) (following : Text) :
    (onOwnLines ended parts following).filterMap mark? = parts.filterMap mark? := by
  rw [onOwnLines]
  split <;> split <;> simp [List.filterMap_cons, mark?]

theorem filterMap_mark?_block (path : Text) (body : List Part) :
    (block path body).filterMap mark? =
      .opening path :: (body.filterMap mark? ++ [.closing path]) := by
  rw [block]
  split <;> simp [List.filterMap_cons, mark?]

end Part

/-- The parts of the text after expansion. -/
def Trace.parts : Trace → (ended : Bool) → List Part
  | tail t, _ | deep t, _ => [.copied t]
  | kept b l _ _ rest, ended =>
    .copied b :: .copied l :: rest.parts (endsLine (endsLine ended b) l)
  | skipped b _ p rest, ended =>
    let marker := Part.onOwnLines (endsLine ended b) [.marker (.skipped p)] rest.source
    .copied b :: (marker ++ rest.parts (endsLine (endsLine ended b) (Part.join marker)))
  | spliced b _ p body rest, ended =>
    let file := Part.onOwnLines (endsLine ended b) (Part.block p (body.parts true)) rest.source
    .copied b :: (file ++ rest.parts (endsLine (endsLine ended b) (Part.join file)))

theorem Trace.join_parts (tr : Trace) (ended : Bool) :
    Part.join (tr.parts ended) = tr.text ended := by
  induction tr generalizing ended with
  | tail t | deep t => exact List.append_nil t
  | kept b l p c rest ih => simp only [parts, text, Part.join_cons, ih, Part.text]
  | skipped b l p rest ih =>
    simp only [parts, text, Part.join_cons, Part.join_append, Part.join_onOwnLines, ih, Part.text,
      Part.join_nil, List.append_nil, Mark.line]
  | spliced b l p body rest ihb ihr =>
    simp only [parts, text, Part.join_cons, Part.join_append, Part.join_onOwnLines,
      Part.join_block, ihb, ihr, Part.text]

/-- The markers among the parts are those of the trace. -/
theorem Trace.filterMap_mark?_parts (tr : Trace) (ended : Bool) :
    (tr.parts ended).filterMap Part.mark? = tr.marks := by
  induction tr generalizing ended with
  | tail t | deep t => rfl
  | kept b l p c rest ih => exact ih _
  | skipped b l p rest ih =>
    simp only [parts, marks, List.filterMap_cons, Part.mark?, List.filterMap_append,
      Part.filterMap_mark?_onOwnLines, ih, List.filterMap_nil, List.cons_append, List.nil_append]
  | spliced b l p body rest ihb ihr =>
    simp only [parts, marks, List.filterMap_cons, Part.mark?, List.filterMap_append,
      Part.filterMap_mark?_onOwnLines, Part.filterMap_mark?_block, ihb, ihr, List.cons_append,
      List.append_assoc, List.nil_append]

/-! ## Lines of their own -/

/-- Between two texts, something has a line of its own. The line may end in a carriage return. -/
structure OwnLine (before line behind : Text) : Prop where
  start : before = [] ∨ before.getLast? = some '\n'
  newline : '\n' ∉ line
  stop : behind = [] ∨ "\n" <+: behind ∨ "\r\n" <+: behind

namespace Part

/-- Each marker starts where a line does, and what follows it ends its line. `ended` says whether
the line before the parts is at its end, and `following` is the text behind them. -/
def Lined : (ended : Bool) → List Part → (following : Text) → Prop
  | _, [], _ => True
  | ended, marker m :: parts, following =>
    ended = true ∧ Mark.Fits m.path ∧ needsBreak (join parts ++ following) = false ∧
      Lined (endsLine ended m.line) parts following
  | ended, part :: parts, following => Lined (endsLine ended part.text) parts following

variable {ended : Bool} {parts more : List Part} {following : Text}

theorem lined_append : Lined ended (parts ++ more) following ↔
    Lined ended parts (join more ++ following) ∧
      Lined (endsLine ended (join parts)) more following := by
  induction parts generalizing ended with
  | nil => simp [Lined, endsLine]
  | cons part parts ih =>
    cases part with
    | copied t => simp [Lined, ih, endsLine_append]
    | lineBreak => simp [Lined, ih, endsLine_append]
    | marker m => simp [Lined, ih, endsLine_append, and_assoc, text]

/-- More text may follow parts that end a line, and whatever ends their last line otherwise. -/
theorem Lined.followed (h : Lined ended parts [])
    (hf : endsLine ended (join parts) = false → needsBreak following = false) :
    Lined ended parts following := by
  induction parts generalizing ended with
  | nil => trivial
  | cons part parts ih =>
    rw [join_cons, endsLine_append] at hf
    cases part with
    | copied t => exact ih h hf
    | lineBreak => exact ih h hf
    | marker m =>
      obtain ⟨hended, hfits, hbreak, hparts⟩ := h
      rw [List.append_nil] at hbreak
      refine ⟨hended, hfits, ?_, ih hparts hf⟩
      by_cases hnil : join parts = []
      · rw [hnil] at hf ⊢
        exact hf (Mark.endsLine_line hfits ended)
      · exact needsBreak_append hbreak hnil following

theorem lined_onOwnLines {t : Text}
    (h : Lined true parts ((if needsBreak following then "\n" else "") ++ t)) :
    Lined ended (onOwnLines ended parts following) t := by
  have hstart : endsLine ended (join (if ended then [] else [lineBreak])) = true := by
    cases ended <;> rfl
  have hstop : join (if needsBreak following then [lineBreak] else []) =
      if needsBreak following then "\n" else "" := by
    split <;> rfl
  rw [onOwnLines, lined_append, lined_append, hstart, hstop]
  refine ⟨?_, h, ?_⟩ <;> split <;> trivial

theorem lined_block {path t : Text} {body : List Part} (hpath : Mark.Fits path)
    (h : Lined true body []) (ht : needsBreak t = false) : Lined true (block path body) t := by
  -- The opening marker is followed by a line break, on which the parts of the file start.
  refine ⟨rfl, hpath, rfl, lined_append.2 ⟨h.followed fun hbody => ?_, lined_append.2 ⟨?_, ?_⟩⟩⟩
  · rw [hbody]
    rfl
  · split <;> trivial
  · refine ⟨?_, hpath, ht, trivial⟩
    cases hbody : endsLine true (join body)
    · rfl
    · exact hbody

/-- Where each marker stands. -/
theorem Lined.ownLine (h : Lined true parts []) {front back : List Part} {m : Mark}
    (hparts : parts = front ++ marker m :: back) : OwnLine (join front) m.line (join back) := by
  subst hparts
  obtain ⟨-, hended, hfits, hbreak, -⟩ := lined_append.1 h
  rw [List.append_nil, needsBreak_eq_false_iff] at hbreak
  refine ⟨endsLine_eq_true_iff.1 hended, Mark.newline_not_mem_line hfits, ?_⟩
  obtain hnil | ⟨x, hx⟩ | ⟨x, hx⟩ := hbreak
  · exact .inl hnil
  · exact .inr (.inl ⟨x, hx.symm⟩)
  · exact .inr (.inr ⟨x, hx.symm⟩)

end Part

variable {sources : Sources} {limits : Limits} {levels spent : Nat} {chain : List Text}
  {s : Segments Directive} {tr : Trace}

/-- Behind a block, the line of its last marker is ended. -/
theorem Unfolds.needsBreak_following (h : Unfolds sources limits levels chain s spent tr)
    (hc : Commands s) (ended : Bool) :
    needsBreak ((if needsBreak tr.source then "\n" else "") ++ tr.text ended) = false := by
  split
  · rfl
  · rename_i hn
    obtain ⟨htext, hbreak⟩ := h.text_of_needsBreak_eq_false hc (by simpa using hn) ended
    rw [String.toList_empty, List.nil_append, htext, hbreak]

/-- Each marker of a trace has a line of its own. -/
theorem Unfolds.lined_parts (h : Unfolds sources limits levels chain s spent tr)
    (hpaths : ∀ f ∈ sources, '\n' ∉ f.1) (hc : Commands s) (ended : Bool) :
    Part.Lined ended (tr.parts ended) [] := by
  induction h generalizing ended with
  | deep | tail => trivial
  | missing _ _ _ ih | exhausted _ _ _ _ _ ih => exact ih hc.rest _
  | @skipped _ _ _ b _ _ _ _ path _ tr hp hs _ hr ih =>
    have hfits : Mark.Fits path := fits_target hp (hpaths _ (mem_of_sourceOf? hs))
    simp only [Trace.parts]
    refine Part.lined_append.2 ⟨Part.lined_onOwnLines ?_, ih hc.rest _⟩
    rw [List.append_nil, Trace.join_parts]
    exact ⟨rfl, hfits, hr.needsBreak_following hc.rest _, trivial⟩
  | @spliced _ _ _ b _ _ _ _ path _ body tr hp hs _ _ _ hr ihb ihr =>
    have hfits : Mark.Fits path := fits_target hp (hpaths _ (mem_of_sourceOf? hs))
    simp only [Trace.parts]
    refine Part.lined_append.2 ⟨Part.lined_onOwnLines ?_, ihr hc.rest _⟩
    rw [List.append_nil, Trace.join_parts]
    exact Part.lined_block hfits (ihb (commands_directives _) true)
      (hr.needsBreak_following hc.rest _)

/-! ## No empty lines -/

section

variable {t following : Text} {ended : Bool}

theorem dense_append_lineBreak {u : Text} (hu : Dense u) (ht : Dense t)
    (hhead : t.head? = some '%') :
    Dense (u ++ ((if endsLine ended u then "" else "\n") ++ t)) := by
  split
  · exact dense_append_iff.2 ⟨hu, ht, fun _ => by simp [hhead]⟩
  · rename_i hends
    have hbreak : Dense ("\n" ++ t) := dense_append_iff.2 ⟨by decide, ht, fun _ => by simp [hhead]⟩
    refine dense_append_iff.2 ⟨hu, hbreak, fun hlast => absurd ?_ hends⟩
    rw [endsLine, hlast]
    rfl

theorem dense_append_onOwnLines {u block : Text} (hu : Dense u) (hhead : block.head? = some '%')
    (hblock : Dense (block ++ ((if needsBreak following then "\n" else "") ++ t))) :
    Dense (u ++ (onOwnLines (endsLine ended u) block following ++ t)) := by
  rw [onOwnLines, List.append_assoc, List.append_assoc]
  refine dense_append_lineBreak hu hblock ?_
  rw [List.head?_append, hhead]
  rfl

theorem dense_line_append {m : Mark} (hm : Mark.Fits m.path) (ht : Dense t) : Dense (m.line ++ t) :=
  dense_append_iff.2 ⟨Text.dense_of_not_mem (Mark.newline_not_mem_line hm), ht,
    fun hlast => absurd hlast (Mark.getLast?_line hm).1⟩

theorem dense_block_append {path body : Text} (hpath : Mark.Fits path) (hbody : Dense body)
    (hhead : body.head? ≠ some '\n') (ht : Dense (Marker.closing path ++ t)) :
    Dense (block path body ++ t) := by
  let behind : Text := (if endsLine true body then "" else "\n") ++ (Marker.closing path ++ t)
  have hbehind : Dense (body ++ behind) := dense_append_lineBreak hbody ht rfl
  have hstart : (body ++ behind).head? ≠ some '\n' := by
    cases body with
    | nil => intro e; cases e
    | cons c body => exact hhead
  have hbreak : Dense ("\n" ++ (body ++ behind)) :=
    dense_append_iff.2 ⟨by decide, hbehind, fun _ => hstart⟩
  have hblock : Dense (Marker.opening path ++ ("\n" ++ (body ++ behind))) :=
    dense_line_append (m := .opening path) hpath hbreak
  simpa only [block, behind, List.append_assoc] using hblock

end

namespace Unfolds

/-- An expanded text starts with a line feed only if its source does. -/
theorem head?_text (h : Unfolds sources limits levels chain s spent tr) (hc : Commands s)
    (hhead : (tr.text true).head? = some '\n') : tr.source.head? = some '\n' := by
  cases h with
  | deep | tail => exact hhead
  | @missing _ _ _ b l | @exhausted _ _ _ b l =>
    cases b with
    | nil => simp [Trace.text, List.head?_append, hc.head?] at hhead
    | cons c b => exact hhead
  | @skipped _ _ _ b | @spliced _ _ _ b =>
    cases b with
    | nil => cases hhead
    | cons c b => exact hhead

/-- The end of a marker's line brings no empty line with it. -/
theorem dense_following (h : Unfolds sources limits levels chain s spent tr) (hc : Commands s)
    (hd : ∀ ended, Dense (tr.text ended)) :
    Dense ((if needsBreak tr.source then "\n" else "") ++ tr.text (needsBreak tr.source)) := by
  split
  · rename_i hn
    rw [hn]
    refine dense_append_iff.2 ⟨by decide, hd true, fun _ hhead => ?_⟩
    obtain ⟨t, ht⟩ := List.head?_eq_some_iff.1 (h.head?_text hc hhead)
    rw [ht] at hn
    cases hn
  · exact hd _

/-- A text without empty lines has none after expansion, if the sources have none, also not at their
start. -/
theorem dense_text (h : Unfolds sources limits levels chain s spent tr)
    (hsources : ∀ f ∈ sources, Dense f.2 ∧ f.2.head? ≠ some '\n' ∧ '\n' ∉ f.1) (hc : Commands s)
    (hd : Dense tr.source) (ended : Bool) : Dense (tr.text ended) := by
  induction h generalizing ended with
  | deep | tail => exact hd
  | @missing _ _ _ b l _ _ _ _ _ _ _ hr ih | @exhausted _ _ _ b l _ _ _ _ _ _ _ _ _ _ hr ih =>
    rw [Trace.source, ← List.append_assoc, dense_append_iff] at hd
    rw [Trace.text, ← endsLine_append, ← List.append_assoc, dense_append_iff]
    refine ⟨hd.1, ih hc.rest hd.2.1 _, fun hlast hhead => hd.2.2 hlast ?_⟩
    -- The text behind the directive is expanded as on a new line.
    have hends : endsLine ended (b ++ l) = true := by rw [endsLine, hlast]; rfl
    rw [hends] at hhead
    exact hr.head?_text hc.rest hhead
  | @skipped _ _ _ b l _ _ _ path _ tr hp hs _ hr ih =>
    have hfits : Mark.Fits path := fits_target hp (hsources _ (mem_of_sourceOf? hs)).2.2
    have hline : ∀ ended, endsLine ended (Marker.skipped path) = false :=
      Mark.endsLine_line (m := .skipped path) hfits
    rw [Trace.source, dense_append_iff, dense_append_iff] at hd
    have hmark := dense_line_append (m := .skipped path) hfits
      (hr.dense_following hc.rest (ih hc.rest hd.2.1.2.1))
    simp only [Trace.text]
    rw [endsLine_onOwnLines hline]
    exact dense_append_onOwnLines hd.1 rfl hmark
  | @spliced _ _ _ b l _ _ _ path _ body tr hp hs _ _ hbody hr ihb ihr =>
    obtain ⟨hsource, hstart, hpath⟩ := hsources _ (mem_of_sourceOf? hs)
    have hfits : Mark.Fits path := fits_target hp hpath
    rw [Trace.source, dense_append_iff, dense_append_iff] at hd
    have hmark := dense_line_append (m := .closing path) hfits
      (hr.dense_following hc.rest (ihr hc.rest hd.2.1.2.1))
    rw [← hbody.source_eq_of_directives] at hsource hstart
    have hfile := dense_block_append hfits (ihb (commands_directives _) hsource true)
      (fun e => hstart (hbody.head?_text (commands_directives _) e)) hmark
    simp only [Trace.text]
    rw [endsLine_onOwnLines (endsLine_block hfits _)]
    exact dense_append_onOwnLines hd.1 rfl hfile

end Unfolds

/-- The layout of an expansion. It consists of parts, among which are the markers of its trace. If
the root and the sources have no empty line, and the sources do not start with one, it has none
either, and each marker has a line of its own. -/
theorem dense_ofRoot {sources : Sources} {text : Text} (limits : Limits) (path : Text)
    (htext : Dense text)
    (hsources : ∀ f ∈ sources, Dense f.2 ∧ f.2.head? ≠ some '\n' ∧ '\n' ∉ f.1) :
    let e := ofRoot sources limits path text
    ∃ tr, Unfolds sources limits (limits.maxDepth + 1) [path] (Source.directives text) 0 tr ∧
      e = ⟨Part.join (tr.parts true), tr.report⟩ ∧
      (tr.parts true).filterMap Part.mark? = tr.marks ∧
      Dense e.text ∧
      ∀ front m back, tr.parts true = front ++ .marker m :: back →
        OwnLine (Part.join front) m.line (Part.join back) := by
  obtain ⟨tr, h, he⟩ := ofRoot_unfolds sources limits path text
  have hcommands := commands_directives text
  have hlined : Part.Lined true (tr.parts true) [] :=
    h.lined_parts (fun f hf => (hsources f hf).2.2) hcommands true
  rw [← h.source_eq_of_directives] at htext
  simp only [he]
  exact ⟨tr, h, by rw [tr.join_parts], tr.filterMap_mark?_parts true,
    h.dense_text hsources hcommands htext true, fun _ _ _ hparts => hlined.ownLine hparts⟩

/-- A directive between words, one that ends its line, and two that share a line, one of which leads
back. -/
theorem dense_ofRoot_of_two :
    let sources : Sources := [("a.tex", "A\n"), ("b.tex", "\\input{a}\\input{b}\nB\\input{gone}")]
    let text : Text := "See \\input{a}, then\n\\input{b}\r\nand so on."
    let e := ofRoot sources {} "main.tex" text
    Dense text ∧ (∀ f ∈ sources, Dense f.2 ∧ f.2.head? ≠ some '\n' ∧ '\n' ∉ f.1) ∧
      e.report.included = ["a.tex", "b.tex", "a.tex"] ∧ e.report.skipped = ["b.tex"] ∧
      Dense e.text ∧
      ∃ tr, Unfolds sources {} 26 ["main.tex"] (Source.directives text) 0 tr ∧
        e = ⟨Part.join (tr.parts true), tr.report⟩ ∧
        (tr.parts true).filterMap Part.mark? = tr.marks ∧
        ∀ front m back, tr.parts true = front ++ .marker m :: back →
          OwnLine (Part.join front) m.line (Part.join back) := by
  intro sources text e
  have htext : Dense text := by decide +kernel
  have hsources : ∀ f ∈ sources, Dense f.2 ∧ f.2.head? ≠ some '\n' ∧ '\n' ∉ f.1 := by
    decide +kernel
  have hincluded : e.report.included = ["a.tex", "b.tex", "a.tex"] := by decide +kernel
  have hskipped : e.report.skipped = ["b.tex"] := by decide +kernel
  obtain ⟨tr, h, he, hmarks, hdense, hlines⟩ := dense_ofRoot {} "main.tex" htext hsources
  exact ⟨htext, hsources, hincluded, hskipped, hdense, tr, h, he, hmarks, hlines⟩

end Expansion

end TexBundle
