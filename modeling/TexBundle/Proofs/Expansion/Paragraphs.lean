import TexBundle.Proofs.Expansion.Markers
import TexBundle.Proofs.Text.Paragraphs

/-!
# Paragraph breaks of an expansion

A block starts and ends on lines of its own. It brings no empty line with it, but blanks that stand
between a line's start and a directive, or between the directive and the line's end, are left alone
on a line when the directive gives way.

* `Trace.spots`: what stands around the directives that give way;
* `Unfolds.unbroken_text_iff`: of texts without paragraph breaks, the expansion has none exactly if
  there are no such blanks;
* `unbroken_ofRoot_iff`, `not_unbroken_ofRoot_indented`: the same for a root, and a directive that
  is indented.
-/

namespace TexBundle.Expansion

open Source (Directive)
open Text (Unbroken GoodStart GoodEnd Behind firstLine lastLine)

/-- Text can stand behind a block: what is moved to a line of its own is not blank. -/
def Follows (t : Text) : Prop := needsBreak t = true → (firstLine t).allBlank = false

instance (t : Text) : Decidable (Follows t) := inferInstanceAs (Decidable (_ → _))

/-- What stands around a directive that gives way to a block: before it, from the last such
directive of its file on, and behind it, up to the next one. -/
structure Spot where
  before : Text
  behind : Text
deriving DecidableEq, Repr

/-- No blanks are left alone on a line when the directive gives way. -/
def Spot.Snug (spot : Spot) : Prop := GoodEnd spot.before ∧ Follows spot.behind

instance (spot : Spot) : Decidable spot.Snug := inferInstanceAs (Decidable (_ ∧ _))

namespace Trace

/-- The text up to the first directive that gives way. -/
def lead : Trace → Text
  | tail t | deep t => t
  | kept b l _ _ rest => b ++ (l ++ rest.lead)
  | skipped b _ _ _ | spliced b _ _ _ _ => b

/-- The spots of the directives that give way, also in the files spliced in. The text `before` the
trace belongs to the first one. -/
def spots : (before : Text) → Trace → List Spot
  | _, tail _ | _, deep _ => []
  | u, kept b l _ _ rest => rest.spots (u ++ (b ++ l))
  | u, skipped b _ _ rest => ⟨u ++ b, rest.lead⟩ :: rest.spots []
  | u, spliced b _ _ body rest => ⟨u ++ b, rest.lead⟩ :: (body.spots [] ++ rest.spots [])

def Snug (before : Text) (tr : Trace) : Prop := ∀ spot ∈ tr.spots before, spot.Snug

variable {tr body rest : Trace} {u v b l p : Text} {c : Cause}

theorem snug_kept : (kept b l p c rest).Snug u ↔ rest.Snug (u ++ (b ++ l)) := Iff.rfl

theorem snug_skipped :
    (skipped b l p rest).Snug u ↔ GoodEnd (u ++ b) ∧ Follows rest.lead ∧ rest.Snug [] := by
  rw [Snug, spots, List.forall_mem_cons, Spot.Snug, and_assoc]
  rfl

theorem snug_spliced :
    (spliced b l p body rest).Snug u ↔
      GoodEnd (u ++ b) ∧ body.Snug [] ∧ Follows rest.lead ∧ rest.Snug [] := by
  rw [Snug, spots, List.forall_mem_cons, List.forall_mem_append, Spot.Snug, and_assoc,
    and_left_comm (a := Follows rest.lead)]
  rfl

/-- What stands before a line break does not count. -/
theorem snug_append (u : Text) (hv : '\n' ∈ v ++ tr.lead) : tr.Snug (u ++ v) ↔ tr.Snug v := by
  induction tr generalizing v with
  | tail t | deep t => exact Iff.rfl
  | kept b l p c rest ih =>
    rw [snug_kept, snug_kept, List.append_assoc]
    exact ih (by simpa only [lead, List.append_assoc] using hv)
  | skipped b l p rest ih =>
    have hend := Text.lastLine_append u (t := v ++ b) hv
    rw [snug_skipped, snug_skipped, GoodEnd, GoodEnd, List.append_assoc, hend]
  | spliced b l p body rest ihb ihr =>
    have hend := Text.lastLine_append u (t := v ++ b) hv
    rw [snug_spliced, snug_spliced, GoodEnd, GoodEnd, List.append_assoc, hend]

theorem lead_isPrefix (tr : Trace) : tr.lead <+: tr.source := by
  induction tr with
  | tail t | deep t => exact List.prefix_refl t
  | kept b l p c rest ih => simpa only [lead, source, List.prefix_append_right_inj] using ih
  | skipped b l p rest | spliced b l p body rest => exact List.prefix_append ..

/-- If nothing is left alone, a text without paragraph breaks still starts without one. -/
theorem Snug.goodStart (h : tr.Snug u) (hu : Unbroken (u ++ tr.source)) :
    GoodStart (u ++ tr.lead) := by
  induction tr generalizing u with
  | tail t | deep t => exact hu.behind.unbroken_iff.1 hu
  | kept b l p c rest ih =>
    have hstart := ih (u := u ++ (b ++ l)) h (by simpa only [source, List.append_assoc] using hu)
    simpa only [lead, List.append_assoc] using hstart
  | skipped b l p rest =>
    exact (snug_skipped.1 h).1.goodStart (by rwa [source, ← List.append_assoc] at hu)
  | spliced b l p body rest =>
    exact (snug_spliced.1 h).1.goodStart (by rwa [source, ← List.append_assoc] at hu)

end Trace

/-! ## Blocks -/

theorem lastLine_eq_nil_iff {t : Text} : lastLine t = [] ↔ endsLine true t = true := by
  rw [Text.lastLine_eq_nil_iff, endsLine_eq_true_iff]

theorem unbroken_append_lineBreak (s t : Text) :
    Unbroken (s ++ ((if endsLine true s then "" else "\n") ++ t)) ↔ Unbroken s ∧ Unbroken t := by
  split
  · rename_i hends
    obtain rfl | hlast := Text.lastLine_eq_nil_iff.1 (lastLine_eq_nil_iff.2 hends)
    · exact (and_iff_right Text.unbroken_nil).symm
    · obtain ⟨s, rfl⟩ := List.getLast?_eq_some_iff.1 hlast
      have hs := Text.unbroken_append_newline s []
      rw [and_iff_left Text.unbroken_nil] at hs
      rw [hs, List.append_assoc]
      exact Text.unbroken_append_newline s t
  · rename_i hends
    rw [← and_iff_left (a := Unbroken s) fun e => hends (lastLine_eq_nil_iff.1 e)]
    exact Text.unbroken_append_newline s t

theorem unbroken_append_onOwnLines (s block following t : Text) :
    Unbroken (s ++ (onOwnLines (endsLine true s) block following ++ t)) ↔
      Unbroken s ∧ Unbroken (block ++ ((if needsBreak following then "\n" else "") ++ t)) := by
  rw [onOwnLines, List.append_assoc, List.append_assoc, unbroken_append_lineBreak]

theorem not_allBlank_line (m : Mark) (t : Text) : (m.line ++ t).allBlank = false := by
  cases m <;> rfl

theorem unbroken_line_append {m : Mark} (h : '\n' ∉ m.line) (t : Text) :
    Unbroken (m.line ++ '\n' :: t) ↔ Unbroken t := by
  have hblank := not_allBlank_line m []
  rw [List.append_nil] at hblank
  rw [Text.unbroken_line_append h, and_iff_right hblank]

theorem unbroken_block_append {p : Text} (h : Mark.Fits p) (body t : Text) :
    Unbroken (block p body ++ t) ↔ Unbroken body ∧ Unbroken (Marker.closing p ++ t) := by
  rw [block, List.append_assoc, List.append_assoc, List.append_assoc, List.append_assoc,
    ← unbroken_append_lineBreak]
  exact unbroken_line_append (m := .opening p) (Mark.newline_not_mem_line h) _

/-! ## Text behind a block -/

theorem newline_mem_of_needsBreak {t : Text} (h : needsBreak t = false) (hne : t ≠ []) :
    '\n' ∈ t := by
  obtain rfl | ⟨x, rfl⟩ | ⟨x, rfl⟩ := needsBreak_eq_false_iff.1 h
  · exact absurd rfl hne
  · exact List.mem_cons_self
  · exact List.mem_cons_of_mem _ List.mem_cons_self

variable {sources : Sources} {limits : Limits} {levels spent : Nat} {chain : List Text}
  {s : Segments Directive} {tr : Trace}

/-- If the text behind a block is to be moved to a line of its own, it has to start well. -/
theorem follows_lead_iff (h : needsBreak tr.source = true) :
    Follows tr.lead ↔ GoodStart tr.lead := by
  obtain ⟨more, hmore⟩ := tr.lead_isPrefix
  rw [Follows, GoodStart]
  cases hlead : needsBreak tr.lead with
  | true => simp [show tr.lead ≠ [] by rintro e; rw [e] at hlead; cases hlead]
  | false =>
    have hnil : tr.lead = [] := by
      by_contra hne
      rw [← hmore, needsBreak_append hlead hne] at h
      cases h
    simp [hnil]

namespace Unfolds

/-- Otherwise the line of the block is ended, so that it does not matter what the line is. -/
theorem snug_iff (h : Unfolds sources limits levels chain s spent tr) (hc : Commands s)
    (hn : needsBreak tr.source = false) (u : Text) :
    needsBreak tr.lead = false ∧ (tr.Snug u ↔ tr.Snug []) := by
  have hu (hlead : '\n' ∈ tr.lead) : tr.Snug u ↔ tr.Snug [] := by
    have hsnug := Trace.snug_append (v := []) u hlead
    rwa [List.append_nil] at hsnug
  have hbefore {b : Text} (hb : ∀ t, needsBreak (b ++ t) = false) : '\n' ∈ b := by
    simpa using newline_mem_of_needsBreak (hb ['x']) (by simp)
  cases h with
  | deep | tail => exact ⟨hn, Iff.rfl⟩
  | missing | exhausted =>
    have hb := (needsBreak_before hc.head? hn).1
    exact ⟨hb _, hu (List.mem_append_left _ (hbefore hb))⟩
  | skipped | spliced =>
    have hb := (needsBreak_before hc.head? hn).1
    exact ⟨by simpa [Trace.lead] using hb [], hu (hbefore hb)⟩

/-- Behind a marker the expanded text has no paragraph break if it follows well and has none of its
own. -/
theorem unbroken_line_append_iff (h : Unfolds sources limits levels chain s spent tr)
    (hc : Commands s) {m : Mark} (hm : Mark.Fits m.path) (hbehind : Behind tr.source)
    (ih : ∀ u, Behind (u ++ tr.source) →
      (Unbroken (u ++ tr.text (endsLine true u)) ↔ GoodStart (u ++ tr.lead) ∧ tr.Snug u)) :
    Unbroken (m.line ++ ((if needsBreak tr.source then "\n" else "") ++
      tr.text (needsBreak tr.source))) ↔ Follows tr.lead ∧ tr.Snug [] := by
  have hline := Mark.newline_not_mem_line hm
  split
  · rename_i hn
    rw [hn, follows_lead_iff hn]
    exact (unbroken_line_append hline _).trans (ih [] hbehind)
  · rename_i hn
    have hn : needsBreak tr.source = false := by simpa using hn
    obtain ⟨hlead, hsnug⟩ := h.snug_iff hc hn m.line
    have hstart : GoodStart (m.line ++ tr.lead) := by
      rw [GoodStart, Text.firstLine_append hline]
      exact .inr (not_allBlank_line m _)
    have hfollows : Follows tr.lead := fun e => by rw [hlead] at e; cases e
    have hunbroken := ih m.line (hbehind.append hline)
    rw [Mark.endsLine_line hm, and_iff_right hstart, hsnug] at hunbroken
    rwa [hn, String.toList_empty, List.nil_append, and_iff_right hfollows]

end Unfolds

/-- Sources without paragraph breaks, with paths of one line. -/
def Flowing (sources : Sources) : Prop :=
  ∀ path source, sources.lookup path = some source → Unbroken source ∧ '\n' ∉ path

/-- Pieces of the sources that have no paragraph breaks inside have none after expansion exactly if
they start well and all spots are snug. `u` is the part of the source that stands on the line
before. -/
theorem Unfolds.unbroken_text_iff (h : Unfolds sources limits levels chain s spent tr)
    (hflow : Flowing sources) (hc : Commands s) (u : Text) (hu : Behind (u ++ tr.source)) :
    Unbroken (u ++ tr.text (endsLine true u)) ↔ GoodStart (u ++ tr.lead) ∧ tr.Snug u := by
  induction h generalizing u with
  | deep | tail =>
    exact hu.unbroken_iff.trans (and_iff_left fun spot hspot => absurd hspot List.not_mem_nil).symm
  | @missing _ _ _ b l _ _ _ _ _ _ _ _ ih | @exhausted _ _ _ b l _ _ _ _ _ _ _ _ _ _ _ ih =>
    -- What is kept belongs to the same piece of the source as what follows.
    have := ih hc.rest (u ++ (b ++ l)) (by simpa only [Trace.source, List.append_assoc] using hu)
    simpa only [Trace.text, Trace.lead, Trace.snug_kept, endsLine_append, List.append_assoc]
      using this
  | @skipped _ _ _ b l _ _ _ path _ tr hp hs _ hr ih =>
    have hfits : Mark.Fits path := fits_target hp (hflow _ _ (lookup_of_sourceOf? hs)).2
    have hline : ∀ ended, endsLine ended (Marker.skipped path) = false :=
      Mark.endsLine_line (m := .skipped path) hfits
    rw [Trace.source, ← List.append_assoc] at hu
    have hrest : Behind tr.source := hu.of_suffix (List.suffix_append_of_suffix
      (List.suffix_append ..))
    have hmark := hr.unbroken_line_append_iff hc.rest (m := .skipped path) hfits hrest (ih hc.rest)
    simp only [Trace.text, Trace.lead]
    rw [endsLine_onOwnLines hline, ← endsLine_append, ← List.append_assoc,
      unbroken_append_onOwnLines, hu.unbroken_append_iff, Trace.snug_skipped, and_assoc, ← hmark]
    rfl
  | @spliced _ _ _ b l _ _ _ path _ body tr hp hs _ _ hbody hr ihb ihr =>
    have hsource := hflow _ _ (lookup_of_sourceOf? hs)
    have hfits : Mark.Fits path := fits_target hp hsource.2
    rw [Trace.source, ← List.append_assoc] at hu
    have hrest : Behind tr.source := hu.of_suffix (List.suffix_append_of_suffix
      (List.suffix_append ..))
    have hmark := hr.unbroken_line_append_iff hc.rest (m := .closing path) hfits hrest (ihr hc.rest)
    have hb : Unbroken (body.text true) ↔ body.Snug [] := by
      have hunbroken : Unbroken body.source := by
        rw [hbody.source_eq_of_directives]
        exact hsource.1
      exact (ihb (commands_directives _) [] hunbroken.behind).trans
        (and_iff_right_of_imp fun h => h.goodStart hunbroken)
    simp only [Trace.text, Trace.lead]
    rw [endsLine_onOwnLines (endsLine_block hfits _), ← endsLine_append, ← List.append_assoc,
      unbroken_append_onOwnLines, unbroken_block_append hfits, hu.unbroken_append_iff, hb,
      Trace.snug_spliced, and_assoc, ← hmark]
    rfl

/-- Of texts without paragraph breaks, the expansion has none exactly if no directive that gives way
to a block leaves blanks alone on a line, in the root or in a file that is spliced in. -/
theorem unbroken_ofRoot_iff {limits : Limits} {path text : Text} (htext : Unbroken text)
    (hsources : ∀ f ∈ sources, Unbroken f.2 ∧ '\n' ∉ f.1) :
    ∃ tr, Unfolds sources limits (limits.maxDepth + 1) [path] (Source.directives text) 0 tr ∧
      (Unbroken (ofRoot sources limits path text).text ↔ ∀ spot ∈ tr.spots [], spot.Snug) := by
  obtain ⟨tr, h, he⟩ := ofRoot_unfolds sources limits path text
  have hflow : Flowing sources := fun path source hs => by
    obtain ⟨l, r, rfl, -⟩ := List.lookup_eq_some_iff.1 hs
    exact hsources (path, source) (by simp)
  rw [← h.source_eq_of_directives] at htext
  refine ⟨tr, h, ?_⟩
  rw [he]
  exact (h.unbroken_text_iff hflow (commands_directives text) [] htext.behind).trans
    (and_iff_right_of_imp fun hsnug => hsnug.goodStart htext)

/-- A directive between words, one that ends its line, and one in a file. -/
theorem unbroken_ofRoot_iff_of_three :
    let sources : Sources := [("a.tex", "A\n"), ("b.tex", "\\input{a}\r\nB")]
    let text : Text := "See \\input{a}, then\n\\input{b}\r\nand so on."
    Unbroken text ∧ (∀ f ∈ sources, Unbroken f.2 ∧ '\n' ∉ f.1) ∧
      Unbroken (ofRoot sources {} "main.tex" text).text ∧
      ∃ tr, Unfolds sources {} 26 ["main.tex"] (Source.directives text) 0 tr ∧
        ∀ spot ∈ tr.spots [], spot.Snug := by
  intro sources text
  have htext : Unbroken text := by decide +kernel
  have hsources : ∀ f ∈ sources, Unbroken f.2 ∧ '\n' ∉ f.1 := by decide +kernel
  have hunbroken : Unbroken (ofRoot sources {} "main.tex" text).text := by decide +kernel
  obtain ⟨tr, h, hiff⟩ : ∃ tr, Unfolds sources {} 26 ["main.tex"] (Source.directives text) 0 tr ∧
      (Unbroken (ofRoot sources {} "main.tex" text).text ↔ ∀ spot ∈ tr.spots [], spot.Snug) :=
    unbroken_ofRoot_iff htext hsources
  exact ⟨htext, hsources, hunbroken, tr, h, hiff.1 hunbroken⟩

/-- An indented directive leaves its indentation alone on a line. -/
theorem not_unbroken_ofRoot_indented :
    let sources : Sources := [("a.tex", "A")]
    let text : Text := "  \\input{a}"
    (∀ f ∈ sources, Unbroken f.2 ∧ '\n' ∉ f.1) ∧ Unbroken text ∧
      ¬ Unbroken (ofRoot sources {} "main.tex" text).text := by
  decide +kernel

end TexBundle.Expansion
