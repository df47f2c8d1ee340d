import TexBundle.Proofs.Expansion.Trace

/-!
# The size of an expansion

Every splice is charged before it is made, but a skip marker is not. `size_text` is the exact
balance of a trace: what is written is what was there and what was charged, and besides the skip
markers (`Trace.uncharged`), less the directives that gave way and the line breaks that were charged
and not needed (`Trace.spared`).

* `Unfolds.spent_add_spliced_le`: what is charged never exceeds the budget;
* `size_ofRoot_le_iff`: the result exceeds the root and what was charged exactly if the skip markers
  take more than was spared, and never if nothing was skipped.
-/

namespace TexBundle.Expansion

open Source (Directive)

theorem size_lineBreak : Text.size "\n" = 1 := by decide

theorem size_onOwnLines (ended : Bool) (block following : Text) :
    (onOwnLines ended block following).size =
      (if ended then 0 else 1) + block.size + if needsBreak following then 1 else 0 := by
  simp only [onOwnLines, Text.size_append]
  split <;> split <;> simp only [size_lineBreak, String.toList_empty, Text.size_nil] <;> omega

/-- The line breaks that a splice is charged for and does not need. Of the four, only the one behind
the opening marker is always written. -/
def unusedBreaks (ended : Bool) (body following : Text) : Nat :=
  (if ended then 1 else 0) + (if endsLine true body then 1 else 0) +
    if needsBreak following then 0 else 1

/-- A file between its markers takes what it was charged for, if only its text has kept its size. -/
theorem size_spliced (ended : Bool) (path source body following : Text) :
    (onOwnLines ended (block path body) following).size + unusedBreaks ended body following +
      source.size = body.size + charge path source := by
  have hb : (block path body).size + (if endsLine true body then 1 else 0) =
      body.size + (Marker.opening path).size + (Marker.closing path).size + 2 := by
    simp only [block, Text.size_append, size_lineBreak]
    split <;> simp only [size_lineBreak, String.toList_empty, Text.size_nil] <;> omega
  simp only [size_onOwnLines, unusedBreaks, charge]
  split <;> split <;> omega

namespace Trace

/-- What is written without having been charged: the skip markers with their line breaks. -/
def uncharged : Trace → (ended : Bool) → Nat
  | tail _, _ | deep _, _ => 0
  | kept b l _ _ rest, ended => rest.uncharged (endsLine (endsLine ended b) l)
  | skipped b _ p rest, ended =>
    let marker := onOwnLines (endsLine ended b) (Marker.skipped p) rest.source
    marker.size + rest.uncharged (endsLine (endsLine ended b) marker)
  | spliced b _ p body rest, ended =>
    let file := onOwnLines (endsLine ended b) (block p (body.text true)) rest.source
    body.uncharged true + rest.uncharged (endsLine (endsLine ended b) file)

/-- What was there, or was charged, and is not written: the directives that gave way to a marker or
a file, and the line breaks that a file did not need. -/
def spared : Trace → (ended : Bool) → Nat
  | tail _, _ | deep _, _ => 0
  | kept b l _ _ rest, ended => rest.spared (endsLine (endsLine ended b) l)
  | skipped b l p rest, ended =>
    let marker := onOwnLines (endsLine ended b) (Marker.skipped p) rest.source
    l.size + rest.spared (endsLine (endsLine ended b) marker)
  | spliced b l p body rest, ended =>
    let file := onOwnLines (endsLine ended b) (block p (body.text true)) rest.source
    l.size + unusedBreaks (endsLine ended b) (body.text true) rest.source + body.spared true +
      rest.spared (endsLine (endsLine ended b) file)

theorem size_text (tr : Trace) (ended : Bool) :
    (tr.text ended).size + tr.spared ended =
      tr.source.size + tr.report.spliced + tr.uncharged ended := by
  induction tr generalizing ended with
  | tail t => rfl
  | deep t => rfl
  | kept b l p c rest ih =>
    have := ih (endsLine (endsLine ended b) l)
    simp only [text, spared, source, report, uncharged, Text.size_append, Report.spliced_append,
      Cause.spliced_report]
    omega
  | skipped b l p rest ih =>
    simp only [text, spared, source, report, uncharged, Text.size_append, Report.spliced_append]
    generalize onOwnLines (endsLine ended b) (Marker.skipped p) rest.source = marker
    have := ih (endsLine (endsLine ended b) marker)
    omega
  | spliced b l p body rest ihb ihr =>
    have hb := ihb true
    have hf := size_spliced (endsLine ended b) p body.source (body.text true) rest.source
    simp only [text, spared, source, report, uncharged, Text.size_append, Report.spliced_append]
    generalize onOwnLines (endsLine ended b) (block p (body.text true)) rest.source = file at hf ⊢
    have hr := ihr (endsLine (endsLine ended b) file)
    omega

/-- Without a skip marker, everything that is written has been charged. -/
theorem uncharged_eq_zero {tr : Trace} (h : tr.report.skipped = []) (ended : Bool) :
    tr.uncharged ended = 0 := by
  induction tr generalizing ended with
  | tail t => rfl
  | deep t => rfl
  | kept b l p c rest ih =>
    exact ih (by simpa [report] using h) _
  | skipped b l p rest ih => simp [report] at h
  | spliced b l p body rest ihb ihr =>
    simp only [report, Report.skipped_append, List.append_eq_nil_iff, true_and] at h
    simp [uncharged, ihb h.1, ihr h.2]

end Trace

variable {sources : Sources} {limits : Limits} {levels spent : Nat} {chain : List Text}
  {s : Segments Directive} {tr : Trace}

/-- Nothing is charged beyond the budget: each splice is made only if its charge still fits. -/
theorem Unfolds.spent_add_spliced_le (h : Unfolds sources limits levels chain s spent tr)
    (hs : spent ≤ limits.maxBytes) : spent + tr.report.spliced ≤ limits.maxBytes := by
  induction h with
  | deep => exact hs
  | tail => exact hs
  | missing _ _ _ ih => simpa [Trace.report] using ih hs
  | skipped _ _ _ _ ih => simpa [Trace.report] using ih hs
  | exhausted _ _ _ _ _ ih => simpa [Trace.report] using ih hs
  | spliced hp hsrc hc hb hbody hr ihb ihr =>
    have := ihr (ihb hb)
    simp only [Trace.report, Report.spliced_append, hbody.source_eq_of_directives]
    omega

/-- The size of an expansion. What is spliced stays within the budget. The text stays within the
root and what was spliced exactly if the skip markers take no more than was spared, hence always
when no file was skipped. -/
theorem size_ofRoot_le_iff (sources : Sources) (limits : Limits) (path text : Text) :
    ∃ tr, Unfolds sources limits (limits.maxDepth + 1) [path] (Source.directives text) 0 tr ∧
      let e := ofRoot sources limits path text
      e.report.spliced ≤ limits.maxBytes ∧
      (e.text.size ≤ text.size + e.report.spliced ↔ tr.uncharged true ≤ tr.spared true) ∧
      (e.report.skipped = [] → e.text.size ≤ text.size + e.report.spliced) := by
  obtain ⟨tr, h, he⟩ := ofRoot_unfolds sources limits path text
  have hsize := tr.size_text true
  rw [h.source_eq_of_directives] at hsize
  rw [he]
  refine ⟨tr, h, by simpa using h.spent_add_spliced_le (Nat.zero_le _), ?_, fun hn => ?_⟩
  · constructor <;> intro hle <;> simp only at hle ⊢ <;> omega
  · rw [tr.uncharged_eq_zero hn] at hsize
    simp only
    omega

/-- A file that includes itself is longer with its skip marker than without, although nothing may be
spliced. -/
theorem size_ofRoot_self :
    let text : Text := "\\input{x}"
    let e := ofRoot [("x.tex", text)] ⟨25, 0⟩ "x.tex" text
    text.size + e.report.spliced < e.text.size := by
  decide +kernel

end TexBundle.Expansion
