import TexBundle.Proofs.Expansion.Markers

/-!
# Nested markers

The markers of an expanded text enclose blocks, which are nested no deeper than the limit and in
which no file stands inside itself. A skip marker stands where it would.

* `Mark.Nested`: markers from top to bottom, with the blocks that are open;
* `Unfolds.nested_marks`: those of a trace, between other markers;
* `nested_marks_ofRoot`: those of an expansion, together with what its report says of them.
-/

namespace TexBundle

namespace Mark

/-- Whether markers, read from top to bottom inside of the `opened` blocks (the innermost first),
open no file inside itself and no more than `most` blocks at a time, close the blocks in the right
order, and skip nothing but files that are open. The root is open throughout. -/
def Nested (root : Text) (most : Nat) : (opened : List Text) → List Mark → Prop
  | opened, [] => opened = []
  | opened, opening p :: ms =>
    p ≠ root ∧ p ∉ opened ∧ opened.length < most ∧ Nested root most (p :: opened) ms
  | [], closing _ :: _ => False
  | p :: opened, closing q :: ms => p = q ∧ Nested root most opened ms
  | opened, skipped p :: ms => (p = root ∨ p ∈ opened) ∧ Nested root most opened ms

end Mark

namespace Expansion

open Source (Directive)

variable {sources : Sources} {limits : Limits} {levels spent most : Nat} {root : Text}
  {chain opened : List Text} {s : Segments Directive} {tr : Trace}

/-- The markers of a trace may stand wherever its chain of files is the stack of open blocks. -/
theorem Unfolds.nested_marks (h : Unfolds sources limits levels chain s spent tr)
    (hchain : chain = opened ++ [root]) (hmost : most = opened.length + levels) {ms : List Mark}
    (hms : Mark.Nested root most opened ms) : Mark.Nested root most opened (tr.marks ++ ms) := by
  induction h generalizing opened ms with
  | deep | tail => exact hms
  | missing _ _ _ ih | exhausted _ _ _ _ _ ih => exact ih hchain hmost hms
  | skipped _ _ hc _ ih =>
    rw [hchain, List.mem_append, List.mem_singleton, or_comm] at hc
    exact ⟨hc, ih hchain hmost hms⟩
  | spliced _ _ hc _ _ _ ihb ihr =>
    rw [hchain, List.mem_append, List.mem_singleton, not_or] at hc
    rw [Trace.marks, List.cons_append, List.append_assoc]
    refine ⟨hc.2, hc.1, by omega, ihb (by rw [hchain]; rfl) (by rw [List.length_cons]; omega) ?_⟩
    exact ⟨rfl, ihr hchain hmost hms⟩

/-- If neither the root nor any source speaks of markers, the marker lines of the expanded text are
nested, and they open and skip the files that the report lists, in its order. -/
theorem nested_marks_ofRoot (hplain : Plain sources) (limits : Limits) {path text : Text}
    (ht : ¬ Marker.tag <:+: text) :
    let e := ofRoot sources limits path text
    Mark.Nested path (limits.maxDepth + 1) [] (Mark.ofText e.text) ∧
      (Mark.ofText e.text).filterMap Mark.opening? = e.report.included ∧
      (Mark.ofText e.text).filterMap Mark.skipped? = e.report.skipped := by
  obtain ⟨tr, h, he⟩ := ofRoot_unfolds sources limits path text
  have hm : Mark.ofText (tr.text true) = tr.marks :=
    h.marks_text hplain (commands_directives text) [] (by rwa [h.source_eq_of_directives])
  have hn : Mark.Nested path (limits.maxDepth + 1) [] (tr.marks ++ []) :=
    h.nested_marks rfl (by simp) rfl
  rw [List.append_nil] at hn
  simp only [he, hm]
  exact ⟨hn, tr.filterMap_opening?_marks, tr.filterMap_skipped?_marks⟩

/-- Two files that include each other, below a root that is included as well. Where the second file
includes the first one, and where the root includes itself, a marker says so. -/
theorem nested_marks_ofRoot_cycle :
    let sources : Sources :=
      [("a.tex", "\\input{b}"), ("b.tex", "x\\input{a}y"), ("main.tex", "\\input a\n\\input{main}")]
    let text : Text := "\\input a\n\\input{main}"
    let e := ofRoot sources {} "main.tex" text
    let marks : List Mark := [.opening "a.tex", .opening "b.tex", .skipped "a.tex",
      .closing "b.tex", .closing "a.tex", .skipped "main.tex"]
    Plain sources ∧ ¬ Marker.tag <:+: text ∧
      Mark.ofText e.text = marks ∧ Mark.Nested "main.tex" 26 [] marks ∧
      e.report.included = ["a.tex", "b.tex"] ∧ e.report.skipped = ["a.tex", "main.tex"] := by
  intro sources text e marks
  have hplain : Plain sources := plain_of_forall_mem (by decide +kernel)
  have ht : ¬ Marker.tag <:+: text := by decide +kernel
  have hmarks : Mark.ofText e.text = marks := by decide +kernel
  obtain ⟨hnested, hincluded, hskipped⟩ := nested_marks_ofRoot hplain {} ht
  rw [hmarks] at hnested hincluded hskipped
  exact ⟨hplain, ht, hmarks, hnested, hincluded.symm, hskipped.symm⟩

end Expansion

end TexBundle
