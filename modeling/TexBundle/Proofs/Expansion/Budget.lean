import TexBundle.Proofs.Expansion.Size
import Mathlib.Algebra.Order.BigOperators.Group.List
import Mathlib.Algebra.Order.Ring.Nat

/-!
# The budget of an expansion

The report of an expansion accounts for every byte that was charged: the files that it lists as
spliced in cost what it says was spent, neither more nor less. A file costs its markers at least, so
the budget bounds the number of files. What is written beyond the root and the charges is no more
than the skip markers and two line breaks for each.

* `Unfolds.spliced_eq_sum`: what was charged, file by file;
* `Trace.uncharged_le`: what was not charged;
* `spliced_ofRoot_eq_sum`: the whole account of an expansion.
-/

namespace TexBundle.Expansion

open Source (Directive)

/-- What a file costs whenever it is spliced in: its text, both markers and four line breaks. -/
def cost (sources : Sources) (path : Text) : Nat :=
  ((sources.lookup path).getD []).size + (Marker.opening path).size + (Marker.closing path).size + 4

/-- What the skip marker of a file takes at most: itself and a line break on either side. -/
def skipCost (path : Text) : Nat := (Marker.skipped path).size + 2

theorem charge_eq_cost {sources : Sources} {path source : Text}
    (h : sourceOf? sources path = some source) : charge path source = cost sources path := by
  rw [cost, lookup_of_sourceOf? h, Option.getD_some, charge]

theorem size_opening (path : Text) : (Marker.opening path).size = 30 + path.size :=
  (Text.size_append _ path).trans (congrArg (· + path.size) rfl)

theorem size_closing (path : Text) : (Marker.closing path).size = 28 + path.size :=
  (Text.size_append _ path).trans (congrArg (· + path.size) rfl)

theorem le_cost (sources : Sources) (path : Text) : 62 ≤ cost sources path := by
  simp only [cost, size_opening, size_closing]
  omega

theorem size_onOwnLines_skipped_le (ended : Bool) (path following : Text) :
    (onOwnLines ended (Marker.skipped path) following).size ≤ skipCost path := by
  rw [size_onOwnLines, skipCost]
  split <;> split <;> omega

/-- Each skip marker stands for an entry of the report. -/
theorem Trace.uncharged_le (tr : Trace) (ended : Bool) :
    tr.uncharged ended ≤ (tr.report.skipped.map skipCost).sum := by
  induction tr generalizing ended with
  | tail t => exact Nat.zero_le _
  | deep t => exact Nat.zero_le _
  | kept b l p c rest ih => simpa [uncharged, report] using ih _
  | skipped b l p rest ih =>
    have hmarker := size_onOwnLines_skipped_le (endsLine ended b) p rest.source
    simp only [uncharged, report, Report.skipped_append, List.singleton_append, List.map_cons,
      List.sum_cons]
    exact Nat.add_le_add hmarker (ih _)
  | spliced b l p body rest ihb ihr =>
    simp only [uncharged, report, Report.skipped_append, List.nil_append, List.map_append,
      List.sum_append]
    exact Nat.add_le_add (ihb _) (ihr _)

namespace Unfolds

variable {sources : Sources} {limits : Limits} {levels spent : Nat} {chain : List Text}
  {s : Segments Directive} {tr : Trace}

/-- Only sources are spliced in. -/
theorem isSome_of_mem_included (h : Unfolds sources limits levels chain s spent tr) :
    ∀ p ∈ tr.report.included, (sources.lookup p).isSome := by
  induction h with
  | deep | tail => exact List.forall_mem_nil _
  | missing _ _ _ ih | skipped _ _ _ _ ih | exhausted _ _ _ _ _ ih => simpa [Trace.report] using ih
  | spliced _ hs _ _ _ _ ihb ihr =>
    simp only [Trace.report, Report.included_append, List.forall_mem_append]
    refine ⟨⟨List.forall_mem_singleton.2 ?_, ihb⟩, ihr⟩
    rw [lookup_of_sourceOf? hs]
    rfl

/-- What is charged for the files spliced in, and for nothing else. -/
theorem spliced_eq_sum (h : Unfolds sources limits levels chain s spent tr) :
    tr.report.spliced = (tr.report.included.map (cost sources)).sum := by
  induction h with
  | deep | tail => rfl
  | missing _ _ _ ih | skipped _ _ _ _ ih | exhausted _ _ _ _ _ ih => simpa [Trace.report] using ih
  | spliced _ hs _ _ hbody _ ihb ihr =>
    simp only [Trace.report, Report.spliced_append, Report.included_append, List.map_append,
      List.sum_append, List.map_singleton, List.sum_singleton, ihb, ihr]
    rw [hbody.source_eq_of_directives, charge_eq_cost hs]

end Unfolds

/-- The account of an expansion. What it reports as spliced is the cost of the files that it reports
as included, each as often as it is listed. It stays within the budget, so that there is a file for
every 62 bytes of the budget at most. The text exceeds the root and what was spliced by no more than
the skip markers take. -/
theorem spliced_ofRoot_eq_sum (sources : Sources) (limits : Limits) (path text : Text) :
    let e := ofRoot sources limits path text
    (∀ p ∈ e.report.included, (sources.lookup p).isSome) ∧
      e.report.spliced = (e.report.included.map (cost sources)).sum ∧
      e.report.spliced ≤ limits.maxBytes ∧
      e.report.included.length ≤ limits.maxBytes / 62 ∧
      e.text.size ≤ text.size + e.report.spliced + (e.report.skipped.map skipCost).sum := by
  obtain ⟨tr, h, he⟩ := ofRoot_unfolds sources limits path text
  have hsum : tr.report.spliced = (tr.report.included.map (cost sources)).sum := h.spliced_eq_sum
  have hbudget : 0 + tr.report.spliced ≤ limits.maxBytes := h.spent_add_spliced_le (Nat.zero_le _)
  have hcount : tr.report.included.length * 62 ≤ tr.report.spliced := by
    have hcosts : ∀ n ∈ tr.report.included.map (cost sources), 62 ≤ n :=
      List.forall_mem_map.2 fun p _ => le_cost sources p
    simpa [hsum] using List.card_nsmul_le_sum _ 62 hcosts
  have hsize := tr.size_text true
  have huncharged := tr.uncharged_le true
  rw [h.source_eq_of_directives] at hsize
  simp only [he]
  refine ⟨h.isSome_of_mem_included, hsum, by omega, ?_, by omega⟩
  exact (Nat.le_div_iff_mul_le (by decide)).2 (by omega)

/-- The first of two directives is charged for, and the budget does not allow for the second one. A
skip marker costs nothing. -/
example :
    let sources : Sources := [("a.tex", "AB"), ("main.tex", "")]
    let e := ofRoot sources { maxBytes := 147 } "main.tex" "\\input{a}\\input{a}\\input{main}"
    cost sources "a.tex" = 74 ∧ e.report.included = ["a.tex"] ∧ e.report.spliced = 74 ∧
      e.report.skipped = ["main.tex"] := by
  decide +kernel

end TexBundle.Expansion
