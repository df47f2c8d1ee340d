import TexBundle.Proofs.Expansion.Trace
import Mathlib.Data.List.Dedup
import Mathlib.Data.List.Perm.Subperm

/-!
# The limits of an expansion

A limit that is not reported as hit makes no difference: a trace that no limit has cut short is a
trace for all higher limits as well, rule by rule. The limit on the depth need not be hit at all.
The files that are open at a time are different ones, so that no more than all sources can be
nested, however they include each other.

* `Unfolds.of_levels_le`, `Unfolds.of_maxBytes_le`: raising one limit;
* `ofRoot_eq_of_le`: raising both;
* `Unfolds.length_add_height_le`: the open files and those nested into them are as many as the
  sources at most;
* `height_ofRoot_le`: with a level for every source, expansion ends before it runs out of levels.
-/

namespace TexBundle.Expansion

open Source (Directive)

variable {sources : Sources} {limits limits' : Limits} {levels levels' spent : Nat}
  {chain : List Text} {s : Segments Directive} {tr : Trace}

/-! ## Raising the limits -/

namespace Unfolds

theorem succ_levels (h : Unfolds sources limits levels chain s spent tr)
    (hd : tr.report.depthLimited = false) :
    Unfolds sources limits (levels + 1) chain s spent tr := by
  induction h with
  | deep => cases hd
  | tail => exact .tail
  | missing hp hs _ ih => exact .missing hp hs (ih (by simpa [Trace.report] using hd))
  | skipped hp hs hc _ ih => exact .skipped hp hs hc (ih (by simpa [Trace.report] using hd))
  | exhausted hp hs hc hb _ ih =>
    exact .exhausted hp hs hc hb (ih (by simpa [Trace.report] using hd))
  | spliced hp hs hc hb _ _ ihb ihr =>
    simp only [Trace.report, Report.depthLimited_append, Bool.or_eq_false_iff] at hd
    exact .spliced hp hs hc hb (ihb hd.1.2) (ihr hd.2)

/-- A trace in which no file lies too deep is one for more levels, too. -/
theorem of_levels_le (h : Unfolds sources limits levels chain s spent tr)
    (hd : tr.report.depthLimited = false) (hle : levels ≤ levels') :
    Unfolds sources limits levels' chain s spent tr := by
  induction hle with
  | refl => exact h
  | step _ ih => exact ih.succ_levels hd

/-- A trace in which no directive was too expensive is one for a larger budget, too. -/
theorem of_maxBytes_le (h : Unfolds sources limits levels chain s spent tr)
    (hle : limits.maxBytes ≤ limits'.maxBytes)
    (hx : tr.report.exhausted = true → limits.maxBytes = limits'.maxBytes) :
    Unfolds sources limits' levels chain s spent tr := by
  induction h with
  | deep => exact .deep
  | tail => exact .tail
  | missing hp hs _ ih => exact .missing hp hs (ih (by simpa [Trace.report] using hx))
  | skipped hp hs hc _ ih => exact .skipped hp hs hc (ih (by simpa [Trace.report] using hx))
  | exhausted hp hs hc hb _ ih =>
    have heq : limits.maxBytes = limits'.maxBytes := hx rfl
    exact .exhausted hp hs hc (heq ▸ hb) (ih fun _ => heq)
  | spliced hp hs hc hb _ _ ihb ihr =>
    simp only [Trace.report, Report.exhausted_append, Bool.or_eq_true] at hx
    exact .spliced hp hs hc (Nat.le_trans hb hle) (ihb fun e => hx (.inl (.inr e)))
      (ihr fun e => hx (.inr e))

end Unfolds

/-- Raising a limit changes neither the text nor the report, unless the limit was hit. -/
theorem ofRoot_congr {path text : Text} (hdepth : limits.maxDepth ≤ limits'.maxDepth)
    (hd : (ofRoot sources limits path text).report.depthLimited = false)
    (hbytes : limits.maxBytes ≤ limits'.maxBytes)
    (hx : (ofRoot sources limits path text).report.exhausted = true →
      limits.maxBytes = limits'.maxBytes) :
    ofRoot sources limits' path text = ofRoot sources limits path text := by
  obtain ⟨tr, h, he⟩ := ofRoot_unfolds sources limits path text
  simp only [he] at hd hx
  have hraised :
      Unfolds sources limits' (limits'.maxDepth + 1) [path] (Source.directives text) 0 tr :=
    (h.of_levels_le hd (Nat.succ_le_succ hdepth)).of_maxBytes_le hbytes hx
  rw [he, hraised.ofRoot_eq]

/-- Limits that were not hit might as well have been higher: the text and all of the report stay as
they are. -/
theorem ofRoot_eq_of_le (sources : Sources) {limits limits' : Limits} (path text : Text)
    (hdepth : limits.maxDepth ≤ limits'.maxDepth) (hbytes : limits.maxBytes ≤ limits'.maxBytes)
    (hd : (ofRoot sources limits path text).report.depthLimited = false)
    (hx : (ofRoot sources limits path text).report.exhausted = false) :
    ofRoot sources limits' path text = ofRoot sources limits path text :=
  ofRoot_congr hdepth hd hbytes fun e => absurd (hx.symm.trans e) Bool.false_ne_true

/-- A cycle of two files, both included again, just within the limits. -/
theorem ofRoot_eq_of_le_cycle :
    let sources : Sources := [("a.tex", "\\input{b}"), ("b.tex", "x\\input{a}y")]
    let text : Text := "\\input a\n\\input{b}\n\\input{gone}"
    let e := ofRoot sources ⟨2, 328⟩ "main.tex" text
    e.report = { included := ["a.tex", "b.tex", "b.tex", "a.tex"], skipped := ["a.tex", "b.tex"],
                 missing := ["gone.tex"], spliced := 328 } ∧
      ofRoot sources ⟨25, 5000⟩ "main.tex" text = e := by
  intro sources text e
  have hreport : e.report =
      { included := ["a.tex", "b.tex", "b.tex", "a.tex"], skipped := ["a.tex", "b.tex"],
        missing := ["gone.tex"], spliced := 328 } := by
    decide +kernel
  refine ⟨hreport, ofRoot_eq_of_le sources "main.tex" text (by decide) (by decide) ?_ ?_⟩
  · exact congrArg Report.depthLimited hreport
  · exact congrArg Report.exhausted hreport

/-! ## Levels -/

/-- How deep files are spliced into each other. -/
def Trace.height : Trace → Nat
  | tail _ | deep _ => 0
  | kept _ _ _ _ rest | skipped _ _ _ rest => rest.height
  | spliced _ _ _ body rest => max (body.height + 1) rest.height

/-- The paths of the sources, each one once. -/
def paths (sources : Sources) : List Text := (sources.map Prod.fst).dedup

namespace Unfolds

/-- A file lies too deep only below as many others as there are levels. -/
theorem le_height (h : Unfolds sources limits levels chain s spent tr)
    (hd : tr.report.depthLimited = true) : levels ≤ tr.height := by
  induction h with
  | deep => exact Nat.zero_le _
  | tail => cases hd
  | missing _ _ _ ih | skipped _ _ _ _ ih | exhausted _ _ _ _ _ ih =>
    exact ih (by simpa [Trace.report] using hd)
  | spliced _ _ _ _ _ _ ihb ihr =>
    simp only [Trace.report, Report.depthLimited_append, Bool.false_or, Bool.or_eq_true] at hd
    rcases hd with hd | hd
    · exact Nat.le_trans (Nat.succ_le_succ (ihb hd)) (Nat.le_max_left ..)
    · exact Nat.le_trans (ihr hd) (Nat.le_max_right ..)

/-- The open files are all different, and all of them but the root are sources. So every file that
is opened leaves one source less to open. -/
theorem length_add_height_le {root : Text} (h : Unfolds sources limits levels chain s spent tr)
    (hnodup : chain.Nodup) (hchain : chain ⊆ root :: paths sources) :
    chain.length + tr.height ≤ (paths sources).length + 1 := by
  induction h with
  | deep | tail => exact (List.subperm_of_subset hnodup hchain).length_le
  | missing _ _ _ ih | skipped _ _ _ _ ih | exhausted _ _ _ _ _ ih => exact ih hnodup hchain
  | @spliced _ file chain _ _ _ _ _ path _ body rest _ hs hc _ _ _ ihb ihr =>
    have hpath : path ∈ paths sources :=
      List.mem_dedup.2 (List.mem_map_of_mem (f := Prod.fst) (mem_of_sourceOf? hs))
    have hbody : (path :: file :: chain).length + body.height ≤ (paths sources).length + 1 :=
      ihb (List.nodup_cons.2 ⟨hc, hnodup⟩)
        (List.cons_subset.2 ⟨List.mem_cons_of_mem root hpath, hchain⟩)
    have hrest := ihr hnodup hchain
    rw [List.length_cons] at hbody
    simp only [Trace.height]
    omega

theorem height_le {root : Text} (h : Unfolds sources limits levels [root] s spent tr) :
    tr.height ≤ (paths sources).length := by
  have hroot : [root] ⊆ root :: paths sources :=
    List.cons_subset.2 ⟨List.mem_cons_self, List.nil_subset _⟩
  have hle := h.length_add_height_le (List.nodup_singleton root) hroot
  rw [List.length_singleton] at hle
  omega

theorem depthLimited_eq_false {root : Text} (h : Unfolds sources limits levels [root] s spent tr)
    (hn : (paths sources).length < levels) : tr.report.depthLimited = false := by
  by_contra hd
  have hdeep := h.le_height (by simpa using hd)
  have hheight := h.height_le
  omega

end Unfolds

theorem depthLimited_ofRoot {path text : Text} (hn : (paths sources).length ≤ limits.maxDepth) :
    (ofRoot sources limits path text).report.depthLimited = false := by
  obtain ⟨tr, h, he⟩ := ofRoot_unfolds sources limits path text
  rw [he]
  exact h.depthLimited_eq_false (Nat.lt_succ_of_le hn)

/-- With as many levels as there are sources, the guard against cycles is all that is needed: files
are nested no deeper than there are sources, none lies too deep, and further levels make no
difference. -/
theorem height_ofRoot_le (sources : Sources) {limits : Limits} (path text : Text)
    (hn : (paths sources).length ≤ limits.maxDepth) :
    let e := ofRoot sources limits path text
    ∃ tr, Unfolds sources limits (limits.maxDepth + 1) [path] (Source.directives text) 0 tr ∧
      e = ⟨tr.text true, tr.report⟩ ∧ tr.height ≤ (paths sources).length ∧
      e.report.depthLimited = false ∧
      e = ofRoot sources ⟨(paths sources).length, limits.maxBytes⟩ path text := by
  obtain ⟨tr, h, he⟩ := ofRoot_unfolds sources limits path text
  refine ⟨tr, h, he, h.height_le, depthLimited_ofRoot hn, ?_⟩
  exact ofRoot_congr hn (depthLimited_ofRoot (Nat.le_refl _)) (Nat.le_refl _) fun _ => rfl

/-- Three files that all include each other, below a root that is one of them. -/
theorem height_ofRoot_le_of_three :
    let text : Text := "\\input a\n\\input b\n\\input c"
    let sources : Sources := [("a.tex", text), ("b.tex", text), ("c.tex", text)]
    let limits : Limits := ⟨3, 5000⟩
    let e := ofRoot sources limits "a.tex" text
    (paths sources).length = 3 ∧ e.report.included = ["b.tex", "c.tex", "c.tex", "b.tex"] ∧
      ∃ tr, Unfolds sources limits 4 ["a.tex"] (Source.directives text) 0 tr ∧
        e = ⟨tr.text true, tr.report⟩ ∧ tr.height ≤ 3 ∧ e.report.depthLimited = false := by
  intro text sources limits e
  have hn : (paths sources).length = 3 := by decide +kernel
  have hincluded : e.report.included = ["b.tex", "c.tex", "c.tex", "b.tex"] := by decide +kernel
  obtain ⟨tr, h, he, hheight, hd, -⟩ := height_ofRoot_le sources "a.tex" text
    (show (paths sources).length ≤ limits.maxDepth from Nat.le_of_eq hn)
  exact ⟨hn, hincluded, tr, h, he, hn ▸ hheight, hd⟩

end TexBundle.Expansion
