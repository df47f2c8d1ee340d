import TexBundle.Proofs.Expansion.Budget
import TexBundle.Proofs.Source.Include

/-!
# The sources that an expansion uses

Whatever an expansion looks for among the sources is named in its report: as included or skipped if
it was there, as missing if it was not. So a source that is not named makes no difference. Only the
empty path, which names no file, is missing even where a source has it.

* `Unfolds.of_sources`: a trace is one over other sources, too, if they have what was found and lack
  what was missing;
* `Unfolds.sourceOf?_of_mem_missing`, `Unfolds.isSome_of_mem_skipped`: what the report says of the
  sources;
* `ofRoot_cons_eq`: adding a source that an expansion did not look for.
-/

namespace TexBundle.Expansion

open Source (Directive)

variable {sources sources' : Sources} {limits : Limits} {levels spent : Nat} {chain : List Text}
  {s : Segments Directive} {tr : Trace} {p q added : Text}

theorem sourceOf?_eq_none_iff : sourceOf? sources p = none ↔ p = [] ∨ sources.lookup p = none := by
  rw [sourceOf?]
  split <;> simp_all

theorem sourceOf?_cons_of_ne (h : q ≠ p) :
    sourceOf? ((p, added) :: sources) q = sourceOf? sources q := by
  have hlookup : List.lookup q ((p, added) :: sources) = sources.lookup q := by
    rw [List.lookup_cons, beq_false_of_ne h]
  rw [sourceOf?, sourceOf?, hlookup]

/-! ## Traces -/

namespace Unfolds

/-- Every path that was looked for had a source, or the report says that it had none. -/
theorem of_sources (h : Unfolds sources limits levels chain s spent tr)
    (hfound : ∀ p source, sourceOf? sources p = some source → sourceOf? sources' p = some source)
    (hmissing : ∀ p ∈ tr.report.missing, sourceOf? sources' p = none) :
    Unfolds sources' limits levels chain s spent tr := by
  induction h with
  | deep => exact .deep
  | tail => exact .tail
  | missing hp hs _ ih =>
    obtain ⟨hpath, hrest⟩ := List.forall_mem_cons.1 hmissing
    exact .missing hp hpath (ih hrest)
  | skipped hp hs hc _ ih => exact .skipped hp (hfound _ _ hs) hc (ih hmissing)
  | exhausted hp hs hc hb _ ih => exact .exhausted hp (hfound _ _ hs) hc hb (ih hmissing)
  | spliced hp hs hc hb _ _ ihb ihr =>
    obtain ⟨hbody, hrest⟩ := List.forall_mem_append.1 hmissing
    exact .spliced hp (hfound _ _ hs) hc hb (ihb hbody) (ihr hrest)

theorem sourceOf?_of_mem_missing (h : Unfolds sources limits levels chain s spent tr) :
    ∀ p ∈ tr.report.missing, sourceOf? sources p = none := by
  induction h with
  | deep | tail => exact List.forall_mem_nil _
  | missing _ hs _ ih => exact List.forall_mem_cons.2 ⟨hs, ih⟩
  | skipped _ _ _ _ ih | exhausted _ _ _ _ _ ih => exact ih
  | spliced _ _ _ _ _ _ ihb ihr => exact List.forall_mem_append.2 ⟨ihb, ihr⟩

/-- Only sources are skipped. -/
theorem isSome_of_mem_skipped (h : Unfolds sources limits levels chain s spent tr) :
    ∀ p ∈ tr.report.skipped, (sources.lookup p).isSome := by
  induction h with
  | deep | tail => exact List.forall_mem_nil _
  | missing _ _ _ ih | exhausted _ _ _ _ _ ih => exact ih
  | skipped _ hs _ _ ih =>
    refine List.forall_mem_cons.2 ⟨?_, ih⟩
    rw [lookup_of_sourceOf? hs]
    rfl
  | spliced _ _ _ _ _ _ ihb ihr => exact List.forall_mem_append.2 ⟨ihb, ihr⟩

/-- A path that was not looked for may be given a source. -/
theorem cons (h : Unfolds sources limits levels chain s spent tr) (hp : sources.lookup p = none)
    (hmissing : p ∉ tr.report.missing) :
    Unfolds ((p, added) :: sources) limits levels chain s spent tr := by
  apply h.of_sources
  · intro q source hq
    have hne : q ≠ p := by
      rintro rfl
      rw [lookup_of_sourceOf? hq] at hp
      cases hp
    rw [sourceOf?_cons_of_ne hne, hq]
  · intro q hq
    rw [sourceOf?_cons_of_ne (ne_of_mem_of_not_mem hq hmissing), h.sourceOf?_of_mem_missing q hq]

end Unfolds

/-! ## Expansions -/

/-- A source that is added makes no difference to an expansion that did not report it missing. What
is reported missing is no source, except that the empty path always is; what is reported included or
skipped is one. -/
theorem ofRoot_cons_eq (sources : Sources) (limits : Limits) (path text : Text) :
    let e := ofRoot sources limits path text
    (∀ p added, sources.lookup p = none → p ∉ e.report.missing →
        ofRoot ((p, added) :: sources) limits path text = e) ∧
      (∀ p ∈ e.report.missing, p = [] ∨ sources.lookup p = none) ∧
      (∀ p ∈ e.report.included, (sources.lookup p).isSome) ∧
      ∀ p ∈ e.report.skipped, (sources.lookup p).isSome := by
  obtain ⟨tr, h, he⟩ := ofRoot_unfolds sources limits path text
  simp only [he]
  refine ⟨fun p added hp hmissing => ?_, fun p hp => ?_, h.isSome_of_mem_included,
    h.isSome_of_mem_skipped⟩
  · exact (h.cons hp hmissing).ofRoot_eq
  · exact sourceOf?_eq_none_iff.1 (h.sourceOf?_of_mem_missing p hp)

/-- A file that is spliced in, one that is missing in it, and one that nothing refers to. -/
theorem ofRoot_cons_eq_of_unused :
    let sources : Sources := [("a.tex", "\\input{gone}")]
    let e := ofRoot sources {} "main.tex" "\\input{a}"
    sources.lookup ("b.tex" : Text) = none ∧ ("b.tex" : Text) ∉ e.report.missing ∧
      ofRoot (("b.tex", "\\input{a}") :: sources) {} "main.tex" "\\input{a}" = e ∧
      e.report.missing = ["gone.tex"] ∧ sources.lookup ("gone.tex" : Text) = none := by
  intro sources e
  let a : Trace := .kept [] "\\input{gone}" "gone.tex" .missing (.tail [])
  have hroot : Source.directives "\\input{a}" = .found [] "\\input{a}" ⟨.input, "a"⟩ (.tail []) :=
    Source.directives_eq_found (List.cons_ne_nil _ _) rfl rfl
  have hfile : Source.directives "\\input{gone}" =
      .found [] "\\input{gone}" ⟨.input, "gone"⟩ (.tail []) :=
    Source.directives_eq_found (List.cons_ne_nil _ _) rfl rfl
  have h : Unfolds sources {} 26 ["main.tex"] (Source.directives "\\input{a}") 0
      (.spliced [] "\\input{a}" "a.tex" a (.tail [])) := by
    rw [hroot]
    refine .spliced rfl rfl (by decide) (by decide) ?_ .tail
    rw [hfile]
    exact .missing rfl rfl .tail
  have hmissing : e.report.missing = ["gone.tex"] := congrArg (·.report.missing) h.ofRoot_eq
  have hb : sources.lookup ("b.tex" : Text) = none := rfl
  have hunused : ("b.tex" : Text) ∉ e.report.missing := by
    rw [hmissing]
    decide
  obtain ⟨hcons, hsources, -⟩ := ofRoot_cons_eq sources {} "main.tex" "\\input{a}"
  have hgone : ("gone.tex" : Text) = [] ∨ sources.lookup ("gone.tex" : Text) = none :=
    hsources _ (by rw [hmissing]; exact List.mem_singleton_self _)
  exact ⟨hb, hunused, hcons _ _ hb hunused, hmissing, hgone.resolve_left (by decide)⟩

/-- An empty argument means no file, even if a source has the empty path. -/
theorem not_lookup_eq_none_of_missing :
    let sources : Sources := [("", "X")]
    let e := ofRoot sources {} "main.tex" "\\input{}"
    ¬∀ p ∈ e.report.missing, sources.lookup p = none := by
  intro sources e hnone
  have hroot : Source.directives "\\input{}" = .found [] "\\input{}" ⟨.input, []⟩ (.tail []) :=
    Source.directives_eq_found (List.cons_ne_nil _ _) rfl rfl
  have h : Unfolds sources {} 26 ["main.tex"] (Source.directives "\\input{}") 0
      (.kept [] "\\input{}" [] .missing (.tail [])) := by
    rw [hroot]
    exact .missing rfl rfl .tail
  have hmissing : e.report.missing = [[]] := congrArg (·.report.missing) h.ofRoot_eq
  have hempty := hnone [] (by rw [hmissing]; exact List.mem_singleton_self _)
  cases hempty

end TexBundle.Expansion
