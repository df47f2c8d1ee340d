import TexBundle.Proofs.Expansion.Limits
import TexBundle.Proofs.Source.Include
import Mathlib.Algebra.Order.Ring.Nat

/-!
# Expansion file by file

If expansion was not kept from anything, by a cycle or a limit, what a file comes to depends on
nothing but the file. The chain of open files, the levels left and the bytes spent so far differ
from one place to the next where it is spliced in, but they only ever decide whether a file is kept
out.

* `Report.Unhindered`: no file was kept out;
* `Trace.files`: the files spliced in, at any depth, each with what it comes to there;
* `Unfolds.forget`: an unhindered trace is one for a shorter chain with less spent, too;
* `Unfolds.alone_eq`: what a file comes to where it is spliced in, it comes to as a root;
* `ofRoot_composes`: the files, the list of them and the bytes charged for them, from the expansions
  of the files that the root's own directives mean.
-/

namespace TexBundle

/-- No file was kept out: none because it was open already, none because it was too deep, and none
because it was too expensive. Files may be missing. -/
structure Report.Unhindered (r : Report) : Prop where
  skipped : r.skipped = []
  depthLimited : r.depthLimited = false
  exhausted : r.exhausted = false

theorem Report.unhindered_append {r s : Report} :
    (r ++ s).Unhindered ↔ r.Unhindered ∧ s.Unhindered := by
  constructor
  · rintro ⟨hs, hd, hx⟩
    rw [skipped_append, List.append_eq_nil_iff] at hs
    rw [depthLimited_append, Bool.or_eq_false_iff] at hd
    rw [exhausted_append, Bool.or_eq_false_iff] at hx
    exact ⟨⟨hs.1, hd.1, hx.1⟩, ⟨hs.2, hd.2, hx.2⟩⟩
  · rintro ⟨hr, hs⟩
    refine ⟨?_, ?_, ?_⟩
    · rw [skipped_append, hr.skipped, hs.skipped, List.append_nil]
    · rw [depthLimited_append, hr.depthLimited, hs.depthLimited, Bool.or_false]
    · rw [exhausted_append, hr.exhausted, hs.exhausted, Bool.or_false]

namespace Expansion

open Source (Directive)

variable {sources : Sources} {limits : Limits} {levels spent spent' : Nat}
  {chain chain' : List Text} {file path source : Text} {s : Segments Directive} {tr : Trace}

/-! ## Files -/

/-- The files that are spliced in, at any depth and in the order of their opening markers, each with
what its text comes to there. -/
def Trace.files : Trace → List (Text × Expansion)
  | tail _ | deep _ => []
  | kept _ _ _ _ rest | skipped _ _ _ rest => rest.files
  | spliced _ _ p body rest => (p, ⟨body.text true, body.report⟩) :: (body.files ++ rest.files)

/-- The report lists the files that are spliced in. -/
theorem Trace.map_fst_files (tr : Trace) : tr.files.map Prod.fst = tr.report.included := by
  induction tr with
  | tail t => rfl
  | deep t => rfl
  | kept b l p c rest ih => simpa [files, report] using ih
  | skipped b l p rest ih => simpa [files, report] using ih
  | spliced b l p body rest ihb ihr => simp [files, report, ihb, ihr]

theorem Trace.unhindered_spliced {b l p : Text} {body rest : Trace} :
    (spliced b l p body rest).report.Unhindered ↔
      body.report.Unhindered ∧ rest.report.Unhindered := by
  rw [report, Report.unhindered_append, Report.unhindered_append]
  exact and_congr_left' (and_iff_right ⟨rfl, rfl, rfl⟩)

theorem isInfix_onOwnLines (ended : Bool) (b following : Text) :
    b <:+: onOwnLines ended b following :=
  ⟨_, _, List.append_assoc ..⟩

theorem body_isInfix_block (path body : Text) : body <:+: block path body :=
  ⟨_, _, List.append_assoc ..⟩

/-- Each of the files stands in the expanded text, between its markers. -/
theorem Trace.block_isInfix_text {tr : Trace} {f : Text × Expansion} (hf : f ∈ tr.files)
    (ended : Bool) : block f.1 f.2.text <:+: tr.text ended := by
  induction tr generalizing ended with
  | tail t => cases hf
  | deep t => cases hf
  | kept b l p c rest ih =>
    rw [text, ← List.append_assoc]
    exact (ih hf _).trans (List.suffix_append _ _).isInfix
  | skipped b l p rest ih =>
    rw [text, ← List.append_assoc]
    exact (ih hf _).trans (List.suffix_append _ _).isInfix
  | spliced b l p body rest ihb ihr =>
    have hfile : block p (body.text true) <:+: (spliced b l p body rest).text ended :=
      (isInfix_onOwnLines (endsLine ended b) _ rest.source).trans ⟨b, _, List.append_assoc ..⟩
    rcases List.mem_cons.1 hf with rfl | hf
    · exact hfile
    rcases List.mem_append.1 hf with hf | hf
    · exact (ihb hf true).trans ((body_isInfix_block p _).trans hfile)
    · rw [text, ← List.append_assoc]
      exact (ihr hf _).trans (List.suffix_append _ _).isInfix

/-! ## What does not matter -/

namespace Unfolds

/-- If no file was skipped and none was too expensive, only the file itself matters of the chain of
open files, and fewer bytes might have been spent before. -/
theorem forget (h : Unfolds sources limits levels chain s spent tr) (hu : tr.report.Unhindered)
    (hhead : chain'.head? = chain.head?) (hchain : chain' ⊆ chain) (hspent : spent' ≤ spent) :
    Unfolds sources limits levels chain' s spent' tr := by
  induction h generalizing chain' spent' with
  | deep => exact .deep
  | tail => exact .tail
  | missing hp hs _ ih =>
    obtain ⟨chain', rfl⟩ := List.head?_eq_some_iff.1 hhead
    exact .missing hp hs (ih (Report.unhindered_append.1 hu).2 hhead hchain hspent)
  | skipped => exact absurd (Report.unhindered_append.1 hu).1.skipped (List.cons_ne_nil _ _)
  | exhausted => cases (Report.unhindered_append.1 hu).1.exhausted
  | @spliced levels file chain b l d rest spent path source body tr hp hs hc hb _ _ ihb ihr =>
    obtain ⟨chain', rfl⟩ := List.head?_eq_some_iff.1 hhead
    obtain ⟨hbody, hrest⟩ := Trace.unhindered_spliced.1 hu
    have hcharge : spent' + charge path source ≤ spent + charge path source :=
      Nat.add_le_add_right hspent _
    have hopen : path :: file :: chain' ⊆ path :: file :: chain := List.cons_subset_cons _ hchain
    refine .spliced hp hs (fun h => hc (hchain h)) (Nat.le_trans hcharge hb) ?_ ?_
    · exact ihb hbody rfl hopen hcharge
    · exact ihr hrest hhead hchain (Nat.add_le_add_right hcharge _)

/-- What a file comes to where it is spliced in, it comes to on its own. -/
theorem alone_eq
    (h : Unfolds sources limits levels (path :: chain) (Source.directives source) spent tr)
    (hu : tr.report.Unhindered) (hlevels : levels ≤ limits.maxDepth + 1) :
    ofRoot sources limits path source = ⟨tr.text true, tr.report⟩ := by
  have halone : Unfolds sources limits levels [path] (Source.directives source) 0 tr :=
    h.forget hu rfl (List.cons_subset_cons path (List.nil_subset chain)) (Nat.zero_le spent)
  exact (halone.of_levels_le hu.depthLimited hlevels).ofRoot_eq

theorem of_mem_files (h : Unfolds sources limits levels chain s spent tr)
    (hu : tr.report.Unhindered) (hlevels : levels ≤ limits.maxDepth + 1) :
    ∀ f ∈ tr.files, ∃ source, sources.lookup f.1 = some source ∧
      f.2 = ofRoot sources limits f.1 source := by
  induction h with
  | deep | tail => exact List.forall_mem_nil _
  | missing _ _ _ ih | skipped _ _ _ _ ih | exhausted _ _ _ _ _ ih =>
    exact ih (Report.unhindered_append.1 hu).2 hlevels
  | spliced _ hs _ _ hbody _ ihb ihr =>
    obtain ⟨hub, hur⟩ := Trace.unhindered_spliced.1 hu
    have hlevels' := Nat.le_of_succ_le hlevels
    refine List.forall_mem_cons.2 ⟨?_, List.forall_mem_append.2 ⟨ihb hub hlevels', ihr hur hlevels⟩⟩
    exact ⟨_, lookup_of_sourceOf? hs, (hbody.alone_eq hub hlevels').symm⟩

end Unfolds

/-! ## The directives of one text -/

/-- The sources that the directives of a file in directory `dir` mean, with their texts, one for
each directive that means a source. -/
def targets (sources : Sources) (dir : Text) (s : Segments Directive) : List (Text × Text) :=
  s.values.filterMap fun d =>
    let path := Path.target dir d.argument
    (sourceOf? sources path).map (path, ·)

theorem targets_found {dir b l : Text} {d : Directive}
    (hp : path = Path.target dir d.argument) :
    targets sources dir (.found b l d s) =
      ((sourceOf? sources path).map (path, ·)).toList ++ targets sources dir s := by
  subst hp
  cases h : sourceOf? sources (Path.target dir d.argument) with
  | none => simp [targets, Segments.values, h]
  | some source => simp [targets, Segments.values, h]

/-- The report of an unhindered trace, from the reports of the files that the text's own directives
mean. -/
theorem Unfolds.report_targets (h : Unfolds sources limits levels (file :: chain) s spent tr)
    (hu : tr.report.Unhindered) (hlevels : levels ≤ limits.maxDepth + 1) :
    let files := targets sources (Path.directory file) s
    tr.report.included =
        files.flatMap (fun f => f.1 :: (ofRoot sources limits f.1 f.2).report.included) ∧
      tr.report.spliced = (files.map fun f =>
        charge f.1 f.2 + (ofRoot sources limits f.1 f.2).report.spliced).sum := by
  generalize hfiles : file :: chain = opened at h
  induction h generalizing file chain with
  | deep => cases hu.depthLimited
  | tail => exact ⟨rfl, rfl⟩
  | missing hp hs _ ih =>
    obtain ⟨rfl, rfl⟩ := List.cons.inj hfiles
    simpa [targets_found hp, hs, Trace.report] using
      ih (Report.unhindered_append.1 hu).2 hlevels rfl
  | skipped => exact absurd (Report.unhindered_append.1 hu).1.skipped (List.cons_ne_nil _ _)
  | exhausted => cases (Report.unhindered_append.1 hu).1.exhausted
  | spliced hp hs _ _ hbody _ _ ihr =>
    obtain ⟨rfl, rfl⟩ := List.cons.inj hfiles
    obtain ⟨hub, hur⟩ := Trace.unhindered_spliced.1 hu
    have halone := hbody.alone_eq hub (Nat.le_of_succ_le hlevels)
    obtain ⟨hincluded, hspliced⟩ := ihr hur hlevels rfl
    simp [targets_found hp, hs, halone, Trace.report, hincluded, hspliced,
      hbody.source_eq_of_directives]

/-- A text in which each directive that means a source has been replaced by that source, or rather
by what `whole` makes of it, between markers. `ended` says whether the line before it is at its
end. -/
def compose (sources : Sources) (whole : (path source : Text) → Text) (dir : Text) :
    Segments Directive → (ended : Bool) → Text
  | .tail text, _ => text
  | .found before lexeme d rest, ended =>
    let ended := endsLine ended before
    let path := Path.target dir d.argument
    let here : Text := match sourceOf? sources path with
      | none => lexeme
      | some source => onOwnLines ended (block path (whole path source)) rest.text
    before ++ (here ++ compose sources whole dir rest (endsLine ended here))

theorem Unfolds.text_eq_compose (h : Unfolds sources limits levels (file :: chain) s spent tr)
    (hu : tr.report.Unhindered) (hlevels : levels ≤ limits.maxDepth + 1) (ended : Bool) :
    tr.text ended = compose sources (fun path source => (ofRoot sources limits path source).text)
      (Path.directory file) s ended := by
  generalize hfiles : file :: chain = opened at h
  induction h generalizing file chain ended with
  | deep => cases hu.depthLimited
  | tail => rfl
  | missing hp hs _ ih =>
    obtain ⟨rfl, rfl⟩ := List.cons.inj hfiles
    rw [Trace.text, compose, ih (Report.unhindered_append.1 hu).2 hlevels _ rfl]
    simp only [← hp, hs]
  | skipped => exact absurd (Report.unhindered_append.1 hu).1.skipped (List.cons_ne_nil _ _)
  | exhausted => cases (Report.unhindered_append.1 hu).1.exhausted
  | spliced hp hs _ _ hbody hr _ ihr =>
    obtain ⟨rfl, rfl⟩ := List.cons.inj hfiles
    obtain ⟨hub, hur⟩ := Trace.unhindered_spliced.1 hu
    have halone := hbody.alone_eq hub (Nat.le_of_succ_le hlevels)
    rw [Trace.text, compose, ihr hur hlevels _ rfl]
    simp only [← hp, hs, halone, hr.source_eq]

/-! ## The whole -/

/-- If no file was kept out, the expansion of a text is composed of the expansions that the files
have on their own. Its text is the root's with those files in place of its directives; its list of
files and its charge are theirs, each behind the file's own entry; and wherever a file is spliced
in, at any depth and from any other file, its markers enclose what it comes to on its own. -/
theorem ofRoot_composes (sources : Sources) (limits : Limits) (path text : Text)
    (hu : (ofRoot sources limits path text).report.Unhindered) :
    let e := ofRoot sources limits path text
    let alone (f : Text × Text) := ofRoot sources limits f.1 f.2
    let own := targets sources (Path.directory path) (Source.directives text)
    e.text = compose sources (fun path source => (alone (path, source)).text)
        (Path.directory path) (Source.directives text) true ∧
      e.report.included = own.flatMap (fun f => f.1 :: (alone f).report.included) ∧
      e.report.spliced = (own.map fun f => charge f.1 f.2 + (alone f).report.spliced).sum ∧
      ∃ tr, Unfolds sources limits (limits.maxDepth + 1) [path] (Source.directives text) 0 tr ∧
        e = ⟨tr.text true, tr.report⟩ ∧ tr.files.map Prod.fst = e.report.included ∧
        (∀ f ∈ tr.files, block f.1 f.2.text <:+: e.text ∧
          ∃ source, sources.lookup f.1 = some source ∧ f.2 = alone (f.1, source)) ∧
        ∀ f ∈ tr.files, ∀ g ∈ tr.files, f.1 = g.1 → f = g := by
  obtain ⟨tr, h, he⟩ := ofRoot_unfolds sources limits path text
  rw [he] at hu
  obtain ⟨hincluded, hspliced⟩ := h.report_targets hu (Nat.le_refl _)
  have halone := h.of_mem_files hu (Nat.le_refl _)
  have hsame : ∀ f ∈ tr.files, ∀ g ∈ tr.files, f.1 = g.1 → f = g := by
    intro f hf g hg hpath
    obtain ⟨source, hs, hf⟩ := halone f hf
    obtain ⟨source', hs', hg⟩ := halone g hg
    rw [hpath] at hs hf
    obtain rfl := Option.some.inj (hs.symm.trans hs')
    exact Prod.ext hpath (hf.trans hg.symm)
  simp only [he]
  exact ⟨h.text_eq_compose hu (Nat.le_refl _) true, hincluded, hspliced, tr, h, rfl,
    tr.map_fst_files, fun f hf => ⟨Trace.block_isInfix_text hf true, halone f hf⟩, hsame⟩

/-- A chapter and the root share a file of macros, which each names as seen from its directory. -/
theorem ofRoot_composes_of_shared :
    let macros : Text := "\\input{gone}"
    let sources : Sources := [("p/a.tex", "\\input{../m}"), ("m.tex", macros)]
    let e := ofRoot sources {} "main.tex" ("\\input{p/a}" ++ "\\input m")
    let alone := ofRoot sources {} "m.tex" macros
    e.report.Unhindered ∧ e.report.included = ["p/a.tex", "m.tex", "m.tex"] ∧
      ∃ tr : Trace, e = ⟨tr.text true, tr.report⟩ ∧ tr.files.map Prod.fst = e.report.included ∧
        ∀ f ∈ tr.files, f.1 = ("m.tex" : Text) →
          f.2 = alone ∧ block "m.tex" alone.text <:+: e.text := by
  intro macros sources e alone
  let m : Trace := .kept [] macros "gone.tex" .missing (.tail [])
  let a : Trace := .spliced [] "\\input{../m}" "m.tex" m (.tail [])
  have hmacros : Source.directives macros = .found [] macros ⟨.input, "gone"⟩ (.tail []) :=
    Source.directives_eq_found (List.cons_ne_nil _ _) rfl rfl
  have hchapter : Source.directives "\\input{../m}" =
      .found [] "\\input{../m}" ⟨.input, "../m"⟩ (.tail []) :=
    Source.directives_eq_found (List.cons_ne_nil _ _) rfl rfl
  have hroot : Source.directives ("\\input{p/a}" ++ "\\input m") =
      .found [] "\\input{p/a}" ⟨.input, "p/a"⟩
        (.found [] "\\input m" ⟨.input, "m"⟩ (.tail [])) := by
    have hrest : Source.directives "\\input m" = .found [] "\\input m" ⟨.input, "m"⟩ (.tail []) :=
      Source.directives_eq_found (List.cons_ne_nil _ _) rfl rfl
    rw [← hrest]
    exact Source.directives_append (List.cons_ne_nil _ _) rfl rfl
  have hm (levels spent : Nat) (chain : List Text) :
      Unfolds sources {} (levels + 1) ("m.tex" :: chain) (Source.directives macros) spent m := by
    rw [hmacros]
    exact .missing rfl rfl .tail
  have ha : Unfolds sources {} 25 ["p/a.tex", "main.tex"] (Source.directives "\\input{../m}")
      (0 + charge "p/a.tex" "\\input{../m}") a := by
    rw [hchapter]
    exact .spliced rfl rfl (by decide) (by decide) (hm _ _ _) .tail
  have h : Unfolds sources {} 26 ["main.tex"]
      (Source.directives ("\\input{p/a}" ++ "\\input m")) 0
      (.spliced [] "\\input{p/a}" "p/a.tex" a (.spliced [] "\\input m" "m.tex" m (.tail []))) := by
    rw [hroot]
    refine .spliced rfl rfl (by decide) (by decide) ha ?_
    exact .spliced rfl rfl (by decide) (by decide) (hm _ _ _) .tail
  have he : e = ⟨_, _⟩ := h.ofRoot_eq
  have hu : e.report.Unhindered := by
    rw [he]
    exact ⟨rfl, rfl, rfl⟩
  have hincluded : e.report.included = ["p/a.tex", "m.tex", "m.tex"] := by
    rw [he]
    rfl
  have hlookup : sources.lookup ("m.tex" : Text) = some macros := rfl
  obtain ⟨-, -, -, tr, -, he, hfiles, halone, -⟩ := ofRoot_composes sources {} "main.tex" _ hu
  refine ⟨hu, hincluded, tr, he, hfiles, fun f hf hpath => ?_⟩
  obtain ⟨hblock, source, hs, hf⟩ := halone f hf
  rw [hpath, hlookup] at hs
  obtain rfl := Option.some.inj hs
  rw [hpath] at hf hblock
  rw [hf] at hblock
  exact ⟨hf, hblock⟩

end Expansion

end TexBundle
