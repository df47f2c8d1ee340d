import TexBundle.Proofs.Source.Comment
import TexBundle.Proofs.Source.Reader

/-!
# Comments and the scanners

The scanners for citations, figures and include directives find the same in texts that differ only
in what their comments say, as long as no occurrence mixes comments and the rest of the text. One
that does may hide what stands behind it.

* `figureKeys_eq`: figures of two forms stay in order, although comments move them about;
* `found_eq_of_sameCode`: all three scanners;
* `citedKeys_hidden`: a comment that hides a citation on the next line.
-/

namespace TexBundle.Source

open LineState (plain)

variable {α : Type} {read? : Text → Option (α × Text)} {t u : Text}

/-! ## Figures -/

/-- Figures of two forms are put in order by where they end. Counted without comments, this gives
the same order. -/
theorem map_value_merge {read? readOther? : Text → Option (Text × Text)}
    {vs ws : List (Text × Text)} (hvs : Scans read? [] t vs) (hws : Scans readOther? [] t ws)
    (hrem : remaining [] (Segments.cut read? t) = vs.map fun o => (Text.size o.1, o.2))
    (hrem' : remaining [] (Segments.cut readOther? t) = ws.map fun o => (Text.size o.1, o.2)) :
    ((figuresBy read? t).merge (figuresBy readOther? t) fun a b => a.stop ≤ b.stop).map (·.value) =
      (((vs.map fun o => (plain.code o.1, o.2)).merge (ws.map fun o => (plain.code o.1, o.2))
        fun a b => a.1.length ≤ b.1.length).map (·.2)) := by
  let byStop (a b : Nat × Text) : Bool := a.1 ≤ b.1
  have hlocated : ((figuresBy read? t).merge (figuresBy readOther? t) fun a b =>
      a.stop ≤ b.stop).map (fun o => (o.stop, o.value)) =
        (remaining [] (Segments.cut read? t)).merge (remaining [] (Segments.cut readOther? t))
          byStop := List.map_merge fun _ _ _ _ => rfl
  have hscanned : (vs.merge ws fun a b => Text.size a.1 ≤ Text.size b.1).map
      (fun o => (Text.size o.1, o.2)) =
        (vs.map fun o => (Text.size o.1, o.2)).merge (ws.map fun o => (Text.size o.1, o.2))
          byStop := List.map_merge fun _ _ _ _ => rfl
  rw [hrem, hrem', ← hscanned] at hlocated
  have horder : ∀ a ∈ vs, ∀ b ∈ ws, decide (Text.size a.1 ≤ Text.size b.1) =
      decide ((plain.code a.1).length ≤ (plain.code b.1).length) := by
    intro a ha b hb
    obtain ⟨hpre, p, c, hp, hpc⟩ := hvs.ends a ha
    obtain ⟨hpre', q, d, hq, hqd⟩ := hws.ends b hb
    rw [hp] at hpre ⊢
    rw [hq] at hpre' ⊢
    exact decide_eq_decide.2 (size_le_size_iff hpre hpre' hpc hqd)
  have hvalues := congrArg (List.map (·.2)) hlocated
  rw [List.map_map, List.map_map] at hvalues
  rw [← List.map_merge horder, List.map_map]
  exact hvalues

theorem figureKeys_eq (hcode : SameCode t u)
    (ht : KeepsApart Figure.readDetokenized? t) (hu : KeepsApart Figure.readDetokenized? u)
    (ht' : KeepsApart Figure.readPlain? t) (hu' : KeepsApart Figure.readPlain? u) :
    figureKeys t = figureKeys u := by
  obtain ⟨vs, vs₁, hvs, hvs₁, hrem, hrem₁, hsame⟩ :=
    ht.exists_scans exact_detokenized proper_detokenized hcode hu
  obtain ⟨ws, ws₁, hws, hws₁, hrem', hrem₁', hsame'⟩ :=
    ht'.exists_scans exact_plain proper_plain hcode hu'
  have hkeys := map_value_merge hvs hws hrem hrem'
  have hkeys₁ := map_value_merge hvs₁ hws₁ hrem₁ hrem₁'
  rw [hsame, hsame', ← hkeys] at hkeys₁
  exact congrArg List.eraseDups hkeys₁.symm

/-! ## All scanners -/

/-- Two texts that differ in what their comments say have the same citations, the same figures and
the same include directives, if no occurrence mixes comments and the rest of a text. -/
theorem found_eq_of_sameCode (h : SameCode t u) :
    (KeepsApart Citation.read? t → KeepsApart Citation.read? u → citedKeys t = citedKeys u) ∧
    (KeepsApart Figure.readDetokenized? t → KeepsApart Figure.readDetokenized? u →
      KeepsApart Figure.readPlain? t → KeepsApart Figure.readPlain? u →
      figureKeys t = figureKeys u) ∧
    (KeepsApart Directive.read? t → KeepsApart Directive.read? u →
      (directives t).values = (directives u).values) := by
  refine ⟨fun ht hu => ?_, figureKeys_eq h, fun ht hu => ?_⟩
  · rw [citedKeys, citedKeys, values_uncommented_eq exact_citation proper_citation h ht hu]
  · exact values_uncommented_eq exact_directive proper_directive h ht hu

/-- Commands in comments, a longer comment in front of a figure, and a directive that a comment
follows at once. -/
theorem found_eq_of_sameCode_drafts :
    let t : Text := "\\cite{a}% \\cite{b}\n\\includegraphics{assets/k} %\n\\input c% \\input{d}"
    let u : Text := "\\cite{a}%\n\\includegraphics{assets/k} % \\cite{b}\n\\input c%"
    SameCode t u ∧ citedKeys t = citedKeys u ∧ figureKeys t = figureKeys u ∧
      (directives t).values = (directives u).values := by
  intro t u
  have h : SameCode t u := by
    refine .cons ?_ (.cons ?_ (.cons ?_ .nil)) <;> decide +kernel
  obtain ⟨hcited, hfigures, hdirectives⟩ := found_eq_of_sameCode h
  refine ⟨h, hcited ?_ ?_, hfigures ?_ ?_ ?_ ?_, hdirectives ?_ ?_⟩ <;> decide +kernel

/-- A citation begun in a comment takes the one on the next line with it. Without it, that one is
found. -/
theorem citedKeys_hidden :
    let t : Text := "%\\cite\x7b\n\\cite\x7ba\x7d"
    let u : Text := "%\n\\cite{a}"
    SameCode t u ∧ citedKeys t = [] ∧ citedKeys u = ["a"] := by
  intro t u
  have h : SameCode t u := by
    refine .cons ?_ (.cons ?_ .nil) <;> decide +kernel
  exact ⟨h, by decide +kernel, by decide +kernel⟩

end TexBundle.Source
