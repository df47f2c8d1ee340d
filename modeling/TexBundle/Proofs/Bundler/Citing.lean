import TexBundle.Proofs.Bundler.Previewing
import TexBundle.Proofs.References

/-!
# References of a preview

A preview lists the entries that its source cites. Only if nothing is cited at all, it lists the
first entries of the bibliography instead.

* `result_mergedSource_of_preview`: the source of a preview is the merged source;
* `preview_references`: what the reference section of a preview lists.
-/

namespace TexBundle.Bundler

open Operation Reference

variable {σ : Type} {b : Bundler (StateM σ)} {read : σ → View} {document : Document} {m : Manifest}
  {id : Text} {p : Preview} {g g' g₀ : Guard} {s s' s₀ : σ}

theorem result_mergedSource_of_preview (h : exec (b.preview id) g s = ((.ok p, g'), s')) :
    result (b.mergedSource id) g s = .ok p.source := by
  obtain ⟨document, g₀, s₀, hd, h⟩ := exec_bind_eq_ok h
  obtain ⟨source, g₁, s₁, hm, h⟩ := exec_bind_eq_ok h
  obtain ⟨bib, g₂, s₂, -, h⟩ := exec_bind_eq_ok h
  cases h
  rw [result, mergedSource, exec_bind_ok hd, hm]

/-- A preview of a bundle has the merged source. The cited keys are those of its citations, each
once and in the order in which they are first cited, and the bibliography is what the stored
bibliography files say, with one entry for each key. If something is cited, the lines are those of
the entries that the cited keys have, in the order of the keys, and there is no section if no cited
key has an entry. If nothing is cited, the lines are those of the first entries, as many as the
settings say, and there is no section if that is none. -/
theorem preview_references (hstore : b.store.Readable read)
    (hd : exec (b.loadDocument id) g s = ((.ok document, g₀), s₀)) (hm : document.manifest = some m)
    (h : exec (b.preview id) g s = ((.ok p, g'), s')) :
    let cited := Source.citedKeys p.source
    let bib := bibliographyFrom (read s') m (m.bucketOr b.settings.defaultBucket)
    let first := bib.entries.take b.settings.referenceFallbackLimit.toNat
    let keys := bib.entries.map (·.key)
    result (b.mergedSource id) g s = .ok p.source ∧
    FirstUses cited (Source.citations p.source) ∧ keys.Nodup ∧
    (cited ≠ [] →
      (p.references = none ↔ ∀ key ∈ cited, key ∉ keys) ∧
      ∀ refs, p.references = some refs → ∃ entries : List Entry,
        refs.lines = entries.map (formatEntry b.settings) ∧
        (∀ e ∈ entries, e ∈ bib.entries) ∧ entries.map (·.key) = cited.filter (· ∈ keys)) ∧
    (cited = [] →
      (p.references = none ↔ first = []) ∧
      ∀ refs, p.references = some refs →
        refs.lines = first.map (formatEntry b.settings)) := by
  intro cited bib first keys
  have hreferences : p.references = section? b.settings document.id cited bib :=
    ((previewFrom_eq_ok_iff b.settings).1 (exec_preview_eq_ok hstore hd hm h)).2
  have hkeys : keys.Nodup := Bibliography.nodup_keys _
  rw [hreferences, section?_eq_none_iff]
  refine ⟨result_mergedSource_of_preview h, Source.firstUses_citedKeys _, hkeys,
    fun hcited => ?_, fun hcited => ?_⟩
  · obtain ⟨hmem, hchosen⟩ := chosen_of_ne_nil b.settings hkeys hcited
    refine ⟨?_, fun refs hs => ⟨_, lines_of_section? hs, hmem, hchosen⟩⟩
    rw [← List.map_eq_nil_iff, hchosen, List.filter_eq_nil_iff]
    simp only [decide_eq_true_eq]
    rfl
  · rw [hcited, chosen_nil]
    exact ⟨Iff.rfl, fun refs hs => by rw [lines_of_section? hs, chosen_nil]⟩

/-- Two files of a bibliography, with a key that is in both of them and one that is cited twice. -/
theorem preview_references_of_two :
    let m : Manifest :=
      { bucket := "b", basePrefix := "p", entryPath := "m.tex",
        files := [⟨"a.bib", none, none⟩, ⟨"b.bib", none, none⟩] }
    let document : Document := { id := "d", manifest := some m }
    let b : Bundler (StateM Memory) := ⟨Memory.store, Shelf.store { documents := [document] }, {}⟩
    let s : Memory := { objects := [
      (("b", "p/m.tex"), Utf8.encode "\\cite\x7by,z,x\x7d\\cite\x7by\x7d"),
      (("b", "p/a.bib"), Utf8.encode "@misc\x7bx, title=\x7bX\x7d\x7d"),
      (("b", "p/b.bib"), Utf8.encode "@misc\x7bx, title=\x7bZ\x7d\x7d@misc\x7by\x7d")] }
    ∃ p refs, exec (b.preview "d") b.guard s = ((.ok p, b.guard), s) ∧
      p.references = some refs ∧ refs.lines = [("[y]" : Text), ("[x] X" : Text)] ∧
      FirstUses (Source.citedKeys p.source) (Source.citations p.source) := by
  intro m document b s
  have hd : exec (b.loadDocument "d") b.guard s = ((.ok document, b.guard), s) := rfl
  have h : exec (b.preview "d") b.guard s = ((.ok
      ⟨"\\cite\x7by,z,x\x7d\\cite\x7by\x7d",
        some ⟨"d-references", "References", ["[y]", "[x] X"]⟩⟩, b.guard), s) := by
    decide +kernel
  obtain ⟨-, hcited, -⟩ := preview_references Memory.store_readable hd rfl h
  exact ⟨_, _, h, rfl, rfl, hcited⟩

end TexBundle.Bundler
