import TexBundle.Proofs.Bundler.Run
import TexBundle.Proofs.Expansion.Trace

/-!
# Cycles in bundles

A directive that leads back to an open file is replaced by a skip marker only if the file is among
the sources, and the sources of a bundle are its files without the entry. So cycles are cut where
they close on a file that was included, and not where they close on the entry.

* `Edge.Justified`: what is known of a directive that is come upon;
* `Unfolds.justified`: this holds throughout a trace;
* `mergedSource_edges`: what becomes of the directives of a bundle that lead back;
* `mergedSource_self`: an entry that includes itself keeps the directive.
-/

namespace TexBundle

namespace Expansion

open Source (Directive)

/-- The files open at a directive are those open at the start, and others that are among the
sources. A directive that leads back to one of them is skipped if that file is among the sources,
and otherwise stays as a missing one. -/
structure Edge.Justified (sources : Sources) (chain : List Text) (e : Edge) : Prop where
  isSuffix : chain <:+ e.chain
  isSome_of_mem : ∀ p ∈ e.chain, p ∈ chain ∨ (sourceOf? sources p).isSome
  fate_eq : e.path ∈ e.chain →
    e.fate = if (sourceOf? sources e.path).isSome then .skipped else .kept .missing

variable {sources : Sources} {limits : Limits} {levels spent : Nat} {chain : List Text}
  {path : Text} {s : Segments Directive} {tr : Trace} {e : Edge}

/-- A directive in the text that is being followed. -/
theorem Edge.Justified.here {fate : Fate}
    (h : path ∈ chain →
      fate = if (sourceOf? sources path).isSome then .skipped else .kept .missing) :
    Edge.Justified sources chain ⟨chain, path, fate⟩ where
  isSuffix := List.suffix_refl chain
  isSome_of_mem _ hp := .inl hp
  fate_eq := h

/-- A directive in a file that is spliced in. -/
theorem Edge.Justified.of_cons (h : e.Justified sources (path :: chain))
    (hpath : (sourceOf? sources path).isSome) : e.Justified sources chain where
  isSuffix := (List.suffix_cons path chain).trans h.isSuffix
  isSome_of_mem p hp := by
    rcases h.isSome_of_mem p hp with hp | hp
    · rcases List.mem_cons.1 hp with rfl | hp
      · exact .inr hpath
      · exact .inl hp
    · exact .inr hp
  fate_eq := h.fate_eq

theorem Unfolds.justified (h : Unfolds sources limits levels chain s spent tr) :
    ∀ e ∈ tr.edges chain, e.Justified sources chain := by
  induction h with
  | deep | tail => exact List.forall_mem_nil _
  | missing _ hs _ ih =>
    exact List.forall_mem_cons.2 ⟨.here fun _ => by simp [hs], ih⟩
  | skipped _ hs _ _ ih =>
    exact List.forall_mem_cons.2 ⟨.here fun _ => by simp [hs], ih⟩
  | exhausted _ _ hc _ _ ih =>
    exact List.forall_mem_cons.2 ⟨.here fun hm => absurd hm hc, ih⟩
  | spliced _ hs hc _ _ _ ihb ihr =>
    refine List.forall_mem_cons.2 ⟨.here fun hm => absurd hm hc, ?_⟩
    refine List.forall_mem_append.2 ⟨fun e he => (ihb e he).of_cons (by rw [hs]; rfl), ihr⟩

end Expansion

namespace Bundler

open Expansion Operation

variable {σ : Type} {b : Bundler (StateM σ)} {read : σ → View}

/-- The entry is not among the sources of a bundle. -/
theorem sourceOf?_entryPath (view : View) (m : Manifest) (bucket : Text) :
    sourceOf? (sourcesOf view m bucket) m.entryPath = none := by
  rw [sourceOf?]
  split
  · rfl
  · refine List.lookup_eq_none_iff.2 fun p hp => ?_
    obtain ⟨f, hf, ht⟩ := List.mem_filterMap.1 (List.mem_reverse.1 hp)
    have hpath : p.1 = f.path := Collection.fst_of_textOf? ht
    have hne : f.path ≠ m.entryPath := by
      simpa using (List.mem_filter.1 (List.mem_filter.1 hf).1).2
    rw [hpath]
    exact bne_iff_ne.2 hne.symm

/-- What becomes of the directives of a bundle that lead back to an open file: those that lead to
the entry stay as they are, and all others become skip markers. Hence all become skip markers
exactly if no directive leads to the entry. -/
theorem mergedSource_edges (hstore : b.store.Readable read) {document : Document} {m : Manifest}
    (hm : document.manifest = some m) {id text : Text} {g g₀ g' : Guard} {s s₀ s' : σ}
    (hd : exec (b.loadDocument id) g s = ((.ok document, g₀), s₀))
    (h : exec (b.mergedSource id) g s = ((.ok text, g'), s')) :
    let bucket := m.bucketOr b.settings.defaultBucket
    ∃ entry tr,
      read s' bucket (m.storageKey m.entryPath) = .ok entry ∧
      Unfolds (sourcesOf (read s') m bucket) b.settings.limits (b.settings.limits.maxDepth + 1)
        [m.entryPath] (Source.directives (Utf8.decodeLossy entry)) 0 tr ∧
      text = tr.text true ∧
      (∀ e ∈ tr.edges [m.entryPath], e.path ∈ e.chain →
        e.fate = if e.path = m.entryPath then .kept .missing else .skipped) ∧
      ((∀ e ∈ tr.edges [m.entryPath], e.path ∈ e.chain → e.fate = .skipped) ↔
        ∀ e ∈ tr.edges [m.entryPath], e.path ≠ m.entryPath) := by
  rw [mergedSource, exec_bind_ok hd] at h
  obtain ⟨-, entry, hentry, htext⟩ := exec_merge_bundle hstore hm h
  generalize m.bucketOr b.settings.defaultBucket = bucket at hentry htext ⊢
  obtain ⟨tr, htr, he⟩ := ofRoot_unfolds (sourcesOf (read s') m bucket) b.settings.limits
    m.entryPath (Utf8.decodeLossy entry)
  have hfate : ∀ e ∈ tr.edges [m.entryPath], e.path ∈ e.chain →
      e.fate = if e.path = m.entryPath then .kept .missing else .skipped := by
    intro e hmem hc
    have hj := htr.justified e hmem
    rw [hj.fate_eq hc]
    by_cases hp : e.path = m.entryPath
    · rw [if_pos hp, hp, sourceOf?_entryPath]
      rfl
    · -- All other files that are open were spliced in, so they are among the sources.
      rw [if_neg hp]
      rcases hj.isSome_of_mem e.path hc with hroot | hsource
      · exact absurd (List.mem_singleton.1 hroot) hp
      · rw [if_pos hsource]
  refine ⟨entry, tr, hentry, htr, by rw [htext, he], hfate, ?_⟩
  constructor
  · intro hskip e hmem hp
    have hc : e.path ∈ e.chain := hp ▸ (htr.justified e hmem).isSuffix.subset List.mem_cons_self
    have := (hfate e hmem hc).symm.trans (hskip e hmem hc)
    simp [hp] at this
  · intro hentry e hmem hc
    rw [hfate e hmem hc, if_neg (hentry e hmem)]

/-- A bundle of two files, in which the cycle that closes on the included file is cut, and the one
that closes on the entry is not. -/
theorem mergedSource_edges_of_two :
    let m : Manifest :=
      { bucket := "b", basePrefix := "p", entryPath := "m.tex", files := [⟨"a.tex", none, none⟩] }
    let document : Document := { id := "d", manifest := some m }
    let b : Bundler (StateM Memory) := ⟨Memory.store, Shelf.store { documents := [document] }, {}⟩
    let s : Memory := { objects := [
      (("b", "p/m.tex"), Utf8.encode "\\input{a}"),
      (("b", "p/a.tex"), Utf8.encode "\\input{a}\n\\input{m}")] }
    ∃ text tr,
      exec (b.mergedSource "d") b.guard s = ((.ok text, b.guard), s) ∧ text = Trace.text tr true ∧
      ∀ e ∈ tr.edges ["m.tex"], e.path ∈ e.chain →
        e.fate = if e.path = "m.tex" then .kept .missing else .skipped := by
  intro m document b s
  have hd : exec (b.loadDocument "d") b.guard s = ((.ok document, b.guard), s) := rfl
  have h : exec (b.mergedSource "d") b.guard s =
      ((.ok "% >>> ferrotex: begin include a.tex
% ferrotex: skipped recursive include a.tex
\\input{m}
% <<< ferrotex: end include a.tex", b.guard), s) := by
    decide +kernel
  obtain ⟨-, tr, -, -, htext, hfate, -⟩ :=
    mergedSource_edges Memory.store_readable (rfl : document.manifest = some m) hd h
  exact ⟨_, tr, h, htext, hfate⟩

/-- An entry that includes itself: the directive leads to a file that is open, and stays. -/
theorem mergedSource_self :
    let m : Manifest := { bucket := "b", basePrefix := "p", entryPath := "main.tex" }
    let b : Bundler (StateM Memory) :=
      ⟨Memory.store, Shelf.store { documents := [{ id := "d", manifest := some m }] }, {}⟩
    let s : Memory := { objects := [(("b", "p/main.tex"), Utf8.encode "\\input{main}")] }
    m.validate = .ok () ∧
      Path.target (Path.directory m.entryPath) "main" = m.entryPath ∧
      exec (b.mergedSource "d") b.guard s = ((.ok "\\input{main}", b.guard), s) := by
  decide +kernel

end Bundler

end TexBundle
