import TexBundle.Proofs.Bundler.Confinement
import TexBundle.Proofs.Bundler.Previewing

/-!
# Files that cannot be read

Merging and previewing pass over the files of a bundle that cannot be downloaded, as if they were
not listed. Only the entry has to be there.

* `Manifest.available`: a manifest without the files that cannot be downloaded;
* `mergedFrom_available`, `previewFrom_available`: the views do not notice that they are left out;
* `views_available`: this said of the operations, and that they need no file but the entry.
-/

namespace TexBundle

/-- A manifest without the files, other than the entry, that cannot be downloaded. -/
def Manifest.available (m : Manifest) (view : View) (bucket : Text) : Manifest :=
  { m with files := m.files.filter fun f =>
      f.path = m.entryPath ∨ (view bucket (m.storageKey f.path)).isOk }

namespace Manifest

variable {m : Manifest} {view : View} {bucket : Text}

theorem validate_available (h : m.validate = .ok ()) :
    (m.available view bucket).validate = .ok () := by
  obtain ⟨hbase, hentry, hpaths⟩ := validate_eq_ok_iff.1 h
  refine validate_eq_ok_iff.2 ⟨hbase, hentry, fun path hp => hpaths path ?_⟩
  have hsub : (m.available view bucket).files.map (·.path) ⊆ m.files.map (·.path) :=
    List.map_subset _ (List.filter_subset_self _)
  exact List.cons_subset_cons m.entryPath hsub hp

/-- The texts of files are the same, whatever kind of files. -/
theorem texts_available (kind : ListedFile → Bool) :
    ((m.available view bucket).bundleFiles.filter kind).filterMap
        (Collection.textOf? view (m.available view bucket) bucket) =
      (m.bundleFiles.filter kind).filterMap (Collection.textOf? view m bucket) := by
  have htext : Collection.textOf? view (m.available view bucket) bucket =
      Collection.textOf? view m bucket := rfl
  rw [htext, bundleFiles, bundleFiles, available]
  simp only [List.filterMap_filter]
  congr 1
  funext f
  by_cases hentry : f.path = m.entryPath
  · simp [hentry]
  · cases hstored : view bucket (m.storageKey f.path) with
    | ok bytes => simp [Except.isOk, Except.toBool]
    | error e => simp [Collection.textOf?, hstored]

end Manifest

namespace Bundler

open Operation

variable {σ : Type} {b : Bundler (StateM σ)} {read : σ → View} {document : Document} {m : Manifest}
  {id : Text} {g g₀ : Guard} {s s₀ : σ}

theorem mergedFrom_available (settings : Settings) (view : View) (m : Manifest) (bucket : Text) :
    mergedFrom settings view (m.available view bucket) bucket =
      mergedFrom settings view m bucket := by
  have hsources : sourcesOf view (m.available view bucket) bucket = sourcesOf view m bucket :=
    congrArg List.reverse (Manifest.texts_available _)
  rw [mergedFrom, mergedFrom, hsources]
  rfl

theorem previewFrom_available (settings : Settings) (id : Text) (view : View) (m : Manifest)
    (bucket : Text) :
    previewFrom settings id view (m.available view bucket) bucket =
      previewFrom settings id view m bucket := by
  have hbib : bibliographyFrom view (m.available view bucket) bucket =
      bibliographyFrom view m bucket := by
    rw [bibliographyFrom, bibliographyFrom, Manifest.bibliographyFiles, Manifest.texts_available]
    rfl
  rw [previewFrom, previewFrom, mergedFrom_available, hbib]

/-- A bundle whose files cannot all be downloaded has the same merged source and the same preview as
the bundle without these files: the same result, or the same error. If the bucket can be had and the
entry can be downloaded, neither fails. -/
theorem views_available (hstore : b.store.Readable read)
    (hd : exec (b.loadDocument id) g s = ((.ok document, g₀), s₀))
    (hm : document.manifest = some m) (hv : m.validate = .ok ())
    (documents : DocumentStore (StateM σ)) :
    let bucket := m.bucketOr b.settings.defaultBucket
    let view := b.viewOf read m g₀ s₀
    let document' := { document with manifest := some (m.available view bucket) }
    let b' := { b with documents := documents }
    (exec (b'.loadDocument id) g s = ((.ok document', g₀), s₀) →
      result (b'.mergedSource id) g s = result (b.mergedSource id) g s ∧
        result (b'.preview id) g s = result (b.preview id) g s) ∧
    (result (b.bucketFor m) g₀ s₀ = .ok bucket →
      (∃ entry, view bucket (m.storageKey m.entryPath) = .ok entry) →
      (∃ source, result (b.mergedSource id) g s = .ok source) ∧
        ∃ p, result (b.preview id) g s = .ok p) := by
  intro bucket view document' b'
  have ho : document.origin = .ok (.bundle m) := origin_of_manifest hm hv
  have ho' : document'.origin = .ok (.bundle (m.available view bucket)) :=
    origin_of_manifest rfl (Manifest.validate_available hv)
  rw [result_mergedSource hstore hd ho, result_preview_eq hstore hd ho]
  refine ⟨fun hd' => ?_, fun hb ⟨entry, hentry⟩ => ?_⟩
  · have hbucket : result (b'.bucketFor (m.available view bucket)) g₀ s₀ =
        result (b.bucketFor m) g₀ s₀ := rfl
    have hview : b'.viewOf read (m.available view bucket) g₀ s₀ = view := rfl
    rw [result_mergedSource (b := b') hstore hd' ho', result_preview_eq (b := b') hstore hd' ho',
      hbucket, hview]
    cases hb : result (b.bucketFor m) g₀ s₀ with
    | error e => simp only [Except.bind, and_self]
    | ok bucket' =>
      obtain rfl : bucket' = bucket := eq_bucketOr_of_result hb
      exact ⟨mergedFrom_available _ view m _, previewFrom_available _ _ view m _⟩
  · have hmerged := (mergedFrom_eq_ok_iff b.settings).2 ⟨entry, hentry, rfl⟩
    rw [hb]
    exact ⟨⟨_, hmerged⟩, _, by rw [Except.bind, previewFrom, hmerged]; rfl⟩

/-- A bundle of which one source and the bibliography are not stored. -/
theorem views_available_of_two :
    let m : Manifest :=
      { bucket := "b", basePrefix := "p", entryPath := "m.tex",
        files := [⟨"a.tex", none, none⟩, ⟨"gone.tex", none, none⟩, ⟨"gone.bib", none, none⟩] }
    let m' := { m with files := [⟨"a.tex", none, none⟩] }
    let document : Document := { id := "d", manifest := some m }
    let documents : DocumentStore (StateM Memory) :=
      Shelf.store { documents := [{ document with manifest := some m' }] }
    let b : Bundler (StateM Memory) := ⟨Memory.store, Shelf.store { documents := [document] }, {}⟩
    let b' := { b with documents := documents }
    let s : Memory := { objects := [
      (("b", "p/m.tex"), Utf8.encode "\\input{a}\\input{gone}"), (("b", "p/a.tex"), [0x41])] }
    result (b'.mergedSource "d") b.guard s = result (b.mergedSource "d") b.guard s ∧
      result (b'.preview "d") b.guard s = result (b.preview "d") b.guard s ∧
      ∃ p, result (b.preview "d") b.guard s = .ok p := by
  intro m m' document documents b b' s
  have hd : exec (b.loadDocument "d") b.guard s = ((.ok document, b.guard), s) := rfl
  have hv : m.validate = .ok () := by decide
  have hview : b.viewOf Memory.download m b.guard s = s.download := rfl
  have havail : m.available s.download "b" = m' := by decide +kernel
  have hbucket : m.bucketOr b.settings.defaultBucket = "b" := by decide +kernel
  have h := views_available Memory.store_readable hd rfl hv documents
  simp only [hview, hbucket, havail] at h
  have hd' : exec (b'.loadDocument "d") b.guard s =
      ((.ok { document with manifest := some m' }, b.guard), s) := rfl
  have hb : result (b.bucketFor m) b.guard s = .ok "b" := by decide +kernel
  have hentry : ∃ entry, s.download "b" (m.storageKey m.entryPath) = .ok entry :=
    ⟨Utf8.encode "\\input{a}\\input{gone}", by decide +kernel⟩
  obtain ⟨hmerged, hpreview⟩ := h.1 hd'
  exact ⟨hmerged, hpreview, (h.2 hb hentry).2⟩

end Bundler

end TexBundle
