import TexBundle.Proofs.Bundler.Views

/-!
# What views are made of

Once the bucket of a bundle has been made sure of, its merged source and its preview are settled by
what can be downloaded, and so are the errors they end in.

* `mergedFrom`, `bibliographyFrom`, `previewFrom`: the views as functions of what can be downloaded;
* `exec_merge`, `exec_preview`: what merging and previewing come to, in terms of these;
* `exec_preview_eq_ok`: what is known of a preview that succeeds.
-/

namespace TexBundle.Bundler

open Operation

variable {σ : Type} {b : Bundler (StateM σ)} {read : σ → View} {document : Document} {m : Manifest}
  {id bucket : Text} {e : BundleError} {p : Preview} {g g' g₀ g₁ : Guard} {s s' s₀ s₁ : σ}

/-- The merged source of a bundle that is read from a bucket. -/
def mergedFrom (settings : Settings) (view : View) (m : Manifest) (bucket : Text) :
    Except BundleError Text :=
  match view bucket (m.storageKey m.entryPath) with
  | .error _ => .error (.entryNotFound m.entryPath)
  | .ok entry => .ok (Expansion.ofRoot (sourcesOf view m bucket) settings.limits m.entryPath
      (Utf8.decodeLossy entry)).text

/-- What the bibliography files of a bundle say that can be downloaded. -/
def bibliographyFrom (view : View) (m : Manifest) (bucket : Text) : Bibliography :=
  let texts := m.bibliographyFiles.filterMap (Collection.textOf? view m bucket)
  .ofText (texts.flatMap fun (_, t) => t ++ "\n")

def previewFrom (settings : Settings) (id : Text) (view : View) (m : Manifest) (bucket : Text) :
    Except BundleError Preview :=
  (mergedFrom settings view m bucket).map fun source =>
    ⟨source, Reference.section? settings id (Source.citedKeys source)
      (bibliographyFrom view m bucket)⟩

theorem mergedFrom_eq_ok_iff (settings : Settings) {view : View} {source : Text} :
    mergedFrom settings view m bucket = .ok source ↔
      ∃ entry, view bucket (m.storageKey m.entryPath) = .ok entry ∧
        source = (Expansion.ofRoot (sourcesOf view m bucket) settings.limits m.entryPath
          (Utf8.decodeLossy entry)).text := by
  rw [mergedFrom]
  cases view bucket (m.storageKey m.entryPath) with
  | error e => simp
  | ok entry => simp [eq_comm]

theorem previewFrom_eq_ok_iff (settings : Settings) {view : View} :
    previewFrom settings id view m bucket = .ok p ↔
      mergedFrom settings view m bucket = .ok p.source ∧
        p.references = Reference.section? settings id (Source.citedKeys p.source)
          (bibliographyFrom view m bucket) := by
  obtain ⟨source, references⟩ := p
  rw [previewFrom]
  cases mergedFrom settings view m bucket with
  | error e => simp [Except.map]
  | ok source' =>
    simp only [Except.map, Except.ok.injEq, Preview.mk.injEq]
    constructor <;>
    · rintro ⟨rfl, h⟩
      exact ⟨rfl, h.symm⟩

/-! ## Merging -/

theorem origin_of_manifest (hm : document.manifest = some m) (hv : m.validate = .ok ()) :
    document.origin = .ok (.bundle m) := by
  rw [Document.origin, hm]
  simp only [hv]
  rfl

theorem exec_merge (hstore : b.store.Readable read) (ho : document.origin = .ok (.bundle m))
    (hb : exec (b.bucketFor m) g s = ((.ok bucket, g₁), s₁)) :
    ∃ s₂, exec (b.merge document) g s = ((mergedFrom b.settings (read s₁) m bucket, g₁), s₂) ∧
      read s₂ = read s₁ := by
  obtain ⟨hentry, hs⟩ := hstore bucket (m.storageKey m.entryPath) s₁
  rw [merge, exec_bind_ok (exec_give_origin ho g s)]
  show ∃ s₂, exec (b.bucketFor m >>= _) g s = _ ∧ _
  rw [exec_bind_ok hb, exec_bind_ok (exec_call _ g₁ s₁), hentry, mergedFrom]
  cases read s₁ bucket (m.storageKey m.entryPath) with
  | error e => exact ⟨_, rfl, hs⟩
  | ok entry =>
    obtain ⟨htexts, hs'⟩ := Collection.loadTexts_reads hstore m bucket m.texFiles
      (b.store.download bucket (m.storageKey m.entryPath) s₁).2
    rw [hs] at htexts hs'
    exact ⟨_, by rw [sourcesOf, ← htexts]; rfl, hs'⟩

theorem exec_merge_error (ho : document.origin = .ok (.bundle m))
    (hb : exec (b.bucketFor m) g s = ((.error e, g₁), s₁)) :
    exec (b.merge document) g s = ((.error e, g₁), s₁) := by
  rw [merge, exec_bind_ok (exec_give_origin ho g s)]
  show exec (b.bucketFor m >>= _) g s = _
  rw [exec_bind_error hb]

/-! ## Previewing -/

/-- Once its bucket is settled, the bibliography of a bundle is what its files say. -/
theorem exec_bibliography_reads (hstore : b.store.Readable read)
    (ho : document.origin = .ok (.bundle m)) (h : b.Settled m g) (s : σ) :
    ∃ s', exec (b.bibliography document) g s =
        ((.ok (bibliographyFrom (read s) m (m.bucketOr b.settings.defaultBucket)), g), s') ∧
      read s' = read s := by
  obtain ⟨htexts, hs⟩ := Collection.loadTexts_reads hstore m
    (m.bucketOr b.settings.defaultBucket) m.bibliographyFiles s
  rw [bibliography, exec_bind_ok (exec_give_origin ho g s)]
  show ∃ s', exec (b.loadBibliography m) g s = _ ∧ _
  rw [loadBibliography, exec_bind_ok (exec_bucketFor h s)]
  exact ⟨_, by rw [bibliographyFrom, ← htexts]; rfl, hs⟩

theorem exec_preview (hstore : b.store.Readable read)
    (hd : exec (b.loadDocument id) g s = ((.ok document, g₀), s₀))
    (ho : document.origin = .ok (.bundle m))
    (hb : exec (b.bucketFor m) g₀ s₀ = ((.ok bucket, g₁), s₁)) :
    ∃ s₂, exec (b.preview id) g s =
        ((previewFrom b.settings document.id (read s₁) m bucket, g₁), s₂) ∧
      read s₂ = read s₁ := by
  obtain ⟨s₂, hm, hs₂⟩ := exec_merge hstore ho hb
  rw [preview, exec_bind_ok hd, previewFrom]
  cases hmerged : mergedFrom b.settings (read s₁) m bucket with
  | error e =>
    rw [hmerged] at hm
    exact ⟨s₂, exec_bind_error hm, hs₂⟩
  | ok source =>
    rw [hmerged] at hm
    obtain ⟨s₃, hbib, hs₃⟩ := exec_bibliography_reads hstore ho (settled_of_merge ho hm) s₂
    rw [← eq_bucketOr_of_exec hb, hs₂] at hbib
    exact ⟨s₃, by rw [exec_bind_ok hm, exec_bind_ok hbib]; rfl, hs₃.trans hs₂⟩

theorem exec_preview_error (hd : exec (b.loadDocument id) g s = ((.ok document, g₀), s₀))
    (ho : document.origin = .ok (.bundle m))
    (hb : exec (b.bucketFor m) g₀ s₀ = ((.error e, g₁), s₁)) :
    exec (b.preview id) g s = ((.error e, g₁), s₁) := by
  rw [preview, exec_bind_ok hd, exec_bind_error (exec_merge_error ho hb)]

/-! ## Results -/

theorem eq_bucketOr_of_result (h : result (b.bucketFor m) g s = .ok bucket) :
    bucket = m.bucketOr b.settings.defaultBucket :=
  eq_bucketOr_of_exec (Prod.ext (Prod.ext h rfl) rfl)

/-- What can be downloaded once it has been tried to get the bucket of a bundle. -/
def viewOf (b : Bundler (StateM σ)) (read : σ → View) (m : Manifest) (g : Guard) (s : σ) : View :=
  read (exec (b.bucketFor m) g s).2

theorem result_mergedSource (hstore : b.store.Readable read)
    (hd : exec (b.loadDocument id) g s = ((.ok document, g₀), s₀))
    (ho : document.origin = .ok (.bundle m)) :
    result (b.mergedSource id) g s =
      (result (b.bucketFor m) g₀ s₀).bind (mergedFrom b.settings (b.viewOf read m g₀ s₀) m) := by
  rw [result, mergedSource, exec_bind_ok hd, viewOf, result]
  obtain ⟨⟨⟨bucket?, g₁⟩, s₁⟩, hb⟩ : ∃ x, exec (b.bucketFor m) g₀ s₀ = x := ⟨_, rfl⟩
  rw [hb]
  cases bucket? with
  | error e => rw [exec_merge_error ho hb]; rfl
  | ok bucket =>
    obtain ⟨s₂, hm, -⟩ := exec_merge hstore ho hb
    rw [hm]
    rfl

theorem result_preview_eq (hstore : b.store.Readable read)
    (hd : exec (b.loadDocument id) g s = ((.ok document, g₀), s₀))
    (ho : document.origin = .ok (.bundle m)) :
    result (b.preview id) g s =
      (result (b.bucketFor m) g₀ s₀).bind
        (previewFrom b.settings document.id (b.viewOf read m g₀ s₀) m) := by
  rw [viewOf, result, result]
  obtain ⟨⟨⟨bucket?, g₁⟩, s₁⟩, hb⟩ : ∃ x, exec (b.bucketFor m) g₀ s₀ = x := ⟨_, rfl⟩
  rw [hb]
  cases bucket? with
  | error e => rw [exec_preview_error hd ho hb]; rfl
  | ok bucket =>
    obtain ⟨s₂, hp, -⟩ := exec_preview hstore hd ho hb
    rw [hp]
    rfl

/-- A bundle that can be previewed is valid, and its preview is made of what can be downloaded in
the end. -/
theorem exec_preview_eq_ok (hstore : b.store.Readable read)
    (hd : exec (b.loadDocument id) g s = ((.ok document, g₀), s₀)) (hm : document.manifest = some m)
    (h : exec (b.preview id) g s = ((.ok p, g'), s')) :
    previewFrom b.settings document.id (read s') m (m.bucketOr b.settings.defaultBucket) =
      .ok p := by
  have hmerge := h
  rw [preview, exec_bind_ok hd] at hmerge
  obtain ⟨source, g₂, s₂, hmerge, -⟩ := exec_bind_eq_ok hmerge
  obtain ⟨m', ho, -⟩ | ⟨hnone, -⟩ := origin_of_merge hmerge
  · obtain ⟨_, hm', -, ⟨⟩⟩ | ⟨-, _, ⟨⟩⟩ := Document.origin_cases ho
    obtain rfl := Option.some.inj (hm.symm.trans hm')
    obtain ⟨⟨⟨result, g₁⟩, s₁⟩, hb⟩ : ∃ x, exec (b.bucketFor m) g₀ s₀ = x := ⟨_, rfl⟩
    cases result with
    | error e => cases (exec_preview_error hd ho hb).symm.trans h
    | ok bucket =>
      obtain ⟨s₃, hp, hs₃⟩ := exec_preview hstore hd ho hb
      obtain ⟨⟨hresult, -⟩, rfl⟩ := Prod.mk.inj (h.symm.trans hp) |>.imp_left Prod.mk.inj
      rw [hs₃, ← eq_bucketOr_of_exec hb, hresult]
  · rw [hm] at hnone
    cases hnone

end TexBundle.Bundler
