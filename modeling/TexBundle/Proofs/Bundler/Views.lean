import TexBundle.Proofs.Bundler.Packing
import TexBundle.Proofs.Storage.Guard

/-!
# Views of a document

The views of a document are made one at a time, each from the stores as they are. All of them merge
the source first, so that they fail together; and once it is merged, the bucket of a bundle is known
to be there, so that nothing can stop them any more.

* `Settled`: the guard knows of the bucket that a manifest needs;
* `settled_of_merge`: merging the source of a bundle settles its bucket;
* `views_agree`: how the views of a document go together.
-/

namespace TexBundle.Bundler

open Operation

variable {σ : Type} {b : Bundler (StateM σ)} {document : Document} {m : Manifest}
  {id bucket source : Text} {g g' g₁ g₂ : Guard} {s s' s₁ s₂ : σ}

/-- The result of an operation. -/
abbrev result {α : Type} (op : Operation (StateM σ) α) (g : Guard) (s : σ) :
    Except BundleError α :=
  (op.exec g s).1.1

/-- If a manifest needs the default bucket, the guard knows of it. -/
def Settled (b : Bundler (StateM σ)) (m : Manifest) (g : Guard) : Prop :=
  m.bucketOr b.settings.defaultBucket = b.settings.defaultBucket → g.ready = true

/-! ## Buckets -/

theorem exec_ensureDefault (b : Bundler (StateM σ)) (g : Guard) (s : σ) :
    exec b.ensureDefault g s =
      (((g.ensure b.store s).1.1.mapError .storage, (g.ensure b.store s).1.2),
        (g.ensure b.store s).2) :=
  rfl

theorem ready_of_ensureDefault {u : Unit} (h : exec b.ensureDefault g s = ((.ok u, g'), s')) :
    g'.ready = true := by
  rw [exec_ensureDefault] at h
  cases hready : g.ready with
  | true =>
    rw [Guard.ensure_ready hready] at h
    cases h
    exact hready
  | false =>
    rw [Guard.ensure_not_ready hready] at h
    obtain ⟨⟨hresult, rfl⟩, -⟩ := Prod.mk.inj h |>.imp_left Prod.mk.inj
    cases hcheck : (g.check b.store s).1 with
    | ok _ => rfl
    | error e =>
      rw [hcheck] at hresult
      cases hresult

theorem settled_of_bucketFor (h : exec (b.bucketFor m) g s = ((.ok bucket, g'), s')) :
    b.Settled m g' := by
  intro hdefault
  simp only [bucketFor, if_pos hdefault] at h
  obtain ⟨u, g₁, s₁, hensure, h⟩ := exec_bind_eq_ok h
  cases h
  exact ready_of_ensureDefault hensure

/-- A settled bucket is there without a call. -/
theorem exec_bucketFor (h : b.Settled m g) (s : σ) :
    exec (b.bucketFor m) g s = ((.ok (m.bucketOr b.settings.defaultBucket), g), s) := by
  simp only [bucketFor]
  split
  · rename_i hdefault
    have hensure : exec b.ensureDefault g s = ((.ok (), g), s) := by
      rw [exec_ensureDefault, Guard.ensure_ready (h hdefault)]
      rfl
    rw [exec_bind_ok hensure]
    rfl
  · rfl

/-! ## After merging -/

theorem exec_give_origin {o : Origin} (ho : document.origin = .ok o) (g : Guard) (s : σ) :
    exec (give document.origin : Operation (StateM σ) Origin) g s = ((.ok o, g), s) := by
  rw [exec_give, ho]

theorem settled_of_merge (ho : document.origin = .ok (.bundle m))
    (h : exec (b.merge document) g s = ((.ok source, g'), s')) : b.Settled m g' := by
  rw [merge, exec_bind_ok (exec_give_origin ho g s)] at h
  obtain ⟨bucket, g₁, s₁, hbucket, h⟩ := exec_bind_eq_ok h
  obtain ⟨entry, g₂, s₂, hentry, h⟩ := exec_bind_eq_ok h
  cases hentry
  split at h
  · cases h
  · obtain ⟨sources, g₃, s₃, hsources, h⟩ := exec_bind_eq_ok h
    cases hsources
    cases h
    exact settled_of_bucketFor hbucket

/-- What a document comes from whose source could be merged. -/
theorem origin_of_merge (h : exec (b.merge document) g s = ((.ok source, g'), s')) :
    (∃ m, document.origin = .ok (.bundle m) ∧ b.Settled m g') ∨
      document.manifest = none ∧ (∃ latex, document.origin = .ok (.inline latex)) ∧
        g' = g ∧ s' = s := by
  obtain ⟨o, g₁, s₁, hgive, hrest⟩ := exec_bind_eq_ok h
  obtain ⟨ho, rfl, rfl⟩ := exec_give_eq_ok hgive
  obtain ⟨m, -, -, rfl⟩ | ⟨hmanifest, latex, rfl⟩ := Document.origin_cases ho
  · exact .inl ⟨m, ho, settled_of_merge ho h⟩
  · cases hrest
    exact .inr ⟨hmanifest, ⟨_, ho⟩, rfl, rfl⟩

/-- Reading the bibliography of a bundle does not fail once its bucket is settled. -/
theorem exec_bibliography (ho : document.origin = .ok (.bundle m)) (h : b.Settled m g) (s : σ) :
    ∃ bib s', exec (b.bibliography document) g s = ((.ok bib, g), s') := by
  rw [bibliography, exec_bind_ok (exec_give_origin ho g s)]
  show ∃ bib s', exec (b.loadBibliography m) g s = ((.ok bib, g), s')
  rw [loadBibliography, exec_bind_ok (exec_bucketFor h s)]
  exact ⟨_, _, rfl⟩

/-- Nor does collecting its resource files. -/
theorem exec_resources_settled (ho : document.origin = .ok (.bundle m)) (h : b.Settled m g)
    (s : σ) : ∃ found s', exec (b.resources document) g s = ((.ok found, g), s') := by
  rw [resources, exec_bind_ok (exec_give_origin ho g s)]
  show ∃ found s', exec (b.bucketFor m >>= _) g s = ((.ok found, g), s')
  rw [exec_bind_ok (exec_bucketFor h s)]
  exact ⟨_, _, rfl⟩

/-- A document that is no bundle needs the default bucket, and nothing else. -/
theorem exec_resources_inline {latex : Text} (ho : document.origin = .ok (.inline latex))
    (g : Guard) (s : σ) :
    exec (b.resources document) g s =
      exec (b.ensureDefault >>= fun _ => pure (b.settings.defaultBucket, [])) g s := by
  rw [resources, exec_bind_ok (exec_give_origin ho g s)]
  show exec ((b.ensureDefault >>= fun _ => pure b.settings.defaultBucket) >>= _) g s = _
  rw [bind_assoc]
  rfl

/-! ## The views -/

/-- What packing comes to: a package with that source, or some defects. -/
theorem pack_cases (source : Text) (rs as : List Collection.Outcome) :
    (∃ files, pack source rs as = .ok ⟨source, files⟩) ∨
      ∃ ds, ds ≠ [] ∧ pack source rs as = .error (.incomplete ds) := by
  by_cases h : Collection.defects rs ++ Collection.defects as = []
  · obtain ⟨hr, ha⟩ := List.append_eq_nil_iff.1 h
    exact .inl ⟨_, pack_of_nil hr ha⟩
  · exact .inr ⟨_, h, pack_of_ne_nil h⟩

/-- Once a source has been merged and the resource files have been collected, only a defect can stop
the package. -/
theorem result_buildPackage {bucket : Text} {rs : List Collection.Outcome}
    (hd : exec (b.loadDocument id) g s = ((.ok document, g₁), s₁))
    (hm : exec (b.merge document) g₁ s₁ = ((.ok source, g₂), s₂))
    (hr : exec (b.resources document) g₂ s₂ = ((.ok (bucket, rs), g'), s')) :
    (∃ files, result (b.buildPackage id) g s = .ok ⟨source, files⟩) ∨
      ∃ ds, ds ≠ [] ∧ result (b.buildPackage id) g s = .error (.incomplete ds) := by
  have hpack : result (b.buildPackage id) g s =
      pack source rs (Collection.collectAssets b.store bucket document.id source s').1 := by
    rw [result, buildPackage, exec_bind_ok hd, exec_bind_ok hm, exec_bind_ok hr]
    rfl
  rw [hpack]
  exact pack_cases source rs _

/-- A package is built from a source that could be merged, unless something is missing or, for a
document that is no bundle, the default bucket cannot be had. -/
theorem buildPackage_cases (hd : exec (b.loadDocument id) g s = ((.ok document, g₁), s₁))
    (hm : exec (b.merge document) g₁ s₁ = ((.ok source, g₂), s₂)) :
    (∃ files, result (b.buildPackage id) g s = .ok ⟨source, files⟩) ∨
    (∃ ds, ds ≠ [] ∧ result (b.buildPackage id) g s = .error (.incomplete ds)) ∨
    ∃ e, document.manifest = none ∧ result b.ensureDefault g₁ s₁ = .error (.storage e) ∧
      result (b.buildPackage id) g s = .error (.storage e) := by
  obtain ⟨m, ho, hsettled⟩ | ⟨hmanifest, ⟨latex, ho⟩, rfl, rfl⟩ := origin_of_merge hm
  · obtain ⟨⟨bucket, rs⟩, s₃, hr⟩ := exec_resources_settled ho hsettled s₂
    exact (result_buildPackage hd hm hr).imp_right .inl
  · -- Merging has not asked for any bucket, so that packing is the first to do so.
    have hresources := exec_resources_inline (b := b) ho g₂ s₂
    have hensure := exec_ensureDefault b g₂ s₂
    cases hcall : (g₂.ensure b.store s₂).1.1 with
    | ok _ =>
      rw [hcall] at hensure
      rw [exec_bind_ok hensure] at hresources
      exact (result_buildPackage hd hm hresources).imp_right .inl
    | error e =>
      rw [hcall] at hensure
      rw [exec_bind_error hensure] at hresources
      refine .inr (.inr ⟨e, hmanifest, ?_, ?_⟩)
      · rw [result, hensure]
        rfl
      · rw [result, buildPackage, exec_bind_ok hd, exec_bind_ok hm, exec_bind_error hresources]

/-- A preview has the merged source, and the references are those of the preview. -/
theorem result_preview (hd : exec (b.loadDocument id) g s = ((.ok document, g₁), s₁))
    (hm : exec (b.merge document) g₁ s₁ = ((.ok source, g₂), s₂)) :
    ∃ references, result (b.preview id) g s = .ok ⟨source, references⟩ ∧
      result (b.referenceSection id) g s = .ok references := by
  have hbib : ∃ bib g₃ s₃, exec (b.bibliography document) g₂ s₂ = ((.ok bib, g₃), s₃) := by
    obtain ⟨m, ho, hsettled⟩ | ⟨-, ⟨latex, ho⟩, -, -⟩ := origin_of_merge hm
    · obtain ⟨bib, s₃, hbib⟩ := exec_bibliography ho hsettled s₂
      exact ⟨bib, g₂, s₃, hbib⟩
    · rw [bibliography, exec_bind_ok (exec_give_origin ho g₂ s₂)]
      exact ⟨_, _, _, rfl⟩
  obtain ⟨bib, g₃, s₃, hbib⟩ := hbib
  have hpreview : ∃ references,
      exec (b.preview id) g s = ((.ok ⟨source, references⟩, g₃), s₃) := by
    rw [preview, exec_bind_ok hd, exec_bind_ok hm, exec_bind_ok hbib]
    exact ⟨_, rfl⟩
  obtain ⟨references, hpreview⟩ := hpreview
  refine ⟨references, by rw [result, hpreview], ?_⟩
  rw [result, referenceSection, exec_bind_ok hpreview]
  rfl

/-- Whatever stops loading or merging stops every view, with the same error. -/
theorem result_error {e : BundleError} (h : result (b.mergedSource id) g s = .error e) :
    result (b.preview id) g s = .error e ∧ result (b.referenceSection id) g s = .error e ∧
      result (b.buildPackage id) g s = .error e := by
  obtain ⟨⟨⟨rd, g₁⟩, s₁⟩, hd⟩ : ∃ x, exec (b.loadDocument id) g s = x := ⟨_, rfl⟩
  cases rd with
  | error e' =>
    rw [result, mergedSource, exec_bind_error hd] at h
    obtain rfl := Except.error.inj h
    have hpreview : exec (b.preview id) g s = ((.error e', g₁), s₁) := by
      rw [preview, exec_bind_error hd]
    rw [result, result, result, referenceSection, exec_bind_error hpreview, hpreview, buildPackage,
      exec_bind_error hd]
    exact ⟨rfl, rfl, rfl⟩
  | ok document =>
    obtain ⟨⟨⟨rm, g₂⟩, s₂⟩, hm⟩ : ∃ x, exec (b.merge document) g₁ s₁ = x := ⟨_, rfl⟩
    rw [result, mergedSource, exec_bind_ok hd, hm] at h
    subst h
    have hpreview : exec (b.preview id) g s = ((.error e, g₂), s₂) := by
      rw [preview, exec_bind_ok hd, exec_bind_error hm]
    rw [result, result, result, referenceSection, exec_bind_error hpreview, hpreview, buildPackage,
      exec_bind_ok hd, exec_bind_error hm]
    exact ⟨rfl, rfl, rfl⟩

/-- The views of a document, each made from the same guard and the same state of the stores. If the
source cannot be merged, every view fails with that error. Otherwise the preview has this source and
the references of the reference section, and the package has this source, or there are defects, or
the default bucket cannot be had for a document that is no bundle. -/
theorem views_agree (b : Bundler (StateM σ)) (id : Text) (g : Guard) (s : σ) :
    (∀ e, result (b.mergedSource id) g s = .error e →
      result (b.preview id) g s = .error e ∧ result (b.referenceSection id) g s = .error e ∧
        result (b.buildPackage id) g s = .error e) ∧
    ∀ source, result (b.mergedSource id) g s = .ok source →
      (∃ references, result (b.preview id) g s = .ok ⟨source, references⟩ ∧
        result (b.referenceSection id) g s = .ok references) ∧
      ((∃ files, result (b.buildPackage id) g s = .ok ⟨source, files⟩) ∨
        (∃ ds, ds ≠ [] ∧ result (b.buildPackage id) g s = .error (.incomplete ds)) ∨
        ∃ document g₁ s₁ e, exec (b.loadDocument id) g s = ((.ok document, g₁), s₁) ∧
          document.manifest = none ∧ result b.ensureDefault g₁ s₁ = .error (.storage e) ∧
          result (b.buildPackage id) g s = .error (.storage e)) := by
  refine ⟨fun e h => result_error h, fun source h => ?_⟩
  obtain ⟨⟨⟨r, g'⟩, s'⟩, hmerged⟩ : ∃ x, exec (b.mergedSource id) g s = x := ⟨_, rfl⟩
  rw [result, hmerged] at h
  subst h
  obtain ⟨document, g₁, s₁, hd, hm⟩ := exec_bind_eq_ok hmerged
  refine ⟨result_preview hd hm, ?_⟩
  obtain hbuilt | hincomplete | ⟨e, hmanifest, hensure, hpackage⟩ := buildPackage_cases hd hm
  · exact .inl hbuilt
  · exact .inr (.inl hincomplete)
  · exact .inr (.inr ⟨document, g₁, s₁, e, hd, hmanifest, hensure, hpackage⟩)

/-- A text that is no bundle, and a bundle without its entry. -/
theorem views_agree_of_two :
    let shelf : Shelf := { documents := [{ id := "d", metadata := { latex := some "x" } },
      { id := "e", manifest := some { basePrefix := "p", entryPath := "main.tex" } }] }
    let b : Bundler (StateM Memory) := { store := Memory.store, documents := shelf.store }
    (∃ references, result (b.preview "d") b.guard {} = .ok ⟨"x", references⟩) ∧
      result (b.buildPackage "e") b.guard {} = .error (.entryNotFound "main.tex") := by
  intro shelf b
  have hd : result (b.mergedSource "d") b.guard {} = .ok "x" := by rfl
  have he : result (b.mergedSource "e") b.guard {} = .error (.entryNotFound "main.tex") := by rfl
  obtain ⟨⟨references, hpreview, -⟩, -⟩ := (views_agree b "d" b.guard {}).2 _ hd
  exact ⟨⟨references, hpreview⟩, ((views_agree b "e" b.guard {}).1 _ he).2.2⟩

end TexBundle.Bundler
