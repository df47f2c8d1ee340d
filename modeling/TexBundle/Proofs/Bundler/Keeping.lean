import TexBundle.Proofs.Bundler.Run
import TexBundle.Proofs.Storage.Keeping

/-!
# What operations keep

Operations make three kinds of calls: they look a document up, they download, and they make sure of
the default bucket. What these keep, they all keep, whether they succeed or fail.

* `Operation.Maintains`: what an operation never makes false of the guard and the store;
* `Collection.loadTexts_keeps`, `collectResources_keeps`, `collectAssets_keeps`: collecting only
  downloads;
* `Bundler.CallsKeep`: what all three kinds of calls keep, with one lemma for each operation.
-/

namespace TexBundle

variable {σ α β : Type}

/-- What holds of the guard and the store before an operation holds after it, also if it fails. -/
def Operation.Maintains (I : Guard → σ → Prop) (op : Operation (StateM σ) α) : Prop :=
  ∀ g s, I g s → I (op.exec g s).1.2 (op.exec g s).2

namespace Operation

variable {I : Guard → σ → Prop}

theorem Maintains.pure (a : α) : Maintains I (pure a) :=
  fun _ _ h => h

theorem Maintains.throw (e : BundleError) : Maintains I (throw e : Operation (StateM σ) α) :=
  fun _ _ h => h

theorem Maintains.give (result : Except BundleError α) : Maintains I (Bundler.give result) :=
  fun _ _ h => h

theorem Maintains.call {act : StateM σ α} (h : ∀ g, Keeps (I g) act) :
    Maintains I (Bundler.call act) :=
  fun g s hs => h g s hs

theorem Maintains.bind {op : Operation (StateM σ) α} {next : α → Operation (StateM σ) β}
    (h : Maintains I op) (hnext : ∀ a, Maintains I (next a)) : Maintains I (op >>= next) := by
  intro g s hs
  have hop := h g s hs
  rw [exec_bind]
  obtain ⟨⟨⟨r, g'⟩, s'⟩, hrun⟩ : ∃ x, exec op g s = x := ⟨_, rfl⟩
  rw [hrun] at hop ⊢
  cases r with
  | ok a => exact hnext a g' s' hop
  | error e => exact hop

end Operation

/-! ## Collecting -/

namespace Collection

variable {I : σ → Prop} {store : ObjectStore (StateM σ)}

theorem loadTexts_keeps (h : ∀ bucket key, Keeps I (store.download bucket key)) (m : Manifest)
    (bucket : Text) (files : List ListedFile) : Keeps I (loadTexts store m bucket files) := by
  induction files with
  | nil => exact .pure _
  | cons f fs ih =>
    refine .bind (h bucket _) fun result => .bind ih fun rest => ?_
    cases result <;> exact .pure _

theorem fetch_keeps (h : ∀ bucket key, Keeps I (store.download bucket key))
    (bucket key label : Text) : Keeps I (fetch store bucket key label) := by
  refine .bind (h bucket key) fun result => ?_
  match result with
  | .ok [] => exact .pure _
  | .ok (_ :: _) => exact .pure _
  | .error _ => exact .pure _

theorem collectResources_keeps (h : ∀ bucket key, Keeps I (store.download bucket key))
    (m : Manifest) (bucket : Text) (files : List ListedFile) :
    Keeps I (collectResources store m bucket files) := by
  induction files with
  | nil => exact .pure _
  | cons f fs ih =>
    have hf : Keeps I (collectResource store m bucket f) := by
      refine .bind (fetch_keeps h bucket _ _) fun result => ?_
      cases result with
      | error d => exact .pure _
      | ok bytes => dsimp only; split <;> exact .pure _
    exact .bind hf fun outcome => .bind ih fun rest => .pure _

theorem collectAssets_keeps (h : ∀ bucket key, Keeps I (store.download bucket key))
    (bucket document source : Text) : Keeps I (collectAssets store bucket document source) := by
  rw [collectAssets]
  induction Source.figureKeys source with
  | nil => exact .pure _
  | cons key keys ih =>
    have hkey : Keeps I (collectAsset store bucket document key) := by
      rw [collectAsset]
      split
      · exact .pure _
      · split
        · exact .pure _
        · refine .bind (fetch_keeps h bucket _ _) fun result => ?_
          cases result <;> exact .pure _
    exact .bind hkey fun outcome => .bind ih fun rest => .pure _

end Collection

namespace Bundler

open Operation (Maintains)

variable {b : Bundler (StateM σ)} {I : Guard → σ → Prop}

/-- Making sure of the default bucket keeps what the guard's calls keep, whatever the guard. -/
theorem ensureDefault_maintains
    (h : ∀ g s, I g s → I (g.ensure b.store s).1.2 (g.ensure b.store s).2) :
    Operation.Maintains I b.ensureDefault :=
  h

/-- The calls that operations make keep an invariant. -/
structure CallsKeep (b : Bundler (StateM σ)) (I : Guard → σ → Prop) : Prop where
  documents : ∀ id g, Keeps (I g) (b.documents.get? id)
  download : ∀ g bucket key, Keeps (I g) (b.store.download bucket key)
  ensure : Maintains I b.ensureDefault

namespace CallsKeep

variable (h : b.CallsKeep I)

include h

theorem loadDocument (id : Text) : Maintains I (b.loadDocument id) := by
  refine .bind (.call (h.documents id)) fun result => ?_
  match result with
  | .error _ => exact .throw _
  | .ok none => exact .throw _
  | .ok (some _) => exact .pure _

theorem bucketFor (m : Manifest) : Maintains I (b.bucketFor m) := by
  simp only [Bundler.bucketFor]
  split
  · exact .bind h.ensure fun _ => .pure _
  · exact .pure _

theorem merge (d : Document) : Maintains I (b.merge d) := by
  refine .bind (.give d.origin) fun origin => ?_
  cases origin with
  | inline latex => exact .pure _
  | bundle m =>
    refine .bind (h.bucketFor m) fun bucket => ?_
    refine .bind (.call fun g => h.download g bucket _) fun result => ?_
    cases result with
    | error e => exact .throw _
    | ok entry =>
      have hsources : Maintains I (b.loadSources m bucket) :=
        .bind (.call fun g => Collection.loadTexts_keeps (h.download g) m bucket _) fun _ => .pure _
      exact .bind hsources fun _ => .pure _

theorem bibliography (d : Document) : Maintains I (b.bibliography d) := by
  refine .bind (.give d.origin) fun origin => ?_
  cases origin with
  | inline latex => exact .pure _
  | bundle m =>
    refine .bind (h.bucketFor m) fun bucket => ?_
    exact .bind (.call fun g => Collection.loadTexts_keeps (h.download g) m bucket _)
      fun _ => .pure _

theorem resources (d : Document) : Maintains I (b.resources d) := by
  refine .bind (.give d.origin) fun origin => ?_
  cases origin with
  | inline latex => exact .bind (.bind h.ensure fun _ => .pure _) fun _ => .pure _
  | bundle m =>
    refine .bind (h.bucketFor m) fun bucket => ?_
    exact .bind (.call fun g => Collection.collectResources_keeps (h.download g) m bucket _)
      fun _ => .pure _

theorem preview (id : Text) : Maintains I (b.preview id) :=
  .bind (h.loadDocument id) fun d => .bind (h.merge d) fun _ =>
    .bind (h.bibliography d) fun _ => .pure _

theorem buildPackage (id : Text) : Maintains I (b.buildPackage id) :=
  .bind (h.loadDocument id) fun d => .bind (h.merge d) fun source =>
    .bind (h.resources d) fun (bucket, _) =>
      .bind (.call fun g => Collection.collectAssets_keeps (h.download g) bucket d.id source)
        fun _ => .give _

theorem resolveById (id requested : Text) : Maintains I (b.resolveById id requested) := by
  have hload : Maintains I (b.loadDocument id >>= fun d => give (b.resolveIn d requested)) :=
    .bind (h.loadDocument id) fun d => .give _
  simp only [Bundler.resolveById]
  split
  · exact .bind (.throw _) fun _ => hload
  · exact hload

theorem fetchFile (id requested : Text) : Maintains I (b.fetchFile id requested) := by
  refine .bind (h.resolveById id requested) fun (m, resolution) => ?_
  refine .bind (h.bucketFor m) fun bucket => ?_
  refine .bind (.call fun g => h.download g bucket _) fun result => ?_
  cases result with
  | ok bytes => exact .pure _
  | error e => exact .throw _

end CallsKeep

end Bundler

end TexBundle
