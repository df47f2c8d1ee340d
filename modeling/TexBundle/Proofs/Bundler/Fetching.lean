import TexBundle.Proofs.Bundler.Views
import TexBundle.Proofs.Lookup
import TexBundle.Storage.Traced

/-!
# Single files

A request is resolved by looking up its document, with no call of the object store, and fetching a
file starts with that. A request with two dots in a row is refused before any call.

* `Logged`: two stores over one state, with a log of their calls;
* `Bundler.exec_resolveById`: what resolving calls and what it comes to;
* `Bundler.Fetches`: how fetching goes on from a resolved request;
* `Bundler.fetchFile_follows_resolveFile`: the two operations on the same stores.
-/

namespace TexBundle

variable {σ α : Type}

/-- A call of a document store or of an object store. -/
inductive LogEntry where
  | document (id : Text)
  | object (c : Call)
deriving DecidableEq, Repr

/-- The state that both stores work on, with their calls so far, the last one first. -/
structure Logged (σ : Type) where
  inner : σ
  log : List LogEntry := []

namespace Logged

def call (entry : LogEntry) (act : StateM σ α) : StateM (Logged σ) α := fun s =>
  let (result, inner) := act s.inner
  (result, { inner := inner, log := entry :: s.log })

def documents (inner : DocumentStore (StateM σ)) : DocumentStore (StateM (Logged σ)) where
  get? id := call (.document id) (inner.get? id)

def store (inner : ObjectStore (StateM σ)) : ObjectStore (StateM (Logged σ)) where
  download bucket key := call (.object ⟨.download, bucket, some key⟩) (inner.download bucket key)
  upload bucket key bytes upsert :=
    call (.object ⟨.upload, bucket, some key⟩) (inner.upload bucket key bytes upsert)
  bucketExists bucket := call (.object ⟨.bucketExists, bucket, none⟩) (inner.bucketExists bucket)
  createBucket bucket := call (.object ⟨.createBucket, bucket, none⟩) (inner.createBucket bucket)

end Logged

namespace Bundler

open Operation

/-- A bundler whose stores log their calls. -/
def logged (b : Bundler (StateM σ)) : Bundler (StateM (Logged σ)) where
  store := Logged.store b.store
  documents := Logged.documents b.documents
  settings := b.settings

variable {b : Bundler (StateM σ)} {m : Manifest} {r : Resolution} {id requested : Text}
  {document : Document} {e : BundleError} {g g' : Guard} {s s' : σ}

/-! ## Resolving -/

/-- What the answer of a document store comes to. -/
def loaded (id : Text) : Except Text (Option Document) → Except BundleError Document
  | .error description => .error (.internal description)
  | .ok none => .error (.documentNotFound id)
  | .ok (some document) => .ok document

theorem exec_loadDocument (b : Bundler (StateM σ)) (id : Text) (g : Guard) (s : σ) :
    exec (b.loadDocument id) g s =
      ((loaded id (b.documents.get? id s).1, g), (b.documents.get? id s).2) := by
  rw [loadDocument, exec_bind, exec_call]
  match (b.documents.get? id s).1 with
  | .error _ => rfl
  | .ok none => rfl
  | .ok (some _) => rfl

theorem loaded_eq_ok_iff {answer : Except Text (Option Document)} :
    loaded id answer = .ok document ↔ answer = .ok (some document) := by
  match answer with
  | .error _ => simp [loaded]
  | .ok none => simp [loaded]
  | .ok (some _) => simp [loaded]

theorem exec_resolveById_of_climbs (b : Bundler (StateM σ)) (id : Text)
    (h : Path.climbs requested = true) (g : Guard) (s : σ) :
    exec (b.resolveById id requested) g s = ((.error (.traversal requested), g), s) := by
  rw [resolveById, if_pos h]
  rfl

/-- The document store is called once, and nothing else is. -/
theorem exec_resolveById (h : Path.climbs requested = false) (g : Guard) (s : σ) :
    exec (b.resolveById id requested) g s =
      (((loaded id (b.documents.get? id s).1).bind (b.resolveIn · requested), g),
        (b.documents.get? id s).2) := by
  have hload := exec_loadDocument b id g s
  rw [resolveById, if_neg (by simp [h])]
  show exec (b.loadDocument id >>= _) g s = _
  cases hloaded : loaded id (b.documents.get? id s).1 with
  | ok document =>
    rw [hloaded] at hload
    exact exec_bind_ok hload
  | error e =>
    rw [hloaded] at hload
    exact exec_bind_error hload

theorem resolveIn_eq_ok (h : b.resolveIn document requested = .ok (m, r)) :
    document.manifest = some m ∧ m.validate = .ok () ∧ r.requested = requested ∧
      r.resolved ∈ m.files.map (·.path) := by
  cases hm : document.manifest with
  | none =>
    rw [resolveIn, hm] at h
    cases h
  | some m' =>
    rw [resolveIn, hm] at h
    cases hvalid : m'.validate with
    | error e =>
      simp only [hvalid] at h
      cases h
    | ok _ =>
      simp only [hvalid] at h
      cases hfind : Lookup.find b.settings.preferredExtensions (m'.files.map (·.path))
        requested with
      | error e =>
        simp only [hfind] at h
        cases h
      | ok p =>
        simp only [hfind] at h
        cases h
        exact ⟨rfl, hvalid, rfl, (Lookup.means_of_find hfind).mem⟩

theorem resolveById_of_resolveFile
    (h : exec (b.resolveFile id requested) g s = ((.ok r, g'), s')) :
    ∃ m, exec (b.resolveById id requested) g s = ((.ok (m, r), g'), s') := by
  obtain ⟨⟨m, r'⟩, g₁, s₁, hresolve, hrest⟩ := exec_bind_eq_ok h
  cases hrest
  exact ⟨m, hresolve⟩

theorem resolveById_of_resolveFile_error
    (h : exec (b.resolveFile id requested) g s = ((.error e, g'), s')) :
    exec (b.resolveById id requested) g s = ((.error e, g'), s') := by
  obtain ⟨⟨⟨result, g₁⟩, s₁⟩, hresolve⟩ : ∃ x, exec (b.resolveById id requested) g s = x :=
    ⟨_, rfl⟩
  cases result with
  | ok found => cases (exec_bind_ok hresolve).symm.trans h
  | error e' =>
    cases (exec_bind_error hresolve).symm.trans h
    exact hresolve

/-! ## Fetching -/

/-- The bucket of a manifest can be read from. Only the default one has to be made sure of. -/
inductive Prepared (b : Bundler (StateM σ)) (m : Manifest) (g : Guard) (s : σ) :
    Guard → σ → Prop
  | default {g' : Guard} {s' : σ}
    (hdefault : m.bucketOr b.settings.defaultBucket = b.settings.defaultBucket)
    (hensure : g.ensure b.store s = ((.ok (), g'), s')) : Prepared b m g s g' s'
  | other (hother : m.bucketOr b.settings.defaultBucket ≠ b.settings.defaultBucket) :
    Prepared b m g s g s

/-- How fetching a file ends for a request that has been resolved in a manifest. -/
inductive Fetches (b : Bundler (StateM σ)) (m : Manifest) (r : Resolution) (g : Guard) (s : σ) :
    (Except BundleError (Resolution × Bytes) × Guard) × σ → Prop
  | unprepared {e : StorageError} {g' : Guard} {s' : σ}
    (hdefault : m.bucketOr b.settings.defaultBucket = b.settings.defaultBucket)
    (hensure : g.ensure b.store s = ((.error e, g'), s')) :
    Fetches b m r g s ((.error (.storage e), g'), s')
  | stored {g' : Guard} {s₁ s' : σ} {bytes : Bytes} (h : Prepared b m g s g' s₁)
    (hdownload : b.store.download (m.bucketOr b.settings.defaultBucket)
      (m.storageKey r.resolved) s₁ = (.ok bytes, s')) :
    Fetches b m r g s ((.ok (r, bytes), g'), s')
  | missing {g' : Guard} {s₁ s' : σ} {cause : StorageError} (h : Prepared b m g s g' s₁)
    (hdownload : b.store.download (m.bucketOr b.settings.defaultBucket)
      (m.storageKey r.resolved) s₁ = (.error cause, s')) :
    Fetches b m r g s ((.error (.fileNotFound r.resolved), g'), s')

theorem exec_bucketFor_of_default
    (h : m.bucketOr b.settings.defaultBucket = b.settings.defaultBucket) (g : Guard) (s : σ) :
    exec (b.bucketFor m) g s =
      exec (b.ensureDefault >>= fun _ => pure (m.bucketOr b.settings.defaultBucket)) g s := by
  simp only [bucketFor, if_pos h]

/-- A file is read once its bucket is there. -/
theorem fetches_of_prepared
    (hresolve : exec (b.resolveById id requested) g s = ((.ok (m, r), g'), s'))
    {g₁ : Guard} {s₁ : σ} (hprepared : Prepared b m g' s' g₁ s₁)
    (hbucket : exec (b.bucketFor m) g' s' =
      ((.ok (m.bucketOr b.settings.defaultBucket), g₁), s₁)) :
    Fetches b m r g' s' (exec (b.fetchFile id requested) g s) := by
  rw [fetchFile, exec_bind_ok hresolve]
  show Fetches b m r g' s' (exec (b.bucketFor m >>= _) g' s')
  rw [exec_bind_ok hbucket, exec_bind, exec_call]
  obtain ⟨⟨result, s₂⟩, hdownload⟩ :
    ∃ x, b.store.download (m.bucketOr b.settings.defaultBucket) (m.storageKey r.resolved) s₁ = x :=
      ⟨_, rfl⟩
  rw [hdownload]
  cases result with
  | ok bytes => exact .stored hprepared hdownload
  | error cause => exact .missing hprepared hdownload

theorem fetches_of_resolveById
    (hresolve : exec (b.resolveById id requested) g s = ((.ok (m, r), g'), s')) :
    Fetches b m r g' s' (exec (b.fetchFile id requested) g s) := by
  by_cases hdefault : m.bucketOr b.settings.defaultBucket = b.settings.defaultBucket
  · have hbucket := exec_bucketFor_of_default hdefault g' s'
    have hexec := exec_ensureDefault b g' s'
    obtain ⟨⟨⟨result, g₁⟩, s₁⟩, hensure⟩ : ∃ x, g'.ensure b.store s' = x := ⟨_, rfl⟩
    rw [hensure] at hexec
    cases result with
    | ok _ =>
      rw [exec_bind_ok hexec] at hbucket
      exact fetches_of_prepared hresolve (.default hdefault hensure) hbucket
    | error e =>
      rw [exec_bind_error hexec] at hbucket
      rw [fetchFile, exec_bind_ok hresolve]
      show Fetches b m r g' s' (exec (b.bucketFor m >>= _) g' s')
      rw [exec_bind_error hbucket]
      exact .unprepared hdefault hensure
  · have hsettled : b.Settled m g' := fun h => absurd h hdefault
    exact fetches_of_prepared hresolve (.other hdefault) (exec_bucketFor hsettled s')

/-- A file is resolved and fetched from the same state of the stores, which may work on the same
data and fail as they like. A request that climbs is refused by both without a call. Whatever stops
resolving stops fetching in the same way, and the object store has not been called. Otherwise the
document is that of a bundle and the request means one of its listed paths; then the file is read
from where that path is stored. -/
theorem fetchFile_follows_resolveFile (b : Bundler (StateM σ)) (id requested : Text)
    (ready : Bool) (s : Logged σ) :
    let g : Guard := { b.guard with ready := ready }
    let resolve := exec (b.logged.resolveFile id requested) g s
    let fetch := exec (b.logged.fetchFile id requested) g s
    (Path.climbs requested = true →
      resolve = ((.error (.traversal requested), g), s) ∧
        fetch = ((.error (.traversal requested), g), s)) ∧
    (∀ e g' s', resolve = ((.error e, g'), s') →
      fetch = ((.error e, g'), s') ∧
        (s' = s ∨ s'.log = .document id :: s.log)) ∧
    ∀ r g' s', resolve = ((.ok r, g'), s') →
      g' = g ∧ s'.log = .document id :: s.log ∧
      ∃ document m, b.documents.get? id s.inner = (.ok (some document), s'.inner) ∧
        document.manifest = some m ∧ m.validate = .ok () ∧
        r.requested = requested ∧ r.resolved ∈ m.files.map (·.path) ∧
        Fetches b.logged m r g s' fetch := by
  intro g resolve fetch
  refine ⟨fun hclimbs => ?_, fun e g' s' h => ?_, fun r g' s' h => ?_⟩
  · have hresolve := exec_resolveById_of_climbs b.logged id hclimbs g s
    exact ⟨exec_bind_error hresolve, exec_bind_error hresolve⟩
  · have hresolve := resolveById_of_resolveFile_error h
    refine ⟨exec_bind_error hresolve, ?_⟩
    cases hclimbs : Path.climbs requested with
    | true =>
      rw [exec_resolveById_of_climbs _ _ hclimbs] at hresolve
      exact .inl (Prod.mk.inj hresolve).2.symm
    | false =>
      rw [exec_resolveById hclimbs] at hresolve
      rw [← (Prod.mk.inj hresolve).2]
      exact .inr rfl
  · obtain ⟨m, hresolve⟩ := resolveById_of_resolveFile h
    have hfetch := fetches_of_resolveById hresolve
    cases hclimbs : Path.climbs requested with
    | true =>
      rw [exec_resolveById_of_climbs _ _ hclimbs] at hresolve
      cases hresolve
    | false =>
      rw [exec_resolveById hclimbs] at hresolve
      obtain ⟨⟨hresult, rfl⟩, rfl⟩ := Prod.mk.inj hresolve |>.imp_left Prod.mk.inj
      cases hloaded : loaded id (b.logged.documents.get? id s).1 with
      | error e =>
        rw [hloaded] at hresult
        cases hresult
      | ok document =>
        rw [hloaded] at hresult
        obtain ⟨hm, hvalid, hrequested, hlisted⟩ := resolveIn_eq_ok hresult
        have hanswer := loaded_eq_ok_iff.1 hloaded
        exact ⟨rfl, rfl, document, m, Prod.ext hanswer rfl, hm, hvalid, hrequested, hlisted, hfetch⟩

/-- A request that climbs, for a document that is not there, and one for a listed file. -/
theorem fetchFile_follows_resolveFile_of_two :
    let m : Manifest :=
      { bucket := "b", basePrefix := "p", entryPath := "main.tex",
        files := [⟨"a.png", none, none⟩] }
    let shelf : Shelf := { documents := [{ id := "d", manifest := some m }] }
    let b : Bundler (StateM Memory) := { store := Memory.store, documents := shelf.store }
    let s : Logged Memory := { inner := { objects := [(("b", "p/a.png"), [1])] } }
    let r : Resolution := ⟨"A.png", "a.png"⟩
    exec (b.logged.fetchFile "e" "../a.png") b.guard s =
        ((.error (.traversal "../a.png"), b.guard), s) ∧
      result (b.logged.fetchFile "d" "A.png") b.guard s = .ok (r, [1]) ∧
      ∃ m s', s'.log = [.document "d"] ∧
        Fetches b.logged m r b.guard s' (exec (b.logged.fetchFile "d" "A.png") b.guard s) := by
  intro m shelf b s r
  have hresolve : exec (b.logged.resolveFile "d" "A.png") b.guard s =
      ((.ok r, b.guard), ⟨s.inner, [.document "d"]⟩) := by rfl
  refine ⟨((fetchFile_follows_resolveFile b "e" "../a.png" false s).1 rfl).2, by rfl, ?_⟩
  obtain ⟨-, hlog, -, m, -, -, -, -, -, hfetch⟩ :=
    (fetchFile_follows_resolveFile b "d" "A.png" false s).2.2 _ _ _ hresolve
  exact ⟨m, _, hlog, hfetch⟩

end Bundler

end TexBundle
