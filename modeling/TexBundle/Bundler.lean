import TexBundle.Bibliography.Reader
import TexBundle.Collection
import TexBundle.Document
import TexBundle.Lookup
import TexBundle.Preview

/-!
# Bundle operations

What an editor asks about a document: its flattened source, its reference section, a package for
compilation, and which stored file a request means. Everything is read from the stores on each call.

* `Bundler.mergedSource`, `Bundler.preview`, `Bundler.buildPackage`: the views of a document;
* `Bundler.resolveFile`, `Bundler.fetchFile`: single files of a bundle;
* `Bundler.bucketFor`: the default bucket is made sure of before it is read.
-/

namespace TexBundle

/-- Documents by id. A failure is described in words. -/
structure DocumentStore (m : Type → Type) where
  get? : (id : Text) → m (Except Text (Option Document))

/-- The stores and settings that operations work with. -/
structure Bundler (m : Type → Type) where
  store : ObjectStore m
  documents : DocumentStore m
  settings : Settings := {}

/-- An operation may fail, and it may get the default bucket ready. -/
abbrev Operation (m : Type → Type) := ExceptT BundleError (StateT Guard m)

namespace Bundler

variable {m : Type → Type} [Monad m]

/-- The guard that operations start with. -/
def guard (b : Bundler m) : Guard := { bucket := b.settings.defaultBucket }

/-- A call of a store, as part of an operation. -/
def call {α : Type} (act : m α) : Operation m α :=
  ExceptT.lift (StateT.lift act)

/-- A result that is known already. -/
def give {α : Type} (result : Except BundleError α) : Operation m α := ExceptT.mk (pure result)

/-- Makes sure of the default bucket. -/
def ensureDefault (b : Bundler m) : Operation m Unit :=
  ExceptT.mk fun g => do
    let (result, g) ← g.ensure b.store
    return (result.mapError .storage, g)

def loadDocument (b : Bundler m) (id : Text) : Operation m Document := do
  match ← call (b.documents.get? id) with
  | .error description => throw (.internal description)
  | .ok none => throw (.documentNotFound id)
  | .ok (some document) => return document

/-- The bucket of a bundle. -/
def bucketFor (b : Bundler m) (manifest : Manifest) : Operation m Text := do
  let bucket := manifest.bucketOr b.settings.defaultBucket
  if bucket = b.settings.defaultBucket then b.ensureDefault
  return bucket

/-- The bucket of a document that is no bundle. -/
def bucketForInline (b : Bundler m) : Operation m Text := do
  b.ensureDefault
  return b.settings.defaultBucket

/-- The texts that include directives may refer to; of several with one path, the last listed. -/
def loadSources (b : Bundler m) (manifest : Manifest) (bucket : Text) : Operation m Sources := do
  return (← call (Collection.loadTexts b.store manifest bucket manifest.texFiles)).reverse

/-- The flattened source of a document. -/
def merge (b : Bundler m) (document : Document) : Operation m Text := do
  match ← give document.origin with
  | .inline latex => return latex
  | .bundle manifest =>
    let bucket ← b.bucketFor manifest
    match ← call (b.store.download bucket (manifest.storageKey manifest.entryPath)) with
    | .error _ => throw (.entryNotFound manifest.entryPath)
    | .ok entry =>
      let sources ← b.loadSources manifest bucket
      return (Expansion.ofRoot sources b.settings.limits manifest.entryPath
        (Utf8.decodeLossy entry)).text

/-- The bibliography of a bundle: its files one after the other, each followed by a line break. -/
def loadBibliography (b : Bundler m) (manifest : Manifest) : Operation m Bibliography := do
  let bucket ← b.bucketFor manifest
  let texts ← call (Collection.loadTexts b.store manifest bucket manifest.bibliographyFiles)
  return .ofText (texts.flatMap fun (_, t) => t ++ "\n")

/-- The bibliography of a document; one that is no bundle has none. -/
def bibliography (b : Bundler m) (document : Document) : Operation m Bibliography := do
  match ← give document.origin with
  | .bundle manifest => b.loadBibliography manifest
  | .inline _ => return ⟨[]⟩

def mergedSource (b : Bundler m) (id : Text) : Operation m Text := do
  b.merge (← b.loadDocument id)

def preview (b : Bundler m) (id : Text) : Operation m Preview := do
  let document ← b.loadDocument id
  let source ← b.merge document
  let bib ← b.bibliography document
  return ⟨source, Reference.section? b.settings document.id (Source.citedKeys source) bib⟩

def referenceSection (b : Bundler m) (id : Text) : Operation m (Option ReferenceSection) := do
  return (← b.preview id).references

/-- The bucket of a document, and what its resource files come to. -/
def resources (b : Bundler m) (document : Document) :
    Operation m (Text × List Collection.Outcome) := do
  match ← give document.origin with
  | .inline _ => return (← b.bucketForInline, [])
  | .bundle manifest =>
    let bucket ← b.bucketFor manifest
    return (bucket,
      ← call (Collection.collectResources b.store manifest bucket manifest.resourceFiles))

/-- A package of resource files and figures, if nothing is missing. A figure that is a resource file
already is not packed twice. -/
def pack (source : Text) (resources assets : List Collection.Outcome) :
    Except BundleError Package :=
  match Collection.defects resources ++ Collection.defects assets with
  | [] =>
    let files := Collection.files resources
    let more := (Collection.files assets).filter fun f => f.path ∉ files.map (·.path)
    .ok ⟨source, files ++ more⟩
  | defects => .error (.incomplete defects)

def buildPackage (b : Bundler m) (id : Text) : Operation m Package := do
  let document ← b.loadDocument id
  let source ← b.merge document
  let (bucket, resources) ← b.resources document
  let assets ← call (Collection.collectAssets b.store bucket document.id source)
  give (pack source resources assets)

/-- The file of a document's bundle that a request means. -/
def resolveIn (b : Bundler m) (document : Document) (requested : Text) :
    Except BundleError (Manifest × Resolution) := do
  match document.manifest with
  | none => throw (.fileNotFound requested)
  | some manifest =>
    manifest.validate
    let paths := manifest.files.map (·.path)
    let resolved ← Lookup.find b.settings.preferredExtensions paths requested
    return (manifest, ⟨requested, resolved⟩)

/-- The same for a document that has yet to be loaded. A request with two dots in a row is refused
before that. -/
def resolveById (b : Bundler m) (id requested : Text) : Operation m (Manifest × Resolution) := do
  if Path.climbs requested then throw (.traversal requested)
  give (b.resolveIn (← b.loadDocument id) requested)

def resolveFile (b : Bundler m) (id requested : Text) : Operation m Resolution := do
  return (← b.resolveById id requested).2

def fetchFile (b : Bundler m) (id requested : Text) : Operation m (Resolution × Bytes) := do
  let (manifest, resolution) ← b.resolveById id requested
  let bucket ← b.bucketFor manifest
  match ← call (b.store.download bucket (manifest.storageKey resolution.resolved)) with
  | .ok bytes => return (resolution, bytes)
  | .error _ => throw (.fileNotFound resolution.resolved)

end Bundler

/-- A document store in memory, in which some ids cannot be looked up. -/
structure Shelf where
  documents : List Document := []
  offline : List Text := []
deriving DecidableEq, Repr

namespace Shelf

/-- Puts a document in place of the one with its id, if there is one. -/
def put (s : Shelf) (d : Document) : Shelf :=
  { s with documents := d :: s.documents.filter (·.id ≠ d.id) }

def takeOffline (s : Shelf) (id : Text) : Shelf := { s with offline := id :: s.offline }

def get? (s : Shelf) (id : Text) : Except Text (Option Document) :=
  if id ∈ s.offline then .error ("document store offline: " ++ id)
  else .ok (s.documents.find? (·.id == id))

def store {m : Type → Type} [Monad m] (s : Shelf) : DocumentStore m where
  get? id := return s.get? id

end Shelf

end TexBundle
