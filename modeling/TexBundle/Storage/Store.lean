import TexBundle.Storage.Error

/-!
# Object stores

Objects are byte strings addressed by a bucket and a key.

* `ObjectStore`: the four calls, in any monad;
* `Guard.ensure`: makes sure, once, that a bucket exists.
-/

namespace TexBundle

structure ObjectStore (m : Type → Type) where
  download : (bucket key : Text) → m (Except StorageError Bytes)
  /-- Without `upsert`, an object that exists already is an error. -/
  upload : (bucket key : Text) → Bytes → (upsert : Bool) → m (Except StorageError Unit)
  bucketExists : (bucket : Text) → m (Except StorageError Bool)
  createBucket : (bucket : Text) → m (Except StorageError Unit)

/-- A bucket, and whether it is known to exist. -/
structure Guard where
  bucket : Text
  ready : Bool := false
deriving DecidableEq, Repr

namespace Guard

variable {m : Type → Type} [Monad m]

/-- Creates the bucket, unless somebody else does so first. -/
def create (g : Guard) (store : ObjectStore m) : m (Except StorageError Unit) := do
  match ← store.createBucket g.bucket with
  | .error (.bucketExists _) => return .ok ()
  | result => return result

/-- Looks for the bucket and creates it if it is not there. -/
def check (g : Guard) (store : ObjectStore m) : m (Except StorageError Unit) := do
  match ← store.bucketExists g.bucket with
  | .error e => return .error e
  | .ok true => return .ok ()
  | .ok false => g.create store

/-- Makes sure that the bucket exists. Success is remembered, so that no more calls are made after
it; a failure is not. -/
def ensure (g : Guard) (store : ObjectStore m) : m (Except StorageError Unit × Guard) := do
  if g.ready then return (.ok (), g)
  match ← g.check store with
  | .ok () => return (.ok (), { g with ready := true })
  | .error e => return (.error e, g)

end Guard

end TexBundle
