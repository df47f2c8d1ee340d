import TexBundle.Storage.Store

/-!
# Stores in memory

* `Memory.get?`: the view of a store, the bytes at a bucket and key;
* `Memory.download`, `upload`, `createBucket`, `insert`: the operations on it.
-/

namespace TexBundle

structure Memory where
  buckets : List Text := []
  objects : List ((Text × Text) × Bytes) := []
deriving DecidableEq, Repr

namespace Memory

def get? (s : Memory) (bucket key : Text) : Option Bytes := s.objects.lookup (bucket, key)

/-- Puts an object in place of the one with its bucket and key, if there is one. -/
def put (s : Memory) (bucket key : Text) (bytes : Bytes) : Memory :=
  { s with objects := ((bucket, key), bytes) :: s.objects.filter (·.1 ≠ (bucket, key)) }

def download (s : Memory) (bucket key : Text) : Except StorageError Bytes :=
  (s.get? bucket key).elim (.error (.notFound bucket key)) .ok

def upload (s : Memory) (bucket key : Text) (bytes : Bytes) (upsert : Bool) :
    Except StorageError Memory :=
  if bucket ∉ s.buckets then .error (.bucketNotFound bucket)
  else if !upsert && (s.get? bucket key).isSome then .error (.objectExists bucket key)
  else .ok (s.put bucket key bytes)

def createBucket (s : Memory) (bucket : Text) : Except StorageError Memory :=
  if bucket ∈ s.buckets then .error (.bucketExists bucket)
  else .ok { s with buckets := bucket :: s.buckets }

/-- Puts an object without any question, with its bucket. -/
def insert (s : Memory) (bucket key : Text) (bytes : Bytes) : Memory :=
  { s with buckets := s.buckets.insert bucket }.put bucket key bytes

/-- The number of objects. -/
def size (s : Memory) : Nat := s.objects.length

/-- A change of the store, unless it fails. -/
def change (f : Memory → Except StorageError Memory) : StateM Memory (Except StorageError Unit) :=
  fun s =>
    match f s with
    | .ok s' => (.ok (), s')
    | .error e => (.error e, s)

/-- The calls on a store that is the state. -/
def store : ObjectStore (StateM Memory) where
  download bucket key := return (← get).download bucket key
  upload bucket key bytes upsert := change (·.upload bucket key bytes upsert)
  bucketExists bucket := return .ok ((← get).buckets.contains bucket)
  createBucket bucket := change (·.createBucket bucket)

end Memory

end TexBundle
