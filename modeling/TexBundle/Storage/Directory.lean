import TexBundle.FileSystem.Basic
import TexBundle.Storage.Store

/-!
# Stores in a directory

Each bucket is a directory below a root, and each key a relative path inside it. Names that could
lead out of the root, or out of the bucket, are refused before any file is touched.

* `DirectoryStore.bucketPath`, `DirectoryStore.objectPath`: where buckets and objects are kept;
* `DirectoryStore.store`: the calls.
-/

namespace TexBundle

/-- A store below a root directory. -/
structure DirectoryStore where
  root : Text
deriving DecidableEq, Repr

namespace DirectoryStore

/-- Bucket names are single path segments, without two dots in a row. -/
def isBucketName (bucket : Text) : Bool :=
  !bucket.isEmpty && !bucket.any Path.isSlash && !Path.climbs bucket

def bucketPath (s : DirectoryStore) (bucket : Text) : Except StorageError Text :=
  if isBucketName bucket then .ok (FilePath.join s.root bucket) else .error (.invalidKey bucket)

/-- Slashes in front of a key do not count; a key must not be empty or have a segment `..`. -/
def objectPath (s : DirectoryStore) (bucket key : Text) : Except StorageError Text :=
  let relative := Path.dropSlashes key
  if relative = [] ∨ Path.hasParentSegment relative then .error (.invalidKey key)
  else (s.bucketPath bucket).map (FilePath.join · relative)

variable {m : Type → Type} [Monad m]

def download (s : DirectoryStore) (fs : FileSystem m) (bucket key : Text) :
    m (Except StorageError Bytes) := do
  match s.objectPath bucket key with
  | .error e => return .error e
  | .ok path =>
    match ← fs.read path with
    | .ok bytes => return .ok bytes
    | .error .notFound => return .error (.notFound bucket key)
    | .error e => return .error (.io e)

def bucketExists (s : DirectoryStore) (fs : FileSystem m) (bucket : Text) :
    m (Except StorageError Bool) := do
  match s.bucketPath bucket with
  | .error e => return .error e
  | .ok path => return .ok (← fs.isDirectory path)

/-- Writes a file, with the directories it lies in. -/
def writeObject (fs : FileSystem m) (path : Text) (bytes : Bytes) :
    m (Except StorageError Unit) := do
  match ← fs.makeParent path with
  | .error e => return .error (.io e)
  | .ok () => return (← fs.write path bytes).mapError .io

def upload (s : DirectoryStore) (fs : FileSystem m) (bucket key : Text) (bytes : Bytes)
    (upsert : Bool) : m (Except StorageError Unit) := do
  match ← s.bucketExists fs bucket with
  | .error e => return .error e
  | .ok false => return .error (.bucketNotFound bucket)
  | .ok true =>
    match s.objectPath bucket key with
    | .error e => return .error e
    | .ok path =>
      if !upsert then
        if ← fs.isPresent path then return .error (.objectExists bucket key)
      writeObject fs path bytes

def createBucket (s : DirectoryStore) (fs : FileSystem m) (bucket : Text) :
    m (Except StorageError Unit) := do
  match s.bucketPath bucket with
  | .error e => return .error e
  | .ok path =>
    if ← fs.isDirectory path then return .error (.bucketExists bucket)
    return (← fs.makeDirectories path).mapError .io

def store (s : DirectoryStore) (fs : FileSystem m) : ObjectStore m where
  download := s.download fs
  upload := s.upload fs
  bucketExists := s.bucketExists fs
  createBucket := s.createBucket fs

end DirectoryStore

end TexBundle
