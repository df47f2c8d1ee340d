import TexBundle.Storage.Store

/-!
# Traced stores

A store that keeps a log of its calls, failed ones included, and that can be told to fail: a fault
makes the next call of its kind fail without reaching the store.
-/

namespace TexBundle

inductive CallKind where
  | download
  | upload
  | bucketExists
  | createBucket
deriving DecidableEq, Repr

/-- A call of a store; calls on buckets have no key. -/
structure Call where
  kind : CallKind
  bucket : Text
  key : Option Text
deriving DecidableEq, Repr

/-- An error in waiting, to be made from the bucket and the key (empty if there is none) of the call
that it hits. -/
structure Fault where
  kind : CallKind
  error : (bucket key : Text) → StorageError

/-- A store's state with the calls so far, the last one first, and the faults that wait, the oldest
first. -/
structure Traced (σ : Type) where
  inner : σ
  calls : List Call := []
  faults : List Fault := []

namespace Traced

variable {σ α : Type}

/-- Removes the oldest fault of a kind. -/
def takeFault (kind : CallKind) : List Fault → Option (Fault × List Fault)
  | [] => none
  | f :: fs =>
    if f.kind = kind then some (f, fs)
    else (takeFault kind fs).map fun (g, gs) => (g, f :: gs)

/-- Logs a call, and makes it unless a fault hits it. -/
def call (c : Call) (act : StateM σ (Except StorageError α)) :
    StateM (Traced σ) (Except StorageError α) := fun s =>
  let s := { s with calls := c :: s.calls }
  match takeFault c.kind s.faults with
  | some (f, fs) => (.error (f.error c.bucket (c.key.getD [])), { s with faults := fs })
  | none =>
    let (result, inner) := act s.inner
    (result, { s with inner := inner })

def store (inner : ObjectStore (StateM σ)) : ObjectStore (StateM (Traced σ)) where
  download bucket key := call ⟨.download, bucket, some key⟩ (inner.download bucket key)
  upload bucket key bytes upsert :=
    call ⟨.upload, bucket, some key⟩ (inner.upload bucket key bytes upsert)
  bucketExists bucket := call ⟨.bucketExists, bucket, none⟩ (inner.bucketExists bucket)
  createBucket bucket := call ⟨.createBucket, bucket, none⟩ (inner.createBucket bucket)

/-- Something done behind the back of the log. -/
def untraced (act : StateM σ α) : StateM (Traced σ) α := fun s =>
  let (a, inner) := act s.inner
  (a, { s with inner := inner })

end Traced

end TexBundle
