import TexBundle.Proofs.Storage.Keeping
import TexBundle.Storage.Traced

/-!
# Watched stores

A store whose calls are written down with how they ended, and fail in any pattern whatsoever.

* `Faults`: which calls fail;
* `Watched.store`: the calls, made unless the faults say otherwise;
* `Watched.events_of_call`, `Watched.objects_call`: what a call writes down, and that it keeps the
  objects if it does so unwatched.
-/

namespace TexBundle

/-- A call of a store, and whether it succeeded. -/
structure Event where
  call : Call
  succeeded : Bool
deriving DecidableEq, Repr

/-- Which calls fail without reaching the store, and with what error. That may depend on everything
that came before, the last event first. -/
abbrev Faults := List Event → Call → Option StorageError

/-- A store's state with the events so far, the last one first. -/
structure Watched (σ : Type) where
  inner : σ
  events : List Event := []

namespace Watched

variable {σ α O : Type} {objects : σ → O}

/-- Makes a call unless a fault hits it, and writes down how it ended. -/
def call (faults : Faults) (c : Call) (act : StateM σ (Except StorageError α)) :
    StateM (Watched σ) (Except StorageError α) := fun s =>
  let (result, inner) :=
    match faults s.events c with
    | some e => (.error e, s.inner)
    | none => act s.inner
  (result, { inner := inner, events := ⟨c, result.isOk⟩ :: s.events })

def store (faults : Faults) (inner : ObjectStore (StateM σ)) :
    ObjectStore (StateM (Watched σ)) where
  download bucket key := call faults ⟨.download, bucket, some key⟩ (inner.download bucket key)
  upload bucket key bytes upsert :=
    call faults ⟨.upload, bucket, some key⟩ (inner.upload bucket key bytes upsert)
  bucketExists bucket := call faults ⟨.bucketExists, bucket, none⟩ (inner.bucketExists bucket)
  createBucket bucket := call faults ⟨.createBucket, bucket, none⟩ (inner.createBucket bucket)

theorem events_of_call {faults : Faults} {c : Call} {act : StateM σ (Except StorageError α)}
    {s s' : Watched σ} {result : Except StorageError α} (h : call faults c act s = (result, s')) :
    s'.events = ⟨c, result.isOk⟩ :: s.events := by
  have hevents : (call faults c act s).2.events = ⟨c, (call faults c act s).1.isOk⟩ :: s.events :=
    rfl
  rwa [h] at hevents

/-- A watched call keeps the objects if it does so unwatched. -/
theorem objects_call {act : StateM σ (Except StorageError α)}
    (h : ∀ o, Keeps (objects · = o) act) (faults : Faults) (c : Call) (s : Watched σ) :
    objects (call faults c act s).2.inner = objects s.inner := by
  simp only [call]
  cases faults s.events c with
  | some e => rfl
  | none => exact h _ s.inner rfl

end Watched

end TexBundle
