import TexBundle.Storage.Store

/-!
# Calls as data

* `Access`: a call of a store with everything that is passed;
* `Reply`, `ObjectStore.answer`, `ObjectStore.answers`: what a store answers to it, and to calls one
  after the other;
* `Exchange`: a call with its answer.
-/

namespace TexBundle

/-- A call of a store with everything that is passed. -/
inductive Access where
  | createBucket (bucket : Text)
  | bucketExists (bucket : Text)
  | upload (bucket key : Text) (bytes : Bytes) (upsert : Bool)
  | download (bucket key : Text)
deriving DecidableEq, Repr

namespace Access

def bucket : Access → Text
  | createBucket bucket | bucketExists bucket | upload bucket .. | download bucket _ => bucket

def key? : Access → Option Text
  | createBucket _ | bucketExists _ => none
  | upload _ key .. | download _ key => some key

end Access

inductive Reply where
  | done
  | present (there : Bool)
  | content (bytes : Bytes)
deriving DecidableEq, Repr

namespace ObjectStore

variable {m : Type → Type} [Monad m]

def answer (store : ObjectStore m) : Access → m (Except StorageError Reply)
  | .createBucket bucket => return (← store.createBucket bucket).map fun _ => .done
  | .bucketExists bucket => return (← store.bucketExists bucket).map .present
  | .upload bucket key bytes upsert =>
    return (← store.upload bucket key bytes upsert).map fun _ => .done
  | .download bucket key => return (← store.download bucket key).map .content

/-- The answers to calls one after the other, whether they fail or not. -/
def answers (store : ObjectStore m) : List Access → m (List (Except StorageError Reply))
  | [] => return []
  | access :: accesses => return (← store.answer access) :: (← store.answers accesses)

theorem fst_answers_cons {σ : Type} (store : ObjectStore (StateM σ)) (access : Access)
    (accesses : List Access) (s : σ) :
    (store.answers (access :: accesses) s).1 =
      (store.answer access s).1 :: (store.answers accesses (store.answer access s).2).1 := rfl

end ObjectStore

/-- A call with its answer. -/
structure Exchange where
  access : Access
  answer : Except StorageError Reply

end TexBundle
