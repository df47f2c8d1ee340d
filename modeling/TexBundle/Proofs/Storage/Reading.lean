import TexBundle.FileSystem.Tree
import TexBundle.Storage.Directory
import TexBundle.Storage.Memory

/-!
# Reading from stores

What an action answers that does nothing but download, in terms of what the store held at the start.

* `Reads`: the answer of an action is related to the view of the store, which stays as it is;
* `ObjectStore.Readable`: downloading gives what is in view, so that all downloads in a row do;
* `Memory.store_readable`, `DirectoryStore.store_readable`: the stores of this library are so.
-/

namespace TexBundle

/-- What can be downloaded. -/
abbrev View := (bucket key : Text) → Except StorageError Bytes

variable {σ α β : Type} {read : σ → View}

/-- An action leaves the view of its state as it is, and `post` relates its answer to that view. -/
def Reads (read : σ → View) (act : StateM σ α) (post : View → α → Prop) : Prop :=
  ∀ s, post (read s) (act s).1 ∧ read (act s).2 = read s

theorem Reads.pure {a : α} {post : View → α → Prop} (h : ∀ view, post view a) :
    Reads read (pure a) post :=
  fun s => ⟨h (read s), rfl⟩

theorem Reads.bind {act : StateM σ α} {next : α → StateM σ β} {mid : View → α → Prop}
    {post : View → β → Prop} (h : Reads read act mid)
    (hnext : ∀ a, Reads read (next a) fun view b => mid view a → post view b) :
    Reads read (act >>= next) post := by
  intro s
  obtain ⟨ha, hs⟩ := h s
  obtain ⟨hb, hs'⟩ := hnext (act s).1 (act s).2
  rw [hs] at hb hs'
  exact ⟨hb ha, hs'⟩

/-- Every download gives what is in view, and leaves the view as it is. -/
def ObjectStore.Readable (store : ObjectStore (StateM σ)) (read : σ → View) : Prop :=
  ∀ bucket key, Reads read (store.download bucket key) fun view result => result = view bucket key

theorem Memory.store_readable : Memory.store.Readable Memory.download :=
  fun _ _ _ => ⟨rfl, rfl⟩

/-- Downloading from a directory store reads the file of the object. -/
theorem DirectoryStore.fst_download {d : DirectoryStore} {bucket key path : Text}
    (hpath : d.objectPath bucket key = .ok path) (t : Tree) :
    (d.download Tree.fileSystem bucket key t).1 =
      match t.read path with
      | .ok bytes => .ok bytes
      | .error .notFound => .error (.notFound bucket key)
      | .error e => .error (.io e) := by
  have hrun : Tree.fileSystem.read path t = (t.read path, t) := rfl
  rw [download, hpath]
  simp only [bind, StateT.bind, hrun]
  cases t.read path with
  | ok bytes => rfl
  | error e => cases e <;> rfl

/-- Downloading from a directory store only looks at the file system. -/
theorem DirectoryStore.snd_download (d : DirectoryStore) (bucket key : Text) (t : Tree) :
    (d.download Tree.fileSystem bucket key t).2 = t := by
  simp only [DirectoryStore.download]
  cases d.objectPath bucket key with
  | error e => rfl
  | ok path =>
    have hr : Tree.fileSystem.read path t = (t.read path, t) := rfl
    simp only [bind, StateT.bind, hr]
    cases t.read path with
    | ok bytes => rfl
    | error e => cases e <;> rfl

theorem DirectoryStore.store_readable (d : DirectoryStore) :
    (d.store Tree.fileSystem).Readable fun t bucket key =>
      (d.download Tree.fileSystem bucket key t).1 := by
  intro bucket key t
  have h : ((d.store Tree.fileSystem).download bucket key t).2 = t := d.snd_download bucket key t
  rw [h]
  exact ⟨rfl, rfl⟩

end TexBundle
