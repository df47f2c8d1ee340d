import TexBundle.Proofs.FileSystem.Tree
import TexBundle.Proofs.Storage.Reading

/-!
# What stores leave as it is

* `Keeps`: what an action never makes false;
* `FileSystem.makeFirst_keeps`: what making directories keeps, as far as it goes;
* `FileSystem.LooksKeep`: if looking at files never does, making directories does so only if making
  one of them does;
* `ObjectStore.KeepsObjects`: only uploads change objects;
* `Memory.store_keepsObjects`, `DirectoryStore.store_keepsObjects`: the stores of this library are
  so, the objects of a directory store being its files.
-/

namespace TexBundle

variable {σ α β O : Type} {I : σ → Prop}

/-- What holds before an action holds after it. -/
def Keeps (I : σ → Prop) (act : StateM σ α) : Prop := ∀ s, I s → I (act s).2

theorem Keeps.pure (a : α) : Keeps I (pure a) :=
  fun _ hs => hs

/-- What follows an action matters for the results that the action can have. -/
theorem Keeps.bind_of_result {act : StateM σ α} {next : α → StateM σ β} (h : Keeps I act)
    (hnext : ∀ a, (∃ s, I s ∧ (act s).1 = a) → Keeps I (next a)) : Keeps I (act >>= next) :=
  fun s hs => hnext (act s).1 ⟨s, hs, rfl⟩ (act s).2 (h s hs)

theorem Keeps.bind {act : StateM σ α} {next : α → StateM σ β} (h : Keeps I act)
    (hnext : ∀ a, Keeps I (next a)) : Keeps I (act >>= next) :=
  h.bind_of_result fun a _ => hnext a

/-- The calls that do not upload leave the objects of a store as they are. -/
structure ObjectStore.KeepsObjects (store : ObjectStore (StateM σ)) (objects : σ → O) : Prop where
  download : ∀ bucket key o, Keeps (objects · = o) (store.download bucket key)
  bucketExists : ∀ bucket o, Keeps (objects · = o) (store.bucketExists bucket)
  createBucket : ∀ bucket o, Keeps (objects · = o) (store.createBucket bucket)

theorem Memory.store_keepsObjects : Memory.store.KeepsObjects Memory.objects where
  download _ _ _ _ h := h
  bucketExists _ _ _ h := h
  createBucket bucket o s h := by
    show (Memory.change (·.createBucket bucket) s).2.objects = o
    simp only [Memory.change, Memory.createBucket]
    split
    · rename_i s' hs'
      split at hs'
      · cases hs'
      · cases hs'
        exact h
    · exact h

/-! ## File systems -/

/-- Looking at files keeps an invariant. -/
structure FileSystem.LooksKeep (fs : FileSystem (StateM σ)) (I : σ → Prop) : Prop where
  read : ∀ path, Keeps I (fs.read path)
  isDirectory : ∀ path, Keeps I (fs.isDirectory path)
  isPresent : ∀ path, Keeps I (fs.isPresent path)

theorem Tree.fileSystem_looksKeep (I : Tree → Prop) : Tree.fileSystem.LooksKeep I where
  read _ _ h := h
  isDirectory _ _ h := h
  isPresent _ _ h := h

/-- A change keeps what it keeps if it succeeds. -/
theorem Tree.change_keeps {I : Tree → Prop} {f : Tree → Except FileError Tree}
    (h : ∀ t t', f t = .ok t' → I t → I t') : Keeps I (change f) := by
  intro t ht
  rw [change]
  cases hf : f t with
  | error e => exact ht
  | ok t' => exact h t t' hf ht

namespace FileSystem

variable {fs : FileSystem (StateM σ)} {path : Text}

theorem orPresent_keeps (h : Keeps I (fs.isDirectory path)) (e : FileError) :
    Keeps I (fs.orPresent path e) :=
  .bind h fun _ => .pure _

/-- Making directories gets no further than to a path that is empty, or that never lacks a directory
to lie in, and so it keeps what is kept up to there. By induction on the paths, of which each one
lies in the next. -/
theorem makeFirst_keeps {paths outer : List Text}
    (hlook : ∀ path ∈ paths, path ≠ [] → Keeps I (fs.isDirectory path))
    (hmake : ∀ path ∈ paths, path ≠ [] → Keeps I (fs.makeDirectory path))
    (hstop : outer = [] ∨ ∃ path ∈ paths,
      path = [] ∨ ∀ s, I s → (fs.makeDirectory path s).1 ≠ .error .notFound) :
    Keeps I (fs.makeFirst (paths ++ outer)) := by
  induction paths with
  | nil =>
    obtain rfl : outer = [] := hstop.resolve_right (by simp)
    exact .pure _
  | cons path paths ih =>
    obtain ⟨hlookpath, hlook⟩ := List.forall_mem_cons.1 hlook
    obtain ⟨hmakepath, hmake⟩ := List.forall_mem_cons.1 hmake
    rw [List.cons_append, makeFirst]
    split
    · exact .pure _
    · rename_i hne
      refine .bind_of_result (hmakepath hne) fun result hresult => ?_
      cases result with
      | ok _ => exact .pure _
      | error e =>
        cases e with
        | notFound =>
          obtain ⟨s, hs, hmissing⟩ := hresult
          refine .bind (ih hlook hmake (hstop.imp_right ?_)) fun result => ?_
          · rintro ⟨stop, hmem, hstops⟩
            obtain rfl | hmem := List.mem_cons.1 hmem
            · exact absurd hmissing (hstops.resolve_left hne s hs)
            · exact ⟨stop, hmem, hstops⟩
          · cases result with
            | error e => exact .pure _
            | ok _ =>
              refine .bind (hmakepath hne) fun result => ?_
              cases result with
              | ok _ => exact .pure _
              | error e => exact orPresent_keeps (hlookpath hne) e
        | _ => exact orPresent_keeps (hlookpath hne) _

end FileSystem

namespace FileSystem.LooksKeep

variable {fs : FileSystem (StateM σ)} {path : Text}

theorem makeDirectories (h : fs.LooksKeep I)
    (hmake : ∀ dir ∈ FilePath.ancestors path, Keeps I (fs.makeDirectory dir)) :
    Keeps I (fs.makeDirectories path) := by
  have hkeeps := makeFirst_keeps (fun dir _ _ => h.isDirectory dir)
    (fun dir hdir _ => hmake dir hdir) (.inl rfl)
  rwa [List.append_nil] at hkeeps

theorem makeParent (h : fs.LooksKeep I)
    (hmake : ∀ parent, FilePath.parent? path = some parent →
      ∀ dir ∈ FilePath.ancestors parent, Keeps I (fs.makeDirectory dir)) :
    Keeps I (fs.makeParent path) := by
  rw [FileSystem.makeParent]
  split
  · exact h.makeDirectories (hmake _ ‹_›)
  · exact .pure _

end FileSystem.LooksKeep

/-! ## Directory stores -/

namespace DirectoryStore

variable {d : DirectoryStore} {fs : FileSystem (StateM σ)} {bucket key path : Text} {bytes : Bytes}
  {upsert : Bool}

theorem download_keeps
    (h : ∀ path, d.objectPath bucket key = .ok path → Keeps I (fs.read path)) :
    Keeps I (d.download fs bucket key) := by
  rw [download]
  cases hpath : d.objectPath bucket key with
  | error e => exact .pure _
  | ok path =>
    refine .bind (h path hpath) fun result => ?_
    cases result with
    | ok bytes => exact .pure _
    | error e => cases e <;> exact .pure _

theorem bucketExists_keeps
    (h : ∀ path, d.bucketPath bucket = .ok path → Keeps I (fs.isDirectory path)) :
    Keeps I (d.bucketExists fs bucket) := by
  rw [bucketExists]
  cases hpath : d.bucketPath bucket with
  | error e => exact .pure _
  | ok path => exact .bind (h path hpath) fun _ => .pure _

theorem createBucket_keeps
    (hlook : ∀ path, d.bucketPath bucket = .ok path → Keeps I (fs.isDirectory path))
    (hmake : ∀ path, d.bucketPath bucket = .ok path → Keeps I (fs.makeDirectories path)) :
    Keeps I (d.createBucket fs bucket) := by
  rw [createBucket]
  cases hpath : d.bucketPath bucket with
  | error e => exact .pure _
  | ok path =>
    refine .bind (hlook path hpath) fun present => ?_
    cases present with
    | true => exact .pure _
    | false => exact .bind (hmake path hpath) fun _ => .pure _

theorem writeObject_keeps (hmake : Keeps I (fs.makeParent path))
    (hwrite : Keeps I (fs.write path bytes)) : Keeps I (writeObject fs path bytes) := by
  refine .bind hmake fun result => ?_
  cases result with
  | error e => exact .pure _
  | ok _ => exact .bind hwrite fun _ => .pure _

theorem upload_keeps
    (hlook : ∀ path, d.bucketPath bucket = .ok path → Keeps I (fs.isDirectory path))
    (hpresent : ∀ path, d.objectPath bucket key = .ok path → Keeps I (fs.isPresent path))
    (hwrite : ∀ path, d.objectPath bucket key = .ok path → Keeps I (writeObject fs path bytes)) :
    Keeps I (d.upload fs bucket key bytes upsert) := by
  refine .bind (bucketExists_keeps hlook) fun result => ?_
  cases result with
  | error e => exact .pure _
  | ok there =>
    cases there with
    | false => exact .pure _
    | true =>
      cases hpath : d.objectPath bucket key with
      | error e => exact .pure _
      | ok path =>
        cases upsert with
        | true => exact hwrite path hpath
        | false =>
          refine .bind (hpresent path hpath) fun present => ?_
          cases present with
          | true => exact .pure _
          | false => exact hwrite path hpath

end DirectoryStore

theorem Tree.makeDirectory_keeps (files : List Text → Option Bytes) (path : Text) :
    Keeps (Tree.file? · = files) (Tree.fileSystem.makeDirectory path) :=
  Tree.change_keeps fun _ _ hmake h => (Tree.file?_makeDirectory hmake).trans h

theorem DirectoryStore.store_keepsObjects (d : DirectoryStore) :
    (d.store Tree.fileSystem).KeepsObjects Tree.file? where
  download _ _ _ := download_keeps fun _ _ => (Tree.fileSystem_looksKeep _).read _
  bucketExists _ _ := bucketExists_keeps fun _ _ => (Tree.fileSystem_looksKeep _).isDirectory _
  createBucket _ files :=
    createBucket_keeps (fun _ _ => (Tree.fileSystem_looksKeep _).isDirectory _) fun _ _ =>
      (Tree.fileSystem_looksKeep _).makeDirectories fun dir _ => Tree.makeDirectory_keeps files dir

end TexBundle
