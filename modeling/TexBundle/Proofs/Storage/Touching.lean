import TexBundle.Proofs.Storage.Access
import TexBundle.Proofs.Storage.Keeping

/-!
# What a file system is asked for

A file system whose operations are written down with their paths, whether they work or not.

* `Touch`: an operation with its path;
* `Touched.fileSystem`: the operations of a file system, written down;
* `Touched.note_keeps`, `Touched.makeFirst_keeps`: what holds of all operations so far holds after
  others of which it holds;
* `Touched.answer_mimics`: a directory store does the same whether they are written down or not.
-/

namespace TexBundle

/-- An operation that a file system is asked for, with its path. -/
inductive Touch where
  | read (path : Text)
  | write (path : Text)
  | make (path : Text)
  | look (path : Text)
deriving DecidableEq, Repr

def Touch.path : Touch → Text
  | read path | write path | make path | look path => path

/-- A state with the operations so far, the last one first. -/
structure Touched (σ : Type) where
  inner : σ
  touches : List Touch := []

namespace Touched

variable {σ α β : Type} {J : σ → Prop} {P : Touch → Prop}

/-- Performs an operation and writes it down. -/
def note (touch : Touch) (act : StateM σ α) : StateM (Touched σ) α := fun s =>
  ((act s.inner).1, ⟨(act s.inner).2, touch :: s.touches⟩)

/-- The operations of a file system, written down. -/
def fileSystem (fs : FileSystem (StateM σ)) : FileSystem (StateM (Touched σ)) where
  read path := note (.read path) (fs.read path)
  write path bytes := note (.write path) (fs.write path bytes)
  makeDirectory path := note (.make path) (fs.makeDirectory path)
  isDirectory path := note (.look path) (fs.isDirectory path)
  isPresent path := note (.look path) (fs.isPresent path)

theorem isDirectory_run {fs : FileSystem (StateM σ)} {path : Text} {s s' : σ} {there : Bool}
    (h : fs.isDirectory path s = (there, s')) (touches : List Touch) :
    (fileSystem fs).isDirectory path ⟨s, touches⟩ = (there, ⟨s', .look path :: touches⟩) := by
  show note (.look path) (fs.isDirectory path) ⟨s, touches⟩ = _
  rw [note, h]

/-! ## What holds of all operations -/

/-- A fact about the state, and one about each of the operations so far. -/
def Holds (J : σ → Prop) (P : Touch → Prop) (s : Touched σ) : Prop :=
  J s.inner ∧ ∀ touch ∈ s.touches, P touch

theorem note_keeps {touch : Touch} {act : StateM σ α} (hact : Keeps J act) (htouch : P touch) :
    Keeps (Holds J P) (note touch act) :=
  fun s hs => ⟨hact s.inner hs.1, List.forall_mem_cons.2 ⟨htouch, hs.2⟩⟩

theorem makeFirst_keeps {fs : FileSystem (StateM σ)} {paths outer : List Text}
    (hlooks : fs.LooksKeep J) (hmake : ∀ path, Keeps J (fs.makeDirectory path))
    (hpaths : ∀ path ∈ paths, path ≠ [] → P (.make path) ∧ P (.look path))
    (hstop : outer = [] ∨ ∃ path ∈ paths,
      path = [] ∨ ∀ s, J s → (fs.makeDirectory path s).1 ≠ .error .notFound) :
    Keeps (Holds J P) ((fileSystem fs).makeFirst (paths ++ outer)) := by
  refine FileSystem.makeFirst_keeps
    (fun path hpath hne => note_keeps (hlooks.isDirectory path) (hpaths path hpath hne).2)
    (fun path hpath hne => note_keeps (hmake path) (hpaths path hpath hne).1) (hstop.imp_right ?_)
  rintro ⟨path, hpath, hstops⟩
  exact ⟨path, hpath, hstops.imp_right fun h s hs => h s.inner hs.1⟩

theorem makeDirectories_keeps {fs : FileSystem (StateM σ)} {path : Text} (hlooks : fs.LooksKeep J)
    (hmake : ∀ path, Keeps J (fs.makeDirectory path))
    (hpaths : ∀ dir ∈ FilePath.ancestors path, P (.make dir) ∧ P (.look dir)) :
    Keeps (Holds J P) ((fileSystem fs).makeDirectories path) := by
  have hkeeps := makeFirst_keeps hlooks hmake (fun dir hdir _ => hpaths dir hdir) (.inl rfl)
  rwa [List.append_nil] at hkeeps

/-! ## Writing down changes nothing -/

/-- An action does the same as another one that writes nothing down. -/
def Mimics (act' : StateM (Touched σ) α) (act : StateM σ α) : Prop :=
  ∀ s, (act' s).1 = (act s.inner).1 ∧ (act' s).2.inner = (act s.inner).2

theorem note_mimics (touch : Touch) (act : StateM σ α) : Mimics (note touch act) act :=
  fun _ => ⟨rfl, rfl⟩

namespace Mimics

theorem pure (a : α) : Mimics (pure a) (pure a : StateM σ α) := fun _ => ⟨rfl, rfl⟩

theorem bind {act : StateM σ α} {act' : StateM (Touched σ) α} {next : α → StateM σ β}
    {next' : α → StateM (Touched σ) β} (h : Mimics act' act)
    (hnext : ∀ a, Mimics (next' a) (next a)) : Mimics (act' >>= next') (act >>= next) := by
  intro s
  obtain ⟨hresult, hinner⟩ := h s
  show (next' (act' s).1 (act' s).2).1 = (next (act s.inner).1 (act s.inner).2).1 ∧
    (next' (act' s).1 (act' s).2).2.inner = (next (act s.inner).1 (act s.inner).2).2
  rw [← hresult, ← hinner]
  exact hnext (act' s).1 (act' s).2

end Mimics

variable {fs : FileSystem (StateM σ)} {path : Text}

theorem orPresent_mimics (path : Text) (e : FileError) :
    Mimics ((fileSystem fs).orPresent path e) (fs.orPresent path e) :=
  .bind (note_mimics _ _) fun _ => .pure _

/-- By induction on the paths, of which each one lies in the next. -/
theorem makeFirst_mimics (paths : List Text) :
    Mimics ((fileSystem fs).makeFirst paths) (fs.makeFirst paths) := by
  induction paths with
  | nil => exact .pure _
  | cons path outer ih =>
    rw [FileSystem.makeFirst, FileSystem.makeFirst]
    split
    · exact .pure _
    · refine .bind (note_mimics _ _) fun result => ?_
      cases result with
      | ok _ => exact .pure _
      | error e =>
        cases e with
        | notFound =>
          refine .bind ih fun result => ?_
          cases result with
          | error e => exact .pure _
          | ok _ =>
            refine .bind (note_mimics _ _) fun result => ?_
            cases result with
            | ok _ => exact .pure _
            | error e => exact orPresent_mimics path e
        | _ => exact orPresent_mimics path _

theorem makeParent_mimics (path : Text) :
    Mimics ((fileSystem fs).makeParent path) (fs.makeParent path) := by
  rw [FileSystem.makeParent, FileSystem.makeParent]
  split
  · exact makeFirst_mimics _
  · exact .pure _

/-! ## Directory stores -/

section

variable {d : DirectoryStore} {bucket key : Text} {bytes : Bytes} {upsert : Bool}

theorem bucketExists_mimics :
    Mimics (d.bucketExists (fileSystem fs) bucket) (d.bucketExists fs bucket) := by
  rw [DirectoryStore.bucketExists, DirectoryStore.bucketExists]
  cases d.bucketPath bucket with
  | error e => exact .pure _
  | ok path => exact .bind (note_mimics _ _) fun _ => .pure _

theorem createBucket_mimics :
    Mimics (d.createBucket (fileSystem fs) bucket) (d.createBucket fs bucket) := by
  rw [DirectoryStore.createBucket, DirectoryStore.createBucket]
  cases d.bucketPath bucket with
  | error e => exact .pure _
  | ok path =>
    refine .bind (note_mimics _ _) fun present => ?_
    cases present with
    | true => exact .pure _
    | false => exact .bind (makeFirst_mimics _) fun _ => .pure _

theorem download_mimics :
    Mimics (d.download (fileSystem fs) bucket key) (d.download fs bucket key) := by
  rw [DirectoryStore.download, DirectoryStore.download]
  cases d.objectPath bucket key with
  | error e => exact .pure _
  | ok path =>
    refine .bind (note_mimics _ _) fun result => ?_
    cases result with
    | ok bytes => exact .pure _
    | error e => cases e <;> exact .pure _

theorem writeObject_mimics : Mimics (DirectoryStore.writeObject (fileSystem fs) path bytes)
    (DirectoryStore.writeObject fs path bytes) := by
  refine .bind (makeParent_mimics path) fun result => ?_
  cases result with
  | error e => exact .pure _
  | ok _ => exact .bind (note_mimics _ _) fun _ => .pure _

theorem upload_mimics : Mimics (d.upload (fileSystem fs) bucket key bytes upsert)
    (d.upload fs bucket key bytes upsert) := by
  refine .bind bucketExists_mimics fun result => ?_
  cases result with
  | error e => exact .pure _
  | ok there =>
    cases there with
    | false => exact .pure _
    | true =>
      cases d.objectPath bucket key with
      | error e => exact .pure _
      | ok path =>
        cases upsert with
        | true => exact writeObject_mimics
        | false =>
          refine .bind (note_mimics _ _) fun present => ?_
          cases present with
          | true => exact .pure _
          | false => exact writeObject_mimics

theorem answer_mimics (access : Access) :
    Mimics ((d.store (fileSystem fs)).answer access) ((d.store fs).answer access) := by
  cases access with
  | createBucket bucket => exact .bind createBucket_mimics fun _ => .pure _
  | bucketExists bucket => exact .bind bucketExists_mimics fun _ => .pure _
  | upload bucket key bytes upsert => exact .bind upload_mimics fun _ => .pure _
  | download bucket key => exact .bind download_mimics fun _ => .pure _

end

end Touched

end TexBundle
