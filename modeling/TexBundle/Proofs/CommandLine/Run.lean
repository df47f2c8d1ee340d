import TexBundle.CommandLine.Run
import TexBundle.Proofs.Bundler.Keeping
import TexBundle.Proofs.Storage.Guard

/-!
# Running invocations

Invocations on files that are a state, step by step. Packing comes in two parts: first a package is
built, then it is written.

* `Task.exec`: a part of a run, run from a state of the files;
* `assemble`, `run_package`: the package that is built, and what becomes of it;
* `assemble_keeps`: building makes no directories but those of the default bucket;
* `writePackage_keeps`: nor does writing a package, but those that it goes into.
-/

namespace TexBundle.CommandLine

variable {σ α β : Type}

/-- Runs a part of a run: its result, and the state of the files. -/
def Task.exec (task : Task (StateM σ) α) : StateM σ (Except Failure α) := task.run

namespace Task

variable {task : Task (StateM σ) α} {next : α → Task (StateM σ) β} {s s' : σ}

theorem exec_pure (a : α) (s : σ) : exec (pure a : Task (StateM σ) α) s = (.ok a, s) := rfl

theorem exec_bind (task : Task (StateM σ) α) (next : α → Task (StateM σ) β) (s : σ) :
    exec (task >>= next) s =
      match exec task s with
      | (.ok a, s') => exec (next a) s'
      | (.error e, s') => (.error e, s') := by
  show (ExceptT.bindCont next (exec task s).1).run (exec task s).2 = _
  obtain ⟨r, s'⟩ := exec task s
  cases r <;> rfl

theorem exec_bind_ok {a : α} (h : exec task s = (.ok a, s')) :
    exec (task >>= next) s = exec (next a) s' := by
  rw [exec_bind, h]

theorem exec_bind_error {e : Failure} (h : exec task s = (.error e, s')) :
    exec (task >>= next) s = (.error e, s') := by
  rw [exec_bind, h]

theorem exec_bind_eq_ok {b : β} (h : exec (task >>= next) s = (.ok b, s')) :
    ∃ a s₁, exec task s = (.ok a, s₁) ∧ exec (next a) s₁ = (.ok b, s') := by
  obtain ⟨⟨r, s₁⟩, htask⟩ : ∃ x, exec task s = x := ⟨_, rfl⟩
  cases r with
  | ok a => exact ⟨a, s₁, htask, (exec_bind_ok htask).symm.trans h⟩
  | error e => cases (exec_bind_error htask).symm.trans h

theorem exec_lift (act : StateM σ α) (s : σ) :
    exec (ExceptT.lift act : Task (StateM σ) α) s = (.ok (act s).1, (act s).2) :=
  rfl

theorem exec_onFiles (failure : FileError → Failure) (act : StateM σ (Except FileError α)) (s : σ) :
    exec (onFiles failure act) s = ((act s).1.mapError failure, (act s).2) := by
  rw [onFiles, exec_bind_ok (exec_lift act s)]
  cases (act s).1 <;> rfl

theorem eq_ok_of_mapError {ε ε' : Type} {x : Except ε α} {f : ε → ε'} {a : α}
    (h : x.mapError f = .ok a) : x = .ok a := by
  cases x with
  | ok a' => exact congrArg Except.ok (Except.ok.inj h)
  | error e => cases h

theorem exec_onFiles_eq_ok {failure : FileError → Failure} {act : StateM σ (Except FileError α)}
    {a : α} (h : exec (onFiles failure act) s = (.ok a, s')) : act s = (.ok a, s') := by
  rw [exec_onFiles] at h
  obtain ⟨hresult, rfl⟩ := Prod.mk.inj h
  exact Prod.ext (eq_ok_of_mapError hresult) rfl

theorem exec_onFiles_ok {failure : FileError → Failure} {act : StateM σ (Except FileError α)}
    {a : α} (h : act s = (.ok a, s')) : exec (onFiles failure act) s = (.ok a, s') := by
  rw [exec_onFiles, h]
  rfl

theorem exec_onFiles_error {failure : FileError → Failure} {act : StateM σ (Except FileError α)}
    {e : FileError} (h : act s = (.error e, s')) :
    exec (onFiles failure act) s = (.error (failure e), s') := by
  rw [exec_onFiles, h]
  rfl

theorem exec_perform (b : Bundler (StateM σ)) (op : Operation (StateM σ) α) (s : σ) :
    exec (perform b op) s =
      ((op.exec b.guard s).1.1.mapError .bundle, (op.exec b.guard s).2) := by
  obtain ⟨⟨⟨r, g⟩, s'⟩, hop⟩ : ∃ x, op.exec b.guard s = x := ⟨_, rfl⟩
  have hlift : exec (ExceptT.lift (op.run.run b.guard)) s = (.ok (r, g), s') := by
    rw [exec_lift]
    exact congrArg (fun x => (Except.ok x.1, x.2)) hop
  rw [perform, exec_bind_ok hlift, hop]
  cases r <;> rfl

theorem exec_perform_eq_ok {b : Bundler (StateM σ)} {op : Operation (StateM σ) α} {a : α}
    (h : exec (perform b op) s = (.ok a, s')) :
    ∃ g, op.exec b.guard s = ((.ok a, g), s') := by
  rw [exec_perform] at h
  obtain ⟨hresult, rfl⟩ := Prod.mk.inj h
  exact ⟨_, Prod.ext (Prod.ext (eq_ok_of_mapError hresult) rfl) rfl⟩

end Task

section

variable {I : σ → Prop}

theorem keeps_pure (a : α) : Keeps I (Task.exec (pure a)) := fun _ h => h

theorem keeps_throw (e : Failure) : Keeps I (Task.exec (throw e : Task (StateM σ) α)) :=
  fun _ h => h

theorem keeps_bind {task : Task (StateM σ) α} {next : α → Task (StateM σ) β}
    (h : Keeps I task.exec) (hnext : ∀ a, Keeps I (next a).exec) :
    Keeps I (Task.exec (task >>= next)) := by
  intro s hs
  have htask := h s hs
  rw [Task.exec_bind]
  obtain ⟨⟨r, s'⟩, hrun⟩ : ∃ x, task.exec s = x := ⟨_, rfl⟩
  rw [hrun] at htask ⊢
  cases r with
  | ok a => exact hnext a s' htask
  | error e => exact htask

theorem keeps_onFiles {act : StateM σ (Except FileError α)} (failure : FileError → Failure)
    (h : Keeps I act) : Keeps I (onFiles failure act).exec := by
  intro s hs
  rw [Task.exec_onFiles]
  exact h s hs

theorem keeps_perform {b : Bundler (StateM σ)} {op : Operation (StateM σ) α}
    {J : Guard → σ → Prop} (hop : op.Maintains J) (hstart : ∀ s, I s → J b.guard s)
    (hend : ∀ g s, J g s → I s) : Keeps I (perform b op).exec := by
  intro s hs
  rw [Task.exec_perform]
  exact hend _ _ (hop b.guard s (hstart s hs))

end

/-! ## Packing -/

section

variable {m : Type → Type} [Monad m]

/-- The stores and settings of an invocation. -/
def bundler (fs : FileSystem m) (i : Invocation) (settings : Settings) (document : Document) :
    Bundler m :=
  ⟨DirectoryStore.store ⟨i.root⟩ fs, Shelf.store { documents := [document] }, settings⟩

/-- The package of an invocation's document. -/
def assemble (fs : FileSystem m) (i : Invocation) : Task m Package := do
  let settings ← loadSettings fs i.settings
  let document ← loadDocument fs i.document
  perform (bundler fs i settings document)
    ((bundler fs i settings document).buildPackage document.id)

theorem run_package [LawfulMonad m] (fs : FileSystem m) {i : Invocation} {out : Text}
    (h : i.command = .package out) :
    run fs i = (do
      let p ← assemble fs i
      writePackage fs out p
      return []) := by
  simp only [run, assemble, execute, h, bundler, bind_assoc]

theorem run_flatten (fs : FileSystem m) {i : Invocation} (h : i.command = .flatten) :
    run fs i = (do
      let settings ← loadSettings fs i.settings
      let document ← loadDocument fs i.document
      perform (bundler fs i settings document)
        ((bundler fs i settings document).mergedSource document.id)) := by
  simp only [run, execute, h, bundler]

end

variable {I : σ → Prop} {fs : FileSystem (StateM σ)} {i : Invocation}

theorem readText_keeps (h : fs.LooksKeep I) (failure : FileError → Failure) (path : Text) :
    Keeps I (readText fs failure path).exec := by
  refine keeps_bind (keeps_onFiles failure (h.read path)) fun bytes => ?_
  split
  · exact keeps_pure _
  · exact keeps_throw _

theorem loadSettings_keeps (h : fs.LooksKeep I) (file : Option Text) :
    Keeps I (loadSettings fs file).exec := by
  cases file with
  | none => exact keeps_pure _
  | some path =>
    refine keeps_bind (readText_keeps h _ path) fun text => ?_
    split
    · exact keeps_pure _
    · exact keeps_throw _

theorem loadDocument_keeps (h : fs.LooksKeep I) (path : Text) :
    Keeps I (loadDocument fs path).exec := by
  refine keeps_bind (readText_keeps h _ path) fun text => ?_
  split
  · exact keeps_pure _
  · exact keeps_throw _

/-- The directories that operations may make: those of the default bucket. -/
theorem callsKeep_bundler (h : fs.LooksKeep I) {settings : Settings} (document : Document)
    (hmake : ∀ dir ∈ FilePath.ancestors (FilePath.join i.root settings.defaultBucket),
      Keeps I (fs.makeDirectory dir)) :
    (bundler fs i settings document).CallsKeep
      fun g s => g.bucket = settings.defaultBucket ∧ I s where
  documents _ _ _ hs := hs
  download _ _ _ s hs :=
    ⟨hs.1, DirectoryStore.download_keeps (fun path _ => h.read path) s hs.2⟩
  ensure := by
    refine Bundler.ensureDefault_maintains fun g s ⟨hbucket, hs⟩ =>
      ⟨(g.bucket_ensure _ s).trans hbucket, Guard.ensure_keeps ?_ ?_ s hs⟩
    · exact DirectoryStore.bucketExists_keeps fun path _ => h.isDirectory path
    · refine DirectoryStore.createBucket_keeps (fun path _ => h.isDirectory path)
        fun path hpath => h.makeDirectories ?_
      rw [DirectoryStore.bucketPath] at hpath
      split at hpath
      · obtain rfl := Except.ok.inj hpath
        rwa [hbucket]
      · cases hpath

theorem assemble_keeps (h : fs.LooksKeep I) {s : σ} (hs : I s)
    (hmake : ∀ settings s', (loadSettings fs i.settings).exec s = (.ok settings, s') →
      ∀ dir ∈ FilePath.ancestors (FilePath.join i.root settings.defaultBucket),
        Keeps I (fs.makeDirectory dir)) :
    I ((assemble fs i).exec s).2 := by
  have hload := loadSettings_keeps h i.settings s hs
  obtain ⟨⟨r, s₁⟩, hrun⟩ : ∃ x, (loadSettings fs i.settings).exec s = x := ⟨_, rfl⟩
  rw [hrun] at hload
  cases r with
  | error e =>
    rw [assemble, Task.exec_bind_error hrun]
    exact hload
  | ok settings =>
    rw [assemble, Task.exec_bind_ok hrun]
    refine keeps_bind (loadDocument_keeps h i.document) (fun document => ?_) s₁ hload
    have hcalls := callsKeep_bundler h document (hmake settings s₁ hrun)
    exact keeps_perform (hcalls.buildPackage document.id) (fun _ hs => ⟨rfl, hs⟩) fun _ _ hs => hs.2

/-- Building a package succeeds if its three steps do. -/
theorem exec_assemble {s s₁ s₂ s' : σ} {settings : Settings} {document : Document} {p : Package}
    {g : Guard} (hsettings : (loadSettings fs i.settings).exec s = (.ok settings, s₁))
    (hdocument : (loadDocument fs i.document).exec s₁ = (.ok document, s₂))
    (hbuild : ((bundler fs i settings document).buildPackage document.id).exec
      (bundler fs i settings document).guard s₂ = ((.ok p, g), s')) :
    (assemble fs i).exec s = (.ok p, s') := by
  rw [assemble, Task.exec_bind_ok hsettings, Task.exec_bind_ok hdocument, Task.exec_perform, hbuild]
  rfl

/-- With a package that has been built, a run succeeds exactly if the package can be written. -/
theorem exec_run_package {s s₁ : σ} {p : Package} {out : Text} (hi : i.command = .package out)
    (h : (assemble fs i).exec s = (.ok p, s₁)) :
    (run fs i).exec s = (((writePackage fs out p).exec s₁).1.map fun _ => [],
      ((writePackage fs out p).exec s₁).2) := by
  rw [run_package fs hi, Task.exec_bind_ok h, Task.exec_bind]
  obtain ⟨⟨r, s'⟩, hwrite⟩ : ∃ x, (writePackage fs out p).exec s₁ = x := ⟨_, rfl⟩
  rw [hwrite]
  cases r <;> rfl

theorem exec_writeFile_of_escapes {dir : Text} {f : PackagedFile}
    (h : Path.escapes (Path.dropSlashes f.path) = true) (s : σ) :
    (writeFile fs dir f).exec s = (.error (.outside dir f.path), s) := by
  simp only [writeFile, if_pos h]
  rfl

theorem writeFile_of_stays {dir : Text} {f : PackagedFile}
    (h : Path.escapes (Path.dropSlashes f.path) = false) :
    writeFile fs dir f = (do
      onFiles .storing (fs.makeParent (FilePath.join dir (Path.dropSlashes f.path)))
      onFiles .storing (fs.write (FilePath.join dir (Path.dropSlashes f.path)) f.bytes)) := by
  simp [writeFile, h]

section

variable {dir : Text}
  (hmake : ∀ relative, Path.escapes relative = false →
    ∀ parent, FilePath.parent? (FilePath.join dir relative) = some parent →
      ∀ path ∈ FilePath.ancestors parent, Keeps I (fs.makeDirectory path))
  (hwrite : ∀ relative, Path.escapes relative = false →
    ∀ bytes, Keeps I (fs.write (FilePath.join dir relative) bytes))

include hmake hwrite

theorem writeFile_keeps (h : fs.LooksKeep I) (f : PackagedFile) :
    Keeps I (writeFile fs dir f).exec := by
  cases hescapes : Path.escapes (Path.dropSlashes f.path) with
  | true =>
    intro s hs
    rwa [exec_writeFile_of_escapes hescapes]
  | false =>
    rw [writeFile_of_stays hescapes]
    exact keeps_bind (keeps_onFiles _ (h.makeParent (hmake _ hescapes))) fun _ =>
      keeps_onFiles _ (hwrite _ hescapes f.bytes)

/-- By induction on the files. -/
theorem writeFiles_keeps (h : fs.LooksKeep I) (files : List PackagedFile) :
    Keeps I (writeFiles fs dir files).exec := by
  induction files with
  | nil => exact keeps_pure _
  | cons f files ih => exact keeps_bind (writeFile_keeps hmake hwrite h f) fun _ => ih

theorem writePackage_keeps (h : fs.LooksKeep I) {p : Package}
    (hdir : ∀ path ∈ FilePath.ancestors dir, Keeps I (fs.makeDirectory path)) :
    Keeps I (writePackage fs dir p).exec := by
  refine keeps_bind (keeps_onFiles _ (h.makeDirectories hdir)) fun _ =>
    keeps_bind (keeps_onFiles _ (hwrite _ ?_ _)) fun _ => writeFiles_keeps hmake hwrite h p.files
  decide

end

end TexBundle.CommandLine
