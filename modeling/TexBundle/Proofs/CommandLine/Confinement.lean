import TexBundle.Proofs.CommandLine.Run
import TexBundle.Proofs.FileSystem.Frames

/-!
# Where packing writes

Packing makes directories and writes files below the directory that it packs into, and on the way
to it. Nothing that a manifest lists and no figure can lead it elsewhere. Beside that, it makes the
directory of the default bucket, if that is needed and not there yet.

* `Journal`: a tree with the paths at which something was to be made or written;
* `Permits`: the places that packing keeps to;
* `run_package_permits`: whatever is made or written, and whatever changes, is at such a place.
-/

namespace TexBundle

/-- A tree with all paths at which a directory was to be made or a file to be written, whether that
worked or not, the last one first. -/
structure Journal where
  tree : Tree
  paths : List Text := []

namespace Journal

variable {α : Type}

def look (act : StateM Tree α) : StateM Journal α := fun j =>
  ((act j.tree).1, { j with tree := (act j.tree).2 })

def record (path : Text) (act : StateM Tree α) : StateM Journal α := fun j =>
  ((act j.tree).1, ⟨(act j.tree).2, path :: j.paths⟩)

/-- The operations on the tree, with those written down that may change it. -/
def fileSystem : FileSystem (StateM Journal) where
  read path := look (Tree.fileSystem.read path)
  write path bytes := record path (Tree.fileSystem.write path bytes)
  makeDirectory path := record path (Tree.fileSystem.makeDirectory path)
  isDirectory path := look (Tree.fileSystem.isDirectory path)
  isPresent path := look (Tree.fileSystem.isPresent path)

/-- What holds of all paths so far is kept by looking, and by recording a path of which it holds. -/
theorem look_keeps (P : Text → Prop) (act : StateM Tree α) :
    Keeps (fun j => ∀ path ∈ j.paths, P path) (look act) :=
  fun _ h => h

theorem record_keeps {P : Text → Prop} {path : Text} (h : P path) (act : StateM Tree α) :
    Keeps (fun j => ∀ path ∈ j.paths, P path) (record path act) :=
  fun _ hj => List.forall_mem_cons.2 ⟨h, hj⟩

theorem fileSystem_looksKeep (P : Text → Prop) :
    fileSystem.LooksKeep fun j => ∀ path ∈ j.paths, P path where
  read _ := look_keeps P _
  isDirectory _ := look_keeps P _
  isPresent _ := look_keeps P _

end Journal

namespace CommandLine

variable {σ : Type} {fs : FileSystem (StateM σ)} {I : σ → Prop} {i : Invocation} {out : Text}
  {t : Tree} {q : List Text}

/-- The places that packing into a directory keeps to: those on the way to this directory and below
it, and those on the way to the default bucket. -/
def Permits (t : Tree) (i : Invocation) (out : Text) (q : List Text) : Prop :=
  t.OnWay out q ∨ t.placeOf out <+: q ∨
    ∃ settings, ((loadSettings Tree.fileSystem i.settings).exec t).1 = .ok settings ∧
      t.OnWay (FilePath.join i.root settings.defaultBucket) q

/-- A path that does not escape stays below the directory that it is joined to, and so does all that
it goes through behind this directory. -/
theorem permits_of_join {relative : Text} (h : Path.escapes relative = false)
    (hq : t.OnWay (FilePath.join out relative) q) : Permits t i out q := by
  obtain ⟨hrelative, hdots⟩ := Path.of_escapes_eq_false h
  exact (Tree.onWay_join hrelative (fun hmem => hdots (List.mem_filter.1 hmem).1) hq).imp_right .inl

/-- What is kept by making and writing at the places that packing keeps to, packing keeps. -/
theorem run_package_keeps (hi : i.command = .package out) (hlooks : fs.LooksKeep I) {s : σ}
    (hs : I s)
    (hsettings : ((loadSettings fs i.settings).exec s).1 =
      ((loadSettings Tree.fileSystem i.settings).exec t).1)
    (hmake : ∀ path, Permits t i out (t.placeOf path) → Keeps I (fs.makeDirectory path))
    (hwrite : ∀ path, Permits t i out (t.placeOf path) → ∀ bytes, Keeps I (fs.write path bytes)) :
    I ((run fs i).exec s).2 := by
  have hassemble : I ((assemble fs i).exec s).2 := by
    refine assemble_keeps hlooks hs fun settings s' hload dir hdir => hmake dir ?_
    rw [hload] at hsettings
    exact .inr (.inr ⟨settings, hsettings.symm, (t.onWay_placeOf dir).of_mem_ancestors hdir⟩)
  rw [run_package fs hi]
  obtain ⟨⟨r, s₁⟩, hrun⟩ : ∃ x, (assemble fs i).exec s = x := ⟨_, rfl⟩
  rw [hrun] at hassemble
  cases r with
  | error e =>
    rw [Task.exec_bind_error hrun]
    exact hassemble
  | ok p =>
    rw [Task.exec_bind_ok hrun]
    refine keeps_bind (writePackage_keeps ?_ ?_ hlooks ?_) (fun _ => keeps_pure _) s₁ hassemble
    · exact fun relative h parent hparent path hpath => hmake path (permits_of_join h
        (((t.onWay_placeOf path).of_mem_ancestors hpath).of_parent? hparent))
    · exact fun relative h => hwrite _ (permits_of_join h (t.onWay_placeOf _))
    · exact fun path hpath => hmake path (.inl ((t.onWay_placeOf path).of_mem_ancestors hpath))

/-- Settings depend on nothing but the bytes of their file. -/
theorem loadSettings_congr {τ : Type} {fs' : FileSystem (StateM τ)} {s : σ} {s' : τ}
    (h : ∀ path, (fs.read path s).1 = (fs'.read path s').1) (file : Option Text) :
    ((loadSettings fs file).exec s).1 = ((loadSettings fs' file).exec s').1 := by
  cases file with
  | none => rfl
  | some path =>
    simp only [loadSettings, readText, Task.exec_bind, Task.exec_onFiles, h path]
    cases (fs'.read path s').1 with
    | error e => rfl
    | ok bytes =>
      cases hdecode : Utf8.decode? bytes with
      | none => simp only [Except.mapError, hdecode]; rfl
      | some text =>
        simp only [Except.mapError, hdecode, Task.exec_pure]
        cases Settings.decoder.run text <;> rfl

/-- Whatever document is packed, with whatever settings and from whatever store: each path at which
a directory is to be made or a file to be written means a place below the directory that is packed
into, or on the way to it, or on the way to the default bucket, which is made if it is missing. At
all other places, the tree stays as it is. -/
theorem run_package_permits (hi : i.command = .package out) (t : Tree) :
    (∀ path ∈ ((run Journal.fileSystem i).exec ⟨t, []⟩).2.paths,
      Permits t i out (t.placeOf path)) ∧
    t.Frame (Permits t i out) ((run Tree.fileSystem i).exec t).2 := by
  have hread : ∀ path, (Journal.fileSystem.read path ⟨t, []⟩).1 =
    (Tree.fileSystem.read path t).1 := fun _ => rfl
  constructor
  · refine run_package_keeps hi (Journal.fileSystem_looksKeep _) (by simp)
      (loadSettings_congr hread _) (fun path h => ?_) fun path h bytes => ?_
    · exact Journal.record_keeps h _
    · exact Journal.record_keeps h _
  · exact run_package_keeps hi (Tree.fileSystem_looksKeep _) (.refl _ t) rfl
      (fun path h => Tree.makeDirectory_frame h) fun path h bytes => Tree.write_frame h bytes

/-- A bundle that would be packed into a directory further down, but its entry is not there. -/
theorem run_package_permits_of_missing :
    let text : Text := "\x7b\"id\":\"d\",\"latexManifest\":\x7b\"bucket\":\"b\"," ++
      "\"basePrefix\":\"p\",\"entryPath\":\"main.tex\"\x7d\x7d"
    let i : Invocation := ⟨"store", none, "doc.json", .package "a/out"⟩
    let t : Tree := { nodes := [(["doc.json"], .file (Utf8.encode text))] }
    i.command = .package "a/out" ∧
      ((run Journal.fileSystem i).exec ⟨t, []⟩).1 = .error (.bundle (.entryNotFound "main.tex")) ∧
      (∀ path ∈ ((run Journal.fileSystem i).exec ⟨t, []⟩).2.paths,
        Permits t i "a/out" (t.placeOf path)) ∧
      t.Frame (Permits t i "a/out") ((run Tree.fileSystem i).exec t).2 := by
  intro text i t
  exact ⟨rfl, by decide +kernel, run_package_permits rfl t⟩

/-- A bundle in the default bucket, of which there is nothing. Packing it makes the bucket, which is
not below the directory that it should be packed into, nor on the way to it. -/
theorem not_below_default_bucket :
    let text : Text := "\x7b\"id\":\"d\",\"latexManifest\":\x7b\"basePrefix\":\"p\"," ++
      "\"entryPath\":\"main.tex\"\x7d\x7d"
    let i : Invocation := ⟨"store", none, "doc.json", .package "out"⟩
    let t : Tree := { nodes := [(["doc.json"], .file (Utf8.encode text))] }
    let bucket : List Text := ["store", "latex-bundles"]
    ((run Tree.fileSystem i).exec t).1 = .error (.bundle (.entryNotFound "main.tex")) ∧
      t.node? bucket = none ∧
      ((run Tree.fileSystem i).exec t).2.node? bucket = some .directory ∧
      ¬ t.placeOf "out" <+: bucket ∧ ¬ t.OnWay "out" bucket := by
  decide +kernel

end CommandLine

end TexBundle
