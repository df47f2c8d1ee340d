import TexBundle.Proofs.CommandLine.Confinement
import TexBundle.Proofs.CommandLine.Contents

/-!
# What is left behind when packing fails

No file is written before a package has been built, but then the main source is written first, and
the other files one by one. If one of these cannot be written, those before it stay.

* `Package.Fits`: the packages of which all files can be written below a directory;
* `Tree.Room`: a directory with room for files at certain places, which writing one of them keeps;
* `exec_writeFiles_eq_ok_iff`: all files are written exactly if the package fits;
* `run_package_leaves_iff`: what leaves something behind is a package that does not fit.
-/

namespace TexBundle

open FilePath (steps join)

/-- None of the places lies below another one. -/
def Apart (places : List (List Text)) : Prop := ∀ q ∈ places, ∀ r ∈ places, q <+: r → q = r

/-- The places of a package's files, as seen from the directory that it is written into. -/
def Package.places (p : Package) : List (List Text) :=
  Package.mainSteps :: p.files.map fun f => steps f.path

/-- All files of a package can be written below a directory: no path is refused or too long, and no
file would be the directory of another one. -/
structure Package.Fits (p : Package) (dir : Text) : Prop where
  inside : ∀ f ∈ p.files, Path.escapes f.path = false
  short : ∀ f ∈ p.files, (join dir f.path).size ≤ Tree.maxPath
  apart : Apart p.places

namespace Tree

variable {t t' : Tree} {dir path : Text} {places : List (List Text)} {q r : List Text}
  {name : Text} {bytes : Bytes}

/-- A place is somewhere below a directory. -/
def Inside (t : Tree) (dir : Text) (q : List Text) : Prop := ∃ r, r ≠ [] ∧ q = t.placeOf dir ++ r

/-- A directory has room for files at certain places: where these are to be there is no directory,
and no file where they need one. -/
structure Room (t : Tree) (dir : Text) (places : List (List Text)) : Prop where
  apart : Apart places
  stands : t.Stands dir
  clear : ∀ p ∈ places, ∀ q, q <+: p → q ≠ p →
    ∀ bytes, t.node? (t.placeOf dir ++ q) ≠ some (.file bytes)
  free : ∀ p ∈ places, t.node? (t.placeOf dir ++ p) ≠ some .directory

theorem node?_eq_none_of_inside (hne : t.placeOf dir ≠ [])
    (h : ∀ n ∈ t.nodes, ¬ t.placeOf dir <+: n.1) (hq : t.Inside dir q) : t.node? q = none := by
  obtain ⟨r, -, rfl⟩ := hq
  exact node?_append_eq_none hne h r

namespace Room

/-- There is room in a directory with nothing in it. -/
theorem of_empty (happart : Apart places) (hne : [] ∉ places) (hstands : t.Stands dir)
    (hfree : ∀ q, t.Inside dir q → t.node? q = none) : t.Room dir places where
  apart := happart
  stands := hstands
  clear p _ q _ _ bytes h := by
    by_cases hq : q = []
    · rw [hq, List.append_nil, hstands.directory] at h
      cases h
    · rw [hfree _ ⟨q, hq, rfl⟩] at h
      cases h
  free p hp h := by
    rw [hfree _ ⟨p, fun e => hne (e ▸ hp), rfl⟩] at h
    cases h

/-- Room is left when the directories have been made that one of the files needs. -/
theorem made (h : t.Room dir places) (hmem : r ++ [name] ∈ places)
    (hmade : t.Made t' (t.placeOf dir) r) : t'.Room dir places := by
  have hplace : t'.placeOf dir = t.placeOf dir := placeOf_congr hmade.cwd_eq dir
  have hsound : t'.Sound :=
    ⟨hmade.closed, hmade.cwd_eq ▸ hmade.grows.directory _ h.stands.sound.cwd⟩
  refine ⟨h.apart, h.stands.of_grows hmade.grows hsound, fun p hp q hq hne bytes => ?_,
    fun p hp => ?_⟩
  · rw [hplace]
    exact hmade.ne_file (h.clear p hp q hq hne bytes)
  · rw [hplace, hmade.node?_eq _ fun q hq e => ?_]
    · exact h.free p hp
    · -- A file whose place has been made a directory would be one that the new file lies in.
      obtain rfl := List.append_cancel_left e
      exact ne_concat_of_isPrefix hq name
        (h.apart p hp _ hmem (hq.trans (List.prefix_append ..)))

/-- Room is left when one of the files has been written. -/
theorem puts (h : t.Room dir places) (hmem : q ∈ places)
    (hplace : t.placeOf path = t.placeOf dir ++ q) (hputs : t.Puts t' path (.file bytes)) :
    t'.Room dir places := by
  have hnode (r : List Text) : t'.node? (t'.placeOf dir ++ r) =
      if r = q then some (.file bytes) else t.node? (t.placeOf dir ++ r) := by
    rw [placeOf_congr hputs.cwd_eq, hputs.node?_eq, hplace]
    simp only [List.append_cancel_left_eq]
  refine ⟨h.apart, h.stands.of_grows hputs.grows (hputs.sound h.stands.sound),
    fun p hp r hr hne bytes' => ?_, fun p hp => ?_⟩
  · rw [hnode, if_neg fun e => hne ?_]
    · exact h.clear p hp r hr hne bytes'
    · rw [e] at hr ⊢
      exact h.apart q hmem p hp hr
  · rw [hnode]
    split
    · simp
    · exact h.free p hp

/-- A file can be written if the directory is there that it lies in. -/
theorem write (h : t.Room dir places) (hmem : steps path ∈ places) (hpath : Descends path)
    (hsize : (join dir path).size ≤ maxPath) (hsteps : steps path = r ++ [name])
    (hdir : t.node? (t.placeOf dir ++ r) = some .directory) (bytes : Bytes) :
    ∃ t', t.write (join dir path) bytes = .ok t' ∧ t'.Room dir places := by
  have hroute := h.stands.route hpath hsize (h.clear _ hmem)
  have hfree := h.free _ hmem
  rw [hsteps] at hroute hfree
  have hwrite := hroute.write_eq h.stands.sound.closed hdir hfree bytes
  exact ⟨_, hwrite,
    h.puts hmem (placeOf_join hpath.relative hpath.not_dots dir) (of_write hwrite)⟩

end Room

/-- Where files are is apart. -/
theorem apart_of_files (base : List Text) (hclosed : t.Closed)
    (h : ∀ q ∈ places, t.file? (base ++ q) ≠ none) : Apart places := by
  intro q hq r hr hprefix
  obtain ⟨more, rfl⟩ := hprefix
  by_contra hne
  have hbelow : t.node? (base ++ q ++ more) ≠ none := by
    rw [List.append_assoc]
    intro hnone
    exact h _ hr (by rw [file?, hnone])
  have hdir := hclosed.directory_of_below (fun e => hne (by rw [e, List.append_nil])) hbelow
  exact h q hq (by rw [file?, hdir])

end Tree

namespace CommandLine

variable {i : Invocation} {out dir : Text} {t t' t₁ t₂ : Tree} {f : PackagedFile} {p : Package}
  {files : List PackagedFile} {places : List (List Text)} {q : List Text} {bytes : Bytes}

/-! ## Writing where there is room -/

theorem exec_writeFile_of_room (h : t.Room dir places) (hmem : steps f.path ∈ places)
    (hpath : Tree.Descends f.path) (hinside : Path.escapes f.path = false)
    (hsize : (join dir f.path).size ≤ Tree.maxPath) :
    ∃ t', (writeFile Tree.fileSystem dir f).exec t = (.ok (), t') ∧ t'.Room dir places := by
  have hdrop : Path.dropSlashes f.path = f.path := Path.dropSlashes_eq_self hpath.relative
  obtain ⟨init, hinit⟩ := hpath.exists_steps_eq
  obtain ⟨t₁, hparent, hmade⟩ := h.stands.makeParent hpath hsize hinit fun q hq =>
    h.clear _ hmem q (hinit ▸ hq.trans (List.prefix_append ..))
      (hinit ▸ ne_concat_of_isPrefix hq (Path.fileName f.path))
  have hdir := hmade.directory init (List.prefix_refl init)
  rw [← Tree.placeOf_congr hmade.cwd_eq] at hdir
  obtain ⟨t₂, hwrite, hroom⟩ :=
    (h.made (hinit ▸ hmem) hmade).write hmem hpath hsize hinit hdir f.bytes
  refine ⟨t₂, ?_, hroom⟩
  rw [writeFile_of_stays (by rwa [hdrop]), hdrop, Task.exec_bind_ok (Task.exec_onFiles_ok hparent)]
  exact exec_write_eq_ok_iff.2 hwrite

/-- By induction on the files. -/
theorem exec_writeFiles_of_room (h : t.Room dir places)
    (hfiles : ∀ f ∈ files, steps f.path ∈ places ∧ Tree.Descends f.path ∧
      Path.escapes f.path = false ∧ (join dir f.path).size ≤ Tree.maxPath) :
    ∃ t', (writeFiles Tree.fileSystem dir files).exec t = (.ok (), t') := by
  induction files generalizing t with
  | nil => exact ⟨t, rfl⟩
  | cons f files ih =>
    obtain ⟨⟨hmem, hpath, hinside, hsize⟩, hfiles⟩ := List.forall_mem_cons.1 hfiles
    obtain ⟨t₁, hfile, hroom⟩ := exec_writeFile_of_room h hmem hpath hinside hsize
    obtain ⟨t', hrest⟩ := ih hroom hfiles
    exact ⟨t', (Task.exec_bind_ok hfile).trans hrest⟩

/-! ## Writing into an empty directory -/

/-- What has been written before stays, whether the files can be written or not. -/
theorem writeFiles_keeps_node (dir : Text) (files : List PackagedFile) (q : List Text) :
    Keeps (fun t => t.node? q ≠ none) (writeFiles Tree.fileSystem dir files).exec :=
  writeFiles_keeps
    (fun _ _ _ _ _ _ => Tree.change_keeps fun _ _ h => (Tree.of_makeDirectory h).1.node?_ne_none)
    (fun _ _ _ => Tree.change_keeps fun _ _ h => (Tree.of_write h).node?_ne_none)
    (Tree.fileSystem_looksKeep _) files

theorem descends_mainTex : Tree.Descends "main.tex" :=
  ⟨by decide, by decide, by decide, by decide⟩

section

variable (hstands : t.Stands dir) (hfree : ∀ q, t.Inside dir q → t.node? q = none)

include hstands hfree

/-- Nothing can keep the main source from being written, but the length of its path. -/
theorem write_main_eq_ok_iff (bytes : Bytes) :
    (∃ t', t.write (join dir "main.tex") bytes = .ok t') ↔
      (join dir "main.tex").size ≤ Tree.maxPath := by
  constructor
  · rintro ⟨t', h⟩
    obtain ⟨_, _, hlocate, -⟩ := Tree.locate_of_write h
    exact (Tree.isPath_of_locate hlocate).size_le
  · intro hsize
    have hroom : t.Room dir [Package.mainSteps] :=
      .of_empty (by simp [Apart]) (by decide) hstands hfree
    obtain ⟨t', hwrite, -⟩ := hroom.write (r := []) (by decide) descends_mainTex hsize rfl
      (by rw [List.append_nil]; exact hstands.directory) bytes
    exact ⟨t', hwrite⟩

variable (hwrite : t.write (join dir "main.tex") bytes = .ok t₁)
  (hp : ∀ f ∈ p.files, Tree.Descends f.path)

include hwrite hp

/-- With the main source written, the files of a package can be written if it fits. -/
theorem exec_writeFiles_of_fits (h : p.Fits dir) :
    ((writeFiles Tree.fileSystem dir p.files).exec t₁).1 = .ok () := by
  have hne : [] ∉ p.places := by
    intro hnil
    obtain hnil | hnil := List.mem_cons.1 hnil
    · cases hnil
    · obtain ⟨f, hf, e⟩ := List.mem_map.1 hnil
      exact (hp f hf).ne_nil e
  have hroom := (Tree.Room.of_empty h.apart hne hstands hfree).puts List.mem_cons_self
    (placeOf_mainTex t dir) (Tree.of_write hwrite)
  obtain ⟨t', ht'⟩ := exec_writeFiles_of_room hroom fun f hf =>
    ⟨List.mem_cons_of_mem _ (List.mem_map_of_mem hf), hp f hf, h.inside f hf, h.short f hf⟩
  exact congrArg Prod.fst ht'

omit hfree in
/-- Conversely, a package fits if its files have been written, since they all are there. -/
theorem fits_of_exec_writeFiles
    (h : ((writeFiles Tree.fileSystem dir p.files).exec t₁).1 = .ok ()) : p.Fits dir := by
  have hputs := Tree.of_write hwrite
  have hwrote := wrote_of_writeFiles (Prod.ext h rfl)
  have hkeeps : Keeps Tree.Sound (writeFiles Tree.fileSystem dir p.files).exec :=
    writeFiles_keeps (fun _ _ _ _ path _ => Tree.makeDirectory_sound path)
      (fun _ _ => Tree.write_sound _) (Tree.fileSystem_looksKeep _) p.files
  have hsound := hkeeps t₁ (hputs.sound hstands.sound)
  have hdrop (f) (hf : f ∈ p.files) : Path.dropSlashes f.path = f.path :=
    Path.dropSlashes_eq_self (hp f hf).relative
  refine ⟨fun f hf => hdrop f hf ▸ hwrote.inside f hf, fun f hf => ?_,
    Tree.apart_of_files (t₁.placeOf dir) hsound.closed fun q hq => ?_⟩
  · have hshort := hwrote.short f hf
    rwa [hdrop f hf] at hshort
  · by_cases hfile : ∃ f ∈ p.files, q = steps f.path
    · obtain ⟨f, hf, rfl⟩ := hfile
      exact hwrote.there f hf
    · obtain rfl : q = Package.mainSteps := by
        refine (List.mem_cons.1 hq).resolve_right fun hq => hfile ?_
        obtain ⟨f, hf, e⟩ := List.mem_map.1 hq
        exact ⟨f, hf, e.symm⟩
      rw [hwrote.file?_eq _ fun f hf e => hfile ⟨f, hf, List.append_cancel_left e⟩,
        hputs.file?_eq, placeOf_mainTex, Tree.placeOf_congr hputs.cwd_eq, if_pos rfl]
      simp

theorem exec_writeFiles_eq_ok_iff :
    ((writeFiles Tree.fileSystem dir p.files).exec t₁).1 = .ok () ↔ p.Fits dir :=
  ⟨fits_of_exec_writeFiles hstands hwrite hp, exec_writeFiles_of_fits hstands hfree hwrite hp⟩

/-- If they cannot be written, at least the main source is left behind. -/
theorem writeFiles_leaves_iff :
    let result := (writeFiles Tree.fileSystem dir p.files).exec t₁
    (result.1 ≠ .ok () ∧ ∃ q, t.Inside dir q ∧ result.2.node? q ≠ none) ↔ ¬ p.Fits dir := by
  have hthere : t₁.node? (t.placeOf (join dir "main.tex")) ≠ none := by
    rw [(Tree.of_write hwrite).node?_eq, if_pos rfl]
    simp
  rw [← exec_writeFiles_eq_ok_iff hstands hfree hwrite hp]
  exact and_iff_left ⟨_, ⟨Package.mainSteps, by decide, placeOf_mainTex t dir⟩,
    writeFiles_keeps_node dir p.files _ t₁ hthere⟩

end

/-- Writing a package fails and leaves something behind exactly if the directory can be made, the
main source can be written, and the package does not fit. -/
theorem writePackage_leaves_iff (hsound : t.Sound) (hp : ∀ f ∈ p.files, Tree.Descends f.path)
    (hfree : ∀ q, t.Inside dir q → (Tree.fileSystem.makeDirectories dir t).2.node? q = none) :
    let result := (writePackage Tree.fileSystem dir p).exec t
    (result.1 ≠ .ok () ∧ ∃ q, t.Inside dir q ∧ result.2.node? q ≠ none) ↔
      (Tree.fileSystem.makeDirectories dir t).1 = .ok () ∧
        (join dir "main.tex").size ≤ Tree.maxPath ∧ ¬ p.Fits dir := by
  intro result
  obtain ⟨⟨r, t₁⟩, hmake⟩ : ∃ x, Tree.fileSystem.makeDirectories dir t = x := ⟨_, rfl⟩
  rw [hmake] at hfree ⊢
  have hnothing : ¬ ∃ q, t.Inside dir q ∧ t₁.node? q ≠ none :=
    fun ⟨q, hq, hnode⟩ => hnode (hfree q hq)
  cases r with
  | error e =>
    have hresult : result = (.error (.storing e), t₁) :=
      Task.exec_bind_error (Task.exec_onFiles_error hmake)
    rw [hresult]
    exact iff_of_false (fun h => hnothing h.2) fun h => by cases h.1
  | ok u =>
    have hcwd := (Tree.extends_of_makeDirectories hmake).grows.cwd_eq
    have hstands := Tree.stands_of_makeDirectories hsound hmake
    simp only [Tree.Inside, ← Tree.placeOf_congr hcwd dir] at hfree hnothing ⊢
    have hmain := write_main_eq_ok_iff hstands hfree (Utf8.encode p.mainSource)
    have hresult : result = _ := Task.exec_bind_ok (Task.exec_onFiles_ok hmake)
    rw [Task.exec_bind, exec_write] at hresult
    cases hwrite : t₁.write (join dir "main.tex") (Utf8.encode p.mainSource) with
    | error e =>
      rw [hwrite] at hresult hmain
      rw [hresult, ← hmain]
      exact iff_of_false (fun h => hnothing h.2) fun ⟨_, ⟨_, h⟩, _⟩ => by cases h
    | ok t₂ =>
      rw [hwrite] at hresult hmain
      rw [hresult, ← hmain]
      refine (writeFiles_leaves_iff hstands hfree hwrite hp).trans ?_
      exact ⟨fun h => ⟨trivial, ⟨t₂, rfl⟩, h⟩, fun h => h.2.2⟩

/-! ## Runs -/

/-- Nothing is below a directory, and nothing will be by making this directory or the default
bucket. -/
structure Fresh (t : Tree) (i : Invocation) (out : Text) : Prop where
  free : ∀ q, t.Inside out q → t.node? q = none
  way : ∀ q, t.OnWay out q → ¬ t.Inside out q
  bucket : ∀ settings, ((loadSettings Tree.fileSystem i.settings).exec t).1 = .ok settings →
    ∀ q, t.OnWay (join i.root settings.defaultBucket) q → ¬ t.Inside out q

namespace Fresh

/-- For paths without `..`, it is enough that the default bucket is not below the directory. -/
theorem of_plain (hfree : ∀ q, t.Inside out q → t.node? q = none) (hout : ['.', '.'] ∉ steps out)
    (hbucket : ∀ settings, ((loadSettings Tree.fileSystem i.settings).exec t).1 = .ok settings →
      ['.', '.'] ∉ steps (join i.root settings.defaultBucket) ∧
        ¬ t.placeOf out <+: t.placeOf (join i.root settings.defaultBucket)) : Fresh t i out where
  free := hfree
  way := by
    rintro _ hway ⟨r, hr, rfl⟩
    have := (hway.isPrefix hout).length_le
    rw [List.length_append] at this
    exact hr (List.length_eq_zero_iff.1 (by omega))
  bucket := by
    rintro settings hload _ hway ⟨r, -, rfl⟩
    obtain ⟨hdots, hapart⟩ := hbucket settings hload
    exact hapart ((List.prefix_append ..).trans (hway.isPrefix hdots))

variable (h : Fresh t i out)

include h

/-- Building a package changes nothing below the directory that it will be written into. -/
theorem frame_assemble :
    t.Frame (fun q => ¬ t.Inside out q) ((assemble Tree.fileSystem i).exec t).2 :=
  assemble_keeps (Tree.fileSystem_looksKeep _) (.refl _ t) fun settings _ hload dir hdir =>
    Tree.makeDirectory_frame (h.bucket settings (congrArg Prod.fst hload) _
      ((t.onWay_placeOf dir).of_mem_ancestors hdir))

/-- Nor does making this directory. -/
theorem makeDirectories_frame :
    Keeps (t.Frame fun q => ¬ t.Inside out q) (Tree.fileSystem.makeDirectories out) :=
  (Tree.fileSystem_looksKeep _).makeDirectories fun dir hdir =>
    Tree.makeDirectory_frame (h.way _ ((t.onWay_placeOf dir).of_mem_ancestors hdir))

theorem node?_eq_none (hframe : t.Frame (fun q => ¬ t.Inside out q) t') (hq : t.Inside out q) :
    t'.node? q = none :=
  (hframe.node?_eq q (not_not_intro hq)).trans (h.free q hq)

end Fresh

theorem assemble_sound (i : Invocation) (hsound : t.Sound) :
    ((assemble Tree.fileSystem i).exec t).2.Sound :=
  assemble_keeps (Tree.fileSystem_looksKeep Tree.Sound) hsound
    fun _ _ _ dir _ => Tree.makeDirectory_sound dir

/-- A run that packs into a directory with nothing in it fails and leaves something behind exactly
if a package is built, its directory can be made and its main source can be written, but it does not
fit: the path of a file is refused or too long, or one file would be the directory of another one.
In all other cases it is packed as a whole, or nothing of it is written. -/
theorem run_package_leaves_iff (hi : i.command = .package out) (hsound : t.Sound)
    (hfresh : Fresh t i out) :
    let result := (run Tree.fileSystem i).exec t
    let built := (assemble Tree.fileSystem i).exec t
    ((Report.ofResult result.1).exitCode ≠ 0 ∧ ∃ q, t.Inside out q ∧ result.2.node? q ≠ none) ↔
      ∃ p, built.1 = .ok p ∧ (Tree.fileSystem.makeDirectories out built.2).1 = .ok () ∧
        (join out "main.tex").size ≤ Tree.maxPath ∧ ¬ p.Fits out := by
  intro result built
  have hframe := hfresh.frame_assemble
  have hsound₁ := assemble_sound i hsound
  obtain ⟨⟨r, t₁⟩, hbuilt⟩ : ∃ x, (assemble Tree.fileSystem i).exec t = x := ⟨_, rfl⟩
  rw [show built = (r, t₁) from hbuilt]
  rw [hbuilt] at hframe hsound₁
  cases r with
  | error e =>
    have hresult : result = (.error e, t₁) := by
      rw [← Task.exec_bind_error hbuilt, ← run_package _ hi]
    rw [hresult]
    refine iff_of_false (fun ⟨_, q, hq, hnode⟩ => hnode (hfresh.node?_eq_none hframe hq)) ?_
    rintro ⟨p, hp, -⟩
    cases hp
  | ok p =>
    have hp := assembled_of_assemble hbuilt
    have hinside (q : List Text) : t.Inside out q ↔ t₁.Inside out q := by
      rw [Tree.Inside, Tree.Inside, Tree.placeOf_congr hp.tree.grows.cwd_eq]
    have hwrite := writePackage_leaves_iff hsound₁ hp.descends fun q hq =>
      hfresh.node?_eq_none (hfresh.makeDirectories_frame t₁ hframe) ((hinside q).2 hq)
    have hexit : (Report.ofResult result.1).exitCode ≠ 0 ↔
        ((writePackage Tree.fileSystem out p).exec t₁).1 ≠ .ok () := by
      rw [Ne, Ne, exitCode_eq_zero_iff, congrArg Prod.fst (exec_run_package hi hbuilt)]
      cases ((writePackage Tree.fileSystem out p).exec t₁).1 <;> simp [Except.map]
    have htree : result.2 = ((writePackage Tree.fileSystem out p).exec t₁).2 :=
      congrArg Prod.snd (exec_run_package hi hbuilt)
    simp only [hexit, hinside, htree, Except.ok.injEq, exists_eq_left']
    exact hwrite

/-- A bundle with a file that is called like the directory of its figures. Each of the two is stored
where it belongs, but they cannot be written into one directory. -/
theorem run_package_leaves_iff_of_clash :
    let text : Text := "\x7b\"id\":\"d\",\"latexManifest\":\x7b\"bucket\":\"b\"," ++
      "\"basePrefix\":\"p\",\"entryPath\":\"main.tex\"," ++
      "\"files\":[\x7b\"path\":\"assets\"\x7d]\x7d\x7d"
    let source : Text := "\\includegraphics\x7bassets/d__f.png\x7d"
    let i : Invocation := ⟨"store", none, "doc.json", .package "out"⟩
    let t : Tree := { nodes := [
      (["doc.json"], .file (Utf8.encode text)),
      (["store"], .directory),
      (["store", "b"], .directory),
      (["store", "b", "p"], .directory),
      (["store", "b", "p", "main.tex"], .file (Utf8.encode source)),
      (["store", "b", "p", "assets"], .file [1]),
      (["store", "b", "assets"], .directory),
      (["store", "b", "assets", "d__f.png"], .file [2])] }
    let result := (run Tree.fileSystem i).exec t
    i.command = .package "out" ∧ t.Sound ∧ Fresh t i "out" ∧
      (Report.ofResult result.1).exitCode ≠ 0 ∧
      ∃ q, t.Inside "out" q ∧ result.2.node? q ≠ none := by
  intro text source i t result
  let m : Manifest :=
    { bucket := "b", basePrefix := "p", entryPath := "main.tex", files := [⟨"assets", none, none⟩] }
  let p : Package := ⟨source, [⟨"assets", [1]⟩, ⟨"assets/d__f.png", [2]⟩]⟩
  have hassemble : (assemble Tree.fileSystem i).exec t = (.ok p, t) := by
    have hnone : Source.figuresBy Source.Figure.readDetokenized? source = [] :=
      List.eq_nil_of_length_eq_zero (by decide +kernel)
    refine exec_assemble_of_parts { id := "d", manifest := some m } source "b"
      [.ok ⟨"assets", [1]⟩] [.ok ⟨"assets/d__f.png", [2]⟩] rfl ?_ hnone ?_ ?_ ?_ ?_ ?_ <;>
      decide +kernel
  have hfits : ¬ p.Fits "out" := fun h =>
    absurd (h.apart [("assets" : Text)] (by decide) [("assets" : Text), "d__f.png"] (by decide)
      (by decide)) (by decide)
  have hsound : t.Sound := ⟨Tree.closed_of_nodes (by decide +kernel), rfl⟩
  have hfresh : Fresh t i "out" := by
    refine .of_plain (fun q => Tree.node?_eq_none_of_inside (by decide) (by decide)) (by decide)
      fun settings hload => ?_
    obtain rfl : settings = {} := (Except.ok.inj hload).symm
    exact ⟨by decide, by decide⟩
  refine ⟨rfl, hsound, hfresh, (run_package_leaves_iff rfl hsound hfresh).2
    ⟨p, congrArg Prod.fst hassemble, ?_, by decide, hfits⟩⟩
  rw [congrArg Prod.snd hassemble]
  decide +kernel

/-- A bundle with a file whose name starts with a backslash, which could be read from the store but
is refused when it should be written. The main source has been written by then. -/
theorem leaves_main_of_backslash :
    let text : Text := "\x7b\"id\":\"d\",\"latexManifest\":\x7b\"bucket\":\"b\"," ++
      "\"basePrefix\":\"p\",\"entryPath\":\"main.tex\"," ++
      "\"files\":[\x7b\"path\":\"\\\\x.png\"\x7d]\x7d\x7d"
    let i : Invocation := ⟨"store", none, "doc.json", .package "out"⟩
    let t : Tree := { nodes := [
      (["doc.json"], .file (Utf8.encode text)),
      (["store"], .directory),
      (["store", "b"], .directory),
      (["store", "b", "p"], .directory),
      (["store", "b", "p", "main.tex"], .file (Utf8.encode "A")),
      (["store", "b", "p", "\\x.png"], .file (Utf8.encode "X"))] }
    let result := (run Tree.fileSystem i).exec t
    result.1 = .error (.outside "out" "\\x.png") ∧ (Report.ofResult result.1).exitCode = 1 ∧
      (∀ q, t.Inside "out" q → t.node? q = none) ∧
      result.2.node? [("out" : Text), "main.tex"] = some (.file (Utf8.encode "A")) := by
  intro text i t result
  let m : Manifest :=
    { bucket := "b", basePrefix := "p", entryPath := "main.tex",
      files := [⟨"\\x.png", none, none⟩] }
  let p : Package := ⟨"A", [⟨"\\x.png", Utf8.encode "X"⟩]⟩
  have hassemble : (assemble Tree.fileSystem i).exec t = (.ok p, t) := by
    have hnone : Source.figuresBy Source.Figure.readDetokenized? "A" = [] :=
      List.eq_nil_of_length_eq_zero (by decide +kernel)
    refine exec_assemble_of_parts { id := "d", manifest := some m } "A" "b"
      [.ok ⟨"\\x.png", Utf8.encode "X"⟩] [] rfl ?_ hnone ?_ ?_ ?_ ?_ ?_ <;>
      decide +kernel
  have hresult : result = _ := exec_run_package rfl hassemble
  rw [hresult]
  exact ⟨by decide +kernel, by decide +kernel,
    fun q => Tree.node?_eq_none_of_inside (by decide) (by decide), by decide +kernel⟩

end CommandLine

end TexBundle
