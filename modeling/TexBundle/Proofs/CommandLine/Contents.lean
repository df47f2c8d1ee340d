import TexBundle.Proofs.Bundler.Packed
import TexBundle.Proofs.CommandLine.Run
import TexBundle.Proofs.FileSystem.Frames
import TexBundle.Proofs.Path.Climbing
import TexBundle.Proofs.Source.Figure

/-!
# What packing leaves behind

If packing succeeds, the directory that it packs into holds the main source and the files of the
package, and no others.

* `Wrote`: what comes of writing files below a directory, with one lemma for one file;
* `of_run_package`: the steps of a run that succeeds;
* `run_package_contents`: what can be read afterwards.
-/

namespace TexBundle

namespace Path

/-- The canonical form depends on nothing but the steps. -/
theorem canonical_eq (path : Text) :
    canonical path = ofSegments ((FilePath.steps path).foldl push []).reverse := by
  have hpush : (fun done (seg : Text) =>
      if decide (seg ≠ [] ∧ seg ≠ ['.']) then push done seg else done) = push := by
    funext done seg
    split
    · rfl
    · rename_i hseg
      rw [decide_eq_true_eq, not_and_or, not_not, not_not] at hseg
      exact (if_pos hseg).symm
  rw [canonical, FilePath.steps, List.foldl_filter, hpush]

end Path

namespace CommandLine

open FilePath (steps join)

variable {i : Invocation} {out dir : Text} {t t' t'' : Tree} {f : PackagedFile} {p : Package}
  {files more : List PackagedFile} {q : List Text} {bytes : Bytes} {stdout : Text}

/-! ## Writing files -/

/-- What is not refused stays below the directory that it is written into. -/
theorem placeOf_file (h : Path.escapes (Path.dropSlashes f.path) = false) :
    t.placeOf (join dir (Path.dropSlashes f.path)) = t.placeOf dir ++ steps f.path := by
  obtain ⟨hrelative, hdots⟩ := Path.of_escapes_eq_false h
  rw [Tree.placeOf_join hrelative fun hmem => hdots (List.mem_filter.1 hmem).1,
    FilePath.steps_dropSlashes]

theorem placeOf_mainTex (t : Tree) (dir : Text) :
    t.placeOf (join dir "main.tex") = t.placeOf dir ++ Package.mainSteps :=
  Tree.placeOf_join (by decide) (by decide) dir

/-- Files have been written below a directory. What is not in their places has not changed. If no
two have the same place, all of them can be read. -/
structure Wrote (dir : Text) (files : List PackagedFile) (t t' : Tree) : Prop where
  inside : ∀ f ∈ files, Path.escapes (Path.dropSlashes f.path) = false
  short : ∀ f ∈ files, (join dir (Path.dropSlashes f.path)).size ≤ Tree.maxPath
  grows : t.Grows t'
  there : ∀ f ∈ files, t'.file? (t.placeOf dir ++ steps f.path) ≠ none
  file?_eq : ∀ q, (∀ f ∈ files, q ≠ t.placeOf dir ++ steps f.path) → t'.file? q = t.file? q
  read_eq : files.Pairwise (fun f g => steps f.path ≠ steps g.path) →
    ∀ f ∈ files, t'.read (join dir (Path.dropSlashes f.path)) = .ok f.bytes

namespace Wrote

theorem none (dir : Text) (h : t.Extends t') : Wrote dir [] t t' where
  inside _ hf := by cases hf
  short _ hf := by cases hf
  grows := h.grows
  there _ hf := by cases hf
  file?_eq q _ := congrFun h.file?_eq q
  read_eq _ _ hf := by cases hf

theorem single (hinside : Path.escapes (Path.dropSlashes f.path) = false)
    (h : t.write (join dir (Path.dropSlashes f.path)) f.bytes = .ok t') : Wrote dir [f] t t' := by
  have hplace : t.placeOf (join dir (Path.dropSlashes f.path)) = t.placeOf dir ++ steps f.path :=
    placeOf_file hinside
  have hfile (q : List Text) :
      t'.file? q = if q = t.placeOf dir ++ steps f.path then some f.bytes else t.file? q := by
    rw [(Tree.of_write h).file?_eq, hplace]
  obtain ⟨_, _, hlocate, -⟩ := Tree.locate_of_write h
  refine ⟨?_, ?_, (Tree.of_write h).grows, ?_, fun q hq => ?_, fun _ => ?_⟩
  · simpa using hinside
  · simpa using (Tree.isPath_of_locate hlocate).size_le
  · simp [hfile]
  · rw [hfile, if_neg (hq f List.mem_cons_self)]
  · simpa using Tree.read_of_write h

/-- Files that are written later leave those alone that have other places. -/
theorem append (h : Wrote dir files t t') (h' : Wrote dir more t' t'') :
    Wrote dir (files ++ more) t t'' where
  inside f hf := (List.mem_append.1 hf).elim (h.inside f) (h'.inside f)
  short f hf := (List.mem_append.1 hf).elim (h.short f) (h'.short f)
  grows := h.grows.trans h'.grows
  there f hf := by
    have hplace : t'.placeOf dir = t.placeOf dir := Tree.placeOf_congr h.grows.cwd_eq dir
    by_cases hlater : ∃ g ∈ more, steps f.path = steps g.path
    · obtain ⟨g, hg, e⟩ := hlater
      rw [e, ← hplace]
      exact h'.there g hg
    · have hearlier : f ∈ files :=
        (List.mem_append.1 hf).resolve_right fun hmore => hlater ⟨f, hmore, rfl⟩
      rw [h'.file?_eq _ fun g hg e => hlater ⟨g, hg, ?_⟩]
      · exact h.there f hearlier
      · rw [hplace] at e
        exact List.append_cancel_left e
  file?_eq q hq := by
    rw [h'.file?_eq q fun f hf => ?_, h.file?_eq q fun f hf => hq f (List.mem_append_left _ hf)]
    rw [Tree.placeOf_congr h.grows.cwd_eq]
    exact hq f (List.mem_append_right _ hf)
  read_eq hdistinct f hf := by
    obtain ⟨hfiles, hmore, hapart⟩ := List.pairwise_append.1 hdistinct
    obtain hf | hf := List.mem_append.1 hf
    · refine Tree.read_of_grows (h.read_eq hfiles f hf) h'.grows (h'.file?_eq _ fun g hg => ?_)
      rw [placeOf_file (h.inside f hf)]
      exact fun e => hapart f hf g hg (List.append_cancel_left e)
    · exact h'.read_eq hmore f hf

end Wrote

theorem exec_write (failure : FileError → Failure) (path : Text) (bytes : Bytes) (t : Tree) :
    (onFiles failure (Tree.fileSystem.write path bytes)).exec t =
      match t.write path bytes with
      | .ok t' => (.ok (), t')
      | .error e => (.error (failure e), t) := by
  have hrun : Tree.fileSystem.write path bytes t = Tree.change (·.write path bytes) t := rfl
  cases h : t.write path bytes with
  | ok t' => exact Task.exec_onFiles_ok (by rw [hrun, Tree.change, h])
  | error e => exact Task.exec_onFiles_error (by rw [hrun, Tree.change, h])

theorem exec_write_eq_ok_iff {failure : FileError → Failure} {path : Text} {bytes : Bytes}
    {u : Unit} :
    (onFiles failure (Tree.fileSystem.write path bytes)).exec t = (.ok u, t') ↔
      t.write path bytes = .ok t' := by
  rw [exec_write]
  cases t.write path bytes with
  | ok t₁ =>
    exact ⟨fun h => congrArg Except.ok (Prod.mk.inj h).2, fun h => Prod.ext rfl (Except.ok.inj h)⟩
  | error e => exact iff_of_false (fun h => by cases h) fun h => by cases h

theorem wrote_of_writeFile {u : Unit}
    (h : (writeFile Tree.fileSystem dir f).exec t = (.ok u, t')) : Wrote dir [f] t t' := by
  cases hescapes : Path.escapes (Path.dropSlashes f.path) with
  | true =>
    rw [exec_writeFile_of_escapes hescapes] at h
    cases h
  | false =>
    rw [writeFile_of_stays hescapes] at h
    obtain ⟨_, t₁, hparent, hwrite⟩ := Task.exec_bind_eq_ok h
    have hextends := Tree.extends_of_makeParent (Task.exec_onFiles_eq_ok hparent)
    exact (Wrote.none dir hextends).append (.single hescapes (exec_write_eq_ok_iff.1 hwrite))

/-- By induction on the files. -/
theorem wrote_of_writeFiles {u : Unit}
    (h : (writeFiles Tree.fileSystem dir files).exec t = (.ok u, t')) : Wrote dir files t t' := by
  induction files generalizing t with
  | nil =>
    obtain ⟨-, rfl⟩ := Prod.mk.inj h
    exact .none dir (.refl t)
  | cons f files ih =>
    obtain ⟨_, t₁, hfile, hfiles⟩ := Task.exec_bind_eq_ok h
    exact (wrote_of_writeFile hfile).append (ih hfiles)

namespace Wrote

/-- The main source can still be read when files have been written in other places. -/
theorem read_mainTex (h : Wrote dir files t' t'')
    (hwrite : t.write (join dir "main.tex") bytes = .ok t')
    (hne : ∀ f ∈ files, steps f.path ≠ Package.mainSteps) :
    t''.read (join dir "main.tex") = .ok bytes := by
  refine Tree.read_of_grows (Tree.read_of_write hwrite) h.grows (h.file?_eq _ fun f hf e => ?_)
  rw [placeOf_mainTex] at e
  exact hne f hf (List.append_cancel_left e).symm

/-- Paths that are different in canonical form have different places. -/
theorem read_of_nodup (h : Wrote dir files t t') (hpaths : ∀ f ∈ files, Tree.Descends f.path)
    (hnodup : (files.map fun f => Path.canonical f.path).Nodup) (hf : f ∈ files) :
    t'.read (join dir f.path) = .ok f.bytes := by
  have hapart : files.Pairwise fun f g => steps f.path ≠ steps g.path := by
    refine (List.pairwise_map.1 hnodup).imp fun hne e => hne ?_
    rw [Path.canonical_eq, Path.canonical_eq, e]
  have hread := h.read_eq hapart f hf
  rwa [Path.dropSlashes_eq_self (hpaths f hf).relative] at hread

/-- Where a file can come from that is below the directory afterwards. -/
theorem file?_cases (h : Wrote dir files t' t'')
    (hwrite : t.write (join dir "main.tex") bytes = .ok t') {found : Bytes}
    (hq : t''.file? (t.placeOf dir ++ q) = some found) :
    q = Package.mainSteps ∨ (∃ f ∈ files, q = steps f.path) ∨
      t.file? (t.placeOf dir ++ q) = some found := by
  have hmain := Tree.of_write hwrite
  by_cases hfile : ∃ f ∈ files, q = steps f.path
  · exact .inr (.inl hfile)
  · rw [h.file?_eq _ fun f hf e => hfile ⟨f, hf, ?_⟩, hmain.file?_eq, placeOf_mainTex] at hq
    · split_ifs at hq with he
      · exact .inl (List.append_cancel_left he)
      · exact .inr (.inr hq)
    · rw [Tree.placeOf_congr hmain.cwd_eq] at e
      exact List.append_cancel_left e

end Wrote

/-! ## Runs -/

/-- What is known of a package that has been built, and of the tree after that. -/
structure Assembled (i : Invocation) (t : Tree) (p : Package) (t' : Tree) : Prop where
  flatten : ((run Tree.fileSystem { i with command := .flatten }).exec t).1 = .ok p.mainSource
  descends : ∀ f ∈ p.files, Tree.Descends f.path
  steps_ne : ∀ f ∈ p.files, steps f.path ≠ Package.mainSteps
  tree : t.Extends t'

theorem assembled_of_assemble (h : (assemble Tree.fileSystem i).exec t = (.ok p, t')) :
    Assembled i t p t' := by
  have hextends := assemble_keeps (i := i) (Tree.fileSystem_looksKeep t.Extends) (.refl t)
    fun _ _ _ dir' _ => Tree.makeDirectory_extends dir'
  rw [h] at hextends
  obtain ⟨settings, t₁, hsettings, h⟩ := Task.exec_bind_eq_ok h
  obtain ⟨document, t₂, hdocument, h⟩ := Task.exec_bind_eq_ok h
  obtain ⟨g, h⟩ := Task.exec_perform_eq_ok h
  obtain ⟨hmerged, bucket, d, hpacked⟩ :=
    Bundler.packed_of_buildPackage (DirectoryStore.store_readable ⟨i.root⟩) h
  refine ⟨?_, fun f hf => (hpacked f hf).descends.1, fun f hf => (hpacked f hf).descends.2,
    hextends⟩
  rw [run_flatten _ rfl, Task.exec_bind_ok hsettings, Task.exec_bind_ok hdocument,
    Task.exec_perform]
  exact congrArg (Except.mapError Failure.bundle) hmerged

/-- The steps of a run that has packed a document. -/
theorem of_run_package (hi : i.command = .package out)
    (h : (run Tree.fileSystem i).exec t = (.ok stdout, t')) :
    ∃ p t₁ t₂ t₃, (assemble Tree.fileSystem i).exec t = (.ok p, t₁) ∧
      Tree.fileSystem.makeDirectories out t₁ = (.ok (), t₂) ∧
      t₂.write (join out "main.tex") (Utf8.encode p.mainSource) = .ok t₃ ∧
      (writeFiles Tree.fileSystem out p.files).exec t₃ = (.ok (), t') := by
  rw [run_package _ hi] at h
  obtain ⟨p, t₁, hassemble, h⟩ := Task.exec_bind_eq_ok h
  obtain ⟨_, t₄, hpackage, hend⟩ := Task.exec_bind_eq_ok h
  obtain ⟨-, rfl⟩ := Prod.mk.inj hend
  obtain ⟨_, t₂, hmake, hpackage⟩ := Task.exec_bind_eq_ok hpackage
  obtain ⟨_, t₃, hwrite, hfiles⟩ := Task.exec_bind_eq_ok hpackage
  exact ⟨p, t₁, t₂, t₃, hassemble, Task.exec_onFiles_eq_ok hmake, exec_write_eq_ok_iff.1 hwrite,
    hfiles⟩

/-- The exit code is 0 exactly if the run succeeds. -/
theorem exitCode_eq_zero_iff (result : Except Failure Text) :
    (Report.ofResult result).exitCode = 0 ↔ ∃ text, result = .ok text := by
  cases result with
  | ok text => exact iff_of_true rfl ⟨text, rfl⟩
  | error failure =>
    refine iff_of_false ?_ (by simp)
    cases failure with
    | bundle e =>
      cases he : e.errorClass <;> simp [Report.ofResult, Report.ofFailure, Report.ofMessage, he]
    | _ => simp [Report.ofResult, Report.ofFailure, Report.ofMessage]

/-- A package is what its parts give, if nothing but figures of the plain form has to be found. -/
theorem exec_assemble_of_parts (document : Document) (source bucket : Text)
    (rs as : List Collection.Outcome) (hsettings : i.settings = none)
    (hdocument : ((loadDocument Tree.fileSystem i.document).exec t).1 = .ok document)
    (hdetokenized : Source.figuresBy Source.Figure.readDetokenized? source = []) :
    let b := bundler Tree.fileSystem i {} document
    let keys := ((Source.figuresBy Source.Figure.readPlain? source).map (·.value)).eraseDups
    let figures := Collection.collectKeys b.store bucket document.id keys t
    (b.merge document).exec b.guard t = ((.ok source, b.guard), t) →
    (b.resources document).exec b.guard t = ((.ok (bucket, rs), b.guard), t) →
    figures.1 = as → figures.2 = t → Bundler.pack source rs as = .ok p →
    (assemble Tree.fileSystem i).exec t = (.ok p, t) := by
  intro b keys figures hm hr has ht hpack
  have hsettings' : (loadSettings Tree.fileSystem i.settings).exec t = (.ok {}, t) := by
    rw [hsettings]
    rfl
  have hdocument' : (loadDocument Tree.fileSystem i.document).exec t = (.ok document, t) :=
    Prod.ext hdocument (loadDocument_keeps (Tree.fileSystem_looksKeep (· = t)) i.document t rfl)
  have hd : (b.loadDocument document.id).exec b.guard t = ((.ok document, b.guard), t) := by
    have hget : Shelf.get? { documents := [document] } document.id = .ok (some document) := by
      simp [Shelf.get?]
    have hcall : (Bundler.call (b.documents.get? document.id)).exec b.guard t =
        ((.ok (.ok (some document)), b.guard), t) := by
      rw [Operation.exec_call, ← hget]
      rfl
    rw [Bundler.loadDocument, Operation.exec_bind_ok hcall]
    rfl
  refine exec_assemble (g := b.guard) hsettings' hdocument' ?_
  rw [Bundler.exec_buildPackage_eq hd hm hr, Source.figureKeys_of_nil hdetokenized, has, ht, hpack]

/-- Packing with exit code 0 into a directory without files builds a package, whose main source is
what flattening prints. Afterwards this main source can be read below the directory, and each file
of the package with its bytes, unless two of them have the same path in canonical form. There are no
other files below the directory. -/
theorem run_package_contents (hi : i.command = .package out)
    (hexit : (Report.ofResult ((run Tree.fileSystem i).exec t).1).exitCode = 0)
    (hfresh : ∀ q, t.file? (t.placeOf out ++ q) = none) :
    let t' := ((run Tree.fileSystem i).exec t).2
    ∃ p, ((assemble Tree.fileSystem i).exec t).1 = .ok p ∧
      ((run Tree.fileSystem { i with command := .flatten }).exec t).1 = .ok p.mainSource ∧
      t'.read (join out "main.tex") = .ok (Utf8.encode p.mainSource) ∧
      ((p.files.map fun f => Path.canonical f.path).Nodup →
        ∀ f ∈ p.files, t'.read (join out f.path) = .ok f.bytes) ∧
      ∀ q bytes, t'.file? (t.placeOf out ++ q) = some bytes →
        q = Package.mainSteps ∨ ∃ f ∈ p.files, q = steps f.path := by
  intro t'
  obtain ⟨stdout, hresult⟩ := (exitCode_eq_zero_iff _).1 hexit
  have hrun : (run Tree.fileSystem i).exec t = (.ok stdout, t') := Prod.ext hresult rfl
  obtain ⟨p, t₁, t₂, t₃, hassemble, hmake, hwrite, hfiles⟩ := of_run_package hi hrun
  have hp := assembled_of_assemble hassemble
  have hwrote := wrote_of_writeFiles hfiles
  have hbefore := hp.tree.trans (Tree.extends_of_makeDirectories hmake)
  refine ⟨p, congrArg Prod.fst hassemble, hp.flatten, hwrote.read_mainTex hwrite hp.steps_ne,
    fun hnodup f hf => hwrote.read_of_nodup hp.descends hnodup hf, fun q bytes hq => ?_⟩
  rw [← Tree.placeOf_congr hbefore.grows.cwd_eq] at hq hfresh
  obtain hq | hq | hq := hwrote.file?_cases hwrite hq
  · exact .inl hq
  · exact .inr hq
  · rw [hbefore.file?_eq, hfresh] at hq
    cases hq

/-- A bundle with one picture of its own and one figure, packed into a directory that is made for
this. -/
theorem run_package_contents_of_two :
    let text : Text := "\x7b\"id\":\"d\",\"latexManifest\":\x7b\"bucket\":\"b\"," ++
      "\"basePrefix\":\"p\",\"entryPath\":\"main.tex\"," ++
      "\"files\":[\x7b\"path\":\"a/b.png\"\x7d]\x7d\x7d"
    let source : Text := "\\includegraphics\x7bassets/d__f.png\x7d"
    let i : Invocation := ⟨"store", none, "doc.json", .package "out"⟩
    let t : Tree := { nodes := [
      (["doc.json"], .file (Utf8.encode text)),
      (["store"], .directory),
      (["store", "b"], .directory),
      (["store", "b", "p"], .directory),
      (["store", "b", "p", "main.tex"], .file (Utf8.encode source)),
      (["store", "b", "p", "a"], .directory),
      (["store", "b", "p", "a", "b.png"], .file [1]),
      (["store", "b", "assets"], .directory),
      (["store", "b", "assets", "d__f.png"], .file [2])] }
    let files : List PackagedFile := [⟨"a/b.png", [1]⟩, ⟨"assets/d__f.png", [2]⟩]
    let t' := ((run Tree.fileSystem i).exec t).2
    i.command = .package "out" ∧
      (Report.ofResult ((run Tree.fileSystem i).exec t).1).exitCode = 0 ∧
      (∀ q, t.file? (t.placeOf "out" ++ q) = none) ∧
      t'.read (join "out" "main.tex") = .ok (Utf8.encode source) ∧
      ∀ f ∈ files, t'.read (join "out" f.path) = .ok f.bytes := by
  intro text source i t files t'
  let m : Manifest :=
    { bucket := "b", basePrefix := "p", entryPath := "main.tex",
      files := [⟨"a/b.png", none, none⟩] }
  have hassemble : (assemble Tree.fileSystem i).exec t = (.ok ⟨source, files⟩, t) := by
    have hnone : Source.figuresBy Source.Figure.readDetokenized? source = [] :=
      List.eq_nil_of_length_eq_zero (by decide +kernel)
    refine exec_assemble_of_parts { id := "d", manifest := some m } source "b"
      [.ok ⟨"a/b.png", [1]⟩] [.ok ⟨"assets/d__f.png", [2]⟩] rfl ?_ hnone ?_ ?_ ?_ ?_ ?_ <;>
      decide +kernel
  have hwrite : ((writePackage Tree.fileSystem "out" ⟨source, files⟩).exec t).1 = .ok () := by
    decide +kernel
  have hexit : (Report.ofResult ((run Tree.fileSystem i).exec t).1).exitCode = 0 := by
    refine (exitCode_eq_zero_iff _).2 ⟨[], ?_⟩
    rw [exec_run_package rfl hassemble, hwrite]
    rfl
  have hfresh : ∀ q, t.file? (t.placeOf "out" ++ q) = none := fun q => by
    rw [Tree.file?, Tree.node?_append_eq_none (by decide) (by decide) q]
  obtain ⟨p, hp, -, hmain, hread, -⟩ := run_package_contents rfl hexit hfresh
  obtain rfl := Except.ok.inj (hp.symm.trans (congrArg Prod.fst hassemble))
  exact ⟨rfl, hexit, hfresh, hmain, hread (by decide +kernel)⟩

end CommandLine

end TexBundle
