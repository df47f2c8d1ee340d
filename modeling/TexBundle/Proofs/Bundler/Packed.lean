import TexBundle.Proofs.Asset
import TexBundle.Proofs.Bundler.Confinement
import TexBundle.Proofs.Bundler.Packing
import TexBundle.Proofs.FileSystem.Descents

/-!
# Files of packages

Everything in a package has been downloaded. From a directory that means that it was read as a file,
which tells a lot about its path.

* `Packed`: what a file of a package comes from;
* `packed_of_buildPackage`: a package has the merged source, and files that come from something;
* `DirectoryStore.descends_of_download`: the path behind a prefix leads down to a file;
* `Packed.descends`: so do the paths of a package, and not to the main source.
-/

namespace TexBundle

open Collection

/-- What a file of a package comes from: a resource file of the document's bundle, or a figure. -/
inductive Packed (view : View) (bucket : Text) (document : Document) (file : PackagedFile) :
    Prop where
  | resource {m : Manifest} {f : ListedFile} (hm : document.manifest = some m)
    (hvalid : m.validate = .ok ()) (hf : f ∈ m.resourceFiles)
    (h : PackagedFile.Holds f.path (view bucket (m.storageKey f.path)) file)
  | figure {key : Text} (hkey : Asset.isWellFormed key = true)
    (h : PackagedFile.Holds (Asset.path key) (view bucket (Asset.path key)) file)

/-- The main source of a package is a file of this name. -/
def Package.mainSteps : List Text := ["main.tex"]

/-! ## Building -/

theorem Collection.exists_of_mem_files {α : Type} {good : α → Prop}
    {value : α → PackagedFile → Prop} {defect : α → Defect → Prop} {as : List α}
    {outcomes : List Outcome} {file : PackagedFile}
    (h : List.Forall₂ (fun a => Judged (good a) (value a) (defect a)) as outcomes)
    (hfile : file ∈ files outcomes) : ∃ a ∈ as, good a ∧ value a file := by
  induction h with
  | nil => cases hfile
  | @cons a outcome as outcomes ha _ ih =>
    cases ha with
    | error hgood hd =>
      obtain ⟨a', ha', h'⟩ := ih hfile
      exact ⟨a', List.mem_cons_of_mem _ ha', h'⟩
    | @ok f hgood hf =>
      obtain rfl | hfile := List.mem_cons.1 hfile
      · exact ⟨a, List.mem_cons_self, hgood, hf⟩
      · obtain ⟨a', ha', h'⟩ := ih hfile
        exact ⟨a', List.mem_cons_of_mem _ ha', h'⟩

namespace Bundler

open Operation

variable {σ : Type} {b : Bundler (StateM σ)} {read : σ → View} {id : Text} {p : Package}
  {g g' : Guard} {s s' : σ}

/-- A package has the merged source, and each of its files comes from a resource file of the
document's bundle or from a figure. -/
theorem packed_of_buildPackage (hstore : b.store.Readable read)
    (h : exec (b.buildPackage id) g s = ((.ok p, g'), s')) :
    (exec (b.mergedSource id) g s).1.1 = .ok p.mainSource ∧
      ∃ bucket document, ∀ f ∈ p.files, Packed (read s') bucket document f := by
  obtain ⟨document, source, bucket, rs, g₁, s₁, g₂, s₂, s₃, hd, hm, hr, hpack, rfl⟩ :=
    exists_of_buildPackage h
  obtain ⟨-, -, rfl⟩ := of_pack hpack
  obtain ⟨hfigures, hs₃⟩ :=
    collectKeys_reads hstore bucket document.id (Source.figureKeys source) s₃
  rw [← hs₃] at hfigures
  refine ⟨by rw [mergedSource, exec_bind_ok hd, hm], bucket, document, fun f hf => ?_⟩
  obtain hf | hf := List.mem_append.1 hf
  · obtain ⟨m, s₄, hmanifest, hvalid, hcollect⟩ | ⟨-, rfl⟩ := exists_of_resources hr
    · obtain ⟨hresources, hs₄⟩ := collectResources_reads hstore m bucket m.resourceFiles s₄
      rw [← hcollect] at hresources hs₄
      obtain ⟨listed, hlisted, -, hholds⟩ := exists_of_mem_files hresources hf
      exact .resource hmanifest hvalid hlisted (hs₃.trans hs₄ ▸ hholds)
    · cases hf
  · obtain ⟨key, -, hgood, hholds⟩ := exists_of_mem_files hfigures (List.mem_filter.1 hf).1
    exact .figure hgood.2.1 hholds

end Bundler

/-! ## Paths -/

namespace Path

/-- Behind a prefix, a relative path keeps its segments. -/
theorem segments_isSuffix_below {path : Text} (h : isAbsolute path = false) (base : Text) :
    segments path <:+ segments (dropSlashes (below base path)) := by
  rw [below_eq h]
  split
  · rw [dropSlashes_eq_self h]
  · rw [dropSlashes, List.dropWhile_append]
    split
    · have hdrop : ('/' :: path).dropWhile (· == '/') = path := dropSlashes_eq_self h
      rw [hdrop]
    · rw [segments_append_cons]
      exact List.suffix_append ..

end Path

namespace DirectoryStore

variable {d : DirectoryStore} {t : Tree} {bucket key path : Text} {bytes : Bytes}

theorem read_of_download (h : (d.download Tree.fileSystem bucket key t).1 = .ok bytes) :
    ∃ whole, d.objectPath bucket key = .ok whole ∧ t.read whole = .ok bytes := by
  cases hpath : d.objectPath bucket key with
  | error e =>
    rw [download, hpath] at h
    cases h
  | ok whole =>
    rw [fst_download hpath] at h
    cases hread : t.read whole with
    | ok bytes' =>
      rw [hread] at h
      exact ⟨whole, rfl, hread.trans (congrArg Except.ok (Except.ok.inj h))⟩
    | error e =>
      rw [hread] at h
      cases e <;> cases h

/-- A relative path leads down to a file if something could be downloaded that is stored under it,
behind some prefix or without one. -/
theorem descends_of_download (h : (d.download Tree.fileSystem bucket key t).1 = .ok bytes)
    (hrelative : Path.isAbsolute path = false)
    (hend : Path.segments path <:+ Path.segments (Path.dropSlashes key)) : Tree.Descends path := by
  obtain ⟨whole, hpath, hread⟩ := read_of_download h
  simp only [objectPath] at hpath
  split at hpath
  · cases hpath
  · rename_i hrefused
    obtain ⟨-, hparent⟩ := not_or.1 hrefused
    obtain ⟨dir, -, rfl⟩ := Tree.exists_of_map_eq_ok hpath
    obtain ⟨segs, hsegs, -⟩ := FilePath.segments_join (Path.isAbsolute_dropSlashes key) dir
    refine Tree.descends_of_read hread (hend.trans ⟨segs, hsegs.symm⟩) hrelative fun hdots => ?_
    exact absurd (hend.subset hdots) (Path.not_dots_of_hasParentSegment (by simpa using hparent))

end DirectoryStore

namespace Packed

variable {d : DirectoryStore} {t : Tree} {bucket : Text} {document : Document} {file : PackagedFile}

theorem hasExtension_of_steps {f : ListedFile} (h : Tree.Descends f.path)
    (hsteps : FilePath.steps f.path = Package.mainSteps) : f.hasExtension "tex" = true := by
  obtain ⟨init, hinit⟩ := h.exists_steps_eq
  have hlast := congrArg List.getLast? (hinit.symm.trans hsteps)
  rw [List.getLast?_concat] at hlast
  rw [ListedFile.hasExtension, Path.extension?, Option.some.inj hlast]
  decide

/-- The path of a file that comes from a directory leads down, and not to the main source. -/
theorem descends
    (h : Packed (fun bucket key => (d.download Tree.fileSystem bucket key t).1) bucket document
      file) :
    Tree.Descends file.path ∧ FilePath.steps file.path ≠ Package.mainSteps := by
  cases h with
  | @resource m f hm hvalid hf h =>
    obtain ⟨hlisted, htex⟩ := List.mem_filter.1 hf
    have hmem : f.path ∈ m.paths :=
      List.mem_cons_of_mem _ (List.mem_map_of_mem (List.mem_filter.1 hlisted).1)
    have hrelative := (Manifest.validate_eq_ok_iff.1 hvalid).2.2 f.path hmem
    have hdescends : Tree.Descends f.path := DirectoryStore.descends_of_download h.stored_eq
      hrelative (Path.segments_isSuffix_below hrelative m.basePrefix)
    rw [h.path_eq]
    refine ⟨hdescends, fun hsteps => ?_⟩
    rw [hasExtension_of_steps hdescends hsteps] at htex
    cases htex
  | @figure key hkey h =>
    have hpath : file.path = "assets" ++ '/' :: key := h.path_eq.trans (Asset.path_eq hkey)
    have hrelative : Path.isAbsolute file.path = false := by
      rw [hpath]
      rfl
    have hstored := h.stored_eq
    rw [← h.path_eq] at hstored
    refine ⟨DirectoryStore.descends_of_download hstored hrelative ?_, fun hsteps => ?_⟩
    · rw [Path.dropSlashes_eq_self hrelative]
    · have hsplit : FilePath.steps file.path = ("assets" : Text) :: FilePath.steps key := by
        rw [FilePath.steps, hpath, Path.segments_append_cons, List.filter_append]
        rfl
      exact absurd (List.cons.inj (hsplit.symm.trans hsteps)).1 (by decide)

end Packed

end TexBundle
