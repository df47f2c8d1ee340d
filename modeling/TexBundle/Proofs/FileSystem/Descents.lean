import TexBundle.Proofs.FileSystem.Places
import TexBundle.Proofs.Storage.Keeping

/-!
# Paths that lead down

Whatever has been read as a file has a name at its end. A path with that, and with nothing else in
it than names, leads down to a file from any directory: all that it goes through can be made, unless
a file is in the way, and then the file itself can be written.

* `Tree.Descends`: such paths;
* `Tree.descends_of_read`: the end of a path that has been read is one;
* `Tree.Stands`: a directory is there and can be reached;
* `Tree.stands_of_makeDirectories`: so it is once it has been made;
* `Tree.Stands.route`, `Tree.Stands.makeParent`: a path that leads down from there, and the
  directories that it needs.
-/

namespace TexBundle

namespace Path

theorem mem_segments_of_mem {path : Text} {c : Char} (h : c ∈ path) (hc : c ≠ '/') :
    ∃ seg ∈ segments path, c ∈ seg := by
  have hmem : c ∈ path.filter fun c => !(c == '/') := List.mem_filter.2 ⟨h, by simpa using hc⟩
  rw [← Text.flatten_splitBy (· == '/')] at hmem
  exact List.mem_flatten.1 hmem

theorem mem_of_mem_segments {path seg : Text} {c : Char} (h : seg ∈ segments path) (hc : c ∈ seg) :
    c ∈ path :=
  (Text.isInfix_of_mem_splitBy h).subset hc

end Path

namespace Tree

open FilePath (steps)
open TexBundle.Path (segments)

variable {t t' : Tree} {path whole dir : Text} {base q r : List Text} {name : Text} {bytes : Bytes}

/-- A path leads down to a file from any directory. -/
structure Descends (path : Text) : Prop where
  not_nul : '\x00' ∉ path
  relative : Path.isAbsolute path = false
  plain : ∀ name ∈ steps path, IsPlain name
  isName : Path.IsName (Path.fileName path)

/-! ## Paths that have been read -/

/-- If nothing but slashes stands behind the last step, and no slash stands at the end, then the
last step is the last segment. -/
theorem Ends.fileName_eq {init : List Text} (h : Ends path init name)
    (hslash : path.getLast? ≠ some '/') : Path.fileName path = name := by
  have hlast := Path.getLast?_segments path
  obtain ⟨segs, hsegs⟩ := List.getLast?_eq_some_iff.1 hlast
  have hne : Path.fileName path ≠ [] := by
    intro hempty
    rw [Path.fileName] at hempty
    split at hempty
    · rename_i front _ hbreak
      refine hslash ?_
      rw [Text.eq_of_breakAtLast? hbreak, hempty, List.getLast?_concat]
    · have hname : name ∈ segments path := by
        have := List.mem_of_getLast? h.getLast?_eq
        exact (List.mem_filter.1 this).1
      rw [hempty] at hname
      exact h.isName.1 (by simpa [segments, Text.splitBy] using hname)
  have hends := h.getLast?_eq
  rw [hsegs, List.filter_append, List.filter_cons_of_pos (by simpa using hne), List.filter_nil,
    List.getLast?_concat] at hends
  exact Option.some.inj hends

theorem of_locate_entry (h : t.locate whole = .ok (.entry q name false)) :
    ∃ init, Ends whole init name ∧ t.walk (t.start whole) init = .ok q ∧
      whole.getLast? ≠ some '/' := by
  generalize hlocation : Location.entry q name false = location at h
  cases located_of_locate h with
  | directory hwalk => cases hlocation
  | @entry q' init name' hends hwalk =>
    obtain ⟨rfl, rfl, hslash⟩ := Location.entry.inj hlocation
    exact ⟨init, hends, hwalk, by simpa using hslash.symm⟩

/-- A file that has been read has a name, and each step of its path is either that of a name that
can stand in a directory, or leads up. -/
theorem of_read (h : t.read whole = .ok bytes) :
    IsPath whole ∧ Path.IsName (Path.fileName whole) ∧
      ∀ name ∈ steps whole, name ≠ ['.', '.'] → IsPlain name := by
  obtain ⟨q, last, hlocate, hsize, -⟩ := read_eq_ok_iff.1 h
  obtain ⟨init, hends, hwalk, hslash⟩ := of_locate_entry hlocate
  refine ⟨isPath_of_locate hlocate, hends.fileName_eq hslash ▸ hends.isName,
    fun name hname hdots => ?_⟩
  obtain ⟨hne, hdot, -⟩ := FilePath.of_mem_steps hname
  refine ⟨⟨hne, hdot, hdots⟩, ?_⟩
  rw [hends.steps_eq] at hname
  obtain hname | hname := List.mem_append.1 hname
  · exact size_le_of_walk hwalk hname hdot hdots
  · obtain rfl := List.mem_singleton.1 hname
    exact Nat.not_lt.1 hsize

/-- The end of a path that has been read leads down if it is relative and has no `..` in it. -/
theorem descends_of_read (h : t.read whole = .ok bytes) (hend : segments path <:+ segments whole)
    (hrelative : Path.isAbsolute path = false) (hdots : ['.', '.'] ∉ segments path) :
    Descends path := by
  obtain ⟨hpath, hname, hplain⟩ := of_read h
  refine ⟨fun hnul => hpath.not_nul ?_, hrelative, fun name hstep => ?_, ?_⟩
  · obtain ⟨seg, hseg, hc⟩ := Path.mem_segments_of_mem hnul (by decide)
    exact Path.mem_of_mem_segments (hend.subset hseg) hc
  · have hne : name ≠ ['.', '.'] := fun e => hdots (e ▸ (List.mem_filter.1 hstep).1)
    exact hplain name ((hend.filter _).subset hstep) hne
  · obtain ⟨segs, hsegs⟩ := hend
    have hlast := congrArg List.getLast? hsegs
    rw [List.getLast?_append, Path.getLast?_segments, Path.getLast?_segments] at hlast
    rwa [Option.some.inj hlast]

namespace Descends

theorem not_dots (h : Descends path) : ['.', '.'] ∉ steps path :=
  fun hmem => (h.plain _ hmem).1.2.2 rfl

/-- The last step is the last segment. -/
theorem exists_steps_eq (h : Descends path) :
    ∃ init, steps path = init ++ [Path.fileName path] := by
  obtain ⟨segs, hsegs⟩ := List.getLast?_eq_some_iff.1 (Path.getLast?_segments path)
  refine ⟨segs.filter fun name => name ≠ [] ∧ name ≠ ['.'], ?_⟩
  rw [steps, hsegs, List.filter_append,
    List.filter_cons_of_pos (by simpa using ⟨h.isName.1, h.isName.2.1⟩), List.filter_nil]

theorem ne_nil (h : Descends path) : steps path ≠ [] := by
  obtain ⟨init, hinit⟩ := h.exists_steps_eq
  rw [hinit]
  exact List.concat_ne_nil _ init

end Descends

/-! ## Directories that are there -/

/-- A directory that is there and can be reached: what is joined to its path is below its place. -/
structure Stands (t : Tree) (dir : Text) : Prop where
  sound : t.Sound
  not_nul : '\x00' ∉ dir
  walk : t.walk (t.start dir) (steps dir) = .ok (t.placeOf dir)

theorem Stands.directory (h : t.Stands dir) : t.node? (t.placeOf dir) = some .directory :=
  h.sound.closed.walk (h.sound.start dir) h.walk

theorem Stands.of_grows (h : t.Stands dir) (hgrows : t.Grows t') (hsound : t'.Sound) :
    t'.Stands dir where
  sound := hsound
  not_nul := h.not_nul
  walk := by
    rw [start_congr hgrows.cwd_eq, placeOf_congr hgrows.cwd_eq]
    exact hgrows.walk h.walk

theorem of_orPresent {e : FileError} (h : fileSystem.orPresent path e t = (.ok (), t')) :
    t'.find path = .ok .directory := by
  have hrun : fileSystem.orPresent path e t =
    (if t.isDirectory path then .ok () else .error e, t) := rfl
  rw [hrun] at h
  obtain ⟨hresult, rfl⟩ := Prod.mk.inj h
  split at hresult
  · exact find_of_isDirectory ‹_›
  · cases hresult

/-- What has been made is a directory. -/
theorem find_of_makeFirst {outer : List Text}
    (h : fileSystem.makeFirst (path :: outer) t = (.ok (), t')) (hne : path ≠ []) :
    t'.find path = .ok .directory := by
  rw [FileSystem.makeFirst, if_neg hne] at h
  simp only [bind, StateT.bind, makeDirectory_run, change] at h
  cases hmake : t.makeDirectory path with
  | ok t₁ =>
    rw [hmake] at h
    obtain ⟨-, rfl⟩ := Prod.mk.inj h
    exact find_of_makeDirectory hmake
  | error e =>
    rw [hmake] at h
    cases e with
    | notFound =>
      obtain ⟨⟨r, t₁⟩, houter⟩ : ∃ x, fileSystem.makeFirst outer t = x := ⟨_, rfl⟩
      simp only [StateT.bind, houter] at h
      cases r with
      | error e => cases h
      | ok _ =>
        simp only [StateT.bind, bind, makeDirectory_run, change] at h
        cases hmake' : t₁.makeDirectory path with
        | ok t₂ =>
          rw [hmake'] at h
          obtain ⟨-, rfl⟩ := Prod.mk.inj h
          exact find_of_makeDirectory hmake'
        | error e =>
          rw [hmake'] at h
          exact of_orPresent h
    | _ => exact of_orPresent h

theorem makeDirectory_sound (path : Text) : Keeps Sound (fileSystem.makeDirectory path) :=
  change_keeps fun _ _ hmake hsound => (of_makeDirectory hmake).1.sound hsound

theorem write_sound (path : Text) (bytes : Bytes) : Keeps Sound (fileSystem.write path bytes) :=
  change_keeps fun _ _ hwrite hsound => (of_write hwrite).sound hsound

theorem stands_of_makeDirectories (hsound : t.Sound)
    (h : fileSystem.makeDirectories dir t = (.ok (), t')) : t'.Stands dir := by
  have hsound' : t'.Sound := by
    have hkeeps := (fileSystem_looksKeep Sound).makeDirectories
      (fun dir' (_ : dir' ∈ FilePath.ancestors dir) => makeDirectory_sound dir') t hsound
    rwa [h] at hkeeps
  by_cases hne : dir = []
  · subst hne
    exact ⟨hsound', List.not_mem_nil, rfl⟩
  · obtain ⟨hpath, hwalk⟩ := walk_of_find (find_of_makeFirst h hne)
    exact ⟨hsound', hpath.not_nul, hwalk⟩

/-- Directories that are there need not be made. -/
theorem makeDirectories_of_walk (hnul : '\x00' ∉ path) (hsize : path.size ≤ maxPath)
    (h : t.walk (t.start path) (steps path) = .ok q) :
    fileSystem.makeDirectories path t = (.ok (), t) := by
  by_cases hne : path = []
  · subst hne
    rfl
  · obtain ⟨hfind, hmake⟩ := find_of_walk ⟨hnul, hne, hsize⟩ h
    exact makeFirst_of_exists hne hmake (by rw [isDirectory, hfind])

/-! ## What lies below a directory -/

namespace Stands

theorem not_nul_join (h : t.Stands dir) (hpath : Descends path) :
    '\x00' ∉ FilePath.join dir path := by
  intro hc
  obtain hc | hc | hc := FilePath.mem_join hc
  · exact h.not_nul hc
  · cases hc
  · exact hpath.not_nul hc

variable (h : t.Stands dir) (hpath : Descends path)
  (hsize : (FilePath.join dir path).size ≤ maxPath)

include h hpath hsize

theorem route (hclear : ∀ q, q <+: steps path → q ≠ steps path →
      ∀ bytes, t.node? (t.placeOf dir ++ q) ≠ some (.file bytes)) :
    t.Route (FilePath.join dir path) (t.placeOf dir) (steps path) := by
  refine ⟨not_nul_join h hpath, hsize, ⟨steps dir, FilePath.steps_join hpath.relative dir, ?_⟩,
    ?_, h.directory, hpath.plain, hclear⟩
  · rw [start, FilePath.isAbsolute_join hpath.relative]
    exact h.walk
  · obtain ⟨init, hinit⟩ := hpath.exists_steps_eq
    rw [FilePath.getLast?_segments_join hpath.relative, Path.getLast?_segments, hinit,
      List.getLast?_concat]

theorem makeParent (hsteps : steps path = r ++ [name])
    (hclear : ∀ q, q <+: r → ∀ bytes, t.node? (t.placeOf dir ++ q) ≠ some (.file bytes)) :
    ∃ t', fileSystem.makeParent (FilePath.join dir path) t = (.ok (), t') ∧
      t.Made t' (t.placeOf dir) r := by
  by_cases hr : r = []
  · -- The path lies in the directory itself, which is there.
    subst hr
    refine ⟨t, ?_, .refl h.sound.closed (by rw [List.append_nil]; exact h.directory)⟩
    obtain ⟨lead, hnames, hlead⟩ := FilePath.exists_names_eq (FilePath.join dir path)
    rw [FilePath.steps_join hpath.relative, hsteps, List.nil_append, ← List.append_assoc] at hnames
    have hlength : (FilePath.names (FilePath.join dir path)).length =
        (lead ++ steps dir).length + 1 := by
      rw [hnames, List.length_append, List.length_singleton]
    have hup : steps (FilePath.upTo (FilePath.join dir path) (lead ++ steps dir).length) =
        steps dir := by
      rw [FilePath.steps_upTo, hnames, List.take_left, List.filter_append, hlead,
        FilePath.filter_steps, List.nil_append]
    have hshorter := FilePath.upTo_isPrefix (FilePath.join dir path) (lead ++ steps dir).length
    rw [FileSystem.makeParent, FilePath.parent?, hlength]
    refine makeDirectories_of_walk (q := t.placeOf dir)
      (fun hc => not_nul_join h hpath (hshorter.subset hc))
      ((Text.size_le_of_isPrefix hshorter).trans hsize) ?_
    rw [hup, start, FilePath.isAbsolute_upTo, FilePath.isAbsolute_join hpath.relative]
    exact h.walk
  · have hroute := route h hpath hsize fun q hq hne => hclear q ?_
    · rw [hsteps] at hroute
      exact hroute.makeParent h.sound.closed hr
    · rw [hsteps] at hq hne
      exact (List.prefix_concat_iff.1 hq).resolve_left hne

end Stands

end Tree

end TexBundle
