import TexBundle.Proofs.FileSystem.Frames
import TexBundle.Proofs.FileSystem.Making

/-!
# Paths below paths, by their names alone

Whether a path stays below a directory can be seen from its text, without any file system, as long
as it has no `..` behind the names of the directory. And a path that leads to a directory goes
through directories only.

* `FilePath.Within`: a path with the steps of a base, and then some that do not lead up;
* `FilePath.Through`: the paths that a path goes through, with its first steps;
* `FilePath.Through.join`: those of a joined path are within its base, or on the way there;
* `FilePath.ancestors_join`: in which order they are tried;
* `Tree.makeDirectory_upTo`: what a directory lies in is there already.
-/

namespace TexBundle

namespace FilePath

open TexBundle.Path (segments isAbsolute)

variable {base path dir : Text} {n : Nat}

/-- A path that starts where a base does, takes its steps, and then does not lead up. -/
def Within (base path : Text) : Prop :=
  isAbsolute path = isAbsolute base ∧ ∃ more, steps path = steps base ++ more ∧ ['.', '.'] ∉ more

/-- A path goes through a directory, which may be its own. -/
def Through (path dir : Text) : Prop := isAbsolute dir = isAbsolute path ∧ steps dir <+: steps path

theorem Within.refl (base : Text) : Within base base :=
  ⟨rfl, [], (List.append_nil _).symm, List.not_mem_nil⟩

theorem within_join (hrelative : isAbsolute path = false) (hdots : ['.', '.'] ∉ steps path)
    (base : Text) : Within base (join base path) :=
  ⟨isAbsolute_join hrelative base, steps path, steps_join hrelative base, hdots⟩

/-! ## The paths that a path goes through -/

theorem Through.refl (path : Text) : Through path path := ⟨rfl, List.prefix_refl _⟩

theorem through_upTo (path : Text) (n : Nat) : Through path (upTo path n) :=
  ⟨isAbsolute_upTo path n, steps_upTo_isPrefix path n⟩

theorem Through.trans {q : Text} (h : Through path dir) (h' : Through dir q) : Through path q :=
  ⟨h'.1.trans h.1, h'.2.trans h.2⟩

theorem through_of_mem_ancestors (h : dir ∈ ancestors path) : Through path dir := by
  obtain rfl | ⟨n, rfl⟩ := eq_upTo_of_mem_ancestors h
  · exact .refl dir
  · exact through_upTo path n

theorem through_of_parent? (h : parent? path = some dir) : Through path dir := by
  obtain ⟨n, rfl⟩ := eq_upTo_of_parent? h
  exact through_upTo path n

/-- Up to its base, a joined path goes where the base does, and from there on stays within it. -/
theorem Through.join (hrelative : isAbsolute path = false) (hdots : ['.', '.'] ∉ steps path)
    (h : Through (join base path) dir) : Within base dir ∨ Through base dir := by
  obtain ⟨habsolute, hsteps⟩ := h
  rw [isAbsolute_join hrelative] at habsolute
  rw [steps_join hrelative] at hsteps
  obtain hshort | ⟨more, hlong⟩ := List.prefix_or_prefix_of_prefix hsteps (List.prefix_append _ _)
  · exact .inr ⟨habsolute, hshort⟩
  · rw [← hlong] at hsteps
    have hmore := ((List.prefix_append_right_inj _).1 hsteps).subset
    exact .inl ⟨habsolute, more, hlong.symm, fun hmem => hdots (hmore hmem)⟩

/-! ## The names of joined paths -/

/-- A joined path starts with the segments of its base, but for an empty one behind the last slash
there. -/
theorem exists_isPrefix_segments_join (hbase : base ≠ []) (hrelative : isAbsolute path = false) :
    ∃ segs, segs ≠ [] ∧ namesIn segs = names base ∧ segs <+: segments base ∧
      segs <+: segments (join base path) := by
  obtain ⟨segs, hjoin, hsegs⟩ := segments_join hrelative base
  have hne : segs ≠ [] := by
    rintro rfl
    obtain hnil | hempty := hsegs
    · exact Text.splitBy_ne_nil _ base hnil
    · rw [← Path.ofSegments_segments base, hempty] at hbase
      exact hbase rfl
  refine ⟨segs, hne, ?_, ?_, hjoin ▸ List.prefix_append ..⟩
  · obtain hsegs | hsegs := hsegs
    · rw [names, hsegs]
    · rw [names, hsegs, namesIn, namesIn, List.head?_append_of_ne_nil _ hne, List.filter_append]
      simp
  · obtain hsegs | hsegs := hsegs
    · exact hsegs ▸ List.prefix_refl _
    · exact hsegs ▸ List.prefix_append ..

theorem names_join (hbase : base ≠ []) (hrelative : isAbsolute path = false) :
    names (join base path) = names base ++ steps path := by
  obtain ⟨segs, hne, -, ⟨_, hprefix⟩, ⟨_, hjoin⟩⟩ := exists_isPrefix_segments_join hbase hrelative
  rw [names_eq, names_eq, ← hprefix, ← hjoin, List.head?_append_of_ne_nil _ hne,
    List.head?_append_of_ne_nil _ hne, steps_join hrelative]
  split <;> rfl

/-- As far as the names of its base go, a joined path is written as the base is. -/
theorem upTo_join (hbase : base ≠ []) (hrelative : isAbsolute path = false)
    (hn : n ≤ (names base).length) : upTo (join base path) n = upTo base n := by
  cases n with
  | zero => rw [upTo, upTo, isAbsolute_join hrelative]
  | succ n =>
    obtain ⟨segs, hne, hnames, hprefix, hjoin⟩ := exists_isPrefix_segments_join hbase hrelative
    rw [← hnames] at hn
    rw [upTo, upTo, takeNames_of_isPrefix hprefix hne hn, takeNames_of_isPrefix hjoin hne hn]

theorem within_upTo_join (hbase : base ≠ []) (hrelative : isAbsolute path = false)
    (hdots : ['.', '.'] ∉ steps path) (hn : (names base).length ≤ n) :
    Within base (upTo (join base path) n) := by
  have hmore : ((steps path).take (n - (names base).length)) <+: steps path := List.take_prefix ..
  refine ⟨(isAbsolute_upTo _ n).trans (isAbsolute_join hrelative base),
    (steps path).take (n - (names base).length), ?_, fun hmem => hdots (hmore.subset hmem)⟩
  rw [steps_upTo, names_join hbase hrelative, List.take_append, List.take_of_length_le hn,
    List.filter_append, filter_names, filter_of_isPrefix hmore]

/-- Without steps of its own, a joined path lies where its base does, and else within the base. -/
theorem parent?_join (hbase : base ≠ []) (hrelative : isAbsolute path = false)
    (h : parent? (join base path) = some dir) :
    steps path = [] ∧ parent? base = some dir ∨
      ∃ n, (names base).length ≤ n ∧ n ≤ (names (join base path)).length ∧
        dir = upTo (join base path) n := by
  have hnames := names_join hbase hrelative
  rw [parent?] at h
  split at h
  · cases h
  · rename_i n hlength
    obtain rfl := Option.some.inj h
    by_cases hsteps : steps path = []
    · rw [hnames, hsteps, List.append_nil] at hlength
      refine .inl ⟨hsteps, ?_⟩
      rw [parent?, hlength, upTo_join hbase hrelative (by omega)]
    · have hpos := List.length_pos_of_ne_nil hsteps
      have hsum := congrArg List.length hnames
      rw [List.length_append] at hsum
      exact .inr ⟨n, by omega, by omega, rfl⟩

/-- The paths that are tried for a joined path, longest first: those within its base, down to the
base itself, and then those that the base lies in. -/
theorem ancestors_join (hbase : base ≠ []) (hrelative : isAbsolute path = false)
    (hdots : ['.', '.'] ∉ steps path) (hn : (names base).length ≤ n)
    (hle : n ≤ (names (join base path)).length) :
    ∃ inner outer, ancestors (upTo (join base path) n) = inner ++ outer ∧
      (∀ q ∈ inner, Within base q) ∧ upTo base (names base).length ∈ inner := by
  obtain ⟨k, rfl⟩ := Nat.exists_eq_add_of_le hn
  have hall : ancestors (upTo (join base path) ((names base).length + k)) =
      ((List.range (k + 1)).reverse.map fun i => upTo (join base path) ((names base).length + i)) ++
        (List.range (names base).length).reverse.map (upTo (join base path)) := by
    rw [ancestors_upTo hle, Nat.add_assoc, List.range_add, List.reverse_append, List.map_append,
      ← List.map_reverse, List.map_map]
    rfl
  refine ⟨_, _, hall, fun q hq => ?_, List.mem_map.2 ⟨0, by simp, upTo_join hbase hrelative le_rfl⟩⟩
  obtain ⟨i, -, rfl⟩ := List.mem_map.1 hq
  exact within_upTo_join hbase hrelative hdots (Nat.le_add_right ..)

end FilePath

namespace Tree

open FilePath (steps upTo)

variable {t t' : Tree} {path : Text} {n : Nat}

theorem Grows.isDirectory (h : t.Grows t') (hdir : t.isDirectory path = true) :
    t'.isDirectory path = true := by
  obtain ⟨hpath, hwalk⟩ := walk_of_find (find_of_isDirectory hdir)
  rw [← start_congr h.cwd_eq] at hwalk
  rw [Tree.isDirectory, (find_of_walk hpath (h.walk hwalk)).1]

/-- The directories that another one lies in are there, and cannot be made. -/
theorem makeDirectory_upTo (hdir : t.isDirectory path = true) (hne : upTo path n ≠ []) :
    t.isDirectory (upTo path n) = true ∧ t.makeDirectory (upTo path n) = .error .exists := by
  obtain ⟨hpath, hwalk⟩ := walk_of_find (find_of_isDirectory hdir)
  have hvalid : IsPath (upTo path n) := hpath.of_isPrefix (FilePath.upTo_isPrefix path n) hne
  obtain ⟨more, hmore⟩ := FilePath.steps_upTo_isPrefix path n
  rw [← hmore, walk_append] at hwalk
  cases hplace : t.walk (t.start path) (steps (upTo path n)) with
  | error e =>
    rw [hplace] at hwalk
    cases hwalk
  | ok place =>
    rw [start, ← FilePath.isAbsolute_upTo path n] at hplace
    obtain ⟨hfind, hmake⟩ := find_of_walk hvalid hplace
    exact ⟨by rw [isDirectory, hfind], hmake⟩

end Tree

end TexBundle
