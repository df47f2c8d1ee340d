import TexBundle.Proofs.FileSystem.Routes

/-!
# Places of paths

Without links, the steps of a path settle which place it means, whether anything is there or not.
What an operation does to a tree, it does at the place of its path.

* `FilePath.follow`, `Tree.placeOf`: where steps and paths lead;
* `Tree.OnWay`: the places that a path goes through;
* `Tree.Located`, `Tree.located_of_locate`: what it takes for a path to be found;
* `Tree.Puts`: what making a directory and writing a file do, if they succeed;
* `Tree.placeOf_join`, `Tree.onWay_join`: joined to a directory, a path without `..` stays below.
-/

namespace TexBundle

/-- Cutting at more characters cuts the pieces. -/
theorem Text.splitBy_eq_flatMap {p p' : Char → Bool} (h : ∀ c, p c = true → p' c = true)
    (t : Text) : t.splitBy p' = (t.splitBy p).flatMap (Text.splitBy p') := by
  induction t with
  | nil => rfl
  | cons c t ih =>
    obtain ⟨s, ss, hs⟩ := List.exists_cons_of_ne_nil (splitBy_ne_nil p t)
    obtain ⟨u, us, hu⟩ := List.exists_cons_of_ne_nil (splitBy_ne_nil p' s)
    rw [hs, List.flatMap_cons] at ih
    rw [splitBy, splitBy, hs]
    by_cases hc : p c = true
    · rw [if_pos hc, if_pos (h c hc), List.flatMap_cons, List.flatMap_cons, ih]
      rfl
    · rw [if_neg hc, List.flatMap_cons, splitBy, ih]
      by_cases hc' : p' c = true
      · rw [if_pos hc', if_pos hc', List.cons_append]
      · rw [if_neg hc', if_neg hc', hu]
        rfl

theorem Path.not_dots_of_hasParentSegment {path : Text} (h : hasParentSegment path = false) :
    ['.', '.'] ∉ segments path := by
  intro hmem
  have hslash : ∀ c, (c == '/') = true → isSlash c = true := fun c hc => by simp [isSlash, hc]
  refine absurd (List.any_eq_false.1 h ['.', '.'] ?_) (by simp)
  rw [Text.splitBy_eq_flatMap hslash]
  exact List.mem_flatMap.2 ⟨_, hmem, by decide⟩

/-- A path that cannot leave a directory is relative, and no segment of it is `..`. -/
theorem Path.of_escapes_eq_false {path : Text} (h : escapes path = false) :
    isAbsolute path = false ∧ ['.', '.'] ∉ segments path := by
  obtain ⟨hfirst, hparent⟩ := Bool.or_eq_false_iff.1 h
  refine ⟨?_, not_dots_of_hasParentSegment hparent⟩
  cases path with
  | nil => rfl
  | cons c path => exact (Bool.or_eq_false_iff.1 hfirst).1

namespace FilePath

variable {place names more : List Text}

/-- One step from a place. -/
def advance (place : List Text) (name : Text) : List Text :=
  if name = ['.', '.'] then place.dropLast else place ++ [name]

/-- Where steps lead from a place. -/
def follow (place names : List Text) : List Text := names.foldl advance place

theorem follow_append (place names more : List Text) :
    follow place (names ++ more) = follow (follow place names) more :=
  List.foldl_append

theorem follow_concat {name : Text} (h : name ≠ ['.', '.']) (place names : List Text) :
    follow place (names ++ [name]) = follow place names ++ [name] := by
  rw [follow_append]
  exact if_neg h

theorem follow_eq_append (h : ['.', '.'] ∉ names) (place : List Text) :
    follow place names = place ++ names := by
  induction names using List.reverseRecOn with
  | nil => exact (List.append_nil place).symm
  | append_singleton names name ih =>
    simp only [List.mem_append, List.mem_singleton, not_or] at h
    rw [follow_concat (Ne.symm h.2), ih h.1, List.append_assoc]

/-! ## The paths that a path lies in -/

/-- No step stays where it is. -/
theorem steps_upTo_isPrefix (path : Text) (n : Nat) : steps (upTo path n) <+: steps path := by
  have hprefix := (List.take_prefix n (FilePath.names path)).filter (· ≠ ['.'])
  rwa [← steps_upTo, filter_names] at hprefix

theorem eq_upTo_of_mem_ancestors {path dir : Text} (h : dir ∈ ancestors path) :
    dir = path ∨ ∃ n, dir = upTo path n := by
  refine (List.mem_cons.1 h).imp_right fun h => ?_
  obtain ⟨n, -, hn⟩ := List.mem_map.1 h
  exact ⟨n, hn.symm⟩

theorem eq_upTo_of_parent? {path dir : Text} (h : parent? path = some dir) :
    ∃ n, dir = upTo path n := by
  rw [parent?] at h
  split at h
  · cases h
  · exact ⟨_, (Option.some.inj h).symm⟩

end FilePath

namespace Tree

open FilePath (steps follow)

variable {t t' t'' : Tree} {path dir : Text} {place names q r : List Text} {name : Text}
  {node : Node} {bytes : Bytes} {location : Location}

/-- The place that a path means. -/
def placeOf (t : Tree) (path : Text) : List Text := follow (t.start path) (steps path)

/-- A path goes through a place, which may be its own. -/
def OnWay (t : Tree) (path : Text) (q : List Text) : Prop :=
  ∃ found, found <+: steps path ∧ q = follow (t.start path) found

instance (t : Tree) (path : Text) (q : List Text) : Decidable (t.OnWay path q) :=
  decidable_of_iff (∃ found ∈ (steps path).inits, q = follow (t.start path) found)
    (by simp only [OnWay, List.mem_inits])

theorem onWay_placeOf (t : Tree) (path : Text) : t.OnWay path (t.placeOf path) :=
  ⟨steps path, List.prefix_refl _, rfl⟩

theorem OnWay.of_upTo {n : Nat} (h : t.OnWay (FilePath.upTo path n) q) : t.OnWay path q := by
  obtain ⟨found, hfound, hq⟩ := h
  rw [start, FilePath.isAbsolute_upTo] at hq
  exact ⟨found, hfound.trans (FilePath.steps_upTo_isPrefix path n), hq⟩

theorem OnWay.of_mem_ancestors (h : t.OnWay dir q) (hdir : dir ∈ FilePath.ancestors path) :
    t.OnWay path q := by
  obtain rfl | ⟨n, rfl⟩ := FilePath.eq_upTo_of_mem_ancestors hdir
  · exact h
  · exact h.of_upTo

theorem OnWay.of_parent? (h : t.OnWay dir q) (hdir : FilePath.parent? path = some dir) :
    t.OnWay path q := by
  obtain ⟨n, rfl⟩ := FilePath.eq_upTo_of_parent? hdir
  exact h.of_upTo

theorem placeOf_join (hrelative : Path.isAbsolute path = false) (hdots : ['.', '.'] ∉ steps path)
    (dir : Text) : t.placeOf (FilePath.join dir path) = t.placeOf dir ++ steps path := by
  rw [placeOf, start, FilePath.isAbsolute_join hrelative, FilePath.steps_join hrelative,
    FilePath.follow_append, FilePath.follow_eq_append hdots]
  rfl

theorem onWay_join (hrelative : Path.isAbsolute path = false) (hdots : ['.', '.'] ∉ steps path)
    (h : t.OnWay (FilePath.join dir path) q) : t.OnWay dir q ∨ t.placeOf dir <+: q := by
  obtain ⟨found, hfound, rfl⟩ := h
  rw [start, FilePath.isAbsolute_join hrelative]
  rw [FilePath.steps_join hrelative] at hfound
  obtain hshort | hlong := List.prefix_or_prefix_of_prefix hfound (List.prefix_append _ _)
  · exact .inl ⟨found, hshort, rfl⟩
  · obtain ⟨more, rfl⟩ := hlong
    have hmore := ((List.prefix_append_right_inj _).1 hfound).subset
    refine .inr ?_
    rw [FilePath.follow_append, FilePath.follow_eq_append fun hmem => hdots (hmore hmem)]
    exact List.prefix_append ..

theorem OnWay.join (hrelative : Path.isAbsolute path = false) (h : t.OnWay dir q) :
    t.OnWay (FilePath.join dir path) q := by
  obtain ⟨found, hfound, rfl⟩ := h
  refine ⟨found, ?_, ?_⟩
  · rw [FilePath.steps_join hrelative]
    exact hfound.trans (List.prefix_append ..)
  · rw [start, start, FilePath.isAbsolute_join hrelative]

/-- With one name more, a path goes where that of the directory goes, and to its own place. -/
theorem onWay_join_name (hrelative : Path.isAbsolute name = false) (hsteps : steps name = [name])
    (h : t.OnWay (FilePath.join dir name) q) :
    t.OnWay dir q ∨ q = t.placeOf (FilePath.join dir name) := by
  obtain ⟨found, hfound, rfl⟩ := h
  rw [FilePath.steps_join hrelative, hsteps] at hfound
  obtain hall | hinit := List.prefix_concat_iff.1 hfound
  · refine .inr ?_
    rw [placeOf, FilePath.steps_join hrelative, hsteps, hall]
  · refine .inl ⟨found, hinit, ?_⟩
    rw [start, start, FilePath.isAbsolute_join hrelative]

/-- Without `..`, a path goes straight to its place. -/
theorem OnWay.isPrefix (h : t.OnWay path q) (hdots : ['.', '.'] ∉ steps path) :
    q <+: t.placeOf path := by
  obtain ⟨found, hfound, rfl⟩ := h
  rw [placeOf, FilePath.follow_eq_append hdots,
    FilePath.follow_eq_append fun hmem => hdots (hfound.subset hmem)]
  exact (List.prefix_append_right_inj _).2 hfound

theorem start_congr (h : t'.cwd = t.cwd) (path : Text) : t'.start path = t.start path := by
  rw [start, start, h]

theorem placeOf_congr (h : t'.cwd = t.cwd) (path : Text) : t'.placeOf path = t.placeOf path := by
  rw [placeOf, placeOf, start_congr h]

/-! ## Walks -/

theorem eq_follow_of_walk (h : t.walk place names = .ok q) :
    q = follow place (names.filter (· ≠ ['.'])) := by
  rw [← walk_filter] at h
  have hkept : ∀ name ∈ names.filter (· ≠ ['.']), name ≠ ['.'] := fun name hname => by
    simpa using (List.mem_filter.1 hname).2
  generalize names.filter (· ≠ ['.']) = names at h hkept ⊢
  induction names generalizing place with
  | nil => exact (Except.ok.inj h).symm
  | cons name names ih =>
    obtain ⟨hdot, hkept⟩ := List.forall_mem_cons.1 hkept
    rw [walk, if_neg hdot] at h
    rw [follow, List.foldl_cons, FilePath.advance]
    split_ifs at h ⊢
    · exact ih h hkept
    · split at h
      · cases h
      · cases h
      · exact ih h hkept

theorem placeOf_eq_of_walk (h : t.walk (t.start path) (steps path) = .ok q) :
    t.placeOf path = q := by
  rw [eq_follow_of_walk h, FilePath.filter_steps]
  rfl

/-- A directory that is not the root lies in a directory. -/
theorem Closed.dropLast (h : t.Closed) (hdir : t.node? q = some .directory) :
    t.node? q.dropLast = some .directory := by
  obtain rfl | ⟨init, name, rfl⟩ := List.eq_nil_or_concat' q
  · exact hdir
  · rw [List.dropLast_concat]
    exact h init name (by simp [hdir])

theorem Closed.walk (h : t.Closed) (hdir : t.node? place = some .directory)
    (hwalk : t.walk place names = .ok q) : t.node? q = some .directory := by
  induction names generalizing place with
  | nil => exact Except.ok.inj hwalk ▸ hdir
  | cons name names ih =>
    rw [Tree.walk] at hwalk
    split_ifs at hwalk
    · exact ih hdir hwalk
    · exact ih (h.dropLast hdir) hwalk
    · split at hwalk
      · cases hwalk
      · cases hwalk
      · exact ih ‹_› hwalk

theorem size_le_of_walk (h : t.walk place names = .ok q) (hname : name ∈ names)
    (hdot : name ≠ ['.']) (hdots : name ≠ ['.', '.']) : name.size ≤ maxName := by
  induction names generalizing place with
  | nil => cases hname
  | cons first names ih =>
    rw [walk] at h
    obtain rfl | hname := List.mem_cons.1 hname
    · rw [if_neg hdot, if_neg hdots] at h
      split_ifs at h with hsize
      exact Nat.not_lt.1 hsize
    · split_ifs at h
      · exact ih h hname
      · exact ih h hname
      · split at h
        · cases h
        · cases h
        · exact ih h hname

/-! ## Paths that are found -/

/-- The texts that can be paths. -/
structure IsPath (path : Text) : Prop where
  not_nul : '\x00' ∉ path
  ne_nil : path ≠ []
  size_le : path.size ≤ maxPath

theorem IsPath.of_isPrefix (h : IsPath path) (hdir : dir <+: path) (hne : dir ≠ []) :
    IsPath dir :=
  ⟨fun hnul => h.not_nul (hdir.subset hnul), hne, (Text.size_le_of_isPrefix hdir).trans h.size_le⟩

/-- The last step of a path is a name, and nothing but slashes stands behind it. -/
structure Ends (path : Text) (init : List Text) (name : Text) : Prop where
  steps_eq : steps path = init ++ [name]
  getLast?_eq : ((Path.segments path).filter (· ≠ [])).getLast? = some name
  ne_dots : name ≠ ['.', '.']

theorem Ends.isName {init : List Text} (h : Ends path init name) : Path.IsName name := by
  obtain ⟨hne, hdot, -⟩ := FilePath.of_mem_steps (h.steps_eq ▸ List.mem_concat_self)
  exact ⟨hne, hdot, h.ne_dots⟩

/-- What a path is found to mean: the directory where its steps lead, or its last step as a name in
the directory where the others lead. -/
inductive Located (t : Tree) (path : Text) : Location → Prop where
  | directory {q : List Text} (hwalk : t.walk (t.start path) (steps path) = .ok q) :
    Located t path (.directory q)
  | entry {q init : List Text} {name : Text} (hends : Ends path init name)
    (hwalk : t.walk (t.start path) init = .ok q) :
    Located t path (.entry q name (path.getLast? == some '/'))

theorem isPath_of_locate (h : t.locate path = .ok location) : IsPath path := by
  rw [locate] at h
  by_cases hnul : path.contains '\x00' = true
  · rw [if_pos hnul] at h
    cases h
  · by_cases hne : path = []
    · rw [if_neg hnul, if_pos hne] at h
      cases h
    · by_cases hsize : maxPath < path.size
      · rw [if_neg hnul, if_neg hne, if_pos hsize] at h
        cases h
      · exact ⟨by simpa using hnul, hne, Nat.not_lt.1 hsize⟩

/-- A path with a name at its end means that name in the directory where its other steps lead. -/
theorem Ends.locate_eq {init : List Text} (hpath : IsPath path) (h : Ends path init name)
    (t : Tree) : t.locate path = (t.walk (t.start path) init).map
      (Location.entry · name (path.getLast? == some '/')) := by
  have hnul : path.contains '\x00' = false := by simpa using hpath.not_nul
  obtain ⟨-, hdot, hdots⟩ := h.isName
  obtain ⟨segs, hsegs⟩ := List.getLast?_eq_some_iff.1 h.getLast?_eq
  have hinit : segs.filter (· ≠ ['.']) = init := by
    have hsteps := h.steps_eq
    rw [steps, FilePath.filter_and, hsegs, List.filter_append,
      List.filter_cons_of_pos (by simpa using hdot)] at hsteps
    exact (List.append_inj' hsteps rfl).1
  simp only [locate, hnul, hpath.ne_nil, Nat.not_lt.2 hpath.size_le, Bool.false_eq_true, if_false,
    hsegs, List.getLast?_concat, List.dropLast_concat, hdot, hdots, or_self]
  rw [← start.eq_1, ← walk_filter, hinit]
  cases t.walk (t.start path) init <;> rfl

/-- A path without a name at its end means the directory where its steps lead. -/
theorem locate_of_no_name (hpath : IsPath path)
    (h : ∀ last, ((Path.segments path).filter (· ≠ [])).getLast? = some last →
      last = ['.'] ∨ last = ['.', '.']) (t : Tree) :
    t.locate path = (t.walk (t.start path) (steps path)).map .directory := by
  have hnul : path.contains '\x00' = false := by simpa using hpath.not_nul
  simp only [locate, hnul, hpath.ne_nil, Nat.not_lt.2 hpath.size_le, Bool.false_eq_true, if_false]
  rw [← start.eq_1, steps, FilePath.filter_and, walk_filter]
  cases hlast : ((Path.segments path).filter (· ≠ [])).getLast? with
  | none =>
    rw [List.getLast?_eq_none_iff.1 hlast]
    rfl
  | some last =>
    simp only [h last hlast, if_true]
    cases t.walk (t.start path) ((Path.segments path).filter (· ≠ [])) <;> rfl

/-- A path is found if its steps can be followed, all of them, or all but a last one that is a name.
Which it is does not depend on the tree. -/
theorem locate_cases (h : IsPath path) :
    (∀ t : Tree, t.locate path = (t.walk (t.start path) (steps path)).map .directory) ∨
    ∃ init name, Ends path init name ∧
      ∀ t : Tree, t.locate path = (t.walk (t.start path) init).map
        (Location.entry · name (path.getLast? == some '/')) := by
  by_cases hlast : ∀ last, ((Path.segments path).filter (· ≠ [])).getLast? = some last →
    last = ['.'] ∨ last = ['.', '.']
  · exact .inl (locate_of_no_name h hlast)
  · simp only [not_forall, not_or] at hlast
    obtain ⟨last, hlast, hdot, hdots⟩ := hlast
    obtain ⟨segs, hsegs⟩ := List.getLast?_eq_some_iff.1 hlast
    have hends : Ends path (segs.filter (· ≠ ['.'])) last := by
      refine ⟨?_, hlast, hdots⟩
      rw [steps, FilePath.filter_and, hsegs, List.filter_append,
        List.filter_cons_of_pos (by simpa using hdot), List.filter_nil]
    exact .inr ⟨_, last, hends, hends.locate_eq h⟩

theorem exists_of_map_eq_ok {ε α β : Type} {f : α → β} {x : Except ε α} {b : β}
    (h : x.map f = .ok b) : ∃ a, x = .ok a ∧ f a = b := by
  cases x with
  | error e => cases h
  | ok a => exact ⟨a, rfl, Except.ok.inj h⟩

theorem located_of_locate (h : t.locate path = .ok location) : t.Located path location := by
  obtain hlocate | ⟨init, name, hends, hlocate⟩ := locate_cases (isPath_of_locate h)
  · obtain ⟨q, hwalk, rfl⟩ := exists_of_map_eq_ok ((hlocate t).symm.trans h)
    exact .directory hwalk
  · obtain ⟨q, hwalk, rfl⟩ := exists_of_map_eq_ok ((hlocate t).symm.trans h)
    exact .entry hends hwalk

theorem Grows.locate (hgrows : t.Grows t') (h : t.locate path = .ok location) :
    t'.locate path = .ok location := by
  have hstart : t'.start path = t.start path := start_congr hgrows.cwd_eq path
  obtain hlocate | ⟨init, name, -, hlocate⟩ := locate_cases (isPath_of_locate h)
  · obtain ⟨q, hwalk, rfl⟩ := exists_of_map_eq_ok ((hlocate t).symm.trans h)
    rw [hlocate, hstart, hgrows.walk hwalk]
    rfl
  · obtain ⟨q, hwalk, rfl⟩ := exists_of_map_eq_ok ((hlocate t).symm.trans h)
    rw [hlocate, hstart, hgrows.walk hwalk]
    rfl

/-- A name that leads down leads to a directory. -/
theorem walk_singleton_eq_ok_iff (hdot : name ≠ ['.']) (hdots : name ≠ ['.', '.']) :
    t.walk place [name] = .ok q ↔ ¬ maxName < name.size ∧
      t.node? (place ++ [name]) = some .directory ∧ place ++ [name] = q := by
  rw [walk, if_neg hdot, if_neg hdots]
  by_cases hsize : maxName < name.size
  · rw [if_pos hsize]
    exact iff_of_false (fun h => by cases h) fun h => h.1 hsize
  · rw [if_neg hsize]
    cases hnode : t.node? (place ++ [name]) with
    | none => simp
    | some node => cases node <;> simp [walk, Nat.not_lt.1 hsize]

/-- A path that leads to a directory is a directory, and cannot be made. -/
theorem find_of_walk (hpath : IsPath path) (h : t.walk (t.start path) (steps path) = .ok q) :
    t.find path = .ok .directory ∧ t.makeDirectory path = .error .exists := by
  obtain hlocate | ⟨init, name, hends, hlocate⟩ := locate_cases hpath
  · rw [find, makeDirectory, hlocate, h]
    exact ⟨rfl, rfl⟩
  · rw [hends.steps_eq, walk_append] at h
    cases hwalk : t.walk (t.start path) init with
    | error e =>
      rw [hwalk] at h
      cases h
    | ok p =>
      rw [hwalk] at h
      obtain ⟨hsize, hdir, -⟩ := (walk_singleton_eq_ok_iff hends.isName.2.1 hends.ne_dots).1 h
      rw [find, makeDirectory, hlocate, hwalk]
      simp only [Except.map, bind, Except.bind, hsize, if_false, hdir]
      exact ⟨rfl, rfl⟩

theorem find_of_isDirectory (h : t.isDirectory path = true) : t.find path = .ok .directory := by
  rw [isDirectory] at h
  split at h
  · assumption
  · cases h

/-- A directory can be walked to. -/
theorem walk_of_find (h : t.find path = .ok .directory) :
    IsPath path ∧ t.walk (t.start path) (steps path) = .ok (t.placeOf path) := by
  rw [find] at h
  cases hlocate : t.locate path with
  | error e =>
    rw [hlocate] at h
    cases h
  | ok location =>
    refine ⟨isPath_of_locate hlocate, ?_⟩
    rw [hlocate] at h
    cases located_of_locate hlocate with
    | directory hwalk => rwa [placeOf_eq_of_walk hwalk]
    | @entry q init name hends hwalk =>
      simp only [bind, Except.bind] at h
      split at h
      · cases h
      · rename_i hsize
        have hdir : t.node? (q ++ [name]) = some .directory := by
          split at h
          · cases h
          · assumption
          · split at h <;> cases h
        have hall : t.walk (t.start path) (steps path) = .ok (q ++ [name]) := by
          rw [hends.steps_eq, walk_append, hwalk]
          exact (walk_singleton_eq_ok_iff hends.isName.2.1 hends.ne_dots).2 ⟨hsize, hdir, rfl⟩
        rw [placeOf_eq_of_walk hall, hall]

/-! ## Changes -/

/-- A tree that a process can run in: every node lies in a directory, and the working directory is
one. -/
structure Sound (t : Tree) : Prop where
  closed : t.Closed
  cwd : t.node? t.cwd = some .directory

theorem Sound.start (h : t.Sound) (path : Text) : t.node? (t.start path) = some .directory := by
  rw [Tree.start]
  split
  · rfl
  · exact h.cwd

/-- A node is put at the place of a path, in a directory that is there and where none was. -/
structure Puts (t t' : Tree) (path : Text) (node : Node) : Prop where
  eq_put : t' = t.put (t.placeOf path) node
  ne_nil : t.placeOf path ≠ []
  not_directory : t.node? (t.placeOf path) ≠ some .directory
  parent : t.Sound → t.node? (t.placeOf path).dropLast = some .directory

namespace Puts

theorem cwd_eq (h : t.Puts t' path node) : t'.cwd = t.cwd := by
  rw [h.eq_put]
  rfl

theorem node?_eq (h : t.Puts t' path node) (q : List Text) :
    t'.node? q = if q = t.placeOf path then some node else t.node? q := by
  rw [h.eq_put]
  exact node?_put h.ne_nil t node q

theorem grows (h : t.Puts t' path node) : t.Grows t' := by
  rw [h.eq_put]
  exact grows_put h.ne_nil h.not_directory node

/-- What is there stays there. -/
theorem node?_ne_none (h : t.Puts t' path node) (hq : t.node? q ≠ none) : t'.node? q ≠ none := by
  rw [h.node?_eq]
  split
  · simp
  · exact hq

theorem sound (h : t.Puts t' path node) (hsound : t.Sound) : t'.Sound where
  closed := by
    obtain ⟨init, name, hplace⟩ := (List.eq_nil_or_concat' (t.placeOf path)).resolve_left h.ne_nil
    have hparent := h.parent hsound
    have hfree := h.not_directory
    rw [hplace, List.dropLast_concat] at hparent
    rw [hplace] at hfree
    rw [h.eq_put, hplace]
    exact hsound.closed.put hparent hfree node
  cwd := by
    rw [h.cwd_eq]
    exact h.grows.directory _ hsound.cwd

end Puts

/-- Where an entry is found. -/
theorem placeOf_of_entry {slash : Bool} (h : t.locate path = .ok (.entry q name slash)) :
    t.placeOf path = q ++ [name] ∧ (t.Sound → t.node? q = some .directory) := by
  cases located_of_locate h with
  | entry hends hwalk =>
    refine ⟨?_, fun hsound => hsound.closed.walk (hsound.start path) hwalk⟩
    have hinit := eq_follow_of_walk hwalk
    rw [FilePath.filter_of_isPrefix ⟨[name], hends.steps_eq.symm⟩] at hinit
    rw [placeOf, hends.steps_eq, FilePath.follow_concat hends.ne_dots, hinit]

theorem Puts.of_entry {slash : Bool} (h : t.locate path = .ok (.entry q name slash))
    (hfree : t.node? (q ++ [name]) ≠ some .directory) (node : Node) :
    t.Puts (t.put (q ++ [name]) node) path node := by
  obtain ⟨hplace, hparent⟩ := placeOf_of_entry h
  refine ⟨by rw [hplace], ?_, by rwa [hplace], fun hsound => ?_⟩
  · rw [hplace]
    exact List.concat_ne_nil name q
  · rw [hplace, List.dropLast_concat]
    exact hparent hsound

theorem locate_of_makeDirectory (h : t.makeDirectory path = .ok t') :
    ∃ q name slash, t.locate path = .ok (.entry q name slash) ∧ ¬ maxName < name.size ∧
      t.node? (q ++ [name]) = none ∧ t' = t.put (q ++ [name]) .directory := by
  rw [makeDirectory] at h
  cases hlocate : t.locate path with
  | error e =>
    rw [hlocate] at h
    cases h
  | ok location =>
    rw [hlocate] at h
    cases location with
    | directory place => cases h
    | entry q name slash =>
      simp only [bind, Except.bind] at h
      split_ifs at h with hsize hsome
      exact ⟨q, name, slash, rfl, hsize, by simpa using hsome, (Except.ok.inj h).symm⟩

theorem of_makeDirectory (h : t.makeDirectory path = .ok t') :
    t.Puts t' path .directory ∧ t.node? (t.placeOf path) = none := by
  obtain ⟨q, name, slash, hlocate, -, hfree, rfl⟩ := locate_of_makeDirectory h
  exact ⟨.of_entry hlocate (by simp [hfree]) _, (placeOf_of_entry hlocate).1 ▸ hfree⟩

theorem find_of_makeDirectory (h : t.makeDirectory path = .ok t') :
    t'.find path = .ok .directory := by
  have hputs := (of_makeDirectory h).1
  obtain ⟨q, name, slash, hlocate, hsize, -, -⟩ := locate_of_makeDirectory h
  have hnode : t'.node? (q ++ [name]) = some .directory := by
    rw [hputs.node?_eq, (placeOf_of_entry hlocate).1, if_pos rfl]
  rw [find, hputs.grows.locate hlocate]
  simp only [bind, Except.bind, hsize, if_false, hnode]
  rfl

theorem locate_of_write (h : t.write path bytes = .ok t') :
    ∃ q name, t.locate path = .ok (.entry q name false) ∧ ¬ maxName < name.size ∧
      t.node? (q ++ [name]) ≠ some .directory ∧ t' = t.put (q ++ [name]) (.file bytes) := by
  rw [write] at h
  cases hlocate : t.locate path with
  | error e =>
    rw [hlocate] at h
    cases h
  | ok location =>
    rw [hlocate] at h
    cases location with
    | directory place => cases h
    | entry q name slash =>
      simp only [bind, Except.bind] at h
      split_ifs at h with hslash hsize hdir
      obtain rfl : slash = false := by simpa using hslash
      exact ⟨q, name, rfl, hsize, hdir, (Except.ok.inj h).symm⟩

theorem of_write (h : t.write path bytes = .ok t') : t.Puts t' path (.file bytes) := by
  obtain ⟨q, name, hlocate, -, hfree, rfl⟩ := locate_of_write h
  exact .of_entry hlocate hfree _

/-! ## Files -/

/-- Reading takes a name in a directory, without a slash behind it, and a file with that name. -/
theorem read_eq_ok_iff : t.read path = .ok bytes ↔
    ∃ q name, t.locate path = .ok (.entry q name false) ∧ ¬ maxName < name.size ∧
      t.node? (q ++ [name]) = some (.file bytes) := by
  rw [read, find]
  cases t.locate path with
  | error e => simp [bind, Except.bind]
  | ok location =>
    cases location with
    | directory q =>
      simp [bind, Except.bind, pure, Except.pure, throw, throwThe, MonadExceptOf.throw]
    | entry q name slash =>
      simp only [bind, Except.bind, pure, Except.pure, throw, throwThe, MonadExceptOf.throw]
      by_cases hsize : maxName < name.size
      · simp [hsize, Nat.not_le.2 hsize]
      · cases hnode : t.node? (q ++ [name]) with
        | none => simp [hsize, hnode]
        | some node =>
          cases node with
          | directory => simp [hsize, hnode]
          | file bytes' => cases slash <;> simp [Nat.not_lt.1 hsize, hsize, hnode]

theorem read_of_write (h : t.write path bytes = .ok t') : t'.read path = .ok bytes := by
  have hputs := of_write h
  obtain ⟨q, name, hlocate, hsize, -, -⟩ := locate_of_write h
  refine read_eq_ok_iff.2 ⟨q, name, hputs.grows.locate hlocate, hsize, ?_⟩
  rw [hputs.node?_eq, (placeOf_of_entry hlocate).1, if_pos rfl]

theorem file?_of_read (h : t.read path = .ok bytes) : t.file? (t.placeOf path) = some bytes := by
  obtain ⟨q, name, hlocate, -, hnode⟩ := read_eq_ok_iff.1 h
  rw [file?, (placeOf_of_entry hlocate).1, hnode]

/-- A file can still be read if it is still there, and so are the directories that lead to it. -/
theorem read_of_grows (h : t.read path = .ok bytes) (hgrows : t.Grows t')
    (hfile : t'.file? (t.placeOf path) = t.file? (t.placeOf path)) : t'.read path = .ok bytes := by
  have hthere := file?_of_read h
  obtain ⟨q, name, hlocate, hsize, hnode⟩ := read_eq_ok_iff.1 h
  refine read_eq_ok_iff.2 ⟨q, name, hgrows.locate hlocate, hsize, ?_⟩
  rw [← hfile, (placeOf_of_entry hlocate).1, file?] at hthere
  split at hthere
  · rename_i hthere'
    rw [hthere', Option.some.inj hthere]
  · cases hthere

theorem Puts.file?_eq (h : t.Puts t' path (.file bytes)) (q : List Text) :
    t'.file? q = if q = t.placeOf path then some bytes else t.file? q := by
  rw [file?, h.node?_eq]
  split_ifs <;> rfl

end Tree

end TexBundle
