import TexBundle.Proofs.FileSystem.Paths
import TexBundle.Proofs.FileSystem.Tree

/-!
# Following paths in directory trees

A route leads from a directory that is there along names with nothing but directories on the way,
as far as there is anything. What an operation does at the end of a route depends only on what
stands there.

* `Tree.Closed`: every node lies in a directory;
* `Tree.walk_eq`: names lead to a directory, or to nothing;
* `Tree.Route`, `Tree.Route.find_eq`: what a path means that is such a route;
* `Tree.Route.makeDirectories`: all directories of a route can be made, and nothing else changes.
-/

namespace TexBundle

theorem ne_concat_of_isPrefix {α : Type} {q r : List α} (h : q <+: r) (x : α) : q ≠ r ++ [x] := by
  rintro rfl
  have := h.length_le
  rw [List.length_append, List.length_singleton] at this
  omega

namespace Tree

variable {t t' : Tree} {place rest r : List Text} {name path : Text} {node : Node} {bytes : Bytes}

/-! ## Closed trees -/

/-- Every node lies in a directory. -/
def Closed (t : Tree) : Prop :=
  ∀ place name, t.node? (place ++ [name]) ≠ none → t.node? place = some .directory

theorem Closed.put (h : t.Closed) (hplace : t.node? place = some .directory)
    (hfree : t.node? (place ++ [name]) ≠ some .directory) (node : Node) :
    (t.put (place ++ [name]) node).Closed := by
  intro q x hx
  have hput := node?_put (List.concat_ne_nil name place) t node
  rw [hput] at hx
  rw [hput]
  by_cases hq : q ++ [x] = place ++ [name]
  · obtain ⟨rfl, -⟩ := List.append_inj' hq rfl
    rw [if_neg (by simp)]
    exact hplace
  · rw [if_neg hq] at hx
    have hdir := h q x hx
    have hne : q ≠ place ++ [name] := fun e => hfree (e ▸ hdir)
    rw [if_neg hne]
    exact hdir

theorem Closed.node?_append_eq_none (h : t.Closed) (hplace : t.node? place = none)
    (q : List Text) : t.node? (place ++ q) = none := by
  induction q using List.reverseRecOn with
  | nil => rwa [List.append_nil]
  | append_singleton q name ih =>
    by_contra hne
    rw [← List.append_assoc] at hne
    rw [h _ _ hne] at ih
    cases ih

/-- What a directory lies in are directories. -/
theorem Closed.directory_of_isPrefix (h : t.Closed) {q : List Text}
    (hdir : t.node? (place ++ r) = some .directory) (hq : q <+: r) :
    t.node? (place ++ q) = some .directory := by
  obtain ⟨more, rfl⟩ := hq
  cases more with
  | nil => rwa [List.append_nil] at hdir
  | cons name more =>
    refine h (place ++ q) name fun hnone => ?_
    have hfree := h.node?_append_eq_none hnone more
    simp only [List.append_assoc, List.singleton_append] at hfree
    rw [hdir] at hfree
    cases hfree

/-- If there is anything further down, it lies in directories. -/
theorem Closed.directory_of_below (h : t.Closed) (hr : r ≠ [])
    (hnode : t.node? (place ++ r) ≠ none) : t.node? place = some .directory := by
  obtain ⟨init, name, rfl⟩ := (List.eq_nil_or_concat' r).resolve_left hr
  rw [← List.append_assoc] at hnode
  have hdir := h.directory_of_isPrefix (h _ _ hnode) List.nil_prefix
  rwa [List.append_nil] at hdir

theorem node?_singleton {name : Text} {place : List Text} (hnil : place ≠ [])
    (hplace : place ≠ [name]) : node? { nodes := [([name], .directory)] } place = none := by
  have hne : (place == [name]) = false := by simpa using hplace
  rw [node?, if_neg hnil, List.lookup_cons, hne]
  rfl

/-- It is enough to look at the nodes of a tree one by one. -/
theorem closed_of_nodes (h : ∀ n ∈ t.nodes, t.node? n.1.dropLast = some .directory) : t.Closed := by
  intro place name hnode
  rw [node?, if_neg (List.concat_ne_nil name place), Ne, List.lookup_eq_none_iff] at hnode
  simp only [bne_iff_ne, not_forall, not_not, exists_prop] at hnode
  obtain ⟨n, hn, e⟩ := hnode
  have hdir := h n hn
  rwa [← e, List.dropLast_concat] at hdir

theorem closed_singleton (name : Text) : Closed { nodes := [([name], .directory)] } :=
  closed_of_nodes fun n hn => by rw [List.mem_singleton.1 hn]; rfl

/-! ## Walks -/

theorem walk_append (t : Tree) (place names more : List Text) :
    t.walk place (names ++ more) = (t.walk place names).bind (t.walk · more) := by
  induction names generalizing place with
  | nil => rfl
  | cons name names ih =>
    rw [List.cons_append, walk, walk]
    split
    · exact ih place
    · split
      · exact ih _
      · split
        · rfl
        · split
          · rfl
          · rfl
          · exact ih _

/-- A name that stays where it is does not count. -/
theorem walk_filter (t : Tree) (place names : List Text) :
    t.walk place (names.filter (· ≠ ['.'])) = t.walk place names := by
  induction names generalizing place with
  | nil => rfl
  | cons name names ih =>
    by_cases hdot : name = ['.']
    · rw [List.filter_cons_of_neg (by simpa using hdot), ih, walk, if_pos hdot]
    · rw [List.filter_cons_of_pos (by simpa using hdot), walk, walk]
      simp only [ih]

/-- The directories of one tree are directories of another one. -/
structure Grows (t t' : Tree) : Prop where
  cwd_eq : t'.cwd = t.cwd
  directory : ∀ place, t.node? place = some .directory → t'.node? place = some .directory

theorem Grows.trans {t'' : Tree} (h : t.Grows t') (h' : t'.Grows t'') : t.Grows t'' where
  cwd_eq := h'.cwd_eq.trans h.cwd_eq
  directory place hplace := h'.directory place (h.directory place hplace)

theorem Grows.walk {names place' : List Text} (h : t.Grows t')
    (hwalk : t.walk place names = .ok place') : t'.walk place names = .ok place' := by
  induction names generalizing place with
  | nil => exact hwalk
  | cons name names ih =>
    rw [Tree.walk] at hwalk ⊢
    split_ifs at hwalk ⊢ with hdot hdots hsize
    · exact ih hwalk
    · exact ih hwalk
    · split at hwalk
      · cases hwalk
      · cases hwalk
      · rename_i hdir
        rw [h.directory _ hdir]
        exact ih hwalk

theorem grows_put (hplace : place ≠ []) (hfree : t.node? place ≠ some .directory) (node : Node) :
    t.Grows (t.put place node) where
  cwd_eq := rfl
  directory q hq := by
    have hne : q ≠ place := fun e => hfree (e ▸ hq)
    rw [node?_put hplace, if_neg hne]
    exact hq

/-- A name that can stand in a directory, and leads down. -/
def IsPlain (name : Text) : Prop := Path.IsName name ∧ name.size ≤ maxName

instance (name : Text) : Decidable (IsPlain name) := inferInstanceAs (Decidable (_ ∧ _))

/-- With no file on the way, names lead to a directory or to nothing. -/
theorem walk_eq (hclosed : t.Closed) (hplace : t.node? place = some .directory)
    (hnames : ∀ name ∈ rest, IsPlain name)
    (hclear : ∀ q, q <+: rest → ∀ bytes, t.node? (place ++ q) ≠ some (.file bytes)) :
    t.walk place rest =
      if t.node? (place ++ rest) = some .directory then .ok (place ++ rest)
      else .error .notFound := by
  induction rest generalizing place with
  | nil => rw [List.append_nil, if_pos hplace, walk]
  | cons name rest ih =>
    obtain ⟨⟨⟨-, hdot, hdots⟩, hsize⟩, hrest⟩ := List.forall_mem_cons.1 hnames
    have happend : place ++ name :: rest = (place ++ [name]) ++ rest := by simp
    rw [walk, if_neg hdot, if_neg hdots, if_neg (Nat.not_lt.2 hsize), happend]
    cases hnode : t.node? (place ++ [name]) with
    | none => rw [hclosed.node?_append_eq_none hnode rest, if_neg (by simp)]
    | some node =>
      cases node with
      | file bytes => exact absurd hnode (hclear [name] ⟨rest, rfl⟩ bytes)
      | directory =>
        refine ih hnode hrest fun q hq bytes => ?_
        simpa using hclear (name :: q) ((List.prefix_cons_inj name).2 hq) bytes

/-! ## Routes -/

/-- Where a path starts. -/
def start (t : Tree) (path : Text) : List Text := if Path.isAbsolute path then [] else t.cwd

/-- A path leads to a place, with the last steps still to be taken. -/
def Leads (t : Tree) (path : Text) (base rest : List Text) : Prop :=
  ∃ found, FilePath.steps path = found ++ rest ∧ t.walk (t.start path) found = .ok base

theorem Leads.join {base : List Text} {dir : Text} (h : t.Leads dir base rest)
    (hpath : Path.isAbsolute path = false) :
    t.Leads (FilePath.join dir path) base (rest ++ FilePath.steps path) := by
  obtain ⟨found, hsteps, hwalk⟩ := h
  refine ⟨found, ?_, ?_⟩
  · rw [FilePath.steps_join hpath, hsteps, List.append_assoc]
  · rw [start, FilePath.isAbsolute_join hpath]
    exact hwalk

theorem Leads.of_grows {base : List Text} (h : t.Leads path base rest) (hgrows : t.Grows t') :
    t'.Leads path base rest := by
  obtain ⟨found, hsteps, hwalk⟩ := h
  have hstart : t'.start path = t.start path := by rw [start, start, hgrows.cwd_eq]
  exact ⟨found, hsteps, hgrows.walk (hstart ▸ hwalk)⟩

/-- A path leads to a directory, and from there along names with no file on the way. -/
structure Route (t : Tree) (path : Text) (base rest : List Text) : Prop where
  not_nul : '\x00' ∉ path
  size_le : path.size ≤ maxPath
  leads : t.Leads path base rest
  getLast? : (Path.segments path).getLast? = rest.getLast?
  directory : t.node? base = some .directory
  plain : ∀ name ∈ rest, IsPlain name
  clear : ∀ q, q <+: rest → q ≠ rest → ∀ bytes, t.node? (base ++ q) ≠ some (.file bytes)

namespace Route

variable {base : List Text}

theorem locate_eq (h : t.Route path base (r ++ [name])) :
    t.locate path = (t.walk base r).map (Location.entry · name false) := by
  obtain ⟨found, hsteps, hwalk⟩ := h.leads
  obtain ⟨⟨hne, hdot, hdots⟩, -⟩ : IsPlain name := h.plain name (by simp)
  obtain ⟨segs, hsegs⟩ := List.getLast?_eq_some_iff.1 (h.getLast?.trans List.getLast?_concat)
  have hnames : (Path.segments path).filter (· ≠ []) = segs.filter (· ≠ []) ++ [name] := by
    rw [hsegs, List.filter_append]
    simp [hne]
  have hinit : (segs.filter (· ≠ [])).filter (· ≠ ['.']) = found ++ r := by
    rw [FilePath.steps, FilePath.filter_and, hnames, List.filter_append, ← List.append_assoc,
      List.filter_cons_of_pos (by simpa using hdot)] at hsteps
    exact (List.append_inj' hsteps rfl).1
  have hpath : path ≠ [] := by
    rintro rfl
    simp [Path.segments, Text.splitBy] at hnames
  have hwalk' : t.walk (t.start path) (segs.filter (· ≠ [])) = t.walk base r := by
    rw [← walk_filter, hinit, walk_append, hwalk, Except.bind]
  have hslash : path.getLast? ≠ some '/' := by
    have hmem : name ∈ Path.segments path := hsegs ▸ List.mem_concat_self
    have hname : Path.fileName path = name :=
      Option.some.inj ((Path.getLast?_segments path).symm.trans (by rw [hsegs]; simp))
    obtain ⟨dir, hdir⟩ := hname ▸ Path.fileName_isSuffix path
    rw [← hdir, List.getLast?_append_of_ne_nil _ hne]
    exact fun hlast => Path.not_slash_of_mem_segments hmem (List.mem_of_getLast? hlast)
  have hnul : path.contains '\x00' = false := by simpa using h.not_nul
  simp only [locate, hnul, hpath, Nat.not_lt.2 h.size_le, hnames, List.getLast?_concat,
    hdot, hdots, or_self, List.dropLast_concat, Bool.false_eq_true, if_false]
  rw [← hwalk', start]
  cases t.walk (if Path.isAbsolute path = true then [] else t.cwd) (segs.filter (· ≠ [])) with
  | error e => rfl
  | ok dir => simp [bind, Except.bind, pure, Except.pure, Except.map, hslash]

/-- A route goes through its last directory, if that is there. -/
theorem walk_init_eq (hclosed : t.Closed) (h : t.Route path base (r ++ [name])) :
    t.walk base r =
      if t.node? (base ++ r) = some .directory then .ok (base ++ r) else .error .notFound := by
  refine Tree.walk_eq hclosed h.directory (fun x hx => h.plain x (List.mem_append_left _ hx)) ?_
  exact fun q hq => h.clear q (hq.trans (List.prefix_append ..)) (ne_concat_of_isPrefix hq name)

/-- Without its last directory, nothing is at the end of a route. -/
theorem node?_eq_none (hclosed : t.Closed) (hdir : t.node? (base ++ r) ≠ some .directory) :
    t.node? (base ++ (r ++ [name])) = none := by
  by_contra hne
  rw [← List.append_assoc] at hne
  exact hdir (hclosed _ _ hne)

theorem find_eq (hclosed : t.Closed) (h : t.Route path base rest) (hne : rest ≠ []) :
    t.find path = (t.node? (base ++ rest)).elim (.error .notFound) .ok := by
  obtain ⟨r, name, rfl⟩ := (List.eq_nil_or_concat' rest).resolve_left hne
  have hsize : ¬ maxName < name.size := Nat.not_lt.2 (h.plain name (by simp)).2
  rw [find, h.locate_eq, h.walk_init_eq hclosed]
  by_cases hdir : t.node? (base ++ r) = some .directory
  · rw [if_pos hdir]
    simp only [bind, Except.bind, Except.map, hsize, if_false, List.append_assoc]
    cases t.node? (base ++ (r ++ [name])) with
    | none => rfl
    | some node => cases node <;> rfl
  · rw [if_neg hdir, node?_eq_none hclosed hdir]
    rfl

theorem isDirectory_eq (hclosed : t.Closed) (h : t.Route path base rest) (hne : rest ≠ []) :
    t.isDirectory path = decide (t.node? (base ++ rest) = some .directory) := by
  rw [isDirectory, h.find_eq hclosed hne]
  cases t.node? (base ++ rest) with
  | none => rfl
  | some node => cases node <;> simp

theorem isPresent_eq (hclosed : t.Closed) (h : t.Route path base rest) (hne : rest ≠ []) :
    t.isPresent path = (t.node? (base ++ rest)).isSome := by
  rw [isPresent, h.find_eq hclosed hne]
  cases t.node? (base ++ rest) <;> rfl

theorem read_eq (hclosed : t.Closed) (h : t.Route path base rest) (hne : rest ≠ [])
    {content : Option Bytes} (hnode : t.node? (base ++ rest) = content.map .file) :
    t.read path = content.elim (.error .notFound) .ok := by
  rw [read, h.find_eq hclosed hne, hnode]
  cases content <;> rfl

theorem write_eq (hclosed : t.Closed) (h : t.Route path base (r ++ [name]))
    (hdir : t.node? (base ++ r) = some .directory)
    (hfree : t.node? (base ++ (r ++ [name])) ≠ some .directory) (bytes : Bytes) :
    t.write path bytes = .ok (t.put (base ++ (r ++ [name])) (.file bytes)) := by
  have hsize : ¬ maxName < name.size := Nat.not_lt.2 (h.plain name (by simp)).2
  rw [write, h.locate_eq, h.walk_init_eq hclosed, if_pos hdir]
  simp only [bind, Except.bind, Except.map, Bool.false_eq_true, hsize, List.append_assoc, hfree,
    if_false]
  rfl

theorem makeDirectory_eq (hclosed : t.Closed) (h : t.Route path base (r ++ [name])) :
    t.makeDirectory path =
      if t.node? (base ++ r) ≠ some .directory then .error .notFound
      else if (t.node? (base ++ (r ++ [name]))).isSome then .error .exists
      else .ok (t.put (base ++ (r ++ [name])) .directory) := by
  have hsize : ¬ maxName < name.size := Nat.not_lt.2 (h.plain name (by simp)).2
  rw [makeDirectory, h.locate_eq, h.walk_init_eq hclosed]
  by_cases hdir : t.node? (base ++ r) = some .directory
  · simp only [hdir, if_true, ne_eq, not_true_eq_false, if_false, bind, Except.bind, Except.map,
      hsize, List.append_assoc]
    split <;> rfl
  · rw [if_neg hdir, if_pos hdir]
    rfl

theorem ne_nil (h : t.Route path base (r ++ [name])) : path ≠ [] := by
  rintro rfl
  obtain ⟨found, hsteps, -⟩ := h.leads
  have := congrArg List.length hsteps
  simp [FilePath.steps, Path.segments, Text.splitBy] at this

end Route

/-! ## Making directories -/

/-- All directories of a route have been made, and nothing else has changed. -/
structure Made (t t' : Tree) (base rest : List Text) : Prop where
  cwd_eq : t'.cwd = t.cwd
  closed : t'.Closed
  directory : ∀ q, q <+: rest → t'.node? (base ++ q) = some .directory
  node?_eq : ∀ place, (∀ q, q <+: rest → place ≠ base ++ q) → t'.node? place = t.node? place

namespace Made

variable {base : List Text}

theorem refl (hclosed : t.Closed) (hdir : t.node? (base ++ rest) = some .directory) :
    t.Made t base rest where
  cwd_eq := rfl
  closed := hclosed
  directory _ hq := hclosed.directory_of_isPrefix hdir hq
  node?_eq _ _ := rfl

theorem put (h : t.Made t' base r) (hfree : t'.node? (base ++ (r ++ [name])) = none) :
    t.Made (t'.put (base ++ (r ++ [name])) .directory) base (r ++ [name]) := by
  rw [← List.append_assoc] at hfree ⊢
  have hput := node?_put (List.concat_ne_nil name (base ++ r)) t' .directory
  have hne : t'.node? (base ++ r ++ [name]) ≠ some .directory := by rw [hfree]; simp
  refine ⟨h.cwd_eq, h.closed.put (h.directory r (List.prefix_refl r)) hne _,
    fun q hq => ?_, fun place hplace => ?_⟩
  · rw [hput]
    split
    · rfl
    · rename_i hne
      refine h.directory q ((List.prefix_concat_iff.1 hq).resolve_left fun e => hne ?_)
      rw [e, List.append_assoc]
  · rw [hput, if_neg (by simpa using hplace _ (List.prefix_refl _))]
    exact h.node?_eq place fun q hq => hplace q (hq.trans (List.prefix_append ..))

theorem grows (h : t.Made t' base rest) : t.Grows t' where
  cwd_eq := h.cwd_eq
  directory place hplace := by
    by_cases hq : ∃ q, q <+: rest ∧ place = base ++ q
    · obtain ⟨q, hq, rfl⟩ := hq
      exact h.directory q hq
    · rw [h.node?_eq place fun q hqr e => hq ⟨q, hqr, e⟩]
      exact hplace

/-- No files have been made. -/
theorem ne_file (h : t.Made t' base rest) (hplace : t.node? place ≠ some (.file bytes)) :
    t'.node? place ≠ some (.file bytes) := by
  by_cases hq : ∃ q, q <+: rest ∧ place = base ++ q
  · obtain ⟨q, hq, rfl⟩ := hq
    simp [h.directory q hq]
  · rwa [h.node?_eq place fun q hqr e => hq ⟨q, hqr, e⟩]

end Made

theorem Route.of_made {base : List Text} (h : t.Route path base (r ++ [name]))
    (hmade : t.Made t' base r) : t'.Route path base (r ++ [name]) :=
  { h with
    leads := h.leads.of_grows hmade.grows
    directory := hmade.grows.directory base h.directory
    clear := fun q hq hne bytes => hmade.ne_file (h.clear q hq hne bytes) }

variable {t'' : Tree} {outer base more : List Text}

theorem makeDirectory_run (path : Text) (t : Tree) :
    fileSystem.makeDirectory path t = change (·.makeDirectory path) t := rfl

theorem makeFirst_of_ok (hne : path ≠ []) (h : t.makeDirectory path = .ok t') :
    fileSystem.makeFirst (path :: outer) t = (.ok (), t') := by
  have hrun : fileSystem.makeDirectory path t = (.ok (), t') := by
    rw [makeDirectory_run, change, h]
  rw [FileSystem.makeFirst, if_neg hne]
  simp only [bind, StateT.bind, hrun]
  rfl

theorem makeFirst_of_exists (hne : path ≠ []) (h : t.makeDirectory path = .error .exists)
    (hdir : t.isDirectory path = true) : fileSystem.makeFirst (path :: outer) t = (.ok (), t) := by
  have hrun : fileSystem.makeDirectory path t = (.error .exists, t) := by
    rw [makeDirectory_run, change, h]
  have hpresent : fileSystem.orPresent path .exists t = (.ok (), t) := by
    show (if t.isDirectory path then _ else _, t) = _
    rw [hdir]
    rfl
  rw [FileSystem.makeFirst, if_neg hne]
  simp only [bind, StateT.bind, hrun]
  exact hpresent

theorem makeFirst_of_notFound (hne : path ≠ []) (h : t.makeDirectory path = .error .notFound)
    (houter : fileSystem.makeFirst outer t = (.ok (), t')) (h' : t'.makeDirectory path = .ok t'') :
    fileSystem.makeFirst (path :: outer) t = (.ok (), t'') := by
  have hrun : fileSystem.makeDirectory path t = (.error .notFound, t) := by
    rw [makeDirectory_run, change, h]
  have hrun' : fileSystem.makeDirectory path t' = (.ok (), t'') := by
    rw [makeDirectory_run, change, h']
  rw [FileSystem.makeFirst, if_neg hne]
  simp only [bind, StateT.bind, hrun, houter, hrun']
  rfl

/-- The first directory of a list can be made if those are made that it lies in. -/
theorem makeFirst_cons (hclosed : t.Closed) (h : t.Route path base (r ++ [name]))
    (hfile : ∀ bytes, t.node? (base ++ (r ++ [name])) ≠ some (.file bytes))
    (houter : t.node? (base ++ r) ≠ some .directory →
      ∃ t', fileSystem.makeFirst outer t = (.ok (), t') ∧ t.Made t' base r) :
    ∃ t', fileSystem.makeFirst (path :: outer) t = (.ok (), t') ∧
      t.Made t' base (r ++ [name]) := by
  have hmake := h.makeDirectory_eq hclosed
  by_cases hdir : t.node? (base ++ r) = some .directory
  · rw [if_neg (not_not_intro hdir)] at hmake
    cases hnode : t.node? (base ++ (r ++ [name])) with
    | none =>
      rw [hnode, if_neg (by simp)] at hmake
      exact ⟨_, makeFirst_of_ok h.ne_nil hmake, (Made.refl hclosed hdir).put hnode⟩
    | some node =>
      cases node with
      | file bytes => exact absurd hnode (hfile bytes)
      | directory =>
        have hpresent : t.isDirectory path = true := by
          rw [h.isDirectory_eq hclosed (List.concat_ne_nil name r), hnode]
          rfl
        rw [hnode, Option.isSome_some, if_pos rfl] at hmake
        exact ⟨t, makeFirst_of_exists h.ne_nil hmake hpresent, Made.refl hclosed hnode⟩
  · rw [if_pos hdir] at hmake
    obtain ⟨t', hfirst, hmade⟩ := houter hdir
    have hnone : t'.node? (base ++ (r ++ [name])) = none := by
      rw [hmade.node?_eq _ fun q hq e => ?_]
      · exact Route.node?_eq_none hclosed hdir
      · exact ne_concat_of_isPrefix hq name (List.append_cancel_left e).symm
    have hmake' := (h.of_made hmade).makeDirectory_eq hmade.closed
    rw [if_neg (not_not_intro (hmade.directory r (List.prefix_refl r))), hnone,
      if_neg (by simp)] at hmake'
    exact ⟨_, makeFirst_of_notFound h.ne_nil hmake hfirst hmake', hmade.put hnone⟩

theorem Route.length_le (h : t.Route path base rest) :
    rest.length ≤ (FilePath.names path).length := by
  obtain ⟨found, hsteps, -⟩ := h.leads
  obtain ⟨lead, hnames, -⟩ := FilePath.exists_names_eq path
  rw [hnames, hsteps, List.length_append, List.length_append]
  omega

/-- The paths that a route lies in are routes. -/
theorem Route.upTo (h : t.Route path base (r ++ more)) (hne : r ≠ []) :
    t.Route (FilePath.upTo path ((FilePath.names path).length - more.length)) base r := by
  obtain ⟨found, hsteps, hwalk⟩ := h.leads
  obtain ⟨lead, hnames, hlead⟩ := FilePath.exists_names_eq path
  have htake : (FilePath.names path).take ((FilePath.names path).length - more.length) =
      lead ++ found ++ r := by
    rw [hnames, hsteps]
    simp only [← List.append_assoc]
    rw [List.length_append, Nat.add_sub_cancel, List.take_left]
  have htakene : (FilePath.names path).take ((FilePath.names path).length - more.length) ≠ [] := by
    rw [htake]
    exact List.append_ne_nil_of_right_ne_nil _ hne
  have hkept : (found ++ r).filter (· ≠ ['.']) = found ++ r :=
    FilePath.filter_of_isPrefix ⟨more, by rw [hsteps, List.append_assoc]⟩
  have hshorter := FilePath.upTo_isPrefix path ((FilePath.names path).length - more.length)
  refine ⟨fun hc => h.not_nul (hshorter.subset hc),
    (Text.size_le_of_isPrefix hshorter).trans h.size_le,
    ⟨found, ?_, ?_⟩, ?_, h.directory, fun name hname => h.plain name (List.mem_append_left _ hname),
    fun q hq hqne => h.clear q (hq.trans (List.prefix_append ..)) fun e => hqne ?_⟩
  · rw [FilePath.steps_upTo, htake, List.append_assoc, List.filter_append, hlead, hkept]
    rfl
  · rw [start, FilePath.isAbsolute_upTo]
    exact hwalk
  · rw [FilePath.getLast?_segments_upTo htakene (Nat.sub_le ..), htake,
      List.getLast?_append_of_ne_nil _ hne]
  · have := hq.length_le
    rw [e, List.length_append] at this
    obtain rfl : more = [] := List.length_eq_zero_iff.1 (by omega)
    rw [e, List.append_nil]

/-- By induction on the route, which is made from its base on. -/
theorem makeFirst_upTo (hclosed : t.Closed) (hne : r ≠ []) (h : t.Route path base (r ++ more))
    (hfile : ∀ bytes, t.node? (base ++ r) ≠ some (.file bytes)) {n : Nat}
    (hn : n + more.length = (FilePath.names path).length) :
    ∃ t', fileSystem.makeFirst ((List.range (n + 1)).reverse.map (FilePath.upTo path)) t =
      (.ok (), t') ∧ t.Made t' base r := by
  induction r using List.reverseRecOn generalizing more n with
  | nil => exact absurd rfl hne
  | append_singleton r name ih =>
    have hroute : t.Route (FilePath.upTo path n) base (r ++ [name]) := by
      have := h.upTo (List.concat_ne_nil name r)
      rwa [← hn, Nat.add_sub_cancel] at this
    rw [List.range_succ, List.reverse_append, List.map_append]
    refine makeFirst_cons hclosed hroute hfile fun hdir => ?_
    rw [List.append_assoc] at h
    have hr : r ≠ [] := fun e => hdir (by rw [e, List.append_nil]; exact h.directory)
    have hclear : ∀ bytes, t.node? (base ++ r) ≠ some (.file bytes) :=
      h.clear r (List.prefix_append ..) (by simp)
    have hlength := h.length_le
    have hpos := List.length_pos_of_ne_nil hr
    simp only [List.length_append, List.length_singleton] at hlength
    obtain ⟨n, rfl⟩ : ∃ k, n = k + 1 := ⟨n - 1, by omega⟩
    exact ih hr h hclear (by rw [← hn, List.length_append, List.length_singleton]; omega)

theorem Route.makeDirectories (hclosed : t.Closed) (h : t.Route path base (r ++ [name]))
    (hfile : ∀ bytes, t.node? (base ++ (r ++ [name])) ≠ some (.file bytes)) :
    ∃ t', fileSystem.makeDirectories path t = (.ok (), t') ∧ t.Made t' base (r ++ [name]) := by
  refine makeFirst_cons hclosed h hfile fun hdir => ?_
  have hr : r ≠ [] := fun e => hdir (by rw [e, List.append_nil]; exact h.directory)
  have hlength : 1 ≤ (FilePath.names path).length :=
    (List.length_pos_of_ne_nil (List.concat_ne_nil name r)).trans_le h.length_le
  have hmake := makeFirst_upTo (n := (FilePath.names path).length - 1) hclosed hr h
    (h.clear r (List.prefix_append ..) (by simp)) (Nat.sub_add_cancel hlength)
  rwa [Nat.sub_add_cancel hlength] at hmake

/-- What lies between a route's base and its end can be made. -/
theorem Route.makeParent (hclosed : t.Closed) (h : t.Route path base (r ++ [name])) (hr : r ≠ []) :
    ∃ t', fileSystem.makeParent path t = (.ok (), t') ∧ t.Made t' base r := by
  obtain ⟨init, last, rfl⟩ := (List.eq_nil_or_concat' r).resolve_left hr
  have hmake := (h.upTo hr).makeDirectories hclosed
    (h.clear _ (List.prefix_append ..) (by simp))
  have hlength : 1 ≤ (FilePath.names path).length :=
    (List.length_pos_of_ne_nil (List.concat_ne_nil name _)).trans_le h.length_le
  obtain ⟨n, hn⟩ : ∃ n, (FilePath.names path).length = n + 1 :=
    ⟨_, (Nat.sub_add_cancel hlength).symm⟩
  rw [hn, List.length_singleton, Nat.add_sub_cancel] at hmake
  rwa [FileSystem.makeParent, FilePath.parent?, hn]

end Tree

end TexBundle
