import TexBundle.Proofs.FileSystem.Places
import TexBundle.Proofs.Storage.Keeping

/-!
# What operations leave alone, and what they see

* `Tree.Frame`: two trees are the same but for certain places;
* `Tree.Extends`: directories have been added to a tree, and nothing else;
* `Tree.makeParent_frame`, `Tree.extends_of_makeParent`: making the directories that a path lies in
  does no more than that, and only on the way of this path, whether it works or not;
* `Tree.find_congr`: what a path means depends on nothing but the places that it goes through.
-/

namespace TexBundle.Tree

open FilePath (steps follow)

variable {t t' t'' : Tree} {P : List Text → Prop} {path dir : Text} {node : Node}
  {place names q : List Text}

/-! ## Frames -/

/-- Trees that are the same but for places with `P`. -/
structure Frame (P : List Text → Prop) (t t' : Tree) : Prop where
  cwd_eq : t'.cwd = t.cwd
  node?_eq : ∀ q, ¬ P q → t'.node? q = t.node? q

theorem Frame.refl (P : List Text → Prop) (t : Tree) : t.Frame P t := ⟨rfl, fun _ _ => rfl⟩

theorem Frame.puts (h : t.Frame P t') (hplace : P (t.placeOf path))
    (hputs : t'.Puts t'' path node) : t.Frame P t'' where
  cwd_eq := hputs.cwd_eq.trans h.cwd_eq
  node?_eq q hq := by
    have hne : q ≠ t.placeOf path := fun e => hq (e ▸ hplace)
    rw [hputs.node?_eq, placeOf_congr h.cwd_eq, if_neg hne, h.node?_eq q hq]

theorem makeDirectory_frame (h : P (t.placeOf path)) :
    Keeps (t.Frame P) (fileSystem.makeDirectory path) :=
  change_keeps fun _ _ hmake hframe => hframe.puts h (of_makeDirectory hmake).1

theorem write_frame (h : P (t.placeOf path)) (bytes : Bytes) :
    Keeps (t.Frame P) (fileSystem.write path bytes) :=
  change_keeps fun _ _ hwrite hframe => hframe.puts h (of_write hwrite)

theorem makeParent_frame (t : Tree) (path : Text) :
    Keeps (t.Frame fun q => ∃ dir, FilePath.parent? path = some dir ∧ t.OnWay dir q)
      (fileSystem.makeParent path) :=
  (fileSystem_looksKeep _).makeParent fun parent hparent dir hdir =>
    makeDirectory_frame ⟨parent, hparent, (t.onWay_placeOf dir).of_mem_ancestors hdir⟩

/-! ## Directories that stay -/

theorem Grows.refl (t : Tree) : t.Grows t := ⟨rfl, fun _ h => h⟩

theorem makeDirectory_grows (path : Text) : Keeps t.Grows (fileSystem.makeDirectory path) :=
  change_keeps fun _ _ hmake h => h.trans (of_makeDirectory hmake).1.grows

theorem write_grows (path : Text) (bytes : Bytes) : Keeps t.Grows (fileSystem.write path bytes) :=
  change_keeps fun _ _ hwrite h => h.trans (of_write hwrite).grows

/-! ## Added directories -/

/-- Directories may have been added to a tree, and nothing else has happened to it. -/
structure Extends (t t' : Tree) : Prop where
  grows : t.Grows t'
  file?_eq : t'.file? = t.file?

theorem Extends.refl (t : Tree) : t.Extends t := ⟨.refl t, rfl⟩

theorem Extends.trans (h : t.Extends t') (h' : t'.Extends t'') : t.Extends t'' :=
  ⟨h.grows.trans h'.grows, h'.file?_eq.trans h.file?_eq⟩

theorem makeDirectory_extends (path : Text) : Keeps t.Extends (fileSystem.makeDirectory path) :=
  change_keeps fun _ _ hmake h =>
    h.trans ⟨(of_makeDirectory hmake).1.grows, file?_makeDirectory hmake⟩

theorem extends_of_makeDirectories {path : Text} {u : Except FileError Unit}
    (h : fileSystem.makeDirectories path t = (u, t')) : t.Extends t' := by
  have hkeeps := (fileSystem_looksKeep t.Extends).makeDirectories
    (fun dir (_ : dir ∈ FilePath.ancestors path) => makeDirectory_extends dir) t (.refl t)
  rwa [h] at hkeeps

theorem extends_of_makeParent {path : Text} {u : Except FileError Unit}
    (h : fileSystem.makeParent path t = (u, t')) : t.Extends t' := by
  rw [FileSystem.makeParent] at h
  cases hparent : FilePath.parent? path with
  | none =>
    rw [hparent] at h
    obtain ⟨-, rfl⟩ := Prod.mk.inj h
    exact .refl t
  | some parent =>
    rw [hparent] at h
    exact extends_of_makeDirectories h

/-- At each place there is what was there, or a directory where nothing was. -/
theorem Extends.node?_cases (h : t.Extends t') (q : List Text) :
    t'.node? q = t.node? q ∨ t.node? q = none ∧ t'.node? q = some .directory := by
  have hfile : t'.file? q = t.file? q := congrFun h.file?_eq q
  rw [file?, file?] at hfile
  cases hq : t.node? q with
  | none =>
    rw [hq] at hfile
    cases hq' : t'.node? q with
    | none => exact .inl rfl
    | some node =>
      cases node with
      | directory => exact .inr ⟨rfl, rfl⟩
      | file bytes =>
        rw [hq'] at hfile
        cases hfile
  | some node =>
    cases node with
    | directory => exact .inl (h.grows.directory q hq)
    | file bytes =>
      rw [hq] at hfile
      split at hfile
      · rename_i hq'
        rw [hq', Option.some.inj hfile]
        exact .inl rfl
      · cases hfile

/-! ## What a path goes through -/

/-- Names lead to the same in trees that are the same at the places that they lead through. -/
theorem walk_congr (hdot : ['.'] ∉ names)
    (h : ∀ found, found <+: names → t'.node? (follow place found) = t.node? (follow place found)) :
    t'.walk place names = t.walk place names := by
  induction names generalizing place with
  | nil => rfl
  | cons name names ih =>
    rw [List.mem_cons, not_or] at hdot
    obtain ⟨hname, hnames⟩ := hdot
    have hrest : t'.walk (FilePath.advance place name) names =
        t.walk (FilePath.advance place name) names :=
      ih hnames fun found hfound => h (name :: found) ((List.prefix_cons_inj name).2 hfound)
    rw [FilePath.advance] at hrest
    rw [walk, walk, if_neg (Ne.symm hname), if_neg (Ne.symm hname)]
    by_cases hdots : name = ['.', '.']
    · rw [if_pos hdots] at hrest
      rw [if_pos hdots, if_pos hdots, hrest]
    · have hnode := h [name] ⟨names, rfl⟩
      rw [follow, List.foldl_cons, List.foldl_nil, FilePath.advance, if_neg hdots] at hnode
      rw [if_neg hdots] at hrest
      rw [if_neg hdots, if_neg hdots, hnode, hrest]

/-- A text that can be no path is found in no tree, and for the same reason in all of them. -/
theorem locate_of_not_isPath (h : ¬ IsPath path) :
    ∃ e, (path ≠ [] → e ≠ .notFound) ∧ ∀ t : Tree, t.locate path = .error e := by
  by_cases hnul : path.contains '\x00' = true
  · exact ⟨.nulByte, by simp, fun t => by rw [locate, if_pos hnul]; rfl⟩
  · by_cases hne : path = []
    · exact ⟨.notFound, absurd hne, fun t => by rw [locate, if_neg hnul, if_pos hne]; rfl⟩
    · by_cases hsize : maxPath < path.size
      · exact ⟨.nameTooLong, by simp, fun t => by
          rw [locate, if_neg hnul, if_neg hne, if_pos hsize]; rfl⟩
      · exact absurd ⟨by simpa using hnul, hne, Nat.not_lt.1 hsize⟩ h

section

variable (hcwd : t'.cwd = t.cwd) (h : ∀ q, t.OnWay path q → t'.node? q = t.node? q)

include hcwd h

theorem walk_steps_congr {init : List Text} (hinit : init <+: steps path) :
    t'.walk (t'.start path) init = t.walk (t.start path) init := by
  rw [start_congr hcwd]
  refine walk_congr (fun hmem => ?_) fun found hfound => h _ ⟨found, hfound.trans hinit, rfl⟩
  exact (FilePath.of_mem_steps (hinit.subset hmem)).2.1 rfl

theorem locate_congr : t'.locate path = t.locate path := by
  by_cases hpath : IsPath path
  · obtain hlocate | ⟨init, name, hends, hlocate⟩ := locate_cases hpath
    · rw [hlocate, hlocate, walk_steps_congr hcwd h (List.prefix_refl _)]
    · rw [hlocate, hlocate, walk_steps_congr hcwd h ⟨[name], hends.steps_eq.symm⟩]
  · obtain ⟨e, -, he⟩ := locate_of_not_isPath hpath
    rw [he, he]

theorem find_congr : t'.find path = t.find path := by
  rw [find, find, locate_congr hcwd h]
  cases hlocate : t.locate path with
  | error e => rfl
  | ok location =>
    cases location with
    | directory q => rfl
    | entry q name slash =>
      have hnode := h _ (t.onWay_placeOf path)
      rw [(placeOf_of_entry hlocate).1] at hnode
      simp only [bind, Except.bind, hnode]

end

/-- What a directory's path goes through are directories. -/
theorem directory_of_onWay (hsound : t.Sound) (hdir : t.isDirectory path = true)
    (h : t.OnWay path q) : t.node? q = some .directory := by
  obtain ⟨found, hfound, rfl⟩ := h
  obtain ⟨-, hwalk⟩ := walk_of_find (find_of_isDirectory hdir)
  obtain ⟨more, hsteps⟩ := id hfound
  rw [← hsteps, walk_append] at hwalk
  cases hplace : t.walk (t.start path) found with
  | error e =>
    rw [hplace] at hwalk
    cases hwalk
  | ok place =>
    have hdirectory := hsound.closed.walk (hsound.start path) hplace
    rwa [eq_follow_of_walk hplace, FilePath.filter_of_isPrefix hfound] at hdirectory

end TexBundle.Tree
