import TexBundle.Proofs.FileSystem.Frames

/-!
# Making the directories that a path lies in

Directories are made from the longest path on that can be made, and then back to the whole one. If
that stops halfway, what has been made stays.

* `FilePath.ancestors_upTo`: the paths that are tried, one after the other;
* `Tree.exists_made`: some directory is made if names lead to nothing;
* `Tree.makeParent_ne_iff`: whether it works or not, something is made exactly if nothing is found
  where a path should lie.
-/

namespace TexBundle

namespace FilePath

open TexBundle.Path (segments isAbsolute)

variable {path : Text} {n : Nat}

/-- The paths that are tried for a directory, one after the other. -/
theorem ancestors_upTo (h : n ≤ (names path).length) :
    ancestors (upTo path n) = (List.range (n + 1)).reverse.map (upTo path) := by
  have hlength : (names (upTo path n)).length = n := by
    rw [names_upTo, List.length_take, Nat.min_eq_left h]
  rw [ancestors, hlength, List.range_succ, List.reverse_append, List.map_append]
  refine congrArg (upTo path n :: ·) (List.map_congr_left fun k hk => ?_)
  have hlt := List.mem_range.1 (List.mem_reverse.1 hk)
  rw [upTo_upTo, Nat.min_eq_left hlt.le]

/-- One name more is one step more, if there are steps at all. -/
theorem steps_upTo_succ (hn : n < (names path).length) (hne : steps (upTo path (n + 1)) ≠ []) :
    ∃ name, steps (upTo path (n + 1)) = steps (upTo path n) ++ [name] ∧
      ((segments (upTo path (n + 1))).filter (· ≠ [])).getLast? = some name := by
  have htake : (names path).take (n + 1) = (names path).take n ++ [(names path)[n]] :=
    List.take_succ_eq_append_getElem hn
  have htakene : (names path).take (n + 1) ≠ [] := by
    rw [htake]
    exact List.concat_ne_nil _ _
  obtain ⟨hempty, hdot⟩ : (names path)[n] ≠ [] ∧ (names path)[n] ≠ ['.'] := by
    obtain ⟨init, last, hsteps⟩ := (List.eq_nil_or_concat' _).resolve_left hne
    obtain ⟨lead, hnames, -⟩ := exists_names_eq (upTo path (n + 1))
    rw [names_upTo, htake, hsteps, ← List.append_assoc] at hnames
    obtain rfl := List.singleton_inj.1 (List.append_inj' hnames rfl).2
    obtain ⟨hempty, hdot, -⟩ := of_mem_steps (hsteps ▸ List.mem_concat_self)
    exact ⟨hempty, hdot⟩
  refine ⟨(names path)[n], ?_, ?_⟩
  · rw [steps_upTo, steps_upTo, htake, List.filter_append,
      List.filter_cons_of_pos (by simpa using hdot), List.filter_nil]
  · have hlast := getLast?_segments_upTo htakene hn
    rw [htake, List.getLast?_concat] at hlast
    obtain ⟨segs, hsegs⟩ := List.getLast?_eq_some_iff.1 hlast
    rw [hsegs, List.filter_append, List.filter_cons_of_pos (by simpa using hempty),
      List.filter_nil, List.getLast?_concat]

end FilePath

namespace Tree

open FilePath (steps upTo names)
open TexBundle.Path (segments)

variable {t t' : Tree} {path : Text} {init outer q : List Text} {name : Text} {n : Nat}

/-! ## Steps that lead to nothing -/

theorem walk_singleton_eq_notFound (hdot : name ≠ ['.']) (hdots : name ≠ ['.', '.'])
    (h : t.walk q [name] = .error .notFound) :
    ¬ maxName < name.size ∧ t.node? (q ++ [name]) = none := by
  rw [walk, if_neg hdot, if_neg hdots] at h
  split_ifs at h with hsize
  · cases h
  · refine ⟨hsize, ?_⟩
    split at h
    · assumption
    · cases h
    · cases h

/-- If the steps lead to nothing, the last one can be made, or the others lead to nothing. -/
theorem makeDirectory_of_walk (hpath : IsPath path) (hsteps : steps path = init ++ [name])
    (hlast : ((segments path).filter (· ≠ [])).getLast? = some name)
    (hwalk : t.walk (t.start path) (steps path) = .error .notFound) :
    (∃ t', t.makeDirectory path = .ok t') ∨
      t.makeDirectory path = .error .notFound ∧
        t.walk (t.start path) init = .error .notFound := by
  have hsplit := hwalk
  rw [hsteps, walk_append] at hsplit
  by_cases hdots : name = ['.', '.']
  · subst hdots
    refine .inr ⟨?_, ?_⟩
    · have hlocate := locate_of_no_name hpath (fun last h => .inr (Option.some.inj (h ▸ hlast))) t
      rw [makeDirectory, hlocate, hwalk]
      rfl
    · cases hinit : t.walk (t.start path) init with
      | error e =>
        rw [hinit] at hsplit
        exact hsplit
      | ok q =>
        rw [hinit] at hsplit
        simp [Except.bind, walk] at hsplit
  · have hends : Ends path init name := ⟨hsteps, hlast, hdots⟩
    cases hinit : t.walk (t.start path) init with
    | error e =>
      rw [hinit] at hsplit
      obtain rfl : e = .notFound := Except.error.inj hsplit
      refine .inr ⟨?_, rfl⟩
      rw [makeDirectory, hends.locate_eq hpath, hinit]
      rfl
    | ok q =>
      rw [hinit] at hsplit
      obtain ⟨hsize, hfree⟩ := walk_singleton_eq_notFound hends.isName.2.1 hdots hsplit
      refine .inl ⟨t.put (q ++ [name]) .directory, ?_⟩
      rw [makeDirectory, hends.locate_eq hpath, hinit]
      simp only [Except.map, bind, Except.bind, hsize, if_false, hfree]
      rfl

/-- If a path is not found, its steps lead to nothing. -/
theorem walk_of_find_notFound (hne : path ≠ []) (h : t.find path = .error .notFound) :
    IsPath path ∧ t.walk (t.start path) (steps path) = .error .notFound := by
  by_cases hpath : IsPath path
  · refine ⟨hpath, ?_⟩
    rw [find] at h
    obtain hlocate | ⟨init, name, hends, hlocate⟩ := locate_cases hpath
    · rw [hlocate] at h
      cases hwalk : t.walk (t.start path) (steps path) with
      | error e =>
        rw [hwalk] at h
        rw [Except.error.inj h]
      | ok q =>
        rw [hwalk] at h
        cases h
    · rw [hlocate] at h
      rw [hends.steps_eq, walk_append]
      cases hwalk : t.walk (t.start path) init with
      | error e =>
        rw [hwalk] at h
        rw [Except.error.inj h]
        rfl
      | ok q =>
        rw [hwalk] at h
        simp only [Except.map, bind, Except.bind] at h
        by_cases hsize : maxName < name.size
        · rw [if_pos hsize] at h
          cases h
        · rw [if_neg hsize] at h
          cases hnode : t.node? (q ++ [name]) with
          | none =>
            simp [Except.bind, walk, hends.isName.2.1, hends.ne_dots, Nat.not_lt.1 hsize, hnode]
          | some node =>
            rw [hnode] at h
            cases node with
            | directory => cases h
            | file bytes => split_ifs at h <;> cases h
  · obtain ⟨e, he, hlocate⟩ := locate_of_not_isPath hpath
    rw [find, hlocate] at h
    exact absurd (Except.error.inj h) (he hne)

/-- What can be made, or could be if it had a directory to lie in, is not found before. -/
theorem find_of_missing
    (h : (∃ t', t.makeDirectory path = .ok t') ∨ t.makeDirectory path = .error .notFound) :
    t.find path = .error .notFound := by
  obtain ⟨t', hmake⟩ | hmake := h
  · obtain ⟨q, name, slash, hlocate, hsize, hfree, -⟩ := locate_of_makeDirectory hmake
    rw [find, hlocate]
    simp only [bind, Except.bind, hsize, if_false, hfree]
    rfl
  · rw [makeDirectory] at hmake
    rw [find]
    cases hlocate : t.locate path with
    | error e =>
      rw [hlocate] at hmake
      obtain rfl : e = .notFound := Except.error.inj hmake
      rfl
    | ok location =>
      rw [hlocate] at hmake
      cases location with
      | directory q => cases hmake
      | entry q name slash =>
        simp only [bind, Except.bind] at hmake
        split_ifs at hmake <;> cases hmake

/-! ## What is made -/

/-- What has been made for a directory that was missing is kept. -/
theorem grows_makeFirst (hne : path ≠ []) (h : t.makeDirectory path = .error .notFound) :
    (fileSystem.makeFirst outer t).2.Grows (fileSystem.makeFirst (path :: outer) t).2 := by
  rw [FileSystem.makeFirst, if_neg hne]
  simp only [bind, StateT.bind, makeDirectory_run, change, h]
  obtain ⟨⟨result, t₁⟩, houter⟩ : ∃ x, fileSystem.makeFirst outer t = x := ⟨_, rfl⟩
  simp only [houter]
  cases result with
  | error e => exact .refl t₁
  | ok _ =>
    simp only [StateT.bind, bind, makeDirectory_run, change]
    cases hmake : t₁.makeDirectory path with
    | ok t₂ => exact (of_makeDirectory hmake).1.grows
    | error e => exact .refl t₁

/-- If nothing is missing, or it cannot be made, then nothing is made. -/
theorem makeFirst_of_found (h : t.find path ≠ .error .notFound) :
    (fileSystem.makeFirst (path :: outer) t).2 = t := by
  rw [FileSystem.makeFirst]
  split
  · rfl
  · simp only [bind, StateT.bind, makeDirectory_run, change]
    cases hmake : t.makeDirectory path with
    | ok t' => exact absurd (find_of_missing (.inl ⟨t', hmake⟩)) h
    | error e =>
      cases e with
      | notFound => exact absurd (find_of_missing (.inr hmake)) h
      | _ => rfl

/-- By induction on the names, of which the first that is missing is made. -/
theorem exists_made (hpath : IsPath (upTo path n)) (hn : n ≤ (names path).length)
    (hwalk : t.walk (t.start path) (steps (upTo path n)) = .error .notFound) :
    ∃ q, t.node? q = none ∧
      (fileSystem.makeFirst ((List.range (n + 1)).reverse.map (upTo path)) t).2.node? q =
        some .directory := by
  induction n with
  | zero =>
    rw [FilePath.steps_upTo] at hwalk
    cases hwalk
  | succ n ih =>
    have hne : steps (upTo path (n + 1)) ≠ [] := by
      intro hnil
      rw [hnil] at hwalk
      cases hwalk
    obtain ⟨name, hsteps, hlast⟩ := FilePath.steps_upTo_succ hn hne
    have hstart (k : Nat) : t.start (upTo path k) = t.start path := by
      rw [start, start, FilePath.isAbsolute_upTo]
    rw [List.range_succ, List.reverse_append, List.map_append]
    obtain ⟨t', hmake⟩ | ⟨hmake, hinit⟩ :=
      makeDirectory_of_walk hpath hsteps hlast ((hstart _).symm ▸ hwalk)
    · have hfirst : fileSystem.makeFirst (upTo path (n + 1) ::
          (List.range (n + 1)).reverse.map (upTo path)) t = (.ok (), t') :=
        makeFirst_of_ok hpath.ne_nil hmake
      obtain ⟨hputs, hfree⟩ := of_makeDirectory hmake
      refine ⟨_, hfree, ?_⟩
      rw [List.reverse_singleton, List.map_singleton, List.singleton_append, hfirst, hputs.node?_eq,
        if_pos rfl]
    · rw [hstart] at hinit
      have hshorter : upTo path n <+: upTo path (n + 1) := by
        have hprefix := FilePath.upTo_isPrefix (upTo path (n + 1)) n
        rwa [FilePath.upTo_upTo, Nat.min_eq_left (Nat.le_succ n)] at hprefix
      have hpath' : IsPath (upTo path n) := by
        refine hpath.of_isPrefix hshorter fun hnil => ?_
        rw [hnil] at hinit
        cases hinit
      obtain ⟨q, hfree, hmade⟩ := ih hpath' (Nat.le_of_succ_le hn) hinit
      exact ⟨q, hfree, (grows_makeFirst hpath.ne_nil hmake).directory q hmade⟩

/-- Whether it works or not, directories are made for a path exactly if the one that it lies in is
not found. It is found, in this sense, if a file is in its way, or if its path or a name in it are
such that there can be no directory. -/
theorem makeParent_ne_iff : (fileSystem.makeParent path t).2 ≠ t ↔
    ∃ dir, FilePath.parent? path = some dir ∧ dir ≠ [] ∧ t.find dir = .error .notFound := by
  rw [FileSystem.makeParent]
  constructor
  · intro hne
    cases hparent : FilePath.parent? path with
    | none =>
      rw [hparent] at hne
      exact absurd rfl hne
    | some dir =>
      rw [hparent] at hne
      refine ⟨dir, rfl, ?_, ?_⟩
      · rintro rfl
        exact hne rfl
      · by_contra hfind
        exact hne (makeFirst_of_found hfind)
  · rintro ⟨dir, hparent, hne, hfind⟩
    obtain ⟨hpath, hwalk⟩ := walk_of_find_notFound hne hfind
    rw [hparent]
    rw [FilePath.parent?] at hparent
    split at hparent
    · cases hparent
    · rename_i n hlength
      obtain rfl := Option.some.inj hparent
      have hle : n ≤ (names path).length := by omega
      rw [start, FilePath.isAbsolute_upTo] at hwalk
      obtain ⟨q, hfree, hmade⟩ := exists_made hpath hle hwalk
      show (fileSystem.makeFirst (FilePath.ancestors (upTo path n)) t).2 ≠ t
      intro e
      rw [FilePath.ancestors_upTo hle] at e
      rw [e, hfree] at hmade
      cases hmade

end Tree

end TexBundle
