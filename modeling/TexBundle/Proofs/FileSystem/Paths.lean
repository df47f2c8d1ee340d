import TexBundle.FileSystem.Basic
import TexBundle.Proofs.Path.Climbing

/-!
# Names in file paths

The steps of a path are its names without those that stay where they are. Following a path means
following its steps.

* `FilePath.steps_join`: joining two paths puts their steps together;
* `FilePath.upTo_isPrefix`: the paths that another one lies in are beginnings of its text;
* `FilePath.names_upTo`, `FilePath.steps_upTo`: they have its first names and steps;
* `FilePath.getLast?_segments_upTo`: nothing follows the last of these names.
-/

namespace TexBundle

theorem Text.size_le_of_isPrefix {s t : Text} (h : s <+: t) : s.size ≤ t.size := by
  obtain ⟨more, rfl⟩ := h
  rw [size_append]
  exact Nat.le_add_right ..

theorem Text.splitBy_congr {p q : Char → Bool} {t : Text} (h : ∀ c ∈ t, p c = q c) :
    t.splitBy p = t.splitBy q := by
  induction t with
  | nil => rfl
  | cons c t ih =>
    obtain ⟨hc, ht⟩ := List.forall_mem_cons.1 h
    rw [splitBy, splitBy, hc, ih ht]

namespace Path

theorem ofSegments_segments (path : Text) : ofSegments (segments path) = path := by
  rw [ofSegments, segments, Text.splitBy_eq_splitOnP]
  exact List.intercalate_splitOn '/'

theorem segments_slash (path : Text) : segments ('/' :: path) = [] :: segments path :=
  segments_append_cons [] path

theorem isAbsolute_eq_false {path : Text} (h : [] ∉ segments path) : isAbsolute path = false := by
  cases path with
  | nil => rfl
  | cons c path =>
    refine beq_false_of_ne fun e => h ?_
    obtain rfl : c = '/' := Option.some.inj e
    exact segments_slash path ▸ List.mem_cons_self

theorem ofSegments_cons {seg : Text} {segs : List Text} (h : segs ≠ []) :
    ofSegments (seg :: segs) = seg ++ '/' :: ofSegments segs := by
  cases segs with
  | nil => exact absurd rfl h
  | cons next segs => simp [ofSegments, List.intercalate_cons_cons]

theorem ofSegments_append {segs more : List Text} (h : segs ≠ []) (hmore : more ≠ []) :
    ofSegments (segs ++ more) = ofSegments segs ++ '/' :: ofSegments more := by
  induction segs with
  | nil => exact absurd rfl h
  | cons seg segs ih =>
    by_cases hsegs : segs = []
    · rw [hsegs, List.singleton_append, ofSegments_cons hmore, show ofSegments [seg] = seg by
        simp [ofSegments]]
    · rw [List.cons_append, ofSegments_cons (by simp [hsegs]), ih hsegs, ofSegments_cons hsegs,
        List.append_assoc, List.cons_append]

/-- The first segments of a path make a beginning of it. -/
theorem ofSegments_isPrefix {segs segs' : List Text} (h : segs' <+: segs) :
    ofSegments segs' <+: ofSegments segs := by
  obtain ⟨more, rfl⟩ := h
  by_cases hsegs : segs' = []
  · rw [hsegs]
    exact List.nil_prefix
  · by_cases hmore : more = []
    · rw [hmore, List.append_nil]
    · rw [ofSegments_append hsegs hmore]
      exact List.prefix_append ..

/-- A path that has all segments of another one, and more, continues it behind a slash. -/
theorem isPrefix_of_segments_isPrefix {path path' : Text} (h : segments path <+: segments path')
    (hne : segments path ≠ segments path') : path ++ ['/'] <+: path' := by
  obtain ⟨more, hmore⟩ := h
  have hmorene : more ≠ [] := fun e => hne (by rw [← hmore, e, List.append_nil])
  have hsegments : segments path ≠ [] := Text.splitBy_ne_nil _ path
  have hpath := ofSegments_append hsegments hmorene
  rw [hmore, ofSegments_segments, ofSegments_segments] at hpath
  exact ⟨ofSegments more, by rw [hpath, List.append_assoc, List.singleton_append]⟩

end Path

namespace FilePath

open TexBundle.Path (segments ofSegments isAbsolute)

/-- The names of a path without those that stay where they are. -/
def steps (path : Text) : List Text :=
  (segments path).filter fun name => name ≠ [] ∧ name ≠ ['.']

theorem of_mem_steps {path name : Text} (h : name ∈ steps path) :
    name ≠ [] ∧ name ≠ ['.'] ∧ '/' ∉ name := by
  obtain ⟨hmem, hne⟩ := List.mem_filter.1 h
  obtain ⟨hempty, hdot⟩ := of_decide_eq_true hne
  exact ⟨hempty, hdot, Path.not_slash_of_mem_segments hmem⟩

theorem filter_and (names : List Text) :
    (names.filter fun name => name ≠ [] ∧ name ≠ ['.']) =
      (names.filter (· ≠ [])).filter (· ≠ ['.']) := by
  rw [List.filter_filter]
  congr 1
  funext name
  simp [Bool.and_comm]

theorem names_eq (path : Text) :
    names path =
      if (segments path).head? = some ['.'] then ['.'] :: steps path else steps path := rfl

theorem names_cases (path : Text) : names path = steps path ∨ names path = ['.'] :: steps path := by
  rw [names_eq]
  split
  · exact .inr rfl
  · exact .inl rfl

/-- The names are the steps, perhaps behind one that stays where it is. -/
theorem exists_names_eq (path : Text) :
    ∃ lead, names path = lead ++ steps path ∧ lead.filter (· ≠ ['.']) = [] := by
  obtain h | h := names_cases path
  · exact ⟨[], h, rfl⟩
  · exact ⟨[['.']], h, by simp⟩

theorem filter_of_isPrefix {path : Text} {found : List Text} (h : found <+: steps path) :
    found.filter (· ≠ ['.']) = found :=
  List.filter_eq_self.2 fun name hname => by simpa using (of_mem_steps (h.subset hname)).2.1

theorem filter_steps (path : Text) : (steps path).filter (· ≠ ['.']) = steps path :=
  filter_of_isPrefix (List.prefix_refl _)

theorem filter_names (path : Text) : (FilePath.names path).filter (· ≠ ['.']) = steps path := by
  obtain ⟨lead, hnames, hlead⟩ := exists_names_eq path
  rw [hnames, List.filter_append, hlead, filter_steps, List.nil_append]

/-- Slashes in front are no steps. -/
theorem steps_dropSlashes (path : Text) : steps (Path.dropSlashes path) = steps path := by
  induction path with
  | nil => rfl
  | cons c path ih =>
    cases hc : isAbsolute (c :: path) with
    | true =>
      obtain rfl : c = '/' := Option.some.inj (eq_of_beq hc)
      have hsteps : steps ('/' :: path) = steps path := by
        rw [steps, Path.segments_slash]
        rfl
      exact ih.trans hsteps.symm
    | false => rw [Path.dropSlashes_eq_self hc]

/-! ## Joining -/

/-- An empty segment behind the base, after its last slash, is not kept. -/
theorem segments_join {path : Text} (h : isAbsolute path = false) (base : Text) :
    ∃ segs, segments (join base path) = segs ++ segments path ∧
      (segments base = segs ∨ segments base = segs ++ [[]]) := by
  rw [join, h]
  simp only [Bool.false_eq_true, false_or]
  split
  · subst base
    exact ⟨[], rfl, .inr rfl⟩
  · split
    · rename_i hlast
      obtain ⟨init, rfl⟩ := List.getLast?_eq_some_iff.1 hlast
      refine ⟨segments init, ?_, .inr (Path.segments_append_cons init [])⟩
      rw [List.append_assoc, List.singleton_append, Path.segments_append_cons]
    · exact ⟨segments base, Path.segments_append_cons base path, .inl rfl⟩

theorem mem_join {base path : Text} {c : Char} (h : c ∈ join base path) :
    c ∈ base ∨ c = '/' ∨ c ∈ path := by
  rw [join] at h
  split at h
  · exact .inr (.inr h)
  · split at h
    · exact (List.mem_append.1 h).imp_right .inr
    · exact (List.mem_append.1 h).imp_right List.mem_cons.1

theorem isSuffix_join (base path : Text) : path <:+ join base path := by
  rw [join]
  split_ifs
  · exact List.suffix_refl path
  · exact ⟨base, rfl⟩
  · exact ⟨base ++ ['/'], by simp⟩

theorem isPrefix_join {path : Text} (h : Path.isAbsolute path = false) (base : Text) :
    base <+: join base path := by
  rw [join, h]
  simp only [Bool.false_eq_true, false_or]
  split_ifs with hbase
  · rw [hbase]
    exact List.nil_prefix
  · exact List.prefix_append ..
  · exact List.prefix_append ..

theorem steps_join {path : Text} (h : isAbsolute path = false) (base : Text) :
    steps (join base path) = steps base ++ steps path := by
  obtain ⟨segs, hsegs, hbase⟩ := segments_join h base
  have hsteps : steps base = segs.filter fun name => name ≠ [] ∧ name ≠ ['.'] := by
    obtain hbase | hbase := hbase <;> simp [steps, hbase]
  rw [steps, hsegs, List.filter_append, hsteps]
  rfl

theorem getLast?_segments_join {path : Text} (h : isAbsolute path = false) (base : Text) :
    (segments (join base path)).getLast? = (segments path).getLast? := by
  obtain ⟨segs, hsegs, -⟩ := segments_join h base
  rw [hsegs, List.getLast?_append, Path.getLast?_segments]
  rfl

theorem isAbsolute_join {path : Text} (h : isAbsolute path = false) (base : Text) :
    isAbsolute (join base path) = isAbsolute base := by
  rw [join, h]
  cases base with
  | nil => exact h
  | cons c base =>
    simp only [Bool.false_eq_true, false_or, reduceCtorEq, if_false]
    split <;> rfl

/-! ## The paths that a path lies in -/

section Counted

variable {counts : Text → Bool} {segs segs' : List Text} {n : Nat}

@[simp] theorem takeCounted_zero (segs : List Text) : takeCounted counts 0 segs = [] := by
  rw [takeCounted]

@[simp] theorem takeCounted_nil (n : Nat) : takeCounted counts n [] = [] := by
  cases n <;> rw [takeCounted]

theorem takeCounted_isPrefix (n : Nat) (segs : List Text) : takeCounted counts n segs <+: segs := by
  induction segs generalizing n with
  | nil => rw [takeCounted_nil]
  | cons seg segs ih =>
    cases n with
    | zero =>
      rw [takeCounted_zero]
      exact List.nil_prefix
    | succ n =>
      rw [takeCounted]
      exact (List.prefix_cons_inj seg).2 (ih _)

/-- As many of them count as are asked for. -/
theorem filter_takeCounted (n : Nat) (segs : List Text) :
    (takeCounted counts n segs).filter counts = (segs.filter counts).take n := by
  induction segs generalizing n with
  | nil => simp
  | cons seg segs ih =>
    cases n with
    | zero => simp
    | succ n =>
      rw [takeCounted, List.filter_cons, List.filter_cons, ih]
      split <;> simp

theorem takeCounted_takeCounted (n k : Nat) (segs : List Text) :
    takeCounted counts k (takeCounted counts n segs) = takeCounted counts (min k n) segs := by
  induction segs generalizing n k with
  | nil => simp
  | cons seg segs ih =>
    cases k with
    | zero => simp
    | succ k =>
      cases n with
      | zero => simp
      | succ n =>
        rw [Nat.add_min_add_right, takeCounted, takeCounted, takeCounted, ih]
        split
        · rfl
        · rw [Nat.add_min_add_right]

/-- The last one counts, if there are enough of them. -/
theorem getLast?_takeCounted (h : n < (segs.filter counts).length) :
    (takeCounted counts (n + 1) segs).getLast? =
      ((segs.filter counts).take (n + 1)).getLast? := by
  induction segs generalizing n with
  | nil => cases h
  | cons seg segs ih =>
    rw [takeCounted, List.getLast?_cons]
    cases hcounts : counts seg with
    | true =>
      rw [List.filter_cons_of_pos hcounts, List.length_cons] at h
      rw [List.filter_cons_of_pos hcounts, List.take_succ_cons, List.getLast?_cons, if_pos rfl]
      cases n with
      | zero => simp
      | succ n => rw [ih (Nat.lt_of_succ_lt_succ h)]
    | false =>
      rw [List.filter_cons_of_neg (by simp [hcounts])] at h ⊢
      have hne : (segs.filter counts).take (n + 1) ≠ [] :=
        List.ne_nil_of_length_pos (by rw [List.length_take]; omega)
      rw [if_neg Bool.false_ne_true, ih h, List.getLast?_eq_some_getLast hne, Option.getD_some]

/-- Those behind the last one that is asked for do not matter. -/
theorem takeCounted_of_isPrefix (h : segs <+: segs') (hn : n ≤ (segs.filter counts).length) :
    takeCounted counts n segs' = takeCounted counts n segs := by
  obtain ⟨more, rfl⟩ := h
  induction segs generalizing n with
  | nil =>
    obtain rfl := Nat.le_zero.1 hn
    simp
  | cons seg segs ih =>
    cases n with
    | zero => simp
    | succ n =>
      rw [List.cons_append, takeCounted, takeCounted, ih]
      rw [List.filter_cons] at hn
      split_ifs at hn ⊢ with hcounts
      · exact Nat.le_of_succ_le_succ hn
      · exact hn

end Counted

/-! The first segment counts where it is a `.`, and else all is as for the segments behind it. -/

section Names

variable {segs segs' : List Text} {n : Nat}

theorem namesIn_dot (segs : List Text) : namesIn (['.'] :: segs) =
    ['.'] :: segs.filter fun name => name ≠ [] ∧ name ≠ ['.'] := rfl

theorem namesIn_of_head? (h : segs.head? ≠ some ['.']) :
    namesIn segs = segs.filter fun name => name ≠ [] ∧ name ≠ ['.'] := if_neg h

theorem takeNames_dot (segs : List Text) (n : Nat) : takeNames (['.'] :: segs) n =
    ['.'] :: takeCounted (fun name => name ≠ [] ∧ name ≠ ['.']) n segs := rfl

theorem takeNames_of_head? (h : segs.head? ≠ some ['.']) (n : Nat) :
    takeNames segs n = takeCounted (fun name => name ≠ [] ∧ name ≠ ['.']) (n + 1) segs := if_neg h

theorem head?_cases (segs : List Text) :
    (∃ more, segs = ['.'] :: more) ∨ segs.head? ≠ some ['.'] := by
  by_cases h : segs.head? = some ['.']
  · exact .inl (List.head?_eq_some_iff.1 h)
  · exact .inr h

theorem takeNames_isPrefix (segs : List Text) (n : Nat) : takeNames segs n <+: segs := by
  obtain ⟨more, rfl⟩ | h := head?_cases segs
  · exact (List.prefix_cons_inj _).2 (takeCounted_isPrefix n more)
  · rw [takeNames_of_head? h]
    exact takeCounted_isPrefix _ segs

theorem head?_takeNames (segs : List Text) (n : Nat) : (takeNames segs n).head? = segs.head? := by
  obtain ⟨more, rfl⟩ | h := head?_cases segs
  · rfl
  · rw [takeNames_of_head? h]
    cases segs with
    | nil => rfl
    | cons seg segs => rw [takeCounted, List.head?_cons, List.head?_cons]

theorem namesIn_takeNames (segs : List Text) (n : Nat) :
    namesIn (takeNames segs n) = (namesIn segs).take (n + 1) := by
  obtain ⟨more, rfl⟩ | h := head?_cases segs
  · rw [takeNames_dot, namesIn_dot, namesIn_dot, filter_takeCounted, List.take_succ_cons]
  · rw [namesIn_of_head? ((head?_takeNames segs n).symm ▸ h), takeNames_of_head? h,
      namesIn_of_head? h, filter_takeCounted]

theorem takeNames_takeNames (segs : List Text) (n k : Nat) :
    takeNames (takeNames segs n) k = takeNames segs (min k n) := by
  obtain ⟨more, rfl⟩ | h := head?_cases segs
  · rw [takeNames_dot, takeNames_dot, takeNames_dot, takeCounted_takeCounted]
  · rw [takeNames_of_head? ((head?_takeNames segs n).symm ▸ h), takeNames_of_head? h,
      takeNames_of_head? h, takeCounted_takeCounted, Nat.add_min_add_right]

theorem getLast?_takeNames (h : n < (namesIn segs).length) :
    (takeNames segs n).getLast? = ((namesIn segs).take (n + 1)).getLast? := by
  obtain ⟨more, rfl⟩ | hhead := head?_cases segs
  · rw [namesIn_dot] at h ⊢
    rw [takeNames_dot, List.take_succ_cons, List.getLast?_cons, List.getLast?_cons]
    cases n with
    | zero => simp
    | succ n => rw [getLast?_takeCounted (Nat.lt_of_succ_lt_succ h)]
  · rw [namesIn_of_head? hhead] at h ⊢
    rw [takeNames_of_head? hhead, getLast?_takeCounted h]

/-- What stands behind the last name that is asked for does not matter. -/
theorem takeNames_of_isPrefix (h : segs <+: segs') (hne : segs ≠ [])
    (hn : n < (namesIn segs).length) : takeNames segs' n = takeNames segs n := by
  obtain ⟨more, rfl⟩ | hhead := head?_cases segs
  · obtain ⟨rest, rfl⟩ := h
    exact congrArg (['.'] :: ·)
      (takeCounted_of_isPrefix (List.prefix_append more rest) (Nat.le_of_lt_succ hn))
  · have hhead' : segs'.head? ≠ some ['.'] := by
      obtain ⟨rest, rfl⟩ := h
      rwa [List.head?_append_of_ne_nil _ hne]
    rw [namesIn_of_head? hhead] at hn
    rw [takeNames_of_head? hhead', takeNames_of_head? hhead, takeCounted_of_isPrefix h hn]

end Names

/-- The segments that are kept are those of the shorter path. -/
theorem segments_upTo_succ (path : Text) (n : Nat) :
    segments (upTo path (n + 1)) = takeNames (segments path) n := by
  refine Path.segments_ofSegments ?_ fun seg hseg =>
    Path.not_slash_of_mem_segments ((takeNames_isPrefix _ n).subset hseg)
  rw [Ne, ← List.head?_eq_none_iff, head?_takeNames, List.head?_eq_none_iff]
  exact Text.splitBy_ne_nil _ path

/-- What a path lies in are beginnings of its text. -/
theorem upTo_isPrefix (path : Text) (n : Nat) : upTo path n <+: path := by
  cases n with
  | zero =>
    rw [upTo]
    split
    · rename_i h
      obtain ⟨rest, rfl⟩ := List.head?_eq_some_iff.1 (eq_of_beq h)
      exact (List.prefix_cons_inj _).2 List.nil_prefix
    · exact List.nil_prefix
  | succ n =>
    have hprefix := Path.ofSegments_isPrefix (takeNames_isPrefix (segments path) n)
    rwa [Path.ofSegments_segments] at hprefix

/-- What stands between two names is kept. -/
example : parent? "/a//./b/.//c//" = some "/a//./b" ∧ parent? ".//a" = some "." := by decide

theorem isAbsolute_upTo (path : Text) (n : Nat) : isAbsolute (upTo path n) = isAbsolute path := by
  cases habsolute : isAbsolute path with
  | false =>
    obtain ⟨rest, hrest⟩ := upTo_isPrefix path n
    cases hup : upTo path n with
    | nil => rfl
    | cons c up =>
      rw [hup] at hrest
      rwa [← hrest] at habsolute
  | true =>
    cases n with
    | zero =>
      rw [upTo, if_pos habsolute]
      rfl
    | succ n =>
      -- At least one segment is kept behind the empty one in front of the first slash.
      obtain ⟨rest, rfl⟩ := List.head?_eq_some_iff.1 (eq_of_beq habsolute)
      obtain ⟨seg, segs, hrest⟩ := List.exists_cons_of_ne_nil (Text.splitBy_ne_nil (· == '/') rest)
      rw [upTo, Path.segments_slash, segments, hrest, takeNames_of_head? (by simp), takeCounted,
        if_neg (by simp), takeCounted, Path.ofSegments_cons (List.cons_ne_nil _ _)]
      rfl

theorem names_upTo (path : Text) (n : Nat) : names (upTo path n) = (names path).take n := by
  cases n with
  | zero =>
    rw [upTo]
    split <;> rfl
  | succ n => rw [names, segments_upTo_succ, namesIn_takeNames, names]

theorem steps_upTo (path : Text) (n : Nat) :
    steps (upTo path n) = ((names path).take n).filter (· ≠ ['.']) := by
  rw [← filter_names, names_upTo]

theorem upTo_upTo (path : Text) (n k : Nat) : upTo (upTo path n) k = upTo path (min k n) := by
  cases k with
  | zero => rw [Nat.zero_min, upTo, upTo, isAbsolute_upTo]
  | succ k =>
    cases n with
    | zero =>
      rw [Nat.min_zero, upTo, upTo]
      split <;> rfl
    | succ n =>
      rw [Nat.add_min_add_right, upTo, segments_upTo_succ, takeNames_takeNames]
      rfl

/-- A path that another one lies in ends in a name. -/
theorem getLast?_segments_upTo {path : Text} {n : Nat} (h : (names path).take n ≠ [])
    (hn : n ≤ (names path).length) :
    (segments (upTo path n)).getLast? = ((names path).take n).getLast? := by
  cases n with
  | zero => exact absurd rfl h
  | succ n => rw [segments_upTo_succ, getLast?_takeNames hn, names]

end FilePath

end TexBundle
