import TexBundle.Proofs.Path

/-!
# Paths that leave the root

A path is a walk along its segments: a name goes down by one directory, and a `..` goes up.

* `Path.Leaves`: at some point the walk has gone up more often than down;
* `Path.foldl_push_eq`: the canonical form has a `..` for each directory that the walk goes above
  the root, and then names only;
* `Path.startsAbove_canonical_iff`: so it starts with `..` exactly if the walk leaves the root.
-/

namespace TexBundle.Path

open Text

instance (seg : Text) : Decidable (IsName seg) := inferInstanceAs (Decidable (_ ∧ _))

/-- The segment that means the directory above. -/
def parent : Text := ['.', '.']

/-- How often a walk goes down, and how often it goes up. -/
def names (walk : List Text) : Nat := walk.countP (IsName ·)

def parents (walk : List Text) : Nat := walk.count parent

/-- At some point a path has gone up more often than down. -/
def Leaves (path : Text) : Prop := ∃ walk, walk <+: segments path ∧ names walk < parents walk

instance (path : Text) : Decidable (Leaves path) :=
  decidable_of_iff (∃ walk ∈ (segments path).inits, names walk < parents walk)
    (by simp only [Leaves, List.mem_inits])

/-- The first segment is `..`. -/
def StartsAbove (path : Text) : Prop := (segments path).head? = some parent

instance (path : Text) : Decidable (StartsAbove path) := inferInstanceAs (Decidable (_ = _))

/-- A path that starts with `..` leaves the root at once. -/
theorem StartsAbove.leaves {path : Text} (h : StartsAbove path) : Leaves path := by
  obtain ⟨segs, hsegs⟩ := List.head?_eq_some_iff.1 h
  exact ⟨[parent], hsegs ▸ ⟨segs, rfl⟩, by decide⟩

/-! ## Segments -/

theorem not_slash_of_mem_segments {path seg : Text} (h : seg ∈ segments path) : '/' ∉ seg :=
  fun hc => by simpa using not_of_mem_splitBy h hc

theorem segments_ofSegments {segs : List Text} (hne : segs ≠ []) (h : ∀ seg ∈ segs, '/' ∉ seg) :
    segments (ofSegments segs) = segs := by
  rw [segments, splitBy_eq_splitOnP]
  exact List.splitOn_intercalate '/' h hne

/-! ## The canonical form -/

theorem push_of_not_isName {seg : Text} (h : ¬ IsName seg) (hp : seg ≠ parent) (done : List Text) :
    push done seg = done := by
  have : seg = [] ∨ seg = ['.'] := by
    by_contra hn
    exact h ⟨fun e => hn (.inl e), fun e => hn (.inr e), hp⟩
  unfold push
  exact if_pos this

theorem push_parent_cons {name : Text} (h : IsName name) (done : List Text) :
    push (name :: done) parent = done := by
  have hne : ¬ name = ['.', '.'] := h.2.2
  simp [push, parent, hne]

theorem push_parent_replicate (up : Nat) :
    push (List.replicate up parent) parent = List.replicate (up + 1) parent := by
  cases up with
  | zero => rfl
  | succ up => simp [push, parent, List.replicate_succ]

theorem names_concat (walk : List Text) (seg : Text) :
    names (walk ++ [seg]) = names walk + if IsName seg then 1 else 0 := by
  simp [names, List.countP_append, List.countP_cons]

theorem parents_concat (walk : List Text) (seg : Text) :
    parents (walk ++ [seg]) = parents walk + if seg = parent then 1 else 0 := by
  simp [parents, List.count_append, List.count_cons]

/-- A prefix of a longer walk is one of the walk before, or all of it. -/
theorem exists_prefix_concat_iff {p : List Text → Prop} {walk : List Text} {seg : Text} :
    (∃ w, w <+: walk ++ [seg] ∧ p w) ↔ (∃ w, w <+: walk ∧ p w) ∨ p (walk ++ [seg]) := by
  constructor
  · rintro ⟨w, hpre, hw⟩
    rcases List.prefix_concat_iff.1 hpre with rfl | hpre
    · exact .inr hw
    · exact .inl ⟨w, hpre, hw⟩
  · rintro (⟨w, hpre, hw⟩ | hw)
    · exact ⟨w, hpre.trans (List.prefix_append walk [seg]), hw⟩
    · exact ⟨_, List.prefix_refl _, hw⟩

/-- What has been pushed are names on top of the `..` that are kept. The names are what is left of
the way down, and a `..` is kept exactly if the walk has been above its start. -/
theorem foldl_push_eq (segs : List Text) :
    ∃ down up, segs.foldl push [] = down ++ List.replicate up parent ∧
      (∀ name ∈ down, IsName name) ∧
      down.length + parents segs = names segs + up ∧
      (0 < up ↔ ∃ walk, walk <+: segs ∧ names walk < parents walk) := by
  induction segs using List.reverseRecOn with
  | nil => exact ⟨[], 0, rfl, by simp, rfl, by simp [names, parents]⟩
  | append_singleton segs seg ih =>
    obtain ⟨down, up, hpush, hnames, hbalance, hup⟩ := ih
    rw [List.foldl_append, List.foldl_cons, List.foldl_nil, hpush, exists_prefix_concat_iff, ← hup,
      names_concat, parents_concat]
    by_cases hname : IsName seg
    · have hne : seg ≠ parent := hname.2.2
      rw [if_pos hname, if_neg hne, push_of_isName hname]
      refine ⟨seg :: down, up, rfl, ?_, ?_, ?_⟩
      · simpa [hname] using hnames
      · simp only [List.length_cons]
        omega
      · omega
    · rw [if_neg hname]
      by_cases hpar : seg = parent
      · subst hpar
        rw [if_pos rfl]
        cases down with
        | nil =>
          refine ⟨[], up + 1, push_parent_replicate up, by simp, ?_, ?_⟩
          · simp only [List.length_nil] at *
            omega
          · simp only [List.length_nil] at *
            omega
        | cons name down =>
          refine ⟨down, up, push_parent_cons (hnames name List.mem_cons_self) _,
            fun n hn => hnames n (List.mem_cons_of_mem _ hn), ?_, ?_⟩
          · simp only [List.length_cons] at *
            omega
          · simp only [List.length_cons] at *
            omega
      · rw [if_neg hpar, push_of_not_isName hname hpar]
        exact ⟨down, up, rfl, hnames, hbalance, by omega⟩

theorem mem_push {done : List Text} {seg s : Text} (h : s ∈ push done seg) :
    s ∈ done ∨ s = seg := by
  unfold push at h
  split at h
  · exact .inl h
  · split at h
    · split at h
      · split at h
        · rcases List.mem_cons.1 h with rfl | h
          · exact .inr rfl
          · exact .inl h
        · exact .inl (List.mem_cons_of_mem _ h)
      · exact .inr (List.mem_singleton.1 h)
    · rcases List.mem_cons.1 h with rfl | h
      · exact .inr rfl
      · exact .inl h

theorem mem_foldl_push {segs done : List Text} {s : Text} (h : s ∈ segs.foldl push done) :
    s ∈ done ∨ s ∈ segs := by
  induction segs generalizing done with
  | nil => exact .inl h
  | cons seg segs ih =>
    rcases ih h with h | h
    · rcases mem_push h with h | rfl
      · exact .inl h
      · exact .inr List.mem_cons_self
    · exact .inr (List.mem_cons_of_mem _ h)

/-- The canonical form starts with `..` exactly if the path leaves the root. -/
theorem startsAbove_canonical_iff (path : Text) : StartsAbove (canonical path) ↔ Leaves path := by
  obtain ⟨down, up, hpush, hnames, -, hup⟩ := foldl_push_eq (segments path)
  have hslash : ∀ seg ∈ (segments path).foldl push [], '/' ∉ seg := fun seg hseg =>
    not_slash_of_mem_segments ((mem_foldl_push hseg).resolve_left List.not_mem_nil)
  rw [Leaves, ← hup, StartsAbove, canonical]
  rw [hpush] at hslash ⊢
  have hsegs (hne : down ++ List.replicate up parent ≠ []) :
      segments (ofSegments (down ++ List.replicate up parent).reverse) =
        (down ++ List.replicate up parent).reverse :=
    segments_ofSegments (fun e => hne (List.reverse_eq_nil_iff.1 e))
      fun seg hseg => hslash seg (List.mem_reverse.1 hseg)
  cases up with
  | zero =>
    -- What comes first is a name, or there is nothing.
    refine iff_of_false (fun h => ?_) (Nat.lt_irrefl 0)
    cases down with
    | nil => exact absurd h (by decide)
    | cons name down =>
      rw [hsegs (by simp), List.head?_reverse] at h
      have hmem : parent ∈ name :: down := by simpa using List.mem_of_getLast? h
      exact (hnames parent hmem).2.2 rfl
  | succ up =>
    refine iff_of_true ?_ (Nat.succ_pos up)
    rw [hsegs (by simp), List.reverse_append, List.reverse_replicate, List.replicate_succ]
    rfl

end TexBundle.Path
