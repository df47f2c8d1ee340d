import TexBundle.Proofs.FileSystem.Places

/-!
# Canonical paths

A path means where its steps lead, from each place. In a canonical path some `..` come first and
names follow, and no two canonical paths lead to the same places. So a law of the canonical form
holds as soon as both of its sides are canonical and lead to the same places.

* `IsCanonical`, `LeadsAlike`: the form, and paths that mean the same;
* `isCanonical_canonical`, `leadsAlike_canonical`: the canonical form has the form, and means the
  same;
* `IsCanonical.unique`: canonical paths that mean the same are the same;
* `canonical_compatible`: what follows for joined paths and for the targets of directives.
-/

namespace TexBundle.Path

open FilePath (steps follow advance follow_append follow_concat follow_eq_append of_mem_steps)

variable {path path' q q' a a' b b' : Text} {down segs : List Text} {up : Nat}

/-- Some `..`, and behind them names only. -/
def IsCanonical (path : Text) : Prop :=
  ∃ up down, path = ofSegments (List.replicate up parent ++ down) ∧
    ∀ name ∈ down, IsName name ∧ '/' ∉ name

/-- From each place, both paths lead to the same one. -/
def LeadsAlike (path path' : Text) : Prop :=
  ∀ place, follow place (steps path) = follow place (steps path')

theorem LeadsAlike.symm (h : LeadsAlike path path') : LeadsAlike path' path :=
  fun place => (h place).symm

theorem LeadsAlike.trans (h : LeadsAlike path path') (h' : LeadsAlike path' q) :
    LeadsAlike path q :=
  fun place => (h place).trans (h' place)

/-! ## Steps -/

theorem steps_append_cons (a b : Text) : steps (a ++ '/' :: b) = steps a ++ steps b := by
  rw [steps, segments_append_cons, List.filter_append]
  rfl

/-- A directory that is not given adds no steps. -/
theorem steps_behind (dir file : Text) :
    steps (if dir = [] then file else dir ++ '/' :: file) = steps dir ++ steps file := by
  split
  · subst dir
    rfl
  · exact steps_append_cons dir file

theorem LeadsAlike.append (h : steps path = steps a ++ steps b)
    (h' : steps path' = steps a' ++ steps b') (ha : LeadsAlike a a') (hb : LeadsAlike b b') :
    LeadsAlike path path' := by
  intro place
  rw [h, h', follow_append, follow_append, ha, hb]

/-- A path of names and `..` takes a step for each of them. -/
theorem steps_ofSegments (h : ∀ seg ∈ segs, (IsName seg ∨ seg = parent) ∧ '/' ∉ seg) :
    steps (ofSegments segs) = segs := by
  by_cases hsegs : segs = []
  · subst hsegs
    rfl
  · rw [steps, segments_ofSegments hsegs fun seg hseg => (h seg hseg).2, List.filter_eq_self]
    intro seg hseg
    rcases (h seg hseg).1 with hname | rfl
    · exact decide_eq_true ⟨hname.1, hname.2.1⟩
    · decide

/-! ## Where canonical paths lead -/

theorem length_follow_parents (place : List Text) (up : Nat) :
    (follow place (List.replicate up parent)).length = place.length - up := by
  induction up generalizing place with
  | zero => rfl
  | succ up ih =>
    have hstep : follow place (List.replicate (up + 1) parent) =
        follow place.dropLast (List.replicate up parent) := rfl
    rw [hstep, ih, List.length_dropLast]
    omega

theorem follow_canonical (hdown : ∀ name ∈ down, IsName name ∧ '/' ∉ name) (place : List Text) :
    follow place (steps (ofSegments (List.replicate up parent ++ down))) =
      follow place (List.replicate up parent) ++ down := by
  have hparent : parent ∉ down := fun hmem => (hdown parent hmem).1.2.2 rfl
  rw [steps_ofSegments, follow_append, follow_eq_append hparent]
  intro seg hseg
  rcases List.mem_append.1 hseg with hseg | hseg
  · obtain rfl := List.eq_of_mem_replicate hseg
    exact ⟨.inr rfl, by decide⟩
  · exact ⟨.inl (hdown seg hseg).1, (hdown seg hseg).2⟩

/-- From the root, only the names count. From a place that is deep enough, the length of the way
tells how many `..` there are. -/
theorem IsCanonical.unique (h : IsCanonical q) (h' : IsCanonical q') (halike : LeadsAlike q q') :
    q = q' := by
  obtain ⟨up, down, rfl, hdown⟩ := h
  obtain ⟨up', down', rfl, hdown'⟩ := h'
  have hfollow : ∀ place, follow place (List.replicate up parent) ++ down =
      follow place (List.replicate up' parent) ++ down' := by
    intro place
    rw [← follow_canonical hdown, ← follow_canonical hdown', halike]
  have hroot : ∀ n, follow [] (List.replicate n parent) = [] := by
    intro n
    rw [← List.length_eq_zero_iff, length_follow_parents, List.length_nil, Nat.zero_sub]
  have hnames : down = down' := by
    have hfrom := hfollow []
    rwa [hroot, hroot, List.nil_append, List.nil_append] at hfrom
  subst hnames
  have hup : up = up' := by
    have hfrom := congrArg List.length (hfollow (List.replicate (up + up') []))
    simp only [List.length_append, length_follow_parents, List.length_replicate] at hfrom
    omega
  rw [hup]

/-! ## The canonical form -/

theorem isCanonical_canonical (path : Text) : IsCanonical (canonical path) := by
  obtain ⟨down, up, hpush, hnames, -⟩ := foldl_push_eq (segments path)
  refine ⟨up, down.reverse, ?_, fun name hname => ?_⟩
  · rw [canonical, hpush, List.reverse_append, List.reverse_replicate]
  · have hdown : name ∈ down := List.mem_reverse.1 hname
    have hmem : name ∈ (segments path).foldl push [] := hpush ▸ List.mem_append_left _ hdown
    exact ⟨hnames name hdown,
      not_slash_of_mem_segments ((mem_foldl_push hmem).resolve_left List.not_mem_nil)⟩

/-- What is pushed takes back the last step by `..`, just as following it does. -/
theorem follow_push (done : List Text) (seg : Text) (place : List Text) :
    follow place (push done seg).reverse = follow (follow place done.reverse)
      ([seg].filter fun name => name ≠ [] ∧ name ≠ ['.']) := by
  by_cases hname : IsName seg
  · have hstep : ([seg].filter fun name => name ≠ [] ∧ name ≠ ['.']) = [seg] := by
      simp [hname.1, hname.2.1]
    rw [push_of_isName hname, List.reverse_cons, follow_append, hstep]
  by_cases hparent : seg = parent
  · subst hparent
    cases done with
    | nil => rfl
    | cons last done =>
      by_cases hlast : last = parent
      · subst hlast
        rw [show push (parent :: done) parent = parent :: parent :: done from rfl,
          List.reverse_cons, follow_append]
        rfl
      · have hpush : push (last :: done) parent = done := if_neg hlast
        rw [hpush, List.reverse_cons, follow_concat hlast]
        exact (List.dropLast_concat ..).symm
  · have hstep : ([seg].filter fun name => name ≠ [] ∧ name ≠ ['.']) = [] := by
      refine List.filter_eq_nil_iff.2 (List.forall_mem_singleton.2 fun hkept => ?_)
      obtain ⟨hempty, hdot⟩ := of_decide_eq_true hkept
      exact hname ⟨hempty, hdot, hparent⟩
    rw [push_of_not_isName hname hparent, hstep]
    rfl

theorem follow_foldl_push (segs place : List Text) :
    follow place (segs.foldl push []).reverse =
      follow place (segs.filter fun name => name ≠ [] ∧ name ≠ ['.']) := by
  induction segs using List.reverseRecOn with
  | nil => rfl
  | append_singleton segs seg ih =>
    rw [List.foldl_append, List.foldl_cons, List.foldl_nil, follow_push, ih, ← follow_append,
      List.filter_append]

theorem leadsAlike_canonical (path : Text) : LeadsAlike (canonical path) path := by
  intro place
  obtain ⟨down, up, hpush, hnames, -⟩ := foldl_push_eq (segments path)
  have hsegs : ∀ seg ∈ ((segments path).foldl push []).reverse,
      (IsName seg ∨ seg = parent) ∧ '/' ∉ seg := by
    intro seg hseg
    have hmem := List.mem_reverse.1 hseg
    refine ⟨?_, not_slash_of_mem_segments
      ((mem_foldl_push hmem).resolve_left List.not_mem_nil)⟩
    rw [hpush, List.mem_append] at hmem
    exact hmem.imp (hnames seg) List.eq_of_mem_replicate
  rw [canonical, steps_ofSegments hsegs, follow_foldl_push]
  rfl

/-- The canonical form of a path is the one canonical path that means the same. -/
theorem eq_canonical_iff : canonical path = q ↔ IsCanonical q ∧ LeadsAlike path q := by
  constructor
  · rintro rfl
    exact ⟨isCanonical_canonical path, (leadsAlike_canonical path).symm⟩
  · rintro ⟨hq, halike⟩
    exact (isCanonical_canonical path).unique hq ((leadsAlike_canonical path).trans halike)

example : canonical "./a//b/../../../c/" = "../c" := by decide

theorem canonical_congr (h : LeadsAlike path path') : canonical path = canonical path' :=
  eq_canonical_iff.2 ⟨isCanonical_canonical path', h.trans (leadsAlike_canonical path').symm⟩

/-! ## Joined paths -/

theorem canonical_append_cons (a b : Text) :
    canonical (a ++ '/' :: b) = canonical (canonical a ++ '/' :: canonical b) :=
  canonical_congr (.append (steps_append_cons a b) (steps_append_cons _ _)
    (leadsAlike_canonical a).symm (leadsAlike_canonical b).symm)

theorem isCanonical_target (dir raw : Text) : IsCanonical (target dir raw) := by
  rw [target]
  split
  · exact ⟨0, [], rfl, fun name hname => absurd hname List.not_mem_nil⟩
  · exact isCanonical_canonical _

theorem target_canonical (dir raw : Text) : target (canonical dir) raw = target dir raw := by
  rw [target, target]
  split
  · rfl
  · exact canonical_congr (.append (steps_behind _ _) (steps_behind _ _)
      (leadsAlike_canonical dir) fun _ => rfl)

/-- The canonical form of a path has some `..` in front and then names only, and it is the only such
path that leads to the same place as the path itself from everywhere. So it is its own canonical
form, and it makes no difference whether paths are brought into it before they are joined. The path
that a directive means is canonical, whatever the directory of the file, and depends on what that
directory means only. -/
theorem canonical_compatible (a b dir raw : Text) :
    (∀ q, canonical a = q ↔ IsCanonical q ∧ LeadsAlike a q) ∧
    IsCanonical (canonical a) ∧ canonical (canonical a) = canonical a ∧
    canonical (a ++ '/' :: b) = canonical (canonical a ++ '/' :: canonical b) ∧
    IsCanonical (target dir raw) ∧ target dir raw = target (canonical dir) raw :=
  ⟨fun _ => eq_canonical_iff, isCanonical_canonical a,
    canonical_congr (leadsAlike_canonical a), canonical_append_cons a b,
    isCanonical_target dir raw, (target_canonical dir raw).symm⟩

end TexBundle.Path
