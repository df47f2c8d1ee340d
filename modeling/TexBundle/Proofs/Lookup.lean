import TexBundle.Lookup
import TexBundle.Proofs.Bibliography.Printing
import TexBundle.Proofs.Text.Lowercase
import TexBundle.Proofs.Text.Order

/-!
# What a request means

What a request means is said of the list of paths as it is, with no table of lower-case forms and in
no order but that of the stored paths.

* `Means`: the path or the error that a request leads to, one case for each way it is decided;
* `mem_candidates_iff`: the run of candidates is all of them;
* `find_eq_iff_means`: the lookup finds what a request means.
-/

namespace TexBundle.Lookup

open Bibliography (firsts mem_firsts_iff eraseDupsBy_eq_firsts)

variable {preferred paths : List Text} {requested stem form w rest rest' ext p q : Text}
variable {known : List (Text × Text)} {r : Except BundleError Text}

/-! ## Meaning -/

/-- The first of the paths with a lower-case form. -/
def representative? (paths : List Text) (form : Text) : Option Text :=
  paths.find? fun p => Text.lowercase p == form

/-- `p` stands for the form of `w`, a dot and `rest`. -/
def Completes (paths : List Text) (w rest p : Text) : Prop :=
  representative? paths (w ++ '.' :: rest) = some p

/-- Some path completes `w` by the extension `ext`, in whatever case. -/
def HasExtension (paths : List Text) (w ext : Text) : Prop :=
  ∃ rest p, Completes paths w rest p ∧ Text.sameAscii rest ext = true

/-- A request that is no path's form and that an extension may complete. -/
structure Open (paths : List Text) (requested : Text) : Prop where
  climbs : Path.climbs requested = false
  nonempty : wanted requested ≠ []
  unlisted : representative? paths (wanted requested) = none
  bare : Path.hasExtension (wanted requested) = false

/-- What a request means in a list of paths, for a list of preferred extensions. -/
inductive Means (preferred paths : List Text) (requested : Text) : Except BundleError Text → Prop
  | climbs (h : Path.climbs requested = true) :
    Means preferred paths requested (.error (.traversal requested))
  | empty (h : Path.climbs requested = false) (hw : wanted requested = []) :
    Means preferred paths requested (.error (.fileNotFound requested))
  | listed {p : Text} (h : Path.climbs requested = false) (hw : wanted requested ≠ [])
    (hp : representative? paths (wanted requested) = some p) :
    Means preferred paths requested (.ok p)
  | extension (h : Path.climbs requested = false) (hw : wanted requested ≠ [])
    (hp : representative? paths (wanted requested) = none)
    (hext : Path.hasExtension (wanted requested) = true) :
    Means preferred paths requested (.error (.fileNotFound requested))
  | preferred {before after : List Text} {ext rest p : Text} (h : Open paths requested)
    (hsplit : preferred = before ++ ext :: after)
    (hbefore : ∀ e ∈ before, ¬HasExtension paths (wanted requested) e)
    (hp : Completes paths (wanted requested) rest p) (hext : Text.sameAscii rest ext = true) :
    Means preferred paths requested (.ok p)
  | least {rest p : Text} (h : Open paths requested)
    (hnone : ∀ e ∈ preferred, ¬HasExtension paths (wanted requested) e)
    (hp : Completes paths (wanted requested) rest p)
    (hleast : ∀ rest q, Completes paths (wanted requested) rest q → Text.le p q = true) :
    Means preferred paths requested (.ok p)
  | missing (h : Open paths requested)
    (hnone : ∀ rest p, ¬Completes paths (wanted requested) rest p) :
    Means preferred paths requested (.error (.fileNotFound requested))

theorem mem_of_representative? (h : representative? paths form = some p) : p ∈ paths :=
  List.mem_of_find?_eq_some h

theorem lowercase_of_representative? (h : representative? paths form = some p) :
    Text.lowercase p = form := by
  rw [representative?] at h
  simpa using List.find?_some h

theorem representative?_eq_none_iff :
    representative? paths form = none ↔ ∀ p ∈ paths, Text.lowercase p ≠ form := by
  simp only [representative?, List.find?_eq_none, beq_iff_eq, ne_eq]

theorem exists_representative? (h : p ∈ paths) :
    ∃ q, representative? paths (Text.lowercase p) = some q :=
  Option.isSome_iff_exists.1 (List.find?_isSome.2 ⟨p, h, beq_self_eq_true _⟩)

theorem representative?_cons (h : Text.lowercase p = form) :
    representative? (p :: paths) form = some p :=
  List.find?_cons_of_pos (beq_iff_eq.2 h)

theorem representative?_cons_of_ne (h : Text.lowercase p ≠ form) :
    representative? (p :: paths) form = representative? paths form :=
  List.find?_cons_of_neg (by simpa using h)

theorem Completes.lowercase_eq (h : Completes paths w rest p) :
    Text.lowercase p = w ++ '.' :: rest :=
  lowercase_of_representative? h

theorem Means.mem (h : Means preferred paths requested (.ok p)) : p ∈ paths := by
  cases h with
  | listed _ _ hp => exact mem_of_representative? hp
  | preferred _ _ _ hp _ => exact mem_of_representative? hp
  | least _ _ hp _ => exact mem_of_representative? hp

/-- A path that a request means has a form that starts with the request's. -/
theorem Means.wanted_isPrefix (h : Means preferred paths requested (.ok p)) :
    wanted requested <+: Text.lowercase p := by
  have hcompletes {rest : Text} (hp : Completes paths (wanted requested) rest p) :
      wanted requested <+: Text.lowercase p := by
    rw [hp.lowercase_eq]
    exact List.prefix_append _ _
  cases h with
  | listed _ _ hp => rw [lowercase_of_representative? hp]
  | preferred _ _ _ hp _ => exact hcompletes hp
  | least _ _ hp _ => exact hcompletes hp

/-! ## Lower-case forms -/

theorem mem_byLowercase_iff :
    (form, p) ∈ byLowercase paths ↔ representative? paths form = some p := by
  have hsame : ∀ a b : Text × Text, (a.1 == b.1) = true ↔ a.1 = b.1 := fun _ _ => beq_iff_eq
  rw [byLowercase, eraseDupsBy_eq_firsts Prod.fst hsame, mem_firsts_iff, representative?,
    List.find?_eq_some_iff_append]
  constructor
  · rintro ⟨before, after, hl, h⟩
    obtain ⟨before', after', rfl, rfl, hafter⟩ := List.map_eq_append_iff.1 hl
    obtain ⟨p', after', rfl, hp, rfl⟩ := List.map_eq_cons_iff.1 hafter
    obtain ⟨rfl, rfl⟩ := Prod.mk.inj hp
    refine ⟨beq_self_eq_true _, before', after', rfl, fun q hq => ?_⟩
    simpa using List.forall_mem_map.1 h q hq
  · rintro ⟨hp, before, after, rfl, h⟩
    obtain rfl := beq_iff_eq.1 hp
    rw [List.map_append, List.map_cons]
    refine ⟨_, _, rfl, List.forall_mem_map.2 fun q hq => ?_⟩
    simpa using h q hq

theorem lookup_byLowercase (paths : List Text) (form : Text) :
    (byLowercase paths).lookup form = representative? paths form := by
  have hmem : ∀ p, (byLowercase paths).lookup form = some p →
      representative? paths form = some p := by
    intro p hp
    obtain ⟨before, after, hl, -⟩ := List.lookup_eq_some_iff.1 hp
    rw [← mem_byLowercase_iff, hl]
    exact List.mem_append_cons_self
  cases hlookup : (byLowercase paths).lookup form with
  | some p => exact (hmem p hlookup).symm
  | none =>
    refine (Option.eq_none_iff_forall_ne_some.2 fun p hp => ?_).symm
    have hne := List.lookup_eq_none_iff.1 hlookup _ (mem_byLowercase_iff.2 hp)
    simp at hne

/-! ## Candidates -/

theorem mem_candidates_iff : (rest, p) ∈ candidates stem known ↔ (stem ++ rest, p) ∈ known := by
  have hsorted : (known.mergeSort fun a b => Text.le a.1 b.1).Pairwise
      fun a b => Text.le a.1 b.1 = true :=
    List.pairwise_mergeSort
      (fun a b c => Text.le_trans (s := a.1) (t := b.1) (u := c.1))
      (fun a b => Text.le_total a.1 b.1) known
  have hrange := Text.range_eq_filter (s := stem) hsorted
  rw [candidates]
  simp only [hrange, List.mem_map, List.mem_filter, List.mem_mergeSort, Prod.exists,
    List.isPrefixOf_iff_prefix, Prod.mk.injEq]
  constructor
  · rintro ⟨form, p, ⟨hknown, r, rfl⟩, hrest, rfl⟩
    rw [List.drop_left] at hrest
    rwa [← hrest]
  · intro hknown
    exact ⟨stem ++ rest, p, ⟨hknown, List.prefix_append stem rest⟩, List.drop_left, rfl⟩

/-- What completes a request's form. -/
abbrev completions (paths : List Text) (w : Text) : List (Text × Text) :=
  candidates (w ++ ['.']) (byLowercase paths)

theorem mem_completions_iff : (rest, p) ∈ completions paths w ↔ Completes paths w rest p := by
  rw [mem_candidates_iff, mem_byLowercase_iff, Completes, List.append_assoc, List.singleton_append]

theorem Completes.asciiLower (h : Completes paths w rest p) : Text.asciiLower rest = rest := by
  have hlower := Text.asciiLower_lowercase p
  rw [h.lowercase_eq, Text.asciiLower, List.map_append, List.map_cons] at hlower
  exact (List.cons.inj (List.append_inj_right hlower (List.length_map _))).2

/-- Of two that complete a form by the same extension in whatever case, both are the same. -/
theorem Completes.eq_of_sameAscii (hp : Completes paths w rest p) (hq : Completes paths w rest' q)
    (h : Text.sameAscii rest ext = true) (h' : Text.sameAscii rest' ext = true) : p = q := by
  have hrest : rest = rest' := by
    rw [← hp.asciiLower, ← hq.asciiLower]
    exact (beq_iff_eq.1 h).trans (beq_iff_eq.1 h').symm
  rw [Completes, hrest, hq] at hp
  exact (Option.some.inj hp).symm

/-- What completes `w` by the extension `ext`, in whatever case. -/
def completed? (paths : List Text) (w ext : Text) : Option Text :=
  ((completions paths w).find? fun (rest, _) => Text.sameAscii rest ext).map (·.2)

theorem completed?_eq_some_iff :
    completed? paths w ext = some p ↔
      ∃ rest, Completes paths w rest p ∧ Text.sameAscii rest ext = true := by
  rw [completed?]
  constructor
  · intro h
    obtain ⟨⟨rest, p⟩, hfind, rfl⟩ := Option.map_eq_some_iff.1 h
    have hext := List.find?_some hfind
    exact ⟨rest, mem_completions_iff.1 (List.mem_of_find?_eq_some hfind), hext⟩
  · rintro ⟨rest, hp, hext⟩
    cases hfind : (completions paths w).find? fun (rest, _) => Text.sameAscii rest ext with
    | none => exact absurd hext (List.find?_eq_none.1 hfind _ (mem_completions_iff.2 hp))
    | some found =>
      -- What is found first need not be `p` by its place, but there is only one such path.
      have hq := mem_completions_iff.1 (List.mem_of_find?_eq_some hfind)
      have hext' := List.find?_some hfind
      rw [Option.map_some, hp.eq_of_sameAscii hq hext hext']

theorem completed?_eq_none_iff : completed? paths w ext = none ↔ ¬HasExtension paths w ext := by
  rw [Option.eq_none_iff_forall_ne_some, HasExtension]
  simp only [ne_eq, completed?_eq_some_iff]
  exact ⟨fun h ⟨rest, p, hp⟩ => h p ⟨rest, hp⟩, fun h p ⟨rest, hp⟩ => h ⟨rest, p, hp⟩⟩

theorem leastPath?_completions_iff :
    leastPath? (completions paths w) = some p ↔
      (∃ rest, Completes paths w rest p) ∧
        ∀ rest q, Completes paths w rest q → Text.le p q = true := by
  have hmem : ∀ q, q ∈ (completions paths w).map (·.2) ↔ ∃ rest, Completes paths w rest q := by
    intro q
    rw [List.mem_map]
    constructor
    · rintro ⟨⟨rest, q⟩, hq, rfl⟩
      exact ⟨rest, mem_completions_iff.1 hq⟩
    · rintro ⟨rest, hq⟩
      exact ⟨(rest, q), mem_completions_iff.2 hq, rfl⟩
  rw [leastPath?, Text.head?_mergeSort_le_iff]
  simp only [hmem]
  exact and_congr_right fun _ =>
    ⟨fun h rest q hq => h q ⟨rest, hq⟩, fun h q ⟨rest, hq⟩ => h rest q hq⟩

theorem leastPath?_eq_none_iff : leastPath? known = none ↔ known = [] := by
  rw [leastPath?, List.head?_eq_none_iff, ← List.length_eq_zero_iff, List.length_mergeSort,
    List.length_map, List.length_eq_zero_iff]

/-! ## The lookup -/

theorem complete?_eq (preferred paths : List Text) (w : Text) :
    complete? preferred (w ++ ['.']) (byLowercase paths) =
      (preferred.findSome? (completed? paths w) <|> leastPath? (completions paths w)) :=
  rfl

theorem complete?_of_preferred {before after : List Text}
    (hsplit : preferred = before ++ ext :: after)
    (hbefore : ∀ e ∈ before, ¬HasExtension paths w e) (hp : Completes paths w rest p)
    (hext : Text.sameAscii rest ext = true) :
    complete? preferred (w ++ ['.']) (byLowercase paths) = some p := by
  have hfound : preferred.findSome? (completed? paths w) = some p :=
    List.findSome?_eq_some_iff.2 ⟨before, ext, after, hsplit,
      completed?_eq_some_iff.2 ⟨rest, hp, hext⟩,
      fun e he => completed?_eq_none_iff.2 (hbefore e he)⟩
  rw [complete?_eq, hfound]
  rfl

theorem complete?_of_not_preferred (hnone : ∀ e ∈ preferred, ¬HasExtension paths w e) :
    complete? preferred (w ++ ['.']) (byLowercase paths) = leastPath? (completions paths w) := by
  have hfound : preferred.findSome? (completed? paths w) = none :=
    List.findSome?_eq_none_iff.2 fun e he => completed?_eq_none_iff.2 (hnone e he)
  rw [complete?_eq, hfound]
  rfl

/-- A request that is open is completed, or there is nothing that it could mean. -/
theorem Open.find_eq (h : Open paths requested) :
    find preferred paths requested =
      match complete? preferred (wanted requested ++ ['.']) (byLowercase paths) with
      | some p => .ok p
      | none => .error (.fileNotFound requested) := by
  have hclimbs : ¬Path.climbs requested = true := by simp [h.climbs]
  have hbare : ¬Path.hasExtension (wanted requested) = true := by simp [h.bare]
  rw [find, if_neg hclimbs]
  simp only [if_neg h.nonempty, lookup_byLowercase, h.unlisted, if_neg hbare]
  rfl

theorem Means.find_eq (h : Means preferred paths requested r) :
    find preferred paths requested = r := by
  cases h with
  | climbs h => rw [find, if_pos h]; rfl
  | empty h hw =>
    rw [find, if_neg (by simp [h])]
    simp only [if_pos hw]
    rfl
  | listed h hw hp =>
    rw [find, if_neg (by simp [h])]
    simp only [if_neg hw, lookup_byLowercase, hp]
    rfl
  | extension h hw hp hext =>
    rw [find, if_neg (by simp [h])]
    simp only [if_neg hw, lookup_byLowercase, hp, if_pos hext]
    rfl
  | preferred h hsplit hbefore hp hext =>
    rw [h.find_eq, complete?_of_preferred hsplit hbefore hp hext]
  | least h hnone hp hleast =>
    have hcomplete := complete?_of_not_preferred hnone
    rw [leastPath?_completions_iff.2 ⟨⟨_, hp⟩, hleast⟩] at hcomplete
    rw [h.find_eq, hcomplete]
  | missing h hnone =>
    have hext : ∀ e ∈ preferred, ¬HasExtension paths (wanted requested) e :=
      fun e _ ⟨rest, p, hp, _⟩ => hnone rest p hp
    have hempty : completions paths (wanted requested) = [] := by
      rw [List.eq_nil_iff_forall_not_mem]
      exact fun a ha => hnone a.1 a.2 (mem_completions_iff.1 ha)
    rw [h.find_eq, complete?_of_not_preferred hext, leastPath?_eq_none_iff.2 hempty]

theorem exists_means_of_open (h : Open paths requested) :
    ∃ r, Means preferred paths requested r := by
  cases hpreferred : preferred.findSome? (completed? paths (wanted requested)) with
  | some p =>
    obtain ⟨before, ext, after, hsplit, hp, hbefore⟩ := List.findSome?_eq_some_iff.1 hpreferred
    obtain ⟨rest, hp, hext⟩ := completed?_eq_some_iff.1 hp
    exact ⟨_, .preferred h hsplit
      (fun e he => completed?_eq_none_iff.1 (hbefore e he)) hp hext⟩
  | none =>
    have hnone : ∀ e ∈ preferred, ¬HasExtension paths (wanted requested) e := fun e he =>
      completed?_eq_none_iff.1 (List.findSome?_eq_none_iff.1 hpreferred e he)
    cases hleast : leastPath? (completions paths (wanted requested)) with
    | some p =>
      obtain ⟨⟨rest, hp⟩, hleast⟩ := leastPath?_completions_iff.1 hleast
      exact ⟨_, .least h hnone hp hleast⟩
    | none =>
      refine ⟨_, .missing h fun rest p hp => ?_⟩
      have hmem := mem_completions_iff.2 hp
      rw [leastPath?_eq_none_iff.1 hleast] at hmem
      exact List.not_mem_nil hmem

/-- Some case applies. -/
theorem exists_means (preferred paths : List Text) (requested : Text) :
    ∃ r, Means preferred paths requested r := by
  cases hclimbs : Path.climbs requested with
  | true => exact ⟨_, .climbs hclimbs⟩
  | false =>
    by_cases hw : wanted requested = []
    · exact ⟨_, .empty hclimbs hw⟩
    cases hlisted : representative? paths (wanted requested) with
    | some p => exact ⟨_, .listed hclimbs hw hlisted⟩
    | none =>
      cases hext : Path.hasExtension (wanted requested) with
      | true => exact ⟨_, .extension hclimbs hw hlisted hext⟩
      | false => exact exists_means_of_open ⟨hclimbs, hw, hlisted, hext⟩

theorem means_of_find (h : find preferred paths requested = r) :
    Means preferred paths requested r := by
  obtain ⟨r', hr⟩ := exists_means preferred paths requested
  rwa [← h, hr.find_eq]

theorem wanted_isPrefix_of_find (h : find preferred paths requested = .ok p) :
    wanted requested <+: Text.lowercase p :=
  (means_of_find h).wanted_isPrefix

/-- The lookup finds exactly what a request means, and what it finds is one of the paths as they are
listed. -/
theorem find_eq_iff_means (preferred paths : List Text) (requested : Text) :
    (∀ r, find preferred paths requested = r ↔ Means preferred paths requested r) ∧
      ∀ p, find preferred paths requested = .ok p → p ∈ paths := by
  have hiff : ∀ r, find preferred paths requested = r ↔ Means preferred paths requested r := by
    intro r
    constructor
    · rintro rfl
      obtain ⟨r, hr⟩ := exists_means preferred paths requested
      rwa [hr.find_eq]
    · exact Means.find_eq
  exact ⟨hiff, fun p hp => ((hiff (.ok p)).1 hp).mem⟩

/-- A figure that is there in two formats, requested in another case and without extension. -/
theorem find_eq_iff_means_figure :
    let preferred : List Text := ["pdf".toList, "png".toList]
    let paths : List Text := ["Figures/foo.png".toList, "Figures/foo.pdf".toList]
    find preferred paths "figures/FOO" = .ok "Figures/foo.pdf" ∧
      ("Figures/foo.pdf" : Text) ∈ paths := by
  intro preferred paths
  have hopen : Open paths "figures/FOO" :=
    ⟨by decide +kernel, by decide +kernel, by decide +kernel, by decide +kernel⟩
  have hsplit : preferred = [] ++ "pdf".toList :: ["png".toList] := rfl
  have hcompletes : Completes paths (wanted "figures/FOO") "pdf" "Figures/foo.pdf" := by
    rw [Completes]
    decide +kernel
  have hmeans := Means.preferred hopen hsplit (by simp) hcompletes (by decide +kernel)
  have hfind := ((find_eq_iff_means preferred paths "figures/FOO").1 _).2 hmeans
  exact ⟨hfind, (find_eq_iff_means preferred paths "figures/FOO").2 _ hfind⟩

end TexBundle.Lookup
