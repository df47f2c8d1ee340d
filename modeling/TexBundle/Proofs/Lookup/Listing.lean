import TexBundle.Proofs.Bundler.Confinement
import TexBundle.Proofs.Lookup
import Mathlib.Data.List.Nodup

/-!
# The listed paths

A request is cleaned before it is compared, and the listed paths are not. So a listed path is found
by a request for itself only if cleaning does not change it. Where the listed paths have different
forms, nothing else about the list counts than which paths are in it.

* `cleaned`, `IsClean`: what is left of a request, and what is left as it is;
* `wanted_eq_lowercase_iff`: the form that a path is looked for by is its own;
* `found_by_own_path_iff`: the paths that are found wherever they are listed;
* `find_congr`, `find_perm`: the order of the list.
-/

namespace TexBundle.Lookup

variable {preferred paths paths' : List Text} {requested path form p : Text}
  {r : Except BundleError Text}

/-! ## Cleaning -/

/-- A request without surrounding blanks, leading `./` and leading slashes. -/
def cleaned (requested : Text) : Text :=
  Path.dropSlashes (dropDotSlashes (Text.trim requested))

/-- There is nothing to clean: no blank around the path, and neither `./` nor a slash in front. -/
structure IsClean (path : Text) : Prop where
  trim : Text.trim path = path
  dotSlash : ¬['.', '/'] <+: path
  slash : Path.isAbsolute path = false

theorem wanted_eq (requested : Text) : wanted requested = Text.lowercase (cleaned requested) := rfl

theorem dropDotSlashes_isSuffix (t : Text) : dropDotSlashes t <:+ t := by
  induction t using dropDotSlashes.induct with
  | case1 t ih =>
    rw [dropDotSlashes]
    exact ih.trans (List.suffix_append ['.', '/'] t)
  | case2 t h =>
    rw [dropDotSlashes.eq_2 t h]

theorem dropDotSlashes_eq_self_iff {t : Text} : dropDotSlashes t = t ↔ ¬['.', '/'] <+: t := by
  induction t using dropDotSlashes.induct with
  | case1 t =>
    refine iff_of_false (fun h => ?_) (fun h => h (List.prefix_append ['.', '/'] t))
    have hlength := (dropDotSlashes_isSuffix t).length_le
    rw [dropDotSlashes] at h
    rw [h, List.length_cons, List.length_cons] at hlength
    omega
  | case2 t h =>
    rw [dropDotSlashes.eq_2 t h]
    exact iff_of_true rfl fun ⟨u, hu⟩ => h u hu.symm

theorem dropSlashes_isSuffix (t : Text) : Path.dropSlashes t <:+ t := List.dropWhile_suffix _

theorem cleaned_isInfix (requested : Text) : cleaned requested <:+: requested :=
  ((dropSlashes_isSuffix _).trans (dropDotSlashes_isSuffix _)).isInfix.trans
    (Text.trim_isInfix requested)

theorem isAbsolute_cleaned (requested : Text) : Path.isAbsolute (cleaned requested) = false :=
  Path.isAbsolute_dropSlashes _

theorem cleaned_eq_self_iff : cleaned path = path ↔ IsClean path := by
  constructor
  · intro h
    -- Each of the three steps leaves a part, so none of them can have changed anything.
    have hslashes := dropSlashes_isSuffix (dropDotSlashes (Text.trim path))
    have hdots := dropDotSlashes_isSuffix (Text.trim path)
    have htrim : Text.trim path = path := by
      refine (Text.trim_isInfix path).eq_of_length_le ?_
      have hle := (hslashes.trans hdots).length_le
      rwa [← cleaned, h] at hle
    rw [cleaned, htrim] at h
    rw [htrim] at hslashes hdots
    have hdot : dropDotSlashes path = path := by
      refine hdots.eq_of_length_le ?_
      have hle := hslashes.length_le
      rwa [h] at hle
    refine ⟨htrim, dropDotSlashes_eq_self_iff.1 hdot, ?_⟩
    have habsolute := Path.isAbsolute_dropSlashes (dropDotSlashes path)
    rwa [h] at habsolute
  · rintro ⟨htrim, hdot, hslash⟩
    rw [cleaned, htrim, dropDotSlashes_eq_self_iff.2 hdot, Path.dropSlashes_eq_self hslash]

/-- A path is looked for by its own form exactly if it is clean: what is cleaned away is missing in
the form, which is then too short. -/
theorem wanted_eq_lowercase_iff : wanted path = Text.lowercase path ↔ IsClean path := by
  rw [wanted_eq, ← cleaned_eq_self_iff]
  constructor
  · exact Text.eq_of_isInfix_of_lowercase_eq (cleaned_isInfix path)
  · exact congrArg Text.lowercase

/-! ## Requests for listed paths -/

/-- A path that can be requested as it is. -/
structure Requestable (path : Text) : Prop extends IsClean path where
  nonempty : path ≠ []
  climbs : Path.climbs path = false

theorem Requestable.find_eq (h : Requestable path)
    (hp : representative? paths (Text.lowercase path) = some p) :
    find preferred paths path = .ok p := by
  have hform := wanted_eq_lowercase_iff.2 h.toIsClean
  have hne : wanted path ≠ [] := hform ▸ Text.lowercase_ne_nil h.nonempty
  exact (Means.listed h.climbs hne (hform ▸ hp)).find_eq

/-- A path that is not clean is found by another name at most: what it is cleaned to is listed,
too. -/
theorem find_pair_ne (h : ¬IsClean path) (hclimbs : Path.climbs path = false) :
    find preferred [path, cleaned path] path ≠ .ok path := by
  by_cases hwanted : wanted path = []
  · rw [(Means.empty hclimbs hwanted).find_eq]
    exact fun herror => nomatch herror
  · have hform : Text.lowercase path ≠ wanted path := fun e =>
      h (wanted_eq_lowercase_iff.1 e.symm)
    have hp : representative? [path, cleaned path] (wanted path) = some (cleaned path) := by
      rw [representative?_cons_of_ne hform, representative?_cons (wanted_eq path).symm]
    rw [(Means.listed hclimbs hwanted hp).find_eq]
    intro hok
    exact h (cleaned_eq_self_iff.1 (Except.ok.inj hok))

/-- A manifest can list any relative paths. -/
theorem exists_manifest (h : ∀ path ∈ paths, Path.isAbsolute path = false) :
    ∃ m : Manifest, m.validate = .ok () ∧ m.files.map (·.path) = paths := by
  let m : Manifest :=
    { basePrefix := ['p'], entryPath := ['e'], files := paths.map (⟨·, none, none⟩) }
  have hpaths : m.files.map (·.path) = paths := by
    rw [List.map_map]
    exact List.map_id paths
  refine ⟨m, Manifest.validate_eq_ok_iff.2 ⟨rfl, rfl, fun path hpath => ?_⟩, hpaths⟩
  rcases List.mem_cons.1 hpath with rfl | hpath
  · rfl
  · exact h path (hpaths ▸ hpath)

/-- A path that a manifest can list, and that is neither blank nor refused as a request, is found by
a request for itself in every valid manifest that lists it exactly if it is trimmed and does not
start with `./`. What is found is the first listed path with its form, whatever the preferred
extensions. -/
theorem found_by_own_path_iff (hblank : Text.allBlank path = false)
    (hclimbs : Path.climbs path = false) (hrelative : Path.isAbsolute path = false) :
    (∀ m : Manifest, m.validate = .ok () → path ∈ m.files.map (·.path) → ∀ preferred, ∃ p,
      representative? (m.files.map (·.path)) (Text.lowercase path) = some p ∧
      find preferred (m.files.map (·.path)) path = .ok p) ↔
    Text.trim path = path ∧ ¬['.', '/'] <+: path := by
  constructor
  · intro hfound
    by_contra hnot
    have hclean : ¬IsClean path := fun h => hnot ⟨h.trim, h.dotSlash⟩
    have hpair : ∀ q ∈ [path, cleaned path], Path.isAbsolute q = false :=
      List.forall_mem_cons.2 ⟨hrelative, List.forall_mem_singleton.2 (isAbsolute_cleaned path)⟩
    obtain ⟨m, hvalid, hlisted⟩ := exists_manifest hpair
    have hown := hfound m hvalid
    rw [hlisted] at hown
    obtain ⟨p, hp, hfind⟩ := hown List.mem_cons_self []
    obtain rfl : path = p := Option.some.inj ((representative?_cons rfl).symm.trans hp)
    exact find_pair_ne hclean hclimbs hfind
  · rintro ⟨htrim, hdot⟩ m - hlisted preferred
    have hne : path ≠ [] := by
      rintro rfl
      exact absurd hblank (by decide)
    have hpath : Requestable path := ⟨⟨htrim, hdot, hrelative⟩, hne, hclimbs⟩
    obtain ⟨p, hp⟩ := exists_representative? hlisted
    exact ⟨p, hp, hpath.find_eq hp⟩

/-- A path that is listed in two spellings. -/
theorem found_by_own_path_iff_of_clash :
    let m : Manifest :=
      { basePrefix := "p", entryPath := "main.tex",
        files := [⟨"FIG/a.png", none, none⟩, ⟨"fig/A.png", none, none⟩] }
    let path : Text := "fig/A.png"
    (Text.allBlank path = false ∧ Path.climbs path = false ∧ Path.isAbsolute path = false) ∧
      (m.validate = .ok () ∧ path ∈ m.files.map (·.path)) ∧
      find [] (m.files.map (·.path)) path = .ok "FIG/a.png" := by
  intro m path
  have hpath : Text.allBlank path = false ∧ Path.climbs path = false ∧
      Path.isAbsolute path = false := ⟨rfl, rfl, rfl⟩
  have hm : m.validate = .ok () ∧ path ∈ m.files.map (·.path) := ⟨rfl, by decide⟩
  have hclean : Text.trim path = path ∧ ¬['.', '/'] <+: path := by decide
  obtain ⟨p, hp, hfind⟩ :=
    (found_by_own_path_iff hpath.1 hpath.2.1 hpath.2.2).2 hclean m hm.1 hm.2 []
  have hform : Text.lowercase "FIG/a.png" = Text.lowercase path :=
    Text.lowercase_eq_of_sameAscii (by decide) (by decide) (by decide)
  have hfirst : representative? (m.files.map (·.path)) (Text.lowercase path) =
      some "FIG/a.png" := representative?_cons hform
  obtain rfl : "FIG/a.png".toList = p := Option.some.inj (hfirst.symm.trans hp)
  exact ⟨hpath, hm, hfind⟩

/-- A listed path that is looked for without its `./`. -/
theorem not_found_by_own_path :
    let m : Manifest :=
      { basePrefix := "p", entryPath := "main.tex", files := [⟨"./fig.png", none, none⟩] }
    let path : Text := "./fig.png"
    (Text.allBlank path = false ∧ Path.climbs path = false) ∧
      (m.validate = .ok () ∧ path ∈ m.files.map (·.path)) ∧
      find ({} : Settings).preferredExtensions (m.files.map (·.path)) path =
        .error (.fileNotFound path) := by
  intro m path
  have hwanted : wanted path = "fig.png" := Text.lowercase_of_isAscii (by decide)
  have hlower : Text.lowercase path = path := Text.lowercase_of_isAscii (by decide)
  have hunlisted : representative? (m.files.map (·.path)) (wanted path) = none := by
    rw [hwanted]
    exact representative?_cons_of_ne (by rw [hlower]; decide)
  have hmeans : Means ({} : Settings).preferredExtensions (m.files.map (·.path)) path
      (.error (.fileNotFound path)) :=
    .extension rfl (by rw [hwanted]; decide) hunlisted (by rw [hwanted]; rfl)
  exact ⟨⟨rfl, rfl⟩, ⟨rfl, List.mem_singleton_self _⟩, hmeans.find_eq⟩

/-! ## The order of the list -/

theorem representative?_eq_some_iff (hdistinct : (paths.map Text.lowercase).Nodup) :
    representative? paths form = some p ↔ p ∈ paths ∧ Text.lowercase p = form := by
  constructor
  · intro h
    exact ⟨mem_of_representative? h, lowercase_of_representative? h⟩
  · rintro ⟨hp, rfl⟩
    obtain ⟨q, hq⟩ := exists_representative? hp
    rw [hq, List.inj_on_of_nodup_map hdistinct (mem_of_representative? hq) hp
      (lowercase_of_representative? hq)]

theorem representative?_perm (hperm : paths.Perm paths')
    (hdistinct : (paths.map Text.lowercase).Nodup) :
    representative? paths = representative? paths' := by
  have hdistinct' := (hperm.map Text.lowercase).nodup_iff.1 hdistinct
  funext form
  refine Option.ext fun p => ?_
  rw [representative?_eq_some_iff hdistinct, representative?_eq_some_iff hdistinct',
    hperm.mem_iff]

/-- All that counts of the listed paths is which of them stands for a form. -/
theorem Means.congr (hpaths : representative? paths = representative? paths')
    (h : Means preferred paths requested r) : Means preferred paths' requested r := by
  have hcompletes : Completes paths = Completes paths' := by
    funext w rest p
    rw [Completes, Completes, hpaths]
  have hextension : HasExtension paths = HasExtension paths' := by
    funext w ext
    rw [HasExtension, HasExtension, hcompletes]
  have hopen : Open paths requested → Open paths' requested := fun ho =>
    ⟨ho.climbs, ho.nonempty, hpaths ▸ ho.unlisted, ho.bare⟩
  cases h with
  | climbs h => exact .climbs h
  | empty h hw => exact .empty h hw
  | listed h hw hp => exact .listed h hw (hpaths ▸ hp)
  | extension h hw hp hext => exact .extension h hw (hpaths ▸ hp) hext
  | preferred h hsplit hbefore hp hext =>
    rw [hcompletes] at hp
    rw [hextension] at hbefore
    exact .preferred (hopen h) hsplit hbefore hp hext
  | least h hnone hp hleast =>
    rw [hcompletes] at hp hleast
    rw [hextension] at hnone
    exact .least (hopen h) hnone hp hleast
  | missing h hnone =>
    rw [hcompletes] at hnone
    exact .missing (hopen h) hnone

theorem find_congr (hpaths : representative? paths = representative? paths')
    (preferred : List Text) (requested : Text) :
    find preferred paths requested = find preferred paths' requested :=
  ((means_of_find rfl).congr hpaths).find_eq.symm

/-- If the listed paths have different forms, the order in which they are listed makes no difference
for any request. Where two that can be requested have one form, it does. -/
theorem find_perm (paths : List Text) :
    ((paths.map Text.lowercase).Nodup → ∀ paths', paths.Perm paths' → ∀ preferred requested,
      find preferred paths requested = find preferred paths' requested) ∧
    ∀ p ∈ paths, ∀ q ∈ paths, Requestable p → Text.lowercase p = Text.lowercase q → p ≠ q →
      ∃ paths', paths.Perm paths' ∧ ∀ preferred,
        find preferred paths p ≠ find preferred paths' p := by
  refine ⟨fun hdistinct paths' hperm preferred requested => ?_, fun p hp q hq h hform hne => ?_⟩
  · exact find_congr (representative?_perm hperm hdistinct) preferred requested
  · -- Of `p` and `q`, one is not what is found first now, and it can be listed first.
    obtain ⟨found, hfound⟩ := exists_representative? hp
    obtain ⟨other, hother, hotherform, hnefound⟩ : ∃ other ∈ paths,
        Text.lowercase other = Text.lowercase p ∧ found ≠ other := by
      by_cases hpf : found = p
      · exact ⟨q, hq, hform.symm, hpf ▸ hne⟩
      · exact ⟨p, hp, rfl, hpf⟩
    refine ⟨other :: paths.erase other, List.perm_cons_erase hother, fun preferred => ?_⟩
    have hfirst : representative? (other :: paths.erase other) (Text.lowercase p) = some other :=
      representative?_cons hotherform
    rw [h.find_eq hfound, h.find_eq hfirst]
    exact fun e => hnefound (Except.ok.inj e)

/-- Two figures and a text, and one figure in two spellings. -/
theorem find_perm_of_three :
    let paths : List Text := ["b/Plot.pdf", "a.tex", "b/plot.PNG"]
    let clash : List Text := ["Fig.png", "FIG.png"]
    (paths.map Text.lowercase).Nodup ∧
      (∀ preferred requested, find preferred paths requested =
        find preferred ["b/plot.PNG", "b/Plot.pdf", "a.tex"] requested) ∧
      Requestable "Fig.png" ∧
      ∃ clash', clash.Perm clash' ∧ find [] clash "Fig.png" ≠ find [] clash' "Fig.png" := by
  intro paths clash
  have hforms : paths.map Text.lowercase = paths.map Text.asciiLower :=
    List.map_congr_left fun p hp => Text.lowercase_of_isAscii (by revert p; decide)
  have hdistinct : (paths.map Text.lowercase).Nodup := by
    rw [hforms]
    decide
  have hrequestable : Requestable "Fig.png" :=
    ⟨⟨by decide, by decide, rfl⟩, by decide, rfl⟩
  have hform : Text.lowercase "Fig.png" = Text.lowercase "FIG.png" :=
    Text.lowercase_eq_of_sameAscii (by decide) (by decide) (by decide)
  obtain ⟨clash', hperm, hne⟩ := (find_perm clash).2 "Fig.png" (by decide) "FIG.png" (by decide)
    hrequestable hform (by decide)
  exact ⟨hdistinct, (find_perm paths).1 hdistinct _ (by decide), hrequestable, clash', hperm,
    hne []⟩

end TexBundle.Lookup
