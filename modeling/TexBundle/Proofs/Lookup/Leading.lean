import TexBundle.Proofs.Lookup.Listing

/-!
# Leading pieces of requests

What stands in front of a request is taken off in two steps, all `./` first and then all slashes. So
it is ignored as long as no `./` comes right behind a slash, where it is taken for the name of a
directory.

* `led`: a request behind pieces of both kinds, in any order;
* `stripped_led_iff`: the pieces of which nothing is left;
* `readdressed`: an answer as it would be given to another request;
* `find_eq_readdressed`, `find_readdressed_iff`: requests have the same answers exactly if the same
  is left of them;
* `find_led_iff`: the pieces that make no difference for any list of paths.
-/

namespace TexBundle.Lookup

/-- What may be put in front of a request. -/
inductive Lead where
  | dotSlash
  | slash
deriving DecidableEq, Repr

def Lead.text : Lead → Text
  | dotSlash => "./"
  | slash => "/"

/-- A request behind some pieces. -/
def led : List Lead → Text → Text
  | [], requested => requested
  | lead :: leads, requested => lead.text ++ led leads requested

/-- No slash of the pieces has `./` right behind it. -/
def SlashesLast (leads : List Lead) (requested : Text) : Prop :=
  ∀ behind, .slash :: behind <:+ leads → ¬['.', '/'] <+: led behind requested

variable {preferred paths : List Text} {requested other t : Text} {leads : List Lead}
  {r : Except BundleError Text}

/-! ## What is left -/

/-- What is left of a trimmed request. -/
def stripped (t : Text) : Text := Path.dropSlashes (dropDotSlashes t)

theorem cleaned_eq (requested : Text) : cleaned requested = stripped (Text.trim requested) := rfl

theorem stripped_isSuffix (t : Text) : stripped t <:+ t :=
  (dropSlashes_isSuffix _).trans (dropDotSlashes_isSuffix _)

theorem stripped_dotSlash (t : Text) : stripped ('.' :: '/' :: t) = stripped t := by
  rw [stripped, dropDotSlashes, ← stripped]

theorem stripped_slash (t : Text) : stripped ('/' :: t) = Path.dropSlashes t := by
  have hdots : dropDotSlashes ('/' :: t) = '/' :: t := dropDotSlashes_eq_self_iff.2 (by simp)
  rw [stripped, hdots]
  rfl

/-- Behind a slash, a `./` stays. -/
theorem stripped_slash_of_dotSlash (h : ['.', '/'] <+: t) : stripped ('/' :: t) = t := by
  obtain ⟨u, rfl⟩ := h
  rw [stripped_slash]
  exact Path.dropSlashes_eq_self rfl

theorem stripped_slash_of_not_dotSlash (h : ¬['.', '/'] <+: t) :
    stripped ('/' :: t) = stripped t := by
  rw [stripped_slash, stripped, dropDotSlashes_eq_self_iff.2 h]

theorem stripped_ne_self (h : ['.', '/'] <+: t) : stripped t ≠ t := by
  intro heq
  have hdots := (dropSlashes_isSuffix (dropDotSlashes t)).length_le
  have hself : dropDotSlashes t = t := by
    apply (dropDotSlashes_isSuffix t).eq_of_length_le
    rwa [← stripped, heq] at hdots
  exact dropDotSlashes_eq_self_iff.1 hself h

theorem led_isSuffix (leads : List Lead) (requested : Text) :
    requested <:+ led leads requested := by
  induction leads with
  | nil => exact List.suffix_refl requested
  | cons lead leads ih => exact ih.trans (List.suffix_append _ _)

/-- Pieces in front do not make less be left. -/
theorem stripped_isSuffix_led (leads : List Lead) (requested : Text) :
    stripped requested <:+ stripped (led leads requested) := by
  induction leads with
  | nil => exact List.suffix_refl _
  | cons lead leads ih =>
    cases lead with
    | dotSlash =>
      show stripped requested <:+ stripped ('.' :: '/' :: led leads requested)
      rwa [stripped_dotSlash]
    | slash =>
      show stripped requested <:+ stripped ('/' :: led leads requested)
      by_cases h : ['.', '/'] <+: led leads requested
      · rw [stripped_slash_of_dotSlash h]
        exact ih.trans (stripped_isSuffix _)
      · rwa [stripped_slash_of_not_dotSlash h]

theorem slashesLast_dotSlash_iff :
    SlashesLast (.dotSlash :: leads) requested ↔ SlashesLast leads requested := by
  simp [SlashesLast, List.suffix_cons_iff]

theorem slashesLast_slash_iff :
    SlashesLast (.slash :: leads) requested ↔
      ¬['.', '/'] <+: led leads requested ∧ SlashesLast leads requested := by
  simp [SlashesLast, List.suffix_cons_iff, or_imp, forall_and]

/-- Of the pieces in front nothing is left exactly if no `./` comes right behind a slash. By
induction on the pieces: a slash goes away with all that is behind it, or keeps all of it. -/
theorem stripped_led_iff (leads : List Lead) (requested : Text) :
    stripped (led leads requested) = stripped requested ↔ SlashesLast leads requested := by
  induction leads with
  | nil => exact iff_of_true rfl (by simp [SlashesLast])
  | cons lead leads ih =>
    cases lead with
    | dotSlash =>
      show stripped ('.' :: '/' :: led leads requested) = _ ↔ _
      rw [stripped_dotSlash, slashesLast_dotSlash_iff, ih]
    | slash =>
      show stripped ('/' :: led leads requested) = _ ↔ _
      rw [slashesLast_slash_iff]
      by_cases h : ['.', '/'] <+: led leads requested
      · rw [stripped_slash_of_dotSlash h]
        refine iff_of_false (fun heq => ?_) fun hlast => hlast.1 h
        -- Then there are no more pieces, and the request itself would be left whole.
        have hself : requested = led leads requested := by
          apply (led_isSuffix leads requested).eq_of_length_le
          rw [heq]
          exact (stripped_isSuffix requested).length_le
        rw [← hself] at heq h
        exact stripped_ne_self h heq.symm
      · rw [stripped_slash_of_not_dotSlash h, ih]
        exact (and_iff_right h).symm

theorem trim_led (h : Text.trim requested = requested) (leads : List Lead) :
    Text.trim (led leads requested) = led leads requested := by
  induction leads with
  | nil => exact h
  | cons lead leads ih =>
    cases lead with
    | dotSlash => exact Text.trim_cons (Text.trim_cons ih (by decide)) (by decide)
    | slash => exact Text.trim_cons ih (by decide)

theorem cleaned_led_iff (h : Text.trim requested = requested) :
    cleaned (led leads requested) = cleaned requested ↔ SlashesLast leads requested := by
  rw [cleaned_eq, cleaned_eq, trim_led h, h, stripped_led_iff]

theorem climbs_led (h : Path.climbs (led leads requested) = false) :
    Path.climbs requested = false := by
  rw [Path.climbs, Bool.eq_false_iff, ne_eq, Text.includes_iff] at h ⊢
  exact fun hclimbs => h (hclimbs.trans (led_isSuffix leads requested).isInfix)

/-! ## Two requests -/

/-- An answer as it would be given to another request, which is what an error names then. -/
def readdressed (requested : Text) : Except BundleError Text → Except BundleError Text
  | .error (.traversal _) => .error (.traversal requested)
  | .error (.fileNotFound _) => .error (.fileNotFound requested)
  | r => r

theorem Open.of_wanted_eq (h : Open paths requested) (hother : Path.climbs other = false)
    (hw : wanted other = wanted requested) : Open paths other :=
  ⟨hother, hw ▸ h.nonempty, hw ▸ h.unlisted, hw ▸ h.bare⟩

/-- What a request means is a matter of what it is compared by. -/
theorem Means.readdressed (h : Means preferred paths requested r)
    (hclimbs : Path.climbs requested = false) (hother : Path.climbs other = false)
    (hw : wanted other = wanted requested) :
    Means preferred paths other (readdressed other r) := by
  cases h with
  | climbs h => simp [h] at hclimbs
  | empty _ hempty => exact .empty hother (hw.trans hempty)
  | listed _ hne hp => exact .listed hother (hw ▸ hne) (hw ▸ hp)
  | extension _ hne hp hext => exact .extension hother (hw ▸ hne) (hw ▸ hp) (hw ▸ hext)
  | preferred h hsplit hbefore hp hext =>
    exact .preferred (h.of_wanted_eq hother hw) hsplit (hw ▸ hbefore) (hw ▸ hp) hext
  | least h hnone hp hleast =>
    exact .least (h.of_wanted_eq hother hw) (hw ▸ hnone) (hw ▸ hp) (hw ▸ hleast)
  | missing h hnone => exact .missing (h.of_wanted_eq hother hw) (hw ▸ hnone)

theorem find_eq_readdressed (hclimbs : Path.climbs requested = false)
    (hother : Path.climbs other = false) (hw : wanted other = wanted requested) :
    find preferred paths other = readdressed other (find preferred paths requested) :=
  ((means_of_find rfl).readdressed hclimbs hother hw).find_eq

/-- A list of what is left of a request, which it finds. -/
theorem find_cleaned (hclimbs : Path.climbs requested = false) (hne : cleaned requested ≠ []) :
    find [] [cleaned requested] requested = .ok (cleaned requested) := by
  have hlisted : representative? [cleaned requested] (wanted requested) =
      some (cleaned requested) := representative?_cons (wanted_eq requested).symm
  exact (Means.listed hclimbs (Text.lowercase_ne_nil hne) hlisted).find_eq

/-- If what is left of a request is also behind what is left of another one, the two have the same
answers exactly if nothing else is left. -/
theorem find_readdressed_iff (hclimbs : Path.climbs requested = false)
    (hother : Path.climbs other = false) (hsuffix : cleaned requested <:+ cleaned other) :
    (∀ preferred paths, find preferred paths other =
      readdressed other (find preferred paths requested)) ↔ cleaned other = cleaned requested := by
  constructor
  · intro hsame
    by_cases hempty : cleaned requested = []
    · -- A list of what is left of the other one, which the empty request does not find.
      by_contra hne
      have hw : wanted requested = [] := by
        rw [wanted_eq, hempty]
        rfl
      have hfind := hsame [] [cleaned other]
      rw [find_cleaned hother (hempty ▸ hne), (Means.empty hclimbs hw).find_eq] at hfind
      cases hfind
    · -- A list of what is left of the request, which is too short for anything longer.
      have hfind := hsame [] [cleaned requested]
      rw [find_cleaned hclimbs hempty] at hfind
      have hle := (wanted_isPrefix_of_find hfind).length_le
      obtain ⟨front, hfront⟩ := hsuffix
      rw [wanted_eq, ← hfront, Text.length_lowercase_append] at hle
      have hnil : Text.lowercase front = [] := List.length_eq_zero_iff.1 (by omega)
      rw [← hfront, Text.lowercase_eq_nil_iff.1 hnil, List.nil_append]
  · intro hsame preferred paths
    apply find_eq_readdressed hclimbs hother
    rw [wanted_eq, wanted_eq, hsame]

/-- Pieces in front of a trimmed request make no difference to its answers, whatever the list of
paths, exactly if no `./` comes right behind a slash of theirs. All that they may change is the
request that an error names. -/
theorem find_led_iff (htrim : Text.trim requested = requested)
    (hclimbs : Path.climbs (led leads requested) = false) :
    (∀ preferred paths, find preferred paths (led leads requested) =
      readdressed (led leads requested) (find preferred paths requested)) ↔
    SlashesLast leads requested := by
  rw [← cleaned_led_iff htrim]
  apply find_readdressed_iff (climbs_led hclimbs) hclimbs
  rw [cleaned_eq, cleaned_eq, trim_led htrim, htrim]
  exact stripped_isSuffix_led leads requested

/-- Two pieces of each kind, the slashes last. -/
theorem find_led_iff_of_four :
    let leads : List Lead := [.dotSlash, .dotSlash, .slash, .slash]
    let requested : Text := "Fig/plot"
    (Text.trim requested = requested ∧ Path.climbs (led leads requested) = false) ∧
      led leads requested = "././//Fig/plot" ∧ ∀ preferred paths,
        find preferred paths "././//Fig/plot" =
          readdressed "././//Fig/plot" (find preferred paths requested) := by
  intro leads requested
  have hrequest : Text.trim requested = requested ∧ Path.climbs (led leads requested) = false :=
    ⟨by decide, rfl⟩
  have hlast : SlashesLast leads requested := by
    simp only [leads, slashesLast_dotSlash_iff, slashesLast_slash_iff]
    exact ⟨by decide, by decide, by simp [SlashesLast]⟩
  exact ⟨hrequest, rfl, (find_led_iff hrequest.1 hrequest.2).2 hlast⟩

/-- A `./` behind a slash, and with it a listed path that is not found. -/
theorem not_found_behind_slash :
    let leads : List Lead := [.slash, .dotSlash]
    let requested : Text := "a/b.tex"
    let preferred := ({} : Settings).preferredExtensions
    (Text.trim requested = requested ∧ Path.climbs (led leads requested) = false) ∧
      find preferred [requested] requested = .ok requested ∧
      find preferred [requested] (led leads requested) =
        .error (.fileNotFound (led leads requested)) := by
  intro leads requested preferred
  have hlower : Text.lowercase requested = requested := Text.lowercase_of_isAscii (by decide)
  have hwanted : wanted requested = requested := hlower
  have hled : wanted (led leads requested) = "./a/b.tex" := Text.lowercase_of_isAscii (by decide)
  have hfound : Means preferred [requested] requested (.ok requested) :=
    .listed rfl (by rw [hwanted]; decide) (representative?_cons hwanted.symm)
  have hunlisted : representative? [requested] (wanted (led leads requested)) = none := by
    rw [hled]
    exact representative?_cons_of_ne (by rw [hlower]; decide)
  have hmissing : Means preferred [requested] (led leads requested)
      (.error (.fileNotFound (led leads requested))) :=
    .extension rfl (by rw [hled]; decide) hunlisted (by rw [hled]; rfl)
  exact ⟨⟨by decide, rfl⟩, hfound.find_eq, hmissing.find_eq⟩

end TexBundle.Lookup
