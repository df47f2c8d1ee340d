import TexBundle.Proofs.Lookup.Listing
import TexBundle.Proofs.Path

/-!
# Completed requests

A request that is no listed path's form is completed by whatever stands behind it and a dot in some
form. That may be an extension, which leaves the request's directory and the first part of its file
name as they are. It may as well be nothing, or lead on into a directory with a dot in its name, or
be the name of a hidden file.

* `AddsExtension`: a form is the request's with an extension;
* `open_of_find`, `Open.exists_find`: the requests that are completed, and by what;
* `find_completion`: what it has been completed to, and when that adds an extension only.
-/

namespace TexBundle.Lookup

variable {preferred paths : List Text} {requested w rest p q : Text}

/-- `form` is `w` with a dot and an extension behind its file name, which is there. -/
structure AddsExtension (w form : Text) : Prop where
  named : Path.fileName w ≠ []
  exists_rest : ∃ rest, form = w ++ '.' :: rest ∧ rest ≠ [] ∧ '/' ∉ rest

theorem addsExtension_iff :
    AddsExtension w (w ++ '.' :: rest) ↔ Path.fileName w ≠ [] ∧ rest ≠ [] ∧ '/' ∉ rest := by
  constructor
  · rintro ⟨hnamed, rest', hrest, h⟩
    obtain rfl : rest = rest' := (List.cons.inj (List.append_cancel_left hrest)).2
    exact ⟨hnamed, h⟩
  · rintro ⟨hnamed, h⟩
    exact ⟨hnamed, rest, rfl, h⟩

/-! ## What a request is completed to -/

/-- A request that is answered and is no listed path's form is open, and a listed path completes
it. -/
theorem open_of_find (hunlisted : ∀ q ∈ paths, Text.lowercase q ≠ wanted requested)
    (h : find preferred paths requested = .ok p) :
    Open paths requested ∧ ∃ rest, Completes paths (wanted requested) rest p := by
  cases means_of_find h with
  | listed _ _ hp =>
    exact absurd (lowercase_of_representative? hp) (hunlisted p (mem_of_representative? hp))
  | preferred hopen _ _ hp _ => exact ⟨hopen, _, hp⟩
  | least hopen _ hp _ => exact ⟨hopen, _, hp⟩

theorem exists_completes (hq : q ∈ paths) (hform : Text.lowercase q = w ++ '.' :: rest) :
    ∃ p, Completes paths w rest p := by
  obtain ⟨p, hp⟩ := exists_representative? hq
  rw [hform] at hp
  exact ⟨p, hp⟩

/-- What completes an open request is found if the preferred extensions are nothing but what it
adds. -/
theorem Open.find_of_completes (h : Open paths requested)
    (hp : Completes paths (wanted requested) rest p) : find [rest] paths requested = .ok p := by
  have hmeans : Means [rest] paths requested (.ok p) :=
    .preferred h (List.nil_append [rest]).symm (List.forall_mem_nil _) hp (beq_self_eq_true _)
  exact hmeans.find_eq

/-- An open request that something completes is answered, whatever the preferred extensions. -/
theorem Open.exists_find (h : Open paths requested)
    (hp : Completes paths (wanted requested) rest p) (preferred : List Text) :
    ∃ q ∈ paths, find preferred paths requested = .ok q := by
  obtain ⟨r, hr⟩ : ∃ r, Means preferred paths requested r := exists_means_of_open h
  rw [hr.find_eq]
  cases hr with
  | climbs hclimbs => exact absurd hclimbs (by simp [h.climbs])
  | empty _ hw => exact absurd hw h.nonempty
  | listed _ _ hlisted => exact ⟨_, mem_of_representative? hlisted, rfl⟩
  | extension _ _ _ hext => exact absurd hext (by simp [h.bare])
  | preferred _ _ _ hfound _ => exact ⟨_, mem_of_representative? hfound, rfl⟩
  | least _ _ hfound _ => exact ⟨_, mem_of_representative? hfound, rfl⟩
  | missing _ hnone => exact absurd hp (hnone rest p)

/-- A request that is answered by what is no listed path's form is answered by a form with a dot and
something behind its own, and in its own directory exactly if no slash follows. All that it could
be answered by, for whatever preferred extensions, adds an extension exactly if the request has a
file name and no listed path that starts with it and a dot ends there or leads on into a
directory. -/
theorem find_completion (hunlisted : ∀ q ∈ paths, Text.lowercase q ≠ wanted requested)
    (h : find preferred paths requested = .ok p) :
    (∃ rest, Text.lowercase p = wanted requested ++ '.' :: rest ∧
      (Path.directory (Text.lowercase p) = Path.directory (wanted requested) ↔ '/' ∉ rest)) ∧
    ((∀ preferred p, find preferred paths requested = .ok p →
        AddsExtension (wanted requested) (Text.lowercase p)) ↔
      Path.fileName (wanted requested) ≠ [] ∧
        ∀ q ∈ paths, ∀ rest, Text.lowercase q = wanted requested ++ '.' :: rest →
          rest ≠ [] ∧ '/' ∉ rest) := by
  obtain ⟨hopen, rest, hp⟩ := open_of_find hunlisted h
  refine ⟨⟨rest, hp.lowercase_eq, ?_⟩, fun hadds => ⟨(hadds preferred p h).named, ?_⟩, ?_⟩
  · rw [hp.lowercase_eq]
    exact Path.directory_append_dot_iff
  · intro q hq rest hform
    obtain ⟨p', hp'⟩ := exists_completes hq hform
    have hadded := hadds [rest] p' (hopen.find_of_completes hp')
    rw [hp'.lowercase_eq] at hadded
    exact (addsExtension_iff.1 hadded).2
  · rintro ⟨hnamed, hrests⟩ preferred' p' hfind
    obtain ⟨-, rest', hp'⟩ := open_of_find hunlisted hfind
    rw [hp'.lowercase_eq, addsExtension_iff]
    exact ⟨hnamed, hrests p' (mem_of_representative? hp') rest' hp'.lowercase_eq⟩

/-- A figure in a preferred format, beside a directory with a dot in its name. -/
theorem find_completion_beside :
    let paths : List Text := ["Fig/plot.v1/a.png", "Fig/Plot.pdf"]
    let preferred : List Text := ["pdf"]
    (∀ q ∈ paths, Text.lowercase q ≠ wanted "fig/plot") ∧
      find preferred paths "fig/plot" = .ok "Fig/Plot.pdf" ∧
      (∃ rest, Text.lowercase "Fig/Plot.pdf" = wanted "fig/plot" ++ '.' :: rest) ∧
      ¬∀ preferred p, find preferred paths "fig/plot" = .ok p →
        AddsExtension (wanted "fig/plot") (Text.lowercase p) := by
  intro paths preferred
  have hwanted : wanted "fig/plot" = "fig/plot" := Text.lowercase_of_isAscii (by decide)
  have hforms : ∀ q ∈ paths, Text.lowercase q = Text.asciiLower q := fun q hq =>
    Text.lowercase_of_isAscii (by revert q; decide)
  have hunlisted : ∀ q ∈ paths, Text.lowercase q ≠ wanted "fig/plot" := by
    intro q hq
    rw [hforms q hq, hwanted]
    revert q
    decide
  have hopen : Open paths "fig/plot" :=
    ⟨rfl, by rw [hwanted]; decide, representative?_eq_none_iff.2 hunlisted, by rw [hwanted]; rfl⟩
  have hcompletes : Completes paths (wanted "fig/plot") "pdf" "Fig/Plot.pdf" := by
    rw [Completes, hwanted, representative?_cons_of_ne, representative?_cons]
    · rw [hforms _ (by decide)]
      decide
    · rw [hforms _ (by decide)]
      decide
  have hmeans : Means preferred paths "fig/plot" (.ok "Fig/Plot.pdf") :=
    .preferred hopen (List.nil_append preferred).symm (List.forall_mem_nil _) hcompletes (by decide)
  obtain ⟨⟨rest, hrest, -⟩, hadds⟩ := find_completion hunlisted hmeans.find_eq
  refine ⟨hunlisted, hmeans.find_eq, ⟨rest, hrest⟩, fun h => ?_⟩
  have hslash := (hadds.1 h).2 "Fig/plot.v1/a.png" (by decide) "v1/a.png" (by
    rw [hforms _ (by decide), hwanted]
    decide)
  exact hslash.2 (by decide)

/-- What a lone listed path completes. -/
theorem find_singleton (hclimbs : Path.climbs requested = false) (hw : wanted requested ≠ [])
    (hbare : Path.hasExtension (wanted requested) = false)
    (hform : Text.lowercase p = wanted requested ++ '.' :: rest) :
    Text.lowercase p ≠ wanted requested ∧ find preferred [p] requested = .ok p := by
  have hunlisted : Text.lowercase p ≠ wanted requested := by
    rw [hform]
    exact fun e => List.cons_ne_nil _ _ (List.append_right_eq_self.1 e)
  have hopen : Open [p] requested := ⟨hclimbs, hw, representative?_cons_of_ne hunlisted, hbare⟩
  obtain ⟨_, hcompletes⟩ := exists_completes (List.mem_singleton_self p) hform
  obtain ⟨p', hp', hfind⟩ := hopen.exists_find hcompletes preferred
  rw [List.mem_singleton.1 hp'] at hfind
  exact ⟨hunlisted, hfind⟩

/-- Three requests that are completed, by a file in another directory, by a hidden file, and by
nothing but the dot. -/
theorem not_addsExtension_of_find :
    ((Text.lowercase "a.d/b.tex" ≠ wanted "a" ∧ find [] ["a.d/b.tex"] "a" = .ok "a.d/b.tex") ∧
      ¬AddsExtension (wanted "a") (Text.lowercase "a.d/b.tex")) ∧
    ((Text.lowercase "a/.b" ≠ wanted "a/" ∧ find [] ["a/.b"] "a/" = .ok "a/.b") ∧
      ¬AddsExtension (wanted "a/") (Text.lowercase "a/.b")) ∧
    (Text.lowercase "a." ≠ wanted "a" ∧ find [] ["a."] "a" = .ok "a.") ∧
      ¬AddsExtension (wanted "a") (Text.lowercase "a.") := by
  have hfile : wanted "a" = "a" := Text.lowercase_of_isAscii (by decide)
  have hdirectory : wanted "a/" = "a/" := Text.lowercase_of_isAscii (by decide)
  have hother : Text.lowercase "a.d/b.tex" = wanted "a" ++ '.' :: "d/b.tex".toList := by
    rw [hfile]
    exact Text.lowercase_of_isAscii (by decide)
  have hhidden : Text.lowercase "a/.b" = wanted "a/" ++ '.' :: "b".toList := by
    rw [hdirectory]
    exact Text.lowercase_of_isAscii (by decide)
  have hnothing : Text.lowercase "a." = wanted "a" ++ '.' :: [] := by
    rw [hfile]
    exact Text.lowercase_of_isAscii (by decide)
  refine ⟨⟨find_singleton rfl ?_ ?_ hother, ?_⟩, ⟨find_singleton rfl ?_ ?_ hhidden, ?_⟩,
    find_singleton rfl ?_ ?_ hnothing, ?_⟩
  · rw [hfile]
    decide
  · rw [hfile]
    rfl
  · rw [hother, addsExtension_iff]
    decide
  · rw [hdirectory]
    decide
  · rw [hdirectory]
    rfl
  · rw [hhidden, addsExtension_iff, hdirectory]
    decide
  · rw [hfile]
    decide
  · rw [hfile]
    rfl
  · rw [hnothing, addsExtension_iff]
    decide

end TexBundle.Lookup
