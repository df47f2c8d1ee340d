import TexBundle.Proofs.Lookup.Completion
import TexBundle.Proofs.Text.Sigma

/-!
# Completions as they are written

A listed path may be a request as it is written, with a dot and more behind it. The two are compared
by their lower-case forms, and that of the path need not start with that of the request: a capital
sigma at the end of the request is no longer at the end of a word if letters come behind the dot.

* `hasExtension_lowercase`: a form has an extension exactly if the text has one;
* `find_literal_iff`: the requests that every such path answers.
-/

namespace TexBundle.Lookup

open Text (lowercaseBetween mem_lowercaseBetween_iff lowercaseBetween_eq_nil_iff)

variable {preferred paths : List Text} {s t rest before behind : Text}

/-! ## Extensions of forms -/

theorem mem_dot_iff : '.' ∈ lowercaseBetween before behind t ↔ '.' ∈ t :=
  mem_lowercaseBetween_iff (by decide) (by decide)

theorem mem_slash_iff : '/' ∈ lowercaseBetween before behind t ↔ '/' ∈ t :=
  mem_lowercaseBetween_iff (by decide) (by decide)

theorem fileName_lowercaseBetween_eq_nil_iff :
    Path.fileName (lowercaseBetween before behind t) = [] ↔ Path.fileName t = [] := by
  cases hslash : t.breakAtLast? '/' with
  | none =>
    have ht := Text.breakAtLast?_eq_none_iff.1 hslash
    rw [Path.fileName_of_not_mem ht, Path.fileName_of_not_mem (mt mem_slash_iff.1 ht),
      lowercaseBetween_eq_nil_iff]
  | some p =>
    obtain ⟨dir, name⟩ := p
    have hname := Text.not_mem_of_breakAtLast? hslash
    rw [Text.eq_of_breakAtLast? hslash, Text.lowercaseBetween_append_cons (by decide),
      Path.fileName_append_cons dir hname, Path.fileName_append_cons _ (mt mem_slash_iff.1 hname),
      lowercaseBetween_eq_nil_iff]

theorem hasExtension_lowercase (t : Text) :
    Path.hasExtension (Text.lowercase t) = Path.hasExtension t := by
  rw [Text.lowercase, Text.lowercaseAfter_eq, Bool.eq_iff_iff]
  cases hdot : t.breakAtLast? '.' with
  | none =>
    have ht := Text.breakAtLast?_eq_none_iff.1 hdot
    have hname {path : Text} (hpath : '.' ∉ path) : Path.hasExtension path = false :=
      Path.hasExtension_of_not_mem fun hmem => hpath ((Path.fileName_isSuffix path).subset hmem)
    rw [hname ht, hname (mt mem_dot_iff.1 ht)]
  | some p =>
    obtain ⟨stem, ext⟩ := p
    have hext := Text.not_mem_of_breakAtLast? hdot
    rw [Text.eq_of_breakAtLast? hdot, Text.lowercaseBetween_append_cons (by decide),
      Path.hasExtension_append_dot_iff stem hext,
      Path.hasExtension_append_dot_iff _ (mt mem_dot_iff.1 hext)]
    simp only [ne_eq, fileName_lowercaseBetween_eq_nil_iff, lowercaseBetween_eq_nil_iff,
      mem_slash_iff]

/-! ## Paths that start with the request -/

/-- A listed path whose form starts with a request's and a dot is not missed. -/
theorem exists_find_of_isPrefix (hs : Requestable s) (hbare : Path.hasExtension s = false)
    {path : Text} (hpath : path ∈ paths) (hform : Text.lowercase path = wanted s ++ '.' :: rest)
    (preferred : List Text) : ∃ p ∈ paths, find preferred paths s = .ok p := by
  have hwanted := wanted_eq_lowercase_iff.2 hs.toIsClean
  cases hlisted : representative? paths (wanted s) with
  | some p =>
    exact ⟨p, mem_of_representative? hlisted, hs.find_eq (hwanted ▸ hlisted)⟩
  | none =>
    have hopen : Open paths s :=
      ⟨hs.climbs, hwanted ▸ Text.lowercase_ne_nil hs.nonempty, hlisted,
        by rw [hwanted, hasExtension_lowercase, hbare]⟩
    obtain ⟨p, hp⟩ := exists_completes hpath hform
    exact hopen.exists_find hp preferred

/-- A request without an extension that can be made as it is finds some path in every list with a
path that goes on from it behind a dot, unless it ends in a capital sigma and a letter comes next
behind that dot. -/
theorem find_literal_iff (hs : Requestable s) (hbare : Path.hasExtension s = false) :
    (∀ preferred paths, s ++ '.' :: rest ∈ paths →
      ∃ p ∈ paths, find preferred paths s = .ok p) ↔
    ¬(Text.EndsInSigma [] s ∧ Text.startsCased rest = true) := by
  have hwanted := wanted_eq_lowercase_iff.2 hs.toIsClean
  rw [← Text.startsCased_dot]
  constructor
  · intro hfound
    obtain ⟨p, hp, hfind⟩ := hfound [] [s ++ '.' :: rest] (List.mem_singleton_self _)
    have hprefix := wanted_isPrefix_of_find hfind
    rwa [List.mem_singleton.1 hp, hwanted, Text.lowercase_isPrefix_iff] at hprefix
  · intro hsigma preferred paths hpath
    have hform := Text.lowercase_append_cons (by decide) hsigma
    rw [← hwanted] at hform
    exact exists_find_of_isPrefix hs hbare hpath hform preferred

/-- A capital sigma at the start of a word. -/
theorem find_literal_iff_of_initial :
    let s : Text := "ΣΑ"
    (Requestable s ∧ Path.hasExtension s = false) ∧
      ∀ preferred, find preferred ["ΣΑ.Pdf"] s = .ok "ΣΑ.Pdf" := by
  intro s
  have hs : Requestable s := ⟨⟨by decide, by decide, rfl⟩, by decide, rfl⟩
  have hsigma : ¬Text.EndsInSigma [] s := by
    intro h
    rcases Text.endsInSigma_cons_iff.1 h with ⟨-, hcased, -⟩ | h
    · cases hcased
    rcases Text.endsInSigma_cons_iff.1 h with ⟨halpha, -⟩ | h
    · cases halpha
    · exact Text.not_endsInSigma_nil h
  refine ⟨⟨hs, rfl⟩, fun preferred => ?_⟩
  have hpath : s ++ '.' :: "Pdf".toList ∈ ["ΣΑ.Pdf".toList] := List.mem_singleton_self _
  obtain ⟨p, hp, hfind⟩ :=
    (find_literal_iff hs rfl).2 (fun h => hsigma h.1) preferred ["ΣΑ.Pdf"] hpath
  rwa [List.mem_singleton.1 hp] at hfind

/-- A capital sigma at the end, and a listed path that is not found. -/
theorem not_found_behind_sigma :
    let s : Text := "ΑΣ"
    let path : Text := "ΑΣ.pdf"
    (Requestable s ∧ Path.hasExtension s = false) ∧ path = s ++ '.' :: "pdf".toList ∧
      find ({} : Settings).preferredExtensions [path] s = .error (.fileNotFound s) := by
  intro s path
  have hs : Requestable s := ⟨⟨by decide, by decide, rfl⟩, by decide, rfl⟩
  have hwanted := wanted_eq_lowercase_iff.2 hs.toIsClean
  have halpha : Text.startsCased "Α" = true := by
    set_option maxRecDepth 8000 in decide
  have hcased : Text.startsCased ".pdf" = true := by
    set_option maxRecDepth 8000 in decide
  have hsigma : Text.EndsInSigma [] s := ⟨"Α", [], rfl, halpha, rfl⟩
  have hprefix : ¬wanted s <+: Text.lowercase path := by
    rw [hwanted]
    exact fun h => Text.lowercase_isPrefix_iff.1 h ⟨hsigma, hcased⟩
  have hopen : Open [path] s := by
    refine ⟨rfl, hwanted ▸ Text.lowercase_ne_nil (by decide), ?_, ?_⟩
    · exact representative?_cons_of_ne fun h => hprefix (h ▸ List.prefix_refl _)
    · rw [hwanted, hasExtension_lowercase]
      rfl
  have hmissing : Means ({} : Settings).preferredExtensions [path] s
      (.error (.fileNotFound s)) := by
    refine .missing hopen fun rest p hp => hprefix ?_
    have hform := hp.lowercase_eq
    rw [List.mem_singleton.1 (mem_of_representative? hp)] at hform
    rw [hform]
    exact List.prefix_append _ _
  exact ⟨⟨hs, rfl⟩, rfl, hmissing.find_eq⟩

end TexBundle.Lookup
