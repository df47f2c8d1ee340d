import TexBundle.Codec.Document
import TexBundle.Codec.Results
import TexBundle.Codec.Settings
import TexBundle.Proofs.Codec.Outline
import TexBundle.Proofs.Json.Decoder

/-!
# Decoding undoes encoding

* `run_toJson`: every value is read back from the JSON text that is written for it.

For each type there are two lemmas: `fits_toJson`, that its numbers are in the range that is read
back, and `decoder_toJson`, that the reading of its JSON is decoded to it if as many levels are left
as the type nests.
-/

namespace TexBundle

open Json Json.Record

/-! ## Documents and manifests -/

theorem ListedFile.fits_toJson (f : ListedFile) : Fits f.toJson := by
  rw [ListedFile.toJson, fits_object_iff, List.forall_mem_append, List.forall_mem_append]
  exact ⟨⟨by simp [Json.member], fits_optionalMember fits_string _ _⟩,
    fits_optionalMember fits_word _ _⟩

theorem ListedFile.decoder_toJson (f : ListedFile) (depth : Nat) :
    ListedFile.decoder (depth + 1) (tree f.toJson) = .ok f := by
  obtain ⟨path, sha256, size⟩ := f
  -- the members that are left out depend on the two optional fields, so no key list is fixed
  refine decoder_tree _ (by decide) ?_
    (ofMembers_field (ofMembers_field (ofMembers_field rfl ?_) ?_) ?_)
  · rw [List.map_append, List.map_append]
    exact ((List.Sublist.refl _).append (keys_optionalMember_sublist ..)).append
      (keys_optionalMember_sublist ..)
  · exact member_of_lookup rfl (Decoder.text_tree path depth)
  · refine member_of_optional .string ?_ (Decoder.text_tree · depth) (by simp [tree])
    cases sha256 <;> cases size <;> rfl
  · have hword (n : UInt64) : Decoder.word "u64" depth (tree (.number n.toNat)) = .ok n :=
      Decoder.word_tree _ n depth
    have hnull (n : UInt64) : tree (.number n.toNat) ≠ .null := by simp [tree]
    refine member_of_optional (fun n : UInt64 => .number n.toNat) ?_ ?_ ?_
    · cases sha256 <;> cases size <;> rfl
    · exact hword
    · exact hnull

theorem Manifest.fits_toJson (m : Manifest) : Fits m.toJson := by
  simp [Manifest.toJson, ListedFile.fits_toJson]

theorem Manifest.decoder_toJson (m : Manifest) (depth : Nat) :
    Manifest.decoder (depth + 3) (tree m.toJson) = .ok m := by
  obtain ⟨bucket, basePrefix, entryPath, files⟩ := m
  refine decoder_tree _ (by decide) (List.Sublist.refl _) (ofMembers_field (ofMembers_field
    (ofMembers_field (ofMembers_field rfl ?_) ?_) ?_) ?_)
  · exact member_of_lookup rfl (Decoder.text_tree bucket _)
  · exact member_of_lookup rfl (Decoder.text_tree basePrefix _)
  · exact member_of_lookup rfl (Decoder.text_tree entryPath _)
  · exact member_of_lookup rfl (Decoder.list_tree fun f _ => f.decoder_toJson depth)

theorem Metadata.fits_toJson (m : Metadata) : Fits m.toJson :=
  fits_object_iff.2 (fits_optionalMember fits_string _ _)

theorem Metadata.decoder_toJson (m : Metadata) (depth : Nat) :
    Metadata.decoder (depth + 1) (tree m.toJson) = .ok m := by
  obtain ⟨latex⟩ := m
  refine decoder_tree _ (by decide) (keys_optionalMember_sublist ..) (ofMembers_field rfl ?_)
  refine member_of_optional .string ?_ (Decoder.text_tree · depth) (by simp [tree])
  cases latex <;> rfl

theorem Document.fits_toJson (d : Document) : Fits d.toJson := by
  rw [Document.toJson, fits_object_iff]
  simp only [List.forall_mem_append]
  have hid : ∀ m ∈ Json.member "id" (.string d.id), Fits m.2 := by simp [Json.member]
  have htitle : ∀ m ∈ Json.member "title" (.string d.title), Fits m.2 := by simp [Json.member]
  have hmetadata : ∀ m ∈ Json.member "metadata" d.metadata.toJson, Fits m.2 := by
    simp [Json.member, d.metadata.fits_toJson]
  exact ⟨⟨⟨⟨hid, htitle⟩, fits_optionalMember fits_string _ _⟩, hmetadata⟩,
    fits_optionalMember Manifest.fits_toJson _ _⟩

theorem Document.decoder_toJson (d : Document) (depth : Nat) :
    Document.decoder (depth + 4) (tree d.toJson) = .ok d := by
  obtain ⟨id, title, projectId, metadata, manifest⟩ := d
  refine decoder_tree _ (by decide) ?_ (ofMembers_field (ofMembers_field (ofMembers_field
    (ofMembers_field (ofMembers_field rfl ?_) ?_) ?_) ?_) ?_)
  · simp only [List.map_append]
    have hbefore := (List.Sublist.refl [("id" : Text), ("title" : Text)]).append
      (keys_optionalMember_sublist "projectId" (projectId.map .string))
    exact (hbefore.append (List.Sublist.refl [("metadata" : Text)])).append
      (keys_optionalMember_sublist "latexManifest" (manifest.map Manifest.toJson))
  · exact member_of_lookup rfl (Decoder.text_tree id _)
  · exact member_of_lookup rfl (Decoder.text_tree title _)
  · refine member_of_optional .string ?_ (Decoder.text_tree · _) (by simp [tree])
    cases projectId <;> cases manifest <;> rfl
  · refine member_of_lookup ?_ (metadata.decoder_toJson (depth + 2))
    cases projectId <;> rfl
  · refine member_of_optional Manifest.toJson ?_ (Manifest.decoder_toJson · depth)
      (by simp [Manifest.toJson, tree])
    cases projectId <;> cases manifest <;> rfl

/-! ## Results -/

theorem ReferenceSection.fits_toJson (s : ReferenceSection) : Fits s.toJson := by
  simp [ReferenceSection.toJson]

theorem ReferenceSection.decoder_toJson (s : ReferenceSection) (depth : Nat) :
    ReferenceSection.decoder (depth + 2) (tree s.toJson) = .ok s := by
  obtain ⟨id, title, lines⟩ := s
  refine decoder_tree _ (by decide) (List.Sublist.refl _)
    (ofMembers_field (ofMembers_field (ofMembers_field rfl ?_) ?_) ?_)
  · exact member_of_lookup rfl (Decoder.text_tree id _)
  · exact member_of_lookup rfl (Decoder.text_tree title _)
  · exact member_of_lookup rfl (Decoder.list_tree fun line _ => Decoder.text_tree line depth)

theorem Preview.fits_toJson (p : Preview) : Fits p.toJson := by
  have hreferences : Fits (ofOption ReferenceSection.toJson p.references) := by
    cases p.references <;> simp [ofOption, ReferenceSection.fits_toJson]
  simp [Preview.toJson, hreferences]

theorem Preview.decoder_toJson (p : Preview) (depth : Nat) :
    Preview.decoder (depth + 3) (tree p.toJson) = .ok p := by
  obtain ⟨source, references⟩ := p
  refine decoder_tree _ (by decide) (List.Sublist.refl _)
    (ofMembers_field (ofMembers_field rfl ?_) ?_)
  · exact member_of_lookup rfl (Decoder.text_tree source _)
  · refine member_of_lookup rfl ?_
    cases references with
    | none => rfl
    | some s =>
      exact Decoder.option_tree (s.decoder_toJson depth)
        (by simp [ofOption, ReferenceSection.toJson, tree])

theorem PackagedFile.fits_toJson (f : PackagedFile) : Fits f.toJson := by
  simp [PackagedFile.toJson]

theorem PackagedFile.decoder_toJson (f : PackagedFile) (depth : Nat) :
    PackagedFile.decoder (depth + 2) (tree f.toJson) = .ok f := by
  obtain ⟨path, bytes⟩ := f
  refine decoder_tree _ (by decide) (List.Sublist.refl _)
    (ofMembers_field (ofMembers_field rfl ?_) ?_)
  · exact member_of_lookup rfl (Decoder.text_tree path _)
  · exact member_of_lookup rfl (Decoder.list_tree fun byte _ => Decoder.byte_tree byte depth)

theorem Package.fits_toJson (p : Package) : Fits p.toJson := by
  simp [Package.toJson, PackagedFile.fits_toJson]

theorem Package.decoder_toJson (p : Package) (depth : Nat) :
    Package.decoder (depth + 4) (tree p.toJson) = .ok p := by
  obtain ⟨mainSource, files⟩ := p
  refine decoder_tree _ (by decide) (List.Sublist.refl _)
    (ofMembers_field (ofMembers_field rfl ?_) ?_)
  · exact member_of_lookup rfl (Decoder.text_tree mainSource _)
  · exact member_of_lookup rfl (Decoder.list_tree fun f _ => f.decoder_toJson depth)

theorem Defect.fits_toJson (d : Defect) : Fits d.toJson := by
  simp [Defect.toJson]

theorem Defect.decoder_toJson (d : Defect) (depth : Nat) :
    Defect.decoder (depth + 1) (tree d.toJson) = .ok d := by
  obtain ⟨label, kind, reason⟩ := d
  have hkind : DefectKind.decoder depth (tree (.string kind.name)) = .ok kind := by
    cases kind <;> rfl
  refine decoder_tree _ (by decide) (List.Sublist.refl _)
    (ofMembers_field (ofMembers_field (ofMembers_field rfl ?_) ?_) ?_)
  · exact member_of_lookup rfl (Decoder.text_tree label depth)
  · exact member_of_lookup rfl hkind
  · exact member_of_lookup rfl (Decoder.text_tree reason depth)

theorem Resolution.fits_toJson (r : Resolution) : Fits r.toJson := by
  simp [Resolution.toJson]

theorem Resolution.decoder_toJson (r : Resolution) (depth : Nat) :
    Resolution.decoder (depth + 1) (tree r.toJson) = .ok r := by
  obtain ⟨requested, resolved⟩ := r
  refine decoder_tree _ (by decide) (List.Sublist.refl _)
    (ofMembers_field (ofMembers_field rfl ?_) ?_)
  · exact member_of_lookup rfl (Decoder.text_tree requested depth)
  · exact member_of_lookup rfl (Decoder.text_tree resolved depth)

/-! ## Settings -/

theorem Settings.fits_toJson (s : Settings) : Fits s.toJson := by
  simp [Settings.toJson]

theorem Settings.decoder_toJson (s : Settings) (depth : Nat) :
    Settings.decoder (depth + 2) (tree s.toJson) = .ok s := by
  obtain ⟨maxIncludeDepth, referenceFallbackLimit, titleLimit, authorLimit, yearLimit,
    preferredExtensions, maxExpandedBytes, defaultBucket⟩ := s
  refine decoder_tree _ (by decide) (List.Sublist.refl _) (ofMembers_field (ofMembers_field
    (ofMembers_field (ofMembers_field (ofMembers_field (ofMembers_field (ofMembers_field
    (ofMembers_field rfl ?_) ?_) ?_) ?_) ?_) ?_) ?_) ?_)
  · exact member_of_lookup rfl (Decoder.word_tree _ maxIncludeDepth _)
  · exact member_of_lookup rfl (Decoder.word_tree _ referenceFallbackLimit _)
  · exact member_of_lookup rfl (Decoder.word_tree _ titleLimit _)
  · exact member_of_lookup rfl (Decoder.word_tree _ authorLimit _)
  · exact member_of_lookup rfl (Decoder.word_tree _ yearLimit _)
  · exact member_of_lookup rfl (Decoder.list_tree fun ext _ => Decoder.text_tree ext depth)
  · exact member_of_lookup rfl (Decoder.word_tree _ maxExpandedBytes _)
  · exact member_of_lookup rfl (Decoder.text_tree defaultBucket _)

/-! ## Texts -/

/-- Whatever is written in JSON is read back from its text; an outline nests at most the levels that
are read. -/
theorem run_toJson :
    (∀ d : Document, Document.decoder.run d.toJson.compact = .ok d) ∧
    (∀ m : Manifest, Manifest.decoder.run m.toJson.compact = .ok m) ∧
    (∀ s : ReferenceSection, ReferenceSection.decoder.run s.toJson.compact = .ok s) ∧
    (∀ d : Defect, Defect.decoder.run d.toJson.compact = .ok d) ∧
    (∀ f : PackagedFile, PackagedFile.decoder.run f.toJson.compact = .ok f) ∧
    (∀ p : Package, Package.decoder.run p.toJson.compact = .ok p) ∧
    (∀ p : Preview, Preview.decoder.run p.toJson.compact = .ok p) ∧
    (∀ r : Resolution, Resolution.decoder.run r.toJson.compact = .ok r) ∧
    (∀ x : Outline, x.toJson.depth ≤ maxDepth → Outline.decoder.run x.toJson.compact = .ok x) ∧
    (∀ s : Settings, Settings.decoder.run s.fileText = .ok s) := by
  -- each number is what is left of the levels behind those of the type
  refine ⟨fun d => ?_, fun m => ?_, fun s => ?_, fun d => ?_, fun f => ?_, fun p => ?_,
    fun p => ?_, fun r => ?_, fun x hdepth => ?_, fun s => ?_⟩
  · exact (Decoder.run_compact d.fits_toJson).trans (d.decoder_toJson 123)
  · exact (Decoder.run_compact m.fits_toJson).trans (m.decoder_toJson 124)
  · exact (Decoder.run_compact s.fits_toJson).trans (s.decoder_toJson 125)
  · exact (Decoder.run_compact d.fits_toJson).trans (d.decoder_toJson 126)
  · exact (Decoder.run_compact f.fits_toJson).trans (f.decoder_toJson 125)
  · exact (Decoder.run_compact p.fits_toJson).trans (p.decoder_toJson 123)
  · exact (Decoder.run_compact p.fits_toJson).trans (p.decoder_toJson 124)
  · exact (Decoder.run_compact r.fits_toJson).trans (r.decoder_toJson 126)
  · exact (Decoder.run_compact x.fits_toJson).trans
      (x.decodeWith_toJson Outline.readsKinds_readKind hdepth le_rfl)
  · exact (Decoder.run_pretty s.fits_toJson).trans (s.decoder_toJson 125)

/-- As deep as can be: a paragraph below sixty-three sections. -/
theorem run_toJson_of_depth_eq_maxDepth :
    ∃ x : Outline, x.toJson.depth = maxDepth ∧ Outline.decoder.run x.toJson.compact = .ok x := by
  let x : Outline :=
    (List.range 63).foldl (fun x _ => .heading "id" "title" 255 [x]) (.paragraph "deep")
  have hdepth : x.toJson.depth = maxDepth := by decide +kernel
  exact ⟨x, hdepth, run_toJson.2.2.2.2.2.2.2.2.1 x hdepth.le⟩

end TexBundle
