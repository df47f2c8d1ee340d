import TexBundle.Proofs.Bundler.Run
import TexBundle.Proofs.Expansion.Markers
import TexBundle.Proofs.Path.Climbing
import Mathlib.Data.List.TakeWhile

/-!
# Where a bundle is read from

The files of a bundle are read below its prefix. What a valid manifest does not rule out are a
prefix of slashes alone, which means the root of the bucket, and paths that leave the bundle by
`..`.

* `Manifest.Confines`: a file is read strictly below the prefix;
* `Manifest.confines_iff`: the manifests that confine all of their files, and with them all
  directives;
* `Manifest.not_confines_parent`: a valid one that does not.
-/

namespace TexBundle

/-! ## Keys -/

namespace Path

theorem dropEndSlashes_eq_nil_iff {base : Text} :
    dropEndSlashes base = [] ↔ ∀ c ∈ base, c = '/' := by
  rw [dropEndSlashes, List.reverse_eq_nil_iff, List.dropWhile_eq_nil_iff]
  simp

theorem below_eq {relative : Text} (h : isAbsolute relative = false) (base : Text) :
    below base relative =
      if dropEndSlashes base = [] then relative else dropEndSlashes base ++ '/' :: relative := by
  rw [below, dropSlashes_eq_self h]

end Path

namespace Manifest

/-- The paths that a bundle is read at: its entry and its listed files. -/
def paths (m : Manifest) : List Text := m.entryPath :: m.files.map (·.path)

theorem validate_eq_ok_iff {m : Manifest} :
    m.validate = .ok () ↔ Text.allBlank m.basePrefix = false ∧ Text.allBlank m.entryPath = false ∧
      ∀ path ∈ m.paths, Path.isAbsolute path = false := by
  have hfind : m.files.find? (Path.isAbsolute ·.path) = none ↔
      ∀ f ∈ m.files, Path.isAbsolute f.path = false := by
    simp [List.find?_eq_none]
  rw [paths, List.forall_mem_cons, List.forall_mem_map, ← hfind, validate]
  cases Text.allBlank m.basePrefix with
  | true => simp [throw, throwThe, MonadExceptOf.throw]
  | false =>
    cases Text.allBlank m.entryPath with
    | true => simp [throw, throwThe, MonadExceptOf.throw]
    | false =>
      cases Path.isAbsolute m.entryPath with
      | true => simp [throw, throwThe, MonadExceptOf.throw]
      | false =>
        cases m.files.find? (Path.isAbsolute ·.path) with
        | some f => simp [throw, throwThe, MonadExceptOf.throw]
        | none => simp [pure, Except.pure]

/-- The key of a file is the prefix of the bundle without slashes at its end, which is not empty,
and behind one slash the path, which does not lead out of the bundle. -/
structure Confines (m : Manifest) (path : Text) : Prop where
  prefix_ne : Path.dropEndSlashes m.basePrefix ≠ []
  storageKey_eq : m.storageKey path = Path.dropEndSlashes m.basePrefix ++ '/' :: path
  inside : ¬ Path.StartsAbove (Path.canonical path)

theorem confines_path_iff {m : Manifest} {path : Text} (h : Path.isAbsolute path = false) :
    m.Confines path ↔ (∃ c ∈ m.basePrefix, c ≠ '/') ∧ ¬ Path.Leaves path := by
  have hbase : Path.dropEndSlashes m.basePrefix ≠ [] ↔ ∃ c ∈ m.basePrefix, c ≠ '/' := by
    rw [Ne, Path.dropEndSlashes_eq_nil_iff]
    simp
  rw [← hbase, ← Path.startsAbove_canonical_iff]
  constructor
  · intro hc
    exact ⟨hc.prefix_ne, hc.inside⟩
  · rintro ⟨hne, hin⟩
    exact ⟨hne, (Path.below_eq h _).trans (if_neg hne), hin⟩

/-- A text that a directive finds is that of a listed file with the path that it means. -/
theorem exists_texFile_of_sourceOf? {view : View} {m : Manifest} {bucket path text : Text}
    (h : Expansion.sourceOf? (Bundler.sourcesOf view m bucket) path = some text) :
    ∃ f ∈ m.texFiles, f.path = path := by
  have hmem : (path, text) ∈ Bundler.sourcesOf view m bucket := Expansion.mem_of_sourceOf? h
  obtain ⟨f, hf, ht⟩ := List.mem_filterMap.1 (List.mem_reverse.1 hmem)
  exact ⟨f, hf, (Collection.fst_of_textOf? ht).symm⟩

/-- The files of a valid manifest are read behind its prefix, if that is more than slashes. They are
confined exactly if it is and no path leaves the bundle. A directive that leads out of the bundle
finds listed files only that leave it too. -/
theorem confines_iff {m : Manifest} (h : m.validate = .ok ()) :
    (∀ path ∈ m.paths, m.storageKey path =
      if m.basePrefix.all (· == '/') then path
      else Path.dropEndSlashes m.basePrefix ++ '/' :: path) ∧
    ((∀ path ∈ m.paths, m.Confines path) ↔
      (∃ c ∈ m.basePrefix, c ≠ '/') ∧ ∀ path ∈ m.paths, ¬ Path.Leaves path) ∧
    ∀ view bucket dir argument text,
      let path := Path.target dir argument
      Path.StartsAbove path →
      Expansion.sourceOf? (Bundler.sourcesOf view m bucket) path = some text →
      path ∈ m.paths ∧ Path.Leaves path := by
  have hrel := (validate_eq_ok_iff.1 h).2.2
  refine ⟨fun path hp => ?_, ?_, ?_⟩
  · rw [storageKey, Path.below_eq (hrel path hp)]
    simp only [Path.dropEndSlashes_eq_nil_iff, List.all_eq_true, beq_iff_eq]
  · constructor
    · intro hc
      have hconf path (hp : path ∈ m.paths) := (confines_path_iff (hrel path hp)).1 (hc path hp)
      exact ⟨(hconf m.entryPath List.mem_cons_self).1, fun path hp => (hconf path hp).2⟩
    · rintro ⟨hbase, hleaves⟩ path hp
      exact (confines_path_iff (hrel path hp)).2 ⟨hbase, hleaves path hp⟩
  · intro view bucket dir argument text path habove hsource
    obtain ⟨f, hf, hpath⟩ := exists_texFile_of_sourceOf? hsource
    have hlisted : f ∈ m.files := (List.mem_filter.1 (List.mem_filter.1 hf).1).1
    exact ⟨hpath ▸ List.mem_cons_of_mem _ (List.mem_map_of_mem hlisted), habove.leaves⟩

/-- A bundle with files in two directories, one of which is reached by way of the other. -/
theorem confines_iff_of_two :
    let m : Manifest :=
      { basePrefix := "bundles/42//", entryPath := "a/../main.tex",
        files := [⟨"b/c.tex", none, none⟩] }
    m.validate = .ok () ∧ (∀ path ∈ m.paths, m.Confines path) ∧
      m.storageKey "b/c.tex" = "bundles/42/b/c.tex" := by
  intro m
  have h : m.validate = .ok () := by decide
  have hleaves : ∀ path ∈ m.paths, ¬ Path.Leaves path := by decide
  exact ⟨h, (confines_iff h).2.1.2 ⟨⟨'b', by decide, by decide⟩, hleaves⟩, by decide⟩

/-- A valid manifest that lists a file above the bundle, which a directive finds, and another one
with a prefix that is nothing but a slash. -/
theorem not_confines_parent :
    let m : Manifest :=
      { bucket := "b", basePrefix := "p", entryPath := "main.tex",
        files := [⟨"../x.tex", none, none⟩] }
    let b : Bundler (StateM Memory) :=
      ⟨Memory.store, Shelf.store { documents := [{ id := "d", manifest := some m }] }, {}⟩
    let s : Memory := { objects := [
      (("b", "p/main.tex"), Utf8.encode "\\input\x7b../x\x7d"), (("b", "p/../x.tex"), [0x58])] }
    let root : Manifest := { basePrefix := "/", entryPath := "main.tex" }
    m.validate = .ok () ∧ Path.StartsAbove (Path.canonical "../x.tex") ∧
      (Operation.exec (b.mergedSource "d") b.guard s).1.1 = .ok
        ("% >>> ferrotex: begin include ../x.tex\nX\n" ++ "% <<< ferrotex: end include ../x.tex") ∧
      root.validate = .ok () ∧ root.storageKey "main.tex" = "main.tex" := by
  decide +kernel

end Manifest

end TexBundle
