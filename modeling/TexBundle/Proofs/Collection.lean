import TexBundle.Collection
import TexBundle.Proofs.Storage.Reading
import Mathlib.Data.List.Forall2

/-!
# What is collected

Collecting files only downloads, so that what it comes to is settled by the view of the store.

* `Stored`: what can be wrong with an object that a package needs;
* `ListedFile.Intact`, `Asset.Intact`: what a file and a figure need to be packed, and otherwise
  `ListedFile.Flaw`, `Asset.Flaw`: the one defect that they come to;
* `Collection.loadTexts_reads`: the texts of files;
* `Collection.collectResources_reads`, `Collection.collectKeys_reads`: one outcome for each file and
  for each key, in order;
* `Collection.Judged`: outcomes cut into files and defects.
-/

namespace TexBundle

/-- An object has bytes that can be packed. -/
def Usable (stored : Except StorageError Bytes) : Prop := ∃ bytes, stored = .ok bytes ∧ bytes ≠ []

/-- What an object that is needed, and is not usable, is reported as; `label` names it. -/
inductive Unusable (label : Text) : Except StorageError Bytes → Defect → Prop where
  | unreadable (e : StorageError) :
    Unusable label (.error e) ⟨label, .downloadFailed, "download failed: " ++ e.message⟩
  | empty : Unusable label (.ok []) (.ofKind label .emptyPayload)

/-- An object as a file of a package, under a path and with the bytes as they are stored. -/
structure PackagedFile.Holds (path : Text) (stored : Except StorageError Bytes)
    (file : PackagedFile) : Prop where
  path_eq : file.path = path
  stored_eq : stored = .ok file.bytes

namespace ListedFile

/-- A file can be packed: it is stored, and with the recorded digest. -/
def Intact (f : ListedFile) (stored : Except StorageError Bytes) : Prop :=
  ∃ bytes, stored = .ok bytes ∧ bytes ≠ [] ∧ f.verify bytes = true

instance (f : ListedFile) (stored : Except StorageError Bytes) : Decidable (f.Intact stored) :=
  match stored with
  | .ok bytes => decidable_of_iff (bytes ≠ [] ∧ f.verify bytes = true) (by simp [Intact])
  | .error _ => .isFalse (by simp [Intact])

/-- What a file that is not intact is reported as. -/
inductive Flaw (f : ListedFile) : Except StorageError Bytes → Defect → Prop where
  | unusable {stored d} (h : Unusable f.path stored d) : Flaw f stored d
  | mismatch {bytes} (hne : bytes ≠ []) (hv : f.verify bytes = false) :
    Flaw f (.ok bytes) (.ofKind f.path .checksumMismatch)

end ListedFile

namespace Asset

/-- A figure can be packed for a document: the key is the document's own, and it is stored. -/
def Intact (document key : Text) (stored : Except StorageError Bytes) : Prop :=
  isOwnedBy key document = true ∧ isWellFormed key = true ∧ Usable stored

instance (document key : Text) (stored : Except StorageError Bytes) :
    Decidable (Intact document key stored) :=
  match stored with
  | .ok bytes =>
    decidable_of_iff (isOwnedBy key document = true ∧ isWellFormed key = true ∧ bytes ≠ [])
      (by simp [Intact, Usable])
  | .error _ => .isFalse (by simp [Intact, Usable])

/-- What a figure that is not intact is reported as. -/
inductive Flaw (document key : Text) : Except StorageError Bytes → Defect → Prop where
  | foreign {stored} (h : isOwnedBy key document = false) :
    Flaw document key stored (.ofKind key .ownershipMismatch)
  | malformed {stored} (ho : isOwnedBy key document = true) (h : isWellFormed key = false) :
    Flaw document key stored (.ofKind key .invalidKey)
  | unusable {stored d} (ho : isOwnedBy key document = true) (hw : isWellFormed key = true)
    (h : Unusable key stored d) : Flaw document key stored d

end Asset

namespace Collection

variable {σ : Type} {read : σ → View} {store : ObjectStore (StateM σ)}

/-! ## Texts -/

/-- The path and the text of a file of a manifest, if it can be downloaded. -/
def textOf? (view : View) (manifest : Manifest) (bucket : Text) (f : ListedFile) :
    Option (Text × Text) :=
  match view bucket (manifest.storageKey f.path) with
  | .ok bytes => some (f.path, Utf8.decodeLossy bytes)
  | .error _ => none

theorem fst_of_textOf? {view : View} {manifest : Manifest} {bucket : Text} {f : ListedFile}
    {p : Text × Text} (h : textOf? view manifest bucket f = some p) : p.1 = f.path := by
  rw [textOf?] at h
  split at h
  · obtain rfl := Option.some.inj h
    rfl
  · cases h

theorem loadTexts_reads (h : store.Readable read) (manifest : Manifest) (bucket : Text)
    (fs : List ListedFile) :
    Reads read (loadTexts store manifest bucket fs) fun view texts =>
      texts = fs.filterMap (textOf? view manifest bucket) := by
  induction fs with
  | nil => exact .pure fun _ => rfl
  | cons f fs ih =>
    refine .bind (h bucket (manifest.storageKey f.path)) fun result => .bind ih fun rest => ?_
    cases result with
    | ok bytes =>
      refine .pure fun view hrest hf => ?_
      rw [List.filterMap_cons_some (by rw [textOf?, ← hf]), hrest]
    | error e =>
      refine .pure fun view hrest hf => ?_
      rw [List.filterMap_cons_none (by rw [textOf?, ← hf]), hrest]

/-! ## Outcomes -/

/-- A result is a value if a condition holds, and a defect if it does not. -/
inductive Judged {α : Type} (good : Prop) (value : α → Prop) (defect : Defect → Prop) :
    Except Defect α → Prop where
  | ok {a} (h : good) (ha : value a) : Judged good value defect (.ok a)
  | error {d} (h : ¬ good) (hd : defect d) : Judged good value defect (.error d)

section

variable {α : Type} {good : Prop} {value : α → Prop} {defect : Defect → Prop}

theorem Judged.ok_elim {a : α} (h : Judged good value defect (.ok a)) : good ∧ value a := by
  cases h with
  | ok hg ha => exact ⟨hg, ha⟩

theorem Judged.error_elim {d : Defect} (h : Judged good value defect (.error d)) :
    ¬ good ∧ defect d := by
  cases h with
  | error hg hd => exact ⟨hg, hd⟩

end

theorem fetch_reads (h : store.Readable read) (bucket key label : Text) :
    Reads read (fetch store bucket key label) fun view =>
      Judged (Usable (view bucket key)) (fun bytes => view bucket key = .ok bytes ∧ bytes ≠ [])
        (Unusable label (view bucket key)) := by
  refine .bind (h bucket key) fun result => ?_
  match result with
  | .ok [] =>
    refine .pure fun view hv => hv ▸ .error ?_ .empty
    simp [Usable]
  | .ok (x :: bytes) =>
    have hne : x :: bytes ≠ [] := List.cons_ne_nil x bytes
    exact .pure fun view hv => hv ▸ .ok ⟨_, rfl, hne⟩ ⟨rfl, hne⟩
  | .error e =>
    refine .pure fun view hv => hv ▸ .error ?_ (.unreadable e)
    simp [Usable]

/-- What a file of the bundle comes to. -/
abbrev Resource (stored : ListedFile → Except StorageError Bytes) (f : ListedFile) :
    Outcome → Prop :=
  Judged (f.Intact (stored f)) (PackagedFile.Holds f.path (stored f)) (f.Flaw (stored f))

/-- What a figure of a document comes to. -/
abbrev Figure (document : Text) (stored : Text → Except StorageError Bytes) (key : Text) :
    Outcome → Prop :=
  Judged (Asset.Intact document key (stored key))
    (PackagedFile.Holds (Asset.path key) (stored key)) (Asset.Flaw document key (stored key))

theorem collectResource_reads (h : store.Readable read) (manifest : Manifest) (bucket : Text)
    (f : ListedFile) :
    Reads read (collectResource store manifest bucket f) fun view =>
      Resource (fun f => view bucket (manifest.storageKey f.path)) f := by
  refine .bind (fetch_reads h bucket (manifest.storageKey f.path) f.path) fun result => ?_
  cases result with
  | error d =>
    refine .pure fun view hj => ?_
    obtain ⟨hu, hd⟩ := hj.error_elim
    exact .error (fun ⟨bytes, hs, hne, _⟩ => hu ⟨bytes, hs, hne⟩) (.unusable hd)
  | ok bytes =>
    simp only
    split
    · rename_i hv
      refine .pure fun view hj => ?_
      obtain ⟨-, hs, hne⟩ := hj.ok_elim
      exact .ok ⟨bytes, hs, hne, hv⟩ ⟨rfl, hs⟩
    · rename_i hv
      refine .pure fun view hj => ?_
      obtain ⟨-, hs, hne⟩ := hj.ok_elim
      have hflaw : f.Flaw (view bucket (manifest.storageKey f.path))
          (.ofKind f.path .checksumMismatch) :=
        hs ▸ .mismatch hne (by simpa using hv)
      refine .error (fun ⟨bytes', hs', _, hv'⟩ => hv ?_) hflaw
      rwa [Except.ok.inj (hs.symm.trans hs')]

theorem collectAsset_reads (h : store.Readable read) (bucket document key : Text) :
    Reads read (collectAsset store bucket document key) fun view =>
      Figure document (fun key => view bucket (Asset.path key)) key := by
  rw [collectAsset]
  cases ho : Asset.isOwnedBy key document with
  | false => exact .pure fun view => .error (by simp [Asset.Intact, ho]) (.foreign ho)
  | true =>
    cases hw : Asset.isWellFormed key with
    | false => exact .pure fun view => .error (by simp [Asset.Intact, hw]) (.malformed ho hw)
    | true =>
      refine .bind (fetch_reads h bucket (Asset.path key) key) fun result => ?_
      cases result with
      | error d =>
        refine .pure fun view hj => ?_
        obtain ⟨hu, hd⟩ := hj.error_elim
        exact .error (fun hi => hu hi.2.2) (.unusable ho hw hd)
      | ok bytes =>
        refine .pure fun view hj => ?_
        obtain ⟨hu, hs, -⟩ := hj.ok_elim
        exact .ok ⟨ho, hw, hu⟩ ⟨rfl, hs⟩

theorem collectResources_reads (h : store.Readable read) (manifest : Manifest) (bucket : Text)
    (fs : List ListedFile) :
    Reads read (collectResources store manifest bucket fs) fun view =>
      List.Forall₂ (Resource fun f => view bucket (manifest.storageKey f.path)) fs := by
  induction fs with
  | nil => exact .pure fun view => .nil
  | cons f fs ih =>
    refine .bind (collectResource_reads h manifest bucket f) fun outcome => .bind ih fun rest => ?_
    exact .pure fun view hrest hf => .cons hf hrest

theorem collectKeys_reads (h : store.Readable read) (bucket document : Text) (keys : List Text) :
    Reads read (collectKeys store bucket document keys) fun view =>
      List.Forall₂ (Figure document fun key => view bucket (Asset.path key)) keys := by
  induction keys with
  | nil => exact .pure fun view => .nil
  | cons key keys ih =>
    refine .bind (collectAsset_reads h bucket document key) fun outcome => .bind ih fun rest => ?_
    exact .pure fun view hrest hkey => .cons hkey hrest

/-! ## Files and defects -/

section

variable {α : Type} {good : α → Prop} {file : α → PackagedFile → Prop} {defect : α → Defect → Prop}
  {as : List α} {outcomes : List Outcome}

/-- There is one defect for each thing that is not good, in the same order. -/
theorem defects_of_judged [DecidablePred good]
    (h : List.Forall₂ (fun a => Judged (good a) (file a) (defect a)) as outcomes) :
    List.Forall₂ defect (as.filter (¬ good ·)) (defects outcomes) := by
  induction h with
  | nil => exact .nil
  | @cons a o as os ha _ ih =>
    cases ha with
    | ok hg _ => rwa [List.filter_cons_of_neg (by simpa using hg)]
    | error hg hd =>
      rw [List.filter_cons_of_pos (by simpa using hg)]
      exact .cons hd ih

theorem defects_eq_nil_iff [DecidablePred good]
    (h : List.Forall₂ (fun a => Judged (good a) (file a) (defect a)) as outcomes) :
    defects outcomes = [] ↔ ∀ a ∈ as, good a := by
  have := (defects_of_judged h).length_eq
  rw [← List.length_eq_zero_iff, ← this, List.length_eq_zero_iff, List.filter_eq_nil_iff]
  simp

/-- If all is good, there is one file for each thing, in the same order. -/
theorem files_of_judged
    (h : List.Forall₂ (fun a => Judged (good a) (file a) (defect a)) as outcomes)
    (hgood : ∀ a ∈ as, good a) : List.Forall₂ file as (files outcomes) := by
  induction h with
  | nil => exact .nil
  | cons ha _ ih =>
    have ih := ih fun a hm => hgood a (List.mem_cons_of_mem _ hm)
    cases ha with
    | ok _ hf => exact .cons hf ih
    | error hg _ => exact absurd (hgood _ List.mem_cons_self) hg

end

end Collection

end TexBundle
