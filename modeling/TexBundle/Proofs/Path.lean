import TexBundle.Path
import TexBundle.Proofs.Text.Cutting

/-!
# Paths that directives mean

* `getLast?_segments`: the file name is the last segment;
* `hasExtension_append_dot_iff`: the paths with an extension;
* `isSuffix_canonical`: the canonical form keeps a last segment that is a name;
* `not_isBlank_of_getLast?_target`: the path that a directive means does not end in a blank.
-/

namespace TexBundle.Path

open Text

/-- A segment that stands for itself in a canonical path. -/
def IsName (seg : Text) : Prop := seg ≠ [] ∧ seg ≠ ['.'] ∧ seg ≠ ['.', '.']

theorem segments_append_cons (a b : Text) :
    segments (a ++ '/' :: b) = segments a ++ segments b :=
  splitBy_append_cons (by rfl) a b

theorem segments_eq_singleton {t : Text} (h : '/' ∉ t) : segments t = [t] :=
  splitBy_eq_singleton fun _ hc => beq_false_of_ne fun e => h (e ▸ hc)

theorem getLast?_segments (path : Text) : (segments path).getLast? = some (fileName path) := by
  rw [fileName]
  cases h : path.breakAtLast? '/' with
  | none => rw [segments_eq_singleton (breakAtLast?_eq_none_iff.1 h)]; rfl
  | some p =>
    obtain ⟨dir, name⟩ := p
    rw [eq_of_breakAtLast? h, segments_append_cons,
      segments_eq_singleton (not_mem_of_breakAtLast? h), List.getLast?_concat]

theorem getLast?_segments_append_cons (dir file : Text) :
    (segments (dir ++ '/' :: file)).getLast? = some (fileName file) := by
  rw [segments_append_cons, List.getLast?_append, getLast?_segments]
  rfl

/-! ## Slashes in front -/

theorem dropSlashes_eq_self {path : Text} (h : isAbsolute path = false) :
    dropSlashes path = path := by
  cases path with
  | nil => rfl
  | cons c path => exact List.dropWhile_cons_of_neg (by simpa [isAbsolute] using h)

theorem isAbsolute_dropSlashes (path : Text) : isAbsolute (dropSlashes path) = false := by
  induction path with
  | nil => rfl
  | cons c path ih =>
    cases hc : isAbsolute (c :: path) with
    | true =>
      obtain rfl : c = '/' := Option.some.inj (eq_of_beq hc)
      exact ih
    | false => rwa [dropSlashes_eq_self hc]

/-! ## File names -/

theorem fileName_isSuffix (path : Text) : fileName path <:+ path := by
  rw [fileName]
  cases h : path.breakAtLast? '/' with
  | none => exact List.suffix_refl path
  | some p =>
    obtain ⟨dir, name⟩ := p
    exact ⟨dir ++ ['/'], by simp [eq_of_breakAtLast? h]⟩

theorem fileName_append {ext : Text} (path : Text) (h : '/' ∉ ext) :
    fileName (path ++ ext) = fileName path ++ ext := by
  rw [fileName, fileName]
  cases hp : path.breakAtLast? '/' with
  | none =>
    have := breakAtLast?_eq_none_iff.1 hp
    rw [breakAtLast?_eq_none_iff.2 (by simp [this, h])]
  | some p =>
    obtain ⟨dir, name⟩ := p
    have := not_mem_of_breakAtLast? hp
    rw [eq_of_breakAtLast? hp, List.append_assoc, List.cons_append,
      breakAtLast?_append_cons dir (by simp [this, h])]

theorem fileName_append_cons (dir : Text) {name : Text} (h : '/' ∉ name) :
    fileName (dir ++ '/' :: name) = name := by
  rw [fileName, breakAtLast?_append_cons dir h]

theorem fileName_of_not_mem {path : Text} (h : '/' ∉ path) : fileName path = path := by
  rw [fileName, breakAtLast?_eq_none_iff.2 h]

theorem length_directory_le (path : Text) : (directory path).length ≤ path.length := by
  rw [directory]
  cases hp : path.breakAtLast? '/' with
  | none => exact Nat.zero_le _
  | some p =>
    obtain ⟨dir, name⟩ := p
    rw [eq_of_breakAtLast? hp, List.length_append]
    exact Nat.le_add_right _ _

theorem directory_append_cons (dir : Text) {name : Text} (h : '/' ∉ name) :
    directory (dir ++ '/' :: name) = dir := by
  rw [directory, breakAtLast?_append_cons dir h]

theorem directory_append {ext : Text} (path : Text) (h : '/' ∉ ext) :
    directory (path ++ ext) = directory path := by
  cases hp : path.breakAtLast? '/' with
  | none =>
    have hslash := breakAtLast?_eq_none_iff.1 hp
    rw [directory, directory, hp, breakAtLast?_eq_none_iff.2 (by simp [hslash, h])]
  | some p =>
    obtain ⟨dir, name⟩ := p
    have hname := not_mem_of_breakAtLast? hp
    rw [eq_of_breakAtLast? hp, List.append_assoc, List.cons_append,
      directory_append_cons dir (by simp [hname, h]), directory_append_cons dir hname]

/-- What follows on a path behind a dot leaves its directory as it is exactly if there is no slash
in it. -/
theorem directory_append_dot_iff {path ext : Text} :
    directory (path ++ '.' :: ext) = directory path ↔ '/' ∉ ext := by
  constructor
  · intro h hslash
    cases hext : ext.breakAtLast? '/' with
    | none => exact breakAtLast?_eq_none_iff.1 hext hslash
    | some p =>
      obtain ⟨dir, name⟩ := p
      have hlength := length_directory_le path
      rw [← h, eq_of_breakAtLast? hext, ← List.cons_append, ← List.append_assoc,
        directory_append_cons _ (not_mem_of_breakAtLast? hext), List.length_append,
        List.length_cons] at hlength
      omega
  · exact fun h => directory_append path (List.not_mem_cons_of_ne_of_not_mem (by decide) h)

theorem hasExtension_of_not_mem {path : Text} (h : '.' ∉ fileName path) :
    hasExtension path = false := by
  rw [hasExtension, extension?, breakAtLast?_eq_none_iff.2 h]
  rfl

/-- The last dot of a path is in front of an extension exactly if it is in the file name and neither
starts nor ends it. -/
theorem hasExtension_append_dot_iff (stem : Text) {ext : Text} (h : '.' ∉ ext) :
    hasExtension (stem ++ '.' :: ext) = true ↔ fileName stem ≠ [] ∧ ext ≠ [] ∧ '/' ∉ ext := by
  cases hslash : ext.breakAtLast? '/' with
  | none =>
    have hext := breakAtLast?_eq_none_iff.1 hslash
    have hname : fileName (stem ++ '.' :: ext) = fileName stem ++ '.' :: ext :=
      fileName_append stem (List.not_mem_cons_of_ne_of_not_mem (by decide) hext)
    rw [hasExtension, extension?, hname, breakAtLast?_append_cons _ h]
    by_cases hempty : fileName stem = [] ∨ ext = []
    · simp only [if_pos hempty]
      exact iff_of_false Bool.false_ne_true fun hne => hempty.elim hne.1 hne.2.1
    · simp only [if_neg hempty]
      rw [not_or] at hempty
      exact iff_of_true rfl ⟨hempty.1, hempty.2, hext⟩
  | some p =>
    obtain ⟨dir, name⟩ := p
    obtain rfl := eq_of_breakAtLast? hslash
    have hname : fileName (stem ++ '.' :: (dir ++ '/' :: name)) = name := by
      rw [← List.cons_append, ← List.append_assoc]
      exact fileName_append_cons _ (not_mem_of_breakAtLast? hslash)
    have hdot : '.' ∉ fileName (stem ++ '.' :: (dir ++ '/' :: name)) := by
      rw [hname]
      exact fun hmem => h (List.mem_append_right dir (List.mem_cons_of_mem _ hmem))
    rw [hasExtension_of_not_mem hdot]
    exact iff_of_false Bool.false_ne_true fun hne => hne.2.2 List.mem_append_cons_self

/-- A file name with something on both sides of a dot is neither empty nor made of dots alone. -/
theorem isName_of_hasExtension {path : Text} (h : hasExtension path = true) :
    IsName (fileName path) := by
  rw [hasExtension, extension?] at h
  refine ⟨fun e => ?_, fun e => ?_, fun e => ?_⟩ <;>
  · rw [e] at h
    revert h
    decide

theorem isName_append_tex (name : Text) : IsName (name ++ ".tex") := by
  -- All three are shorter than the extension.
  have h (seg : Text) (hs : seg.length < 4) : name ++ ".tex" ≠ seg := fun e => by
    rw [← e, List.length_append] at hs
    exact absurd hs (Nat.not_lt.2 (Nat.le_add_left ..))
  exact ⟨h _ (by decide), h _ (by decide), h _ (by decide)⟩

/-! ## Canonical paths -/

theorem push_of_isName {seg : Text} (h : IsName seg) (done : List Text) :
    push done seg = seg :: done := by
  simp [push, h.1, h.2.1, h.2.2]

theorem isSuffix_ofSegments (segs : List Text) (name : Text) :
    name <:+ ofSegments (segs ++ [name]) := by
  induction segs with
  | nil => simp [ofSegments]
  | cons seg segs ih =>
    rw [List.cons_append, ofSegments, List.intercalate_cons_of_ne_nil (by simp)]
    exact ih.trans (List.suffix_append ..)

/-- The canonical form ends in the last segment if that is a name. -/
theorem isSuffix_canonical {path name : Text} (h : (segments path).getLast? = some name)
    (hn : IsName name) : name <:+ canonical path := by
  obtain ⟨init, hi⟩ := List.getLast?_eq_some_iff.1 h
  rw [canonical, hi, List.foldl_append, List.foldl_cons, List.foldl_nil, push_of_isName hn,
    List.reverse_cons]
  exact isSuffix_ofSegments ..

/-! ## Targets -/

/-- The file that an argument names, with its extension. -/
theorem isName_of_argument (arg : Text) :
    IsName (fileName (if hasExtension arg then arg else arg ++ ".tex")) := by
  split
  · exact isName_of_hasExtension ‹_›
  · rw [fileName_append arg (by decide)]
    exact isName_append_tex _

/-- A path that a directive means ends in the file name that was asked for, and that name is neither
empty nor ends in a blank. -/
theorem not_isBlank_of_getLast?_target {dir raw : Text} {c : Char}
    (h : (target dir raw).getLast? = some c) : isBlank c = false := by
  rw [target] at h
  split at h
  · simp at h
  · rename_i harg
    generalize hf : (if hasExtension (bareArgument raw) then bareArgument raw
      else bareArgument raw ++ ".tex") = file at h
    have hn : IsName (fileName file) := hf ▸ isName_of_argument _
    have hlast : (segments (if dir = [] then file else dir ++ '/' :: file)).getLast? =
        some (fileName file) := by
      split
      · exact getLast?_segments file
      · exact getLast?_segments_append_cons dir file
    obtain ⟨pre, hpre⟩ := isSuffix_canonical hlast hn
    obtain ⟨front, hfront⟩ := fileName_isSuffix file
    -- The path and the file end in the same character, that of the file name.
    have hc : file.getLast? = some c := by
      rw [← hpre, List.getLast?_append_of_ne_nil _ hn.1] at h
      rw [← hfront, List.getLast?_append_of_ne_nil _ hn.1, h]
    rw [← hf] at hc
    split at hc
    · exact not_isBlank_of_getLast?_trim hc
    · rw [List.getLast?_append_of_ne_nil _ (by simp)] at hc
      obtain rfl : 'x' = c := by simpa using hc
      decide

end TexBundle.Path
