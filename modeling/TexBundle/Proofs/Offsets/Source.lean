import TexBundle.Source.Figure
import TexBundle.Proofs.Offsets.Bytes
import TexBundle.Proofs.Source.Directives

/-!
# Scanning sources by offsets

A scan of a source knows its matches by their byte ranges. It looks at the text in front of each one
to see whether it starts inside a comment, and keeps the ranges in 32 bits.

* `scanBy`: the matches outside comments;
* `ranged`: a range, whose ends have to be in order once they are cut down to 32 bits;
* `directives_eq`, `figureKeys_eq`, `citedKeys_eq`: no scan is stopped, and they find what is found in
  the text itself.
-/

namespace TexBundle.Offsets

variable {α : Type}

/-- Of the matches of a scan, those that start outside comments. -/
def uncommented (t : Text) : List (Located α) → Scan (List (Located α))
  | [] => return []
  | m :: ms => do
    if ← commentedAt t m.start then uncommented t ms
    else return m :: (← uncommented t ms)

/-- The matches of a reader, those in comments left out. -/
def scanBy (read? : Text → Option (α × Text)) (t : Text) : Scan (List (Located α)) :=
  uncommented t ((Segments.cut read? t).locate 0)

/-- A range whose ends are kept in 32 bits. -/
def ranged (start stop : Nat) (value : α) : Scan (Located α) :=
  let start := start % UInt32.size
  let stop := stop % UInt32.size
  if start ≤ stop then .ok ⟨start, stop, value⟩ else .error .range

/-- The include directives of a source. -/
def directives (t : Text) : Scan (List (Located Source.Directive)) := do
  (← scanBy Source.Directive.read? t).mapM fun m => ranged m.start m.stop m.value

/-- The keys of the figures of a source, each once. -/
def figureKeys (t : Text) : Scan (List Text) := do
  let detokenized ← scanBy Source.Figure.readDetokenized? t
  let plain ← scanBy Source.Figure.readPlain? t
  return ((detokenized.merge plain fun a b => a.stop ≤ b.stop).map (·.value)).eraseDups

/-- The keys that a source cites, each once. -/
def citedKeys (t : Text) : Scan (List Text) := do
  return ((← scanBy Source.Citation.read? t).flatMap fun m => Source.keysOfList m.value).eraseDups

variable {t : Text}

theorem uncommented_eq {ms : List (Located α)}
    (h : ∀ m ∈ ms, ∃ lexeme rest, m.Covers 0 t lexeme rest) :
    uncommented t ms = .ok (ms.filter fun m => Source.isCommentedAt? t m.start = some false) := by
  induction ms with
  | nil => rfl
  | cons m ms ih =>
    obtain ⟨lexeme, rest, before, ht, hstart, -⟩ := h m List.mem_cons_self
    rw [Nat.zero_add] at hstart
    have hat : commentedAt t m.start = .ok (Source.isCommented before) := by
      rw [ht, hstart, commentedAt_append]
    have hat? : Source.isCommentedAt? t m.start = some (Source.isCommented before) := by
      rw [ht, hstart, Source.isCommentedAt?_append]
    rw [uncommented, hat, ok_bind, ih fun m hm => h m (List.mem_cons_of_mem _ hm), List.filter_cons,
      hat?]
    cases Source.isCommented before <;> rfl

theorem scanBy_eq (read? : Text → Option (α × Text)) (t : Text) :
    scanBy read? t = .ok ((Source.uncommented (.cut read? t)).locate 0) := by
  have hfilter := Source.locate_uncommented [] (Segments.cut read? t)
  rw [List.nil_append, Segments.text_cut] at hfilter
  refine (uncommented_eq fun m hm => ?_).trans (congrArg _ hfilter.symm)
  have hcovers := Segments.exists_covers hm
  rwa [Segments.text_cut] at hcovers

theorem ranged_eq {start stop : Nat} (hle : start ≤ stop) (hlt : stop < UInt32.size) (value : α) :
    ranged start stop value = .ok ⟨start, stop, value⟩ := by
  simp only [ranged, Nat.mod_eq_of_lt hlt, Nat.mod_eq_of_lt (hle.trans_lt hlt), if_pos hle]

/-- From 4 GiB on, the ends of a range need not be in order any more. -/
example : ranged (UInt32.size - 1) UInt32.size () = .error .range := rfl

theorem mapM_ranged_eq {ms : List (Located α)}
    (h : ∀ m ∈ ms, m.start ≤ m.stop ∧ m.stop < UInt32.size) :
    (ms.mapM fun m => ranged m.start m.stop m.value) = .ok ms := by
  induction ms with
  | nil => rfl
  | cons m ms ih =>
    obtain ⟨hle, hlt⟩ := h m List.mem_cons_self
    rw [List.mapM_cons, ranged_eq hle hlt, ok_bind, ih fun m hm => h m (List.mem_cons_of_mem _ hm)]
    rfl

theorem directives_eq (h : Text.size t < UInt32.size) :
    directives t = .ok ((Source.directives t).locate 0) := by
  rw [directives, scanBy_eq, ok_bind]
  refine mapM_ranged_eq fun m hm => ?_
  obtain ⟨lexeme, rest, hcovers⟩ := Segments.exists_covers hm
  have hstop := hcovers.stop_le
  rw [Nat.zero_add, Source.text_uncommented, Segments.text_cut] at hstop
  obtain ⟨-, -, -, hlexeme⟩ := hcovers
  exact ⟨hlexeme ▸ Nat.le_add_right _ _, hstop.trans_lt h⟩

theorem figureKeys_eq (t : Text) : figureKeys t = .ok (Source.figureKeys t) := by
  rw [figureKeys, scanBy_eq, ok_bind, scanBy_eq, ok_bind]
  rfl

theorem citedKeys_eq (t : Text) : citedKeys t = .ok (Source.citedKeys t) := by
  rw [citedKeys, scanBy_eq, ok_bind, Source.citedKeys, ← Segments.map_value_locate 0,
    List.flatMap_map]
  rfl

end TexBundle.Offsets
