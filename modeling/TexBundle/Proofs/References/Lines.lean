import TexBundle.Proofs.References.Clamping
import TexBundle.Proofs.Text.Offsets

/-!
# Lines of reference sections

The line of an entry is its key in brackets and, behind it, those of three parts that are not empty.
The last part is a year. An entry without one has a date instead, of which four bytes are taken, and
not always four characters.

* `line`, `lineOf`: a line made of its parts, and that of an entry;
* `line_concat_inj`: two lines differ if their last parts do;
* `yearOfDate_eq_take_iff`: the dates of which four characters are taken;
* `formatEntry_eq_lineOf_iff`: the entries whose line shows four characters of the date.
-/

namespace TexBundle

/-- What a field says. A field that is not there says nothing. -/
def Entry.value (e : Entry) (name : Text) : Text := (e.fields.lookup name).getD []

theorem Entry.field?_eq (e : Entry) (name : Text) :
    e.field? name = if e.value name = [] then none else some (e.value name) := by
  rw [field?, value]
  cases e.fields.lookup name with
  | none => rfl
  | some t => by_cases ht : t = [] <;> simp [Option.filter, ht]

theorem Entry.getD_field? (e : Entry) (name : Text) : (e.field? name).getD [] = e.value name := by
  rw [field?_eq]
  split
  · exact Eq.symm ‹_›
  · rfl

theorem Text.intercalate_concat (sep : Text) {pieces : List Text} (h : pieces ≠ []) (last : Text) :
    sep.intercalate (pieces ++ [last]) = sep.intercalate pieces ++ (sep ++ last) := by
  induction pieces with
  | nil => exact absurd rfl h
  | cons piece pieces ih =>
    cases pieces with
    | nil => simp [List.intercalate_cons_cons]
    | cons next pieces =>
      rw [List.cons_append, List.cons_append, List.intercalate_cons_cons, ← List.cons_append,
        ih (List.cons_ne_nil _ _), List.intercalate_cons_cons]
      simp only [List.append_assoc]

namespace Reference

/-- A key in brackets and, behind a space, the parts that are not empty, with dashes between them. -/
def line (key : Text) (parts : List Text) : Text :=
  let shown := parts.filter (· ≠ [])
  let behind : Text := if shown = [] then [] else " " ++ (" — " : Text).intercalate shown
  "[" ++ key ++ "]" ++ behind

/-- The year of an entry, or what is taken of its date if there is none. -/
def yearText (e : Entry) (ofDate : Text → Text) : Text :=
  if e.value "year" = [] then ofDate (e.value "date") else e.value "year"

/-- The line of an entry, given what is taken of a date. -/
def lineOf (settings : Settings) (e : Entry) (ofDate : Text → Text) : Text :=
  line e.key [clamp settings.titleLimit.toNat (e.value "title"),
    clamp settings.authorLimit.toNat (e.value "author"),
    clamp settings.yearLimit.toNat (yearText e ofDate)]

variable {settings : Settings} {e : Entry} {key date y y' : Text} {ps : List Text}

/-! ## Lines and their last parts -/

/-- What stands in front of a part, by the parts that are shown before it. -/
def separator (ps : List Text) : Text := if ps.filter (· ≠ []) = [] then " " else " — "

theorem separator_ne_nil (ps : List Text) : separator ps ≠ [] := by
  rw [separator]
  split <;> simp

theorem line_concat_nil (key : Text) (ps : List Text) : line key (ps ++ [[]]) = line key ps := by
  simp only [line, List.filter_append, List.filter_cons_of_neg (p := (· ≠ ([] : Text))) (a := [])
    (by simp), List.filter_nil, List.append_nil]

theorem line_concat (key : Text) (ps : List Text) (hy : y ≠ []) :
    line key (ps ++ [y]) = line key ps ++ (separator ps ++ y) := by
  have hfilter : (ps ++ [y]).filter (· ≠ []) = ps.filter (· ≠ []) ++ [y] := by
    rw [List.filter_append, List.filter_cons_of_pos (by simpa using hy), List.filter_nil]
  simp only [line, separator, hfilter, if_neg (List.concat_ne_nil _ _)]
  by_cases hps : ps.filter (· ≠ []) = []
  · rw [hps, if_pos rfl, if_pos rfl, List.nil_append, List.intercalate_singleton, List.append_nil]
  · rw [if_neg hps, if_neg hps, Text.intercalate_concat _ hps]
    simp only [List.append_assoc]

theorem line_concat_inj : line key (ps ++ [y]) = line key (ps ++ [y']) ↔ y = y' := by
  refine ⟨fun h => ?_, fun h => by rw [h]⟩
  have hsep := separator_ne_nil ps
  by_cases hy : y = [] <;> by_cases hy' : y' = []
  · rw [hy, hy']
  · rw [hy, line_concat_nil, line_concat key ps hy'] at h
    simp [hsep] at h
  · rw [hy', line_concat_nil, line_concat key ps hy] at h
    simp [hsep] at h
  · rw [line_concat key ps hy, line_concat key ps hy', List.append_cancel_left_eq,
      List.append_cancel_left_eq] at h
    exact h

/-! ## Parts -/

theorem clamp_nil (limit : Nat) : clamp limit [] = [] := by
  rw [clamp_of_le (Nat.zero_le limit)]
  rfl

/-- A value that is not there leaves the same as an empty one. -/
theorem filter_clamp (limit : Nat) (value? : Option Text) :
    (value?.map (clamp limit)).toList.filter (· ≠ []) =
      [clamp limit (value?.getD [])].filter (· ≠ []) := by
  cases value? with
  | none => simp [clamp_nil]
  | some value => rfl

theorem filterMap_three (a b c : Option Text) :
    [a, b, c].filterMap id = a.toList ++ (b.toList ++ c.toList) := by
  cases a <;> cases b <;> cases c <;> rfl

theorem getD_year? (e : Entry) : (year? e).getD [] = yearText e yearOfDate := by
  rw [year?, yearText, e.field?_eq "year", e.field?_eq "date"]
  by_cases hyear : e.value "year" = []
  · rw [if_pos hyear, if_pos hyear]
    by_cases hdate : e.value "date" = []
    · rw [if_pos hdate, hdate]
      rfl
    · rw [if_neg hdate]
      rfl
  · rw [if_neg hyear, if_neg hyear]
    rfl

theorem parts_eq (settings : Settings) (e : Entry) :
    parts settings e = [clamp settings.titleLimit.toNat (e.value "title"),
      clamp settings.authorLimit.toNat (e.value "author"),
      clamp settings.yearLimit.toNat (yearText e yearOfDate)].filter (· ≠ []) := by
  rw [parts, filterMap_three, List.filter_append, List.filter_append, filter_clamp, filter_clamp,
    filter_clamp, e.getD_field?, e.getD_field?, getD_year?, ← List.filter_append,
    ← List.filter_append]
  rfl

theorem formatEntry_eq (settings : Settings) (e : Entry) :
    formatEntry settings e = lineOf settings e yearOfDate := by
  simp only [formatEntry, lineOf, line, parts_eq]
  split
  · rename_i hshown
    rw [if_pos hshown, List.append_nil]
  · rename_i hshown
    rw [if_neg hshown, List.append_assoc (_ ++ _ ++ _)]

/-- What is taken of the date is shown if there is no year, and it is shown cut short. -/
theorem lineOf_eq_iff {ofDate ofDate' : Text → Text} :
    lineOf settings e ofDate = lineOf settings e ofDate' ↔ e.value "year" ≠ [] ∨
      clamp settings.yearLimit.toNat (ofDate (e.value "date")) =
        clamp settings.yearLimit.toNat (ofDate' (e.value "date")) := by
  have hlast (y y' : Text) := @line_concat_inj e.key y y'
    [clamp settings.titleLimit.toNat (e.value "title"),
      clamp settings.authorLimit.toNat (e.value "author")]
  rw [lineOf, lineOf, yearText, yearText]
  refine (hlast _ _).trans ?_
  by_cases hyear : e.value "year" = []
  · rw [if_pos hyear, if_pos hyear]
    exact (or_iff_right (not_not_intro hyear)).symm
  · rw [if_neg hyear, if_neg hyear]
    exact iff_of_true rfl (.inl hyear)

/-! ## Dates -/

theorem eq_of_size_eq {s s' : Text} (hs : s <+: date) (hs' : s' <+: date)
    (h : Text.size s = Text.size s') : s = s' := by
  obtain ⟨rest, rfl⟩ := hs
  obtain ⟨rest', hdate⟩ := hs'
  have htake := Text.takeBytes?_size_append s rest
  rw [← hdate, h, Text.takeBytes?_size_append] at htake
  exact (Option.some.inj htake).symm

/-- A date is cut behind four bytes, or none of its characters ends there and it is left whole. -/
theorem yearOfDate_cases (date : Text) :
    yearOfDate date <+: date ∧ Text.size (yearOfDate date) = 4 ∨
      (∀ s, s <+: date → Text.size s ≠ 4) ∧ yearOfDate date = date := by
  rw [yearOfDate]
  cases htake : date.takeBytes? 4 with
  | none =>
    refine .inr ⟨?_, rfl⟩
    rintro s ⟨rest, rfl⟩ hsize
    rw [← hsize, Text.takeBytes?_size_append] at htake
    cases htake
  | some s =>
    obtain ⟨rest, hdate, hsize⟩ := Text.takeBytes?_eq_some_iff.1 htake
    exact .inl ⟨⟨rest, hdate.symm⟩, hsize.symm⟩

/-- Four characters are taken of a date exactly if no other beginning of it has four bytes, and if
those have four bytes or there are no more. -/
theorem yearOfDate_eq_take_iff : yearOfDate date = date.take 4 ↔
    (∀ s, s <+: date → Text.size s = 4 → s = date.take 4) ∧
      (date.length ≤ 4 ∨ Text.size (date.take 4) = 4) := by
  obtain ⟨hpre, hsize⟩ | ⟨hnone, hwhole⟩ := yearOfDate_cases date
  · constructor
    · intro h
      rw [h] at hpre hsize
      exact ⟨fun s hs hfour => eq_of_size_eq hs hpre (hfour.trans hsize.symm), .inr hsize⟩
    · exact fun h => h.1 _ hpre hsize
  · rw [hwhole, eq_comm, List.take_eq_self_iff]
    exact ⟨fun h => ⟨fun s hs hfour => absurd hfour (hnone s hs), .inl h⟩,
      fun h => h.2.resolve_right (hnone _ (List.take_prefix 4 date))⟩

/-! ## Entries -/

/-- The line of an entry is its key in brackets and, if there are any, behind a space those of title,
author and year, cut short, that are not empty, with dashes between them. An entry without a year
has instead of it the beginning of its date that has four bytes, or all of its date if there is no
such beginning. So the line shows the first four characters of the date exactly if these look the
same, cut short, or do not matter. -/
theorem formatEntry_eq_lineOf_iff (settings : Settings) (e : Entry) :
    let date := e.value "date"
    formatEntry settings e = lineOf settings e yearOfDate ∧
    (yearOfDate date <+: date ∧ Text.size (yearOfDate date) = 4 ∨
      (∀ s, s <+: date → Text.size s ≠ 4) ∧ yearOfDate date = date) ∧
    (formatEntry settings e = lineOf settings e (·.take 4) ↔ e.value "year" ≠ [] ∨
      clamp settings.yearLimit.toNat (yearOfDate date) =
        clamp settings.yearLimit.toNat (date.take 4)) ∧
    (yearOfDate date = date.take 4 ↔
      (∀ s, s <+: date → Text.size s = 4 → s = date.take 4) ∧
        (date.length ≤ 4 ∨ Text.size (date.take 4) = 4)) := by
  intro date
  refine ⟨formatEntry_eq settings e, yearOfDate_cases date, ?_, yearOfDate_eq_take_iff⟩
  rw [formatEntry_eq]
  exact lineOf_eq_iff

/-- A date whose first four digits have eight bytes. Of these digits, two are shown. -/
theorem formatEntry_ne_of_wide :
    let e : Entry := ⟨"misc", "k", [("date", "٢٠٢٤-05-01")]⟩
    formatEntry {} e = "[k] ٢٠" ∧ lineOf {} e (·.take 4) = "[k] ٢٠٢٤" ∧
      formatEntry {} e ≠ lineOf {} e (·.take 4) := by
  decide

end Reference

end TexBundle
