import TexBundle.Proofs.Bibliography.Blocks
import TexBundle.Proofs.Bibliography.RoundTrip

/-!
# What stands in the range of an entry

* `mem_readFields`, `Value.read_isInfix`: field values are parts of the text that is read;
* `entryOf?_eq_some_iff`: what the entry of a block is made of;
* `IsWrittenAs`, `PrintedBlock.isWrittenAs`: how an entry shows in the text of its block;
* `located_ranges`: ranges follow one another, and in each stands its entry.
-/

namespace TexBundle

/-- A part of a text with no blank at either end. -/
def IsTrimmedPart (s t : Text) : Prop := Text.trim s = s ∧ s <:+: t

theorem isTrimmedPart_trim {s t : Text} (h : s <:+: t) : IsTrimmedPart (Text.trim s) t :=
  ⟨Text.trim_trim s, (Text.trim_isInfix s).trans h⟩

theorem IsTrimmedPart.trans {r s t : Text} (h : IsTrimmedPart r s) (hst : s <:+: t) :
    IsTrimmedPart r t :=
  ⟨h.1, h.2.trans hst⟩

namespace Bibliography

/-! ## Fields -/

namespace Value

theorem skipToComma_isSuffix (t : Text) : skipToComma t <:+ t := List.dropWhile_suffix _

/-- A value is a part of the text that it is read from, and what follows it is the rest of that. -/
theorem read_isInfix (t : Text) : (read t).1 <:+: t ∧ (read t).2 <:+: t := by
  unfold read
  split
  next t =>
    split
    next value rest h =>
      rw [eq_of_closing? h]
      refine ⟨⟨['{'], '}' :: rest, by simp⟩, ?_⟩
      exact (skipToComma_isSuffix rest).isInfix.trans ⟨'{' :: (value ++ ['}']), [], by simp⟩
    next => exact ⟨(List.suffix_cons _ t).isInfix, List.nil_infix⟩
  next t =>
    split
    next value rest h =>
      rw [eq_of_quoted? h]
      refine ⟨⟨['"'], '"' :: rest, by simp⟩, ?_⟩
      exact (skipToComma_isSuffix rest).isInfix.trans ⟨'"' :: (value ++ ['"']), [], by simp⟩
    next => exact ⟨(List.suffix_cons _ t).isInfix, List.nil_infix⟩
  next =>
    exact ⟨(List.takeWhile_prefix _).isInfix, (skipToComma_isSuffix _).isInfix⟩

end Value

/-- Every value is a trimmed part of the field list. -/
theorem mem_readFields {t : Text} {f : Text × Text} (h : f ∈ readFields t) :
    IsTrimmedPart f.2 t := by
  fun_induction readFields t with
  | case1 => cases h
  | case2 t name behind hbreak value ih =>
    have hbehind : behind <:+: t := by
      have hgap := List.dropWhile_suffix (l := t) isFieldGap
      rw [Text.eq_of_breakAt? hbreak] at hgap
      exact ((List.suffix_cons _ behind).trans ((List.suffix_append name _).trans hgap)).isInfix
    have htrim : Text.trimStart behind <:+: t :=
      (List.dropWhile_suffix isBlank).isInfix.trans hbehind
    obtain ⟨hvalue, hrest⟩ := Value.read_isInfix (Text.trimStart behind)
    rcases List.mem_cons.1 h with rfl | h
    · exact isTrimmedPart_trim (hvalue.trans htrim)
    · exact (ih h).trans (hrest.trans htrim)

theorem mem_of_mem_firstOfEachName {pairs : List (Text × Text)} {f : Text × Text}
    (h : f ∈ firstOfEachName pairs) : f ∈ pairs := by
  rw [firstOfEachName_eq_firsts] at h
  exact List.mem_of_mem_filter ((firsts_sublist _ _).subset h)

/-! ## Entries -/

theorem splitBody_isInfix (body : Text) :
    (splitBody body).1 <:+: body ∧ (splitBody body).2 <:+: body := by
  unfold splitBody
  cases h : body.breakAt? ',' with
  | none => exact ⟨List.infix_rfl, List.nil_infix⟩
  | some parts =>
    rw [Option.getD_some, Text.eq_of_breakAt? h]
    exact ⟨(List.prefix_append _ _).isInfix,
      ((List.suffix_cons _ _).trans (List.suffix_append _ _)).isInfix⟩

theorem entryOf?_eq_some_iff {kind body : Text} {e : Entry} :
    entryOf? kind body = some e ↔
      kind ∉ auxiliaryKinds ∧ Text.trim (splitBody body).1 ≠ [] ∧
        e = ⟨kind, Text.trim (splitBody body).1,
          firstOfEachName (readFields (splitBody body).2)⟩ := by
  simp only [entryOf?]
  split
  next h =>
    constructor
    · intro hnone
      cases hnone
    · rintro ⟨hkind, hkey, -⟩
      exact absurd h (not_or.2 ⟨hkind, hkey⟩)
  next h =>
    obtain ⟨hkind, hkey⟩ := not_or.1 h
    rw [Option.some.injEq, eq_comm, and_iff_right hkind, and_iff_right hkey]

/-- How an entry shows in a text: behind an `@` stand its kind, in any case, and a group, of which
the key and the values are trimmed parts. -/
def IsWrittenAs (e : Entry) (t : Text) : Prop :=
  ∃ (kind : Text) (blanks : Blanks) (d : Delimiter) (group : Text),
    t = '@' :: (kind ++ (blanks.1 ++ group)) ∧ Text.asciiLower kind = e.kind ∧
      IsGroup d.left d.right group ∧ IsTrimmedPart e.key group ∧
      ∀ f ∈ e.fields, IsTrimmedPart f.2 group

theorem PrintedBlock.isWrittenAs {b : PrintedBlock} {e : Entry} (h : b.entry? = some e) :
    IsWrittenAs e b.text := by
  obtain ⟨-, -, rfl⟩ := entryOf?_eq_some_iff.1 h
  have hbody : b.body <:+: b.group := ⟨[b.delimiter.left], [b.delimiter.right], by simp [group]⟩
  obtain ⟨hkey, hfields⟩ := splitBody_isInfix b.body
  refine ⟨b.kind, b.before, b.delimiter, b.group, rfl, rfl, ?_, ?_, fun f hf => ?_⟩
  · exact isGroup_of_balanced b.delimiter.right_ne_left b.balanced_body
  · exact isTrimmedPart_trim (hkey.trans hbody)
  · exact (mem_readFields (mem_of_mem_firstOfEachName hf)).trans (hfields.trans hbody)

/-! ## Ranges -/

theorem mem_blocks_of_mem_located {t : Text} {e : Located Entry} (h : e ∈ located t) :
    (⟨e.start, e.stop, some e.value⟩ : Located (Option Entry)) ∈ (blocks t).locate 0 := by
  rw [located_eq_firsts, allLocated_eq] at h
  obtain ⟨block, hblock, hholding⟩ := List.mem_filterMap.1 ((firsts_sublist _ _).subset h)
  exact holding?_eq_some_iff.1 hholding ▸ hblock

/-- The ranges of entries lie in the text, none is empty, and each starts where the one before it
has ended, or behind that. The text in each is that of its entry. -/
theorem located_ranges (t : Text) :
    (located t).Pairwise (fun a b => a.stop ≤ b.start) ∧
      ∀ e ∈ located t, e.start < e.stop ∧ e.stop ≤ Text.size t ∧
        ∃ lexeme rest, e.Covers 0 t lexeme rest ∧ IsWrittenAs e.value lexeme := by
  have hfound := occurrences_blocks_iff.2 (Eq.refl ((blocks t).locate 0))
  refine ⟨?_, fun e he => ?_⟩
  · rw [located_eq_firsts, allLocated_eq]
    refine List.Pairwise.sublist (firsts_sublist _ _) ?_
    refine List.Pairwise.filterMap _ (fun a b hab x hx y hy => ?_) hfound.pairwise
    rw [holding?_eq_some_iff.1 hx, holding?_eq_some_iff.1 hy] at hab
    exact hab
  · obtain ⟨lexeme, rest, hcovers, hne, hread⟩ :=
      hfound.exists_of_mem (mem_blocks_of_mem_located he)
    obtain ⟨b, htext, hentry⟩ := Block.read?_eq_some_iff.1 hread
    obtain rfl := List.append_cancel_right htext
    refine ⟨hcovers.start_lt hne, ?_, b.text, rest, hcovers, b.isWrittenAs hentry.symm⟩
    exact (Nat.zero_add (Text.size t)) ▸ hcovers.stop_le

theorem located_ranges_mixed :
    let e : Located Entry := ⟨36, 60, "book", "y", [("title", "a (b)")]⟩
    e ∈ located PrintedFile.mixed.text ∧
      e.start < e.stop ∧ e.stop ≤ Text.size PrintedFile.mixed.text ∧
      ∃ lexeme rest, e.Covers 0 PrintedFile.mixed.text lexeme rest ∧
        IsWrittenAs e.value lexeme := by
  intro e
  have hblocks :
      allLocated PrintedFile.mixed.text = PrintedFile.locate 0 PrintedFile.mixed.entries :=
    PrintedFile.filterMap_locate_blocks 0 _ _
  have hmem : e ∈ located PrintedFile.mixed.text := by
    rw [located_eq_firsts, hblocks]
    exact .tail _ (.head _)
  exact ⟨hmem, (located_ranges PrintedFile.mixed.text).2 e hmem⟩

end Bibliography

end TexBundle
