import TexBundle.Proofs.Bibliography.RoundTrip
import TexBundle.Proofs.Offsets.Source

/-!
# Reading bibliographies by offsets

A reader of bibliographies that goes by byte offsets. It looks for delimiters among the bytes and
slices the text at what it has found; offsets into a block or into a value are its own.

* `valueAt`, `fieldsAt`: one value, and the fields of an entry;
* `blockAt`: the block that starts at some byte;
* `entriesFrom`, `located`: the blocks one after the other, from some byte on;
* `located_eq`: nothing stops the reader, and it reads what is read from the text itself.
-/

namespace TexBundle.Offsets

open Utf8 (encode)
open Bibliography

/-! ## Fields -/

/-- The text from the next comma on. -/
def skipAt (t : Text) : Scan Text :=
  match offset? (· == ',') t with
  | some comma => sliceFrom comma t
  | none => return []

/-- A value that stands between the first byte and another one, or goes on to the end. -/
def delimitedAt (close : Option Nat) (t : Text) : Scan (Text × Text) :=
  match close with
  | some close => do return (← slice 1 close t, ← skipAt (← sliceFrom (close + 1) t))
  | none => do return (← sliceFrom 1 t, [])

/-- A value that goes on to the next comma. -/
def bareAt (t : Text) : Scan (Text × Text) :=
  match offset? (· == ',') t with
  | some comma => do return (← sliceTo comma t, ← sliceFrom comma t)
  | none => return (t, [])

/-- One value, untrimmed, and the text from the comma behind it on. -/
def valueAt (t : Text) : Scan (Text × Text) :=
  let bytes := encode t
  if bytes.head? = some '{'.toUInt8 then
    delimitedAt (closingByte '{'.toUInt8 '}'.toUInt8 1 bytes) t
  else if bytes.head? = some '"'.toUInt8 then delimitedAt (quoteByte 1 bytes) t
  else bareAt t

/-- All pairs of a field list. Each round has to leave less of it. -/
def fieldsAt (t : Text) : Scan (List (Text × Text)) := do
  let rest := t.dropWhile isFieldGap
  match offset? (· == '=') rest with
  | none => return []
  | some eq =>
    let name := Text.lowercase (Text.trim (← sliceTo eq rest))
    let (value, behind) ← valueAt (Text.trimStart (← sliceFrom (eq + 1) rest))
    if behind.length < t.length then return (name, Text.trim value) :: (← fieldsAt behind)
    else .error .stuck
termination_by t.length

variable {t u v rest : Text} {c d : Char}

theorem skipAt_eq (t : Text) : skipAt t = .ok (Value.skipToComma t) := by
  rw [skipAt]
  rcases offset?_cases (· == ',') t with ⟨hnone, -, hdrop⟩ | hsome
  · rw [hnone]
    exact congrArg _ hdrop.symm
  · rw [hsome]
    exact sliceFrom_takeWhile _ t

theorem bareAt_eq (t : Text) :
    bareAt t = .ok (t.takeWhile (· != ','), Value.skipToComma t) := by
  rw [bareAt]
  rcases offset?_cases (· == ',') t with ⟨hnone, htake, hdrop⟩ | hsome
  · rw [hnone]
    exact congrArg _ (Prod.ext htake.symm hdrop.symm)
  · simp only [hsome, sliceTo_takeWhile, sliceFrom_takeWhile, ok_bind]
    rfl

/-- The place at which a value ends is just behind the first byte and the value. -/
theorem delimitedAt_eq {found : Option (Text × Text)} (hc : c.utf8Size = 1) (hd : d.utf8Size = 1)
    (hfound : ∀ value behind, found = some (value, behind) → t = value ++ d :: behind) :
    delimitedAt (found.map fun x => Text.size [c] + Text.size x.1) (c :: t) =
      .ok (found.elim (t, []) fun x => (x.1, Value.skipToComma x.2)) := by
  have hsize : Text.size [c] = 1 := hc
  cases found with
  | none =>
    have hslice : sliceFrom 1 (c :: t) = .ok t := sliceFrom_of_eq (a := [c]) rfl hsize.symm
    simp only [delimitedAt, Option.map_none, hslice, ok_bind]
    rfl
  | some x =>
    obtain ⟨value, behind⟩ := x
    obtain rfl := hfound value behind rfl
    have hslice : slice 1 (Text.size [c] + Text.size value) (c :: (value ++ d :: behind)) =
        .ok value := slice_of_eq (a := [c]) rfl hsize.symm (hsize ▸ rfl)
    have hbehind : sliceFrom (Text.size [c] + Text.size value + 1) (c :: (value ++ d :: behind)) =
        .ok behind := sliceFrom_succ hd (a := c :: value) rfl (hsize ▸ hc ▸ rfl)
    simp only [delimitedAt, Option.map_some, hslice, hbehind, skipAt_eq, ok_bind]
    rfl

theorem valueAt_eq (t : Text) : valueAt t = .ok (Value.read t) := by
  rw [valueAt]
  simp only [head?_encode_eq_iff (show '{'.utf8Size = 1 from rfl),
    head?_encode_eq_iff (show '"'.utf8Size = 1 from rfl)]
  by_cases hbrace : t.head? = some '{'
  · obtain ⟨u, rfl⟩ := List.head?_eq_some_iff.1 hbrace
    have hplace : closingByte '{'.toUInt8 '}'.toUInt8 1 (encode ('{' :: u)) =
        (closing? '{' '}' 0 u).map fun x => Text.size ['{'] + Text.size x.1 :=
      closingByte_append rfl rfl ['{'] u
    rw [if_pos hbrace, hplace, delimitedAt_eq (c := '{') rfl (d := '}') rfl
      fun value behind h => eq_of_closing? h]
    rw [Value.read]
    cases closing? '{' '}' 0 u <;> rfl
  · rw [if_neg hbrace]
    by_cases hquote : t.head? = some '"'
    · obtain ⟨u, rfl⟩ := List.head?_eq_some_iff.1 hquote
      have hplace : quoteByte 1 (encode ('"' :: u)) =
          (Value.quoted? false u).map fun x => Text.size ['"'] + Text.size x.1 :=
        quoteByte_append ['"'] u
      rw [if_pos hquote, hplace, delimitedAt_eq (c := '"') rfl (d := '"') rfl
        fun value behind h => Value.eq_of_quoted? h]
      rw [Value.read]
      cases Value.quoted? false u <;> rfl
    · rw [if_neg hquote, bareAt_eq]
      unfold Value.read
      split <;> simp_all

theorem length_read_lt {name behind : Text}
    (h : Text.breakAt? '=' (t.dropWhile isFieldGap) = some (name, behind)) :
    (Value.read (Text.trimStart behind)).2.length < t.length :=
  calc
    _ ≤ (Text.trimStart behind).length := Value.length_read_le _
    _ ≤ behind.length := Text.length_trimStart_le behind
    _ < (t.dropWhile isFieldGap).length := Text.length_of_breakAt? h
    _ ≤ t.length := (List.dropWhile_sublist _).length_le

/-- Each round reads one pair, and leaves less than it has started with. -/
theorem fieldsAt_eq (t : Text) : fieldsAt t = .ok (readFields t) := by
  rw [fieldsAt, readFields_eq, offset?_eq_breakAt?]
  cases hbreak : Text.breakAt? '=' (t.dropWhile isFieldGap) with
  | none => rfl
  | some x =>
    obtain ⟨name, behind⟩ := x
    obtain ⟨hname, hbehind⟩ := slices_of_breakAt? rfl hbreak
    have hlt := length_read_lt hbreak
    simp only [Option.map_some, hname, hbehind, valueAt_eq, ok_bind, if_pos hlt,
      fieldsAt_eq (Value.read (Text.trimStart behind)).2]
    rfl
termination_by t.length
decreasing_by exact hlt

/-! ## Blocks -/

/-- The byte at a place. -/
def byteAt (place : Nat) (bytes : Bytes) : Scan UInt8 :=
  match bytes[place]? with
  | some b => .ok b
  | none => .error .index

/-- The kind of the block whose `@` is at byte `place`, and the byte at which its group has to
open. -/
def headAt (input : Text) (place : Nat) : Scan (Option (Text × Nat)) := do
  let rest ← sliceFrom (place + 1) input
  let kindSize := (offset? (!·.isAlpha) rest).getD (Text.size rest)
  if kindSize = 0 then return none
  else
    let kind ← sliceTo kindSize rest
    let behind ← sliceFrom kindSize rest
    let blanks := Text.size behind - Text.size (Text.trimStart behind)
    return some (Text.asciiLower kind, place + 1 + kindSize + blanks)

/-- The key and the field list of an entry's body. -/
def splitBodyAt (body : Text) : Scan (Text × Text) :=
  match offset? (· == ',') body with
  | some comma => do return (← sliceTo comma body, ← sliceFrom (comma + 1) body)
  | none => return (body, [])

/-- The entry of a block that goes from byte `place` to byte `close`, its body starting at byte
`start`. -/
def entryAt (input kind : Text) (place start close : Nat) : Scan (Option (Located Entry)) := do
  if kind ∈ auxiliaryKinds then return none
  else
    let (key, fields) ← splitBodyAt (← slice start close input)
    let key := Text.trim key
    if key = [] then return none
    else
      let fields ← fieldsAt fields
      return some (← ranged place (close + 1) ⟨kind, key, firstOfEachName fields⟩)

/-- The group that opens at byte `opening`, if one does: the byte behind it, and the entry it
holds. -/
def groupAt (input kind : Text) (place opening : Nat) :
    Scan (Option (Nat × Option (Located Entry))) := do
  match (← sliceFrom opening input).head?.bind closer? with
  | none => return none
  | some right =>
    let left ← byteAt opening (encode input)
    match closingByte left right.toUInt8 (opening + 1) (encode input) with
    | none => return none
    | some close => return some (close + 1, ← entryAt input kind place (opening + 1) close)

/-- The block whose `@` is at byte `place`. -/
def blockAt (input : Text) (place : Nat) : Scan (Option (Nat × Option (Located Entry))) := do
  match ← headAt input place with
  | none => return none
  | some (kind, opening) => groupAt input kind place opening

/-- The entries from byte `cursor` on. Each round has to move the cursor on, and not beyond the
end. -/
def entriesFrom (input : Text) (cursor : Nat) : Scan (List (Located Entry)) := do
  match offset? (· == '@') (← sliceFrom cursor input) with
  | none => return []
  | some offset =>
    let place := cursor + offset
    let (next, entry?) := (← blockAt input place).getD (place + 1, none)
    if cursor < next ∧ next ≤ Text.size input then
      return entry?.toList ++ (← entriesFrom input next)
    else .error .stuck
termination_by Text.size input - cursor

/-- The entries of a bibliography; of several with one key, the first. -/
def located (input : Text) : Scan (List (Located Entry)) := do
  return (← entriesFrom input 0).eraseDupsBy fun a b => a.value.key == b.value.key

variable {before : Text}

theorem byteAt_append {c : Char} (hc : c.utf8Size = 1) (before t : Text) :
    byteAt (Text.size before) (encode (before ++ c :: t)) = .ok c.toUInt8 := by
  rw [byteAt, encode_append, ← length_encode, List.getElem?_append_right (Nat.le_refl _),
    Nat.sub_self, encode_cons, utf8EncodeChar_ascii hc]
  rfl

theorem headAt_append (before t : Text) :
    headAt (before ++ '@' :: t) (Text.size before) =
      .ok (if t.takeWhile Char.isAlpha = [] then none
        else some (Text.asciiLower (t.takeWhile Char.isAlpha),
          Text.size (before ++ '@' ::
            (t.takeWhile Char.isAlpha ++ (t.dropWhile Char.isAlpha).takeWhile isBlank)))) := by
  have hblanks : Text.size (t.dropWhile Char.isAlpha) -
      Text.size (Text.trimStart (t.dropWhile Char.isAlpha)) =
        Text.size ((t.dropWhile Char.isAlpha).takeWhile isBlank) := by
    have hsplit : (t.dropWhile Char.isAlpha).takeWhile isBlank ++
        Text.trimStart (t.dropWhile Char.isAlpha) = t.dropWhile Char.isAlpha :=
      List.takeWhile_append_dropWhile
    have hsize := congrArg Text.size hsplit
    rw [Text.size_append] at hsize
    exact (Nat.eq_sub_of_add_eq hsize).symm
  rw [headAt, sliceFrom_succ rfl rfl rfl, ok_bind]
  simp only [getD_offset?, sliceTo_takeWhile, sliceFrom_takeWhile, ok_bind, hblanks,
    Text.size_eq_zero_iff]
  by_cases hkind : t.takeWhile Char.isAlpha = []
  · rw [if_pos hkind, if_pos hkind]
    rfl
  · rw [if_neg hkind, if_neg hkind, Text.size_append, Text.size_cons, Text.size_append,
      ← Nat.add_assoc, ← Nat.add_assoc]
    rfl

theorem splitBodyAt_eq (body : Text) : splitBodyAt body = .ok (splitBody body) := by
  rw [splitBodyAt, splitBody, offset?_eq_breakAt?]
  cases hbreak : Text.breakAt? ',' body with
  | none => rfl
  | some x =>
    obtain ⟨key, fields⟩ := x
    obtain ⟨hkey, hfields⟩ := slices_of_breakAt? rfl hbreak
    simp only [Option.map_some, hkey, hfields, ok_bind]
    rfl

theorem entryAt_eq {input kind front body behind : Text} {place start close : Nat}
    (hinput : input = front ++ (body ++ behind)) (hstart : start = Text.size front)
    (hclose : close = start + Text.size body) (hle : place ≤ close + 1)
    (hlt : close + 1 < UInt32.size) :
    entryAt input kind place start close =
      .ok ((entryOf? kind body).map fun e => ⟨place, close + 1, e⟩) := by
  have hentry : entryOf? kind body =
      if kind ∈ auxiliaryKinds ∨ Text.trim (splitBody body).1 = [] then none
      else some ⟨kind, Text.trim (splitBody body).1,
        firstOfEachName (readFields (splitBody body).2)⟩ := rfl
  rw [entryAt, hentry]
  by_cases hkind : kind ∈ auxiliaryKinds
  · rw [if_pos hkind, if_pos (.inl hkind)]
    rfl
  · rw [if_neg hkind, slice_of_eq hinput hstart hclose, ok_bind, splitBodyAt_eq, ok_bind]
    by_cases hkey : Text.trim (splitBody body).1 = []
    · rw [if_pos (.inr hkey)]
      simp only [if_pos hkey]
      rfl
    · rw [if_neg (not_or.2 ⟨hkind, hkey⟩)]
      simp only [if_neg hkey, fieldsAt_eq, ranged_eq hle hlt, ok_bind]
      rfl

theorem utf8Size_of_closer? {left right : Char} (h : closer? left = some right) :
    left.utf8Size = 1 ∧ right.utf8Size = 1 := by
  obtain ⟨d, rfl, rfl⟩ := Delimiter.exists_of_closer? h
  cases d <;> exact ⟨rfl, rfl⟩

/-- What a reader that knows a block by its range has to say of one that ends in front of `rest`. -/
def blockRange (input : Text) (place : Nat) (x : Option Entry × Text) :
    Nat × Option (Located Entry) :=
  let stop := Text.size input - Text.size x.2
  (stop, x.1.map fun e => ⟨place, stop, e⟩)

theorem groupAt_append {front u : Text} {c : Char} {kind : Text} {place : Nat}
    (hplace : place ≤ Text.size front) (hlt : Text.size (front ++ c :: u) < UInt32.size) :
    groupAt (front ++ c :: u) kind place (Text.size front) =
      .ok (((closer? c).bind fun right => closing? c right 0 u).map fun x =>
        blockRange (front ++ c :: u) place (entryOf? kind x.1, x.2)) := by
  rw [groupAt, sliceFrom_of_eq rfl rfl, ok_bind, List.head?_cons, Option.bind_some]
  cases hcloser : closer? c with
  | none => rfl
  | some right =>
    obtain ⟨hc, hright⟩ := utf8Size_of_closer? hcloser
    have hopen : Text.size front + 1 = Text.size (front ++ [c]) := by
      rw [Text.size_append, Text.size_cons, hc]
      rfl
    have hfront : front ++ c :: u = front ++ [c] ++ u := by simp
    have hclosing : closingByte c.toUInt8 right.toUInt8 (Text.size front + 1)
        (encode (front ++ c :: u)) = (closing? c right 0 u).map fun x =>
          Text.size (front ++ [c]) + Text.size x.1 := by
      rw [hopen, hfront]
      exact closingByte_append hc hright _ u
    simp only [byteAt_append hc, ok_bind, hclosing, Option.bind_some]
    cases hbody : closing? c right 0 u with
    | none => rfl
    | some x =>
      obtain ⟨body, rest⟩ := x
      have hu := eq_of_closing? hbody
      have hstop : Text.size (front ++ [c]) + Text.size body + 1 =
          Text.size (front ++ c :: u) - Text.size rest := by
        rw [hfront, hu]
        simp only [Text.size_append, Text.size_cons, Text.size_nil, hright]
        omega
      have hbehind : Text.size (front ++ c :: u) - Text.size rest < UInt32.size :=
        (Nat.sub_le _ _).trans_lt hlt
      rw [← hstop] at hbehind
      have hinput : front ++ c :: u = front ++ [c] ++ (body ++ right :: rest) :=
        hfront.trans (hu ▸ rfl)
      have hle : place ≤ Text.size (front ++ [c]) + Text.size body + 1 := by omega
      simp only [Option.map_some, hopen, entryAt_eq hinput rfl rfl hle hbehind, ok_bind, blockRange,
        hstop]
      rfl

/-- A block is read at the byte where its `@` stands, up to the byte where it ends. -/
theorem blockAt_append (before t : Text) (h : Text.size (before ++ '@' :: t) < UInt32.size) :
    blockAt (before ++ '@' :: t) (Text.size before) =
      .ok ((Block.read? ('@' :: t)).map
        (blockRange (before ++ '@' :: t) (Text.size before))) := by
  have hsplit : t.takeWhile Char.isAlpha ++ ((t.dropWhile Char.isAlpha).takeWhile isBlank ++
      Text.trimStart (t.dropWhile Char.isAlpha)) = t := by
    rw [Text.trimStart, List.takeWhile_append_dropWhile, List.takeWhile_append_dropWhile]
  rw [blockAt, headAt_append, ok_bind, Block.read?]
  generalize t.takeWhile Char.isAlpha = kind at hsplit ⊢
  generalize (t.dropWhile Char.isAlpha).takeWhile isBlank = blanks at hsplit ⊢
  generalize Text.trimStart (t.dropWhile Char.isAlpha) = group at hsplit ⊢
  by_cases hkind : kind = []
  · simp only [if_pos hkind]
    rfl
  · simp only [if_neg hkind]
    have hinput : before ++ '@' :: t = (before ++ '@' :: (kind ++ blanks)) ++ group := by
      rw [← hsplit]
      simp
    have hplace : Text.size before ≤ Text.size (before ++ '@' :: (kind ++ blanks)) := by
      rw [Text.size_append]
      exact Nat.le_add_right _ _
    generalize before ++ '@' :: (kind ++ blanks) = front at hinput hplace ⊢
    rw [hinput] at h ⊢
    cases group with
    | nil =>
      rw [groupAt, sliceFrom_of_eq rfl rfl]
      rfl
    | cons c u =>
      rw [groupAt_append hplace h]
      cases hcloser : closer? c with
      | none => simp [hcloser]
      | some right => cases hbody : closing? c right 0 u <;> simp [hcloser, hbody]

/-! ## Blocks one after the other -/

theorem filterMap_holding? {n : Nat} {l : Text} {e? : Option Entry} {s : Segments (Option Entry)} :
    ((Segments.found [] l e? s).locate n).filterMap holding? =
      (e?.map fun e => (⟨n, n + Text.size l, e⟩ : Located Entry)).toList ++
        (s.locate (n + Text.size l)).filterMap holding? := by
  cases e? <;> rfl

/-- Each round passes over the text in front of an `@`, and then over the block there, or over the `@`
alone. -/
theorem entriesFrom_eq {input : Text} (hlt : Text.size input < UInt32.size) (before t : Text)
    (hinput : input = before ++ t) :
    entriesFrom input (Text.size before) =
      .ok (((blocks t).locate (Text.size before)).filterMap holding?) := by
  rw [entriesFrom, sliceFrom_of_eq hinput rfl, ok_bind, offset?_eq_breakAt?]
  cases hbreak : Text.breakAt? '@' t with
  | none =>
    have hblocks : blocks t = .tail t := Segments.cut_eq_tail fun u hu hne => by
      simpa using Block.read?_gap (g := ⟨t, Text.breakAt?_eq_none_iff.1 hbreak⟩) hu hne []
    rw [hblocks]
    rfl
  | some x =>
    obtain ⟨gap, u⟩ := x
    have ht := Text.eq_of_breakAt? hbreak
    have hblocks : blocks t = (blocks ('@' :: u)).prepend gap := by
      rw [ht]
      exact Segments.cut_append fun v hv hne =>
        Block.read?_gap (g := ⟨gap, Text.not_mem_of_breakAt? hbreak⟩) hv hne _
    have hplace : Text.size before + Text.size gap = Text.size (before ++ gap) :=
      (Text.size_append _ _).symm
    have hfront : input = before ++ gap ++ '@' :: u := by rw [hinput, ht, List.append_assoc]
    rw [hblocks, Segments.locate_prepend]
    simp only [Option.map_some, hplace]
    have hblock := blockAt_append (before ++ gap) u (hfront ▸ hlt)
    rw [← hfront] at hblock
    simp only [hblock, ok_bind]
    cases hread : Block.read? ('@' :: u) with
    | none =>
      have hnext : Text.size (before ++ gap) + 1 = Text.size (before ++ gap ++ ['@']) := by
        rw [Text.size_append (before ++ gap)]
        rfl
      have hbehind : input = before ++ gap ++ ['@'] ++ u := by rw [hfront]; simp
      have hprogress : Text.size before < Text.size (before ++ gap ++ ['@']) ∧
          Text.size (before ++ gap ++ ['@']) ≤ Text.size input := by
        rw [hbehind]
        simp only [Text.size_append, Text.size_cons]
        have := '@'.utf8Size_pos
        omega
      simp only [Option.map_none, Option.getD_none, hnext, if_pos hprogress,
        entriesFrom_eq hlt _ u hbehind, ok_bind]
      rw [blocks_cons hread, Segments.locate_prepend, ← Text.size_append]
      rfl
    | some x =>
      obtain ⟨e?, rest⟩ := x
      obtain ⟨b, htext, rfl⟩ := Block.read?_eq_some_iff.1 hread
      have hbehind : input = before ++ gap ++ b.text ++ rest := by
        rw [hfront, htext, List.append_assoc (before ++ gap)]
      have hstop : Text.size input - Text.size rest = Text.size (before ++ gap ++ b.text) := by
        rw [hbehind, Text.size_append, Nat.add_sub_cancel]
      have hprogress : Text.size before < Text.size (before ++ gap ++ b.text) ∧
          Text.size (before ++ gap ++ b.text) ≤ Text.size input := by
        have := Text.size_pos (List.cons_ne_nil '@' (b.kind ++ (b.before.1 ++ b.group)))
        rw [hbehind]
        simp only [Text.size_append, PrintedBlock.text]
        omega
      simp only [Option.map_some, Option.getD_some, blockRange, hstop, if_pos hprogress,
        entriesFrom_eq hlt _ rest hbehind, ok_bind]
      rw [htext, blocks_text_append, filterMap_holding?, ← Text.size_append]
      rfl
termination_by t.length
decreasing_by
  · rw [ht, List.length_append]
    exact Nat.lt_add_left _ (Nat.lt_succ_self _)
  · rw [ht, List.length_append, htext]
    exact Nat.lt_add_left _ (htext ▸ Block.proper_read? hread)

theorem located_eq {t : Text} (h : Text.size t < UInt32.size) :
    located t = .ok (Bibliography.located t) := by
  have hentries : entriesFrom t 0 = .ok (allLocated t) := entriesFrom_eq h [] t rfl
  rw [located, hentries, ok_bind]
  rfl

end TexBundle.Offsets
