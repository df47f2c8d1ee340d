import TexBundle.Proofs.Bibliography.Printing
import TexBundle.Proofs.Text.Occurrences

/-!
# Blocks

A block as it is written, whatever its group holds: an entry, an auxiliary block, or neither.

* `PrintedBlock`: these texts, with the entry that each holds, if any;
* `Block.read?_eq_some_iff`: the texts that start with a block are those that start with the text of
  a written one, which is read up to its end;
* `occurrences_blocks_iff`: the blocks of a text are what a scan finds;
* `PrintedBlock.locate_blocks_textOf`: written blocks are found again;
* `located_eq_firsts`: of the entries that they hold, the first of each key are kept.
-/

namespace TexBundle.Bibliography

/-! ## Kinds and delimiters -/

theorem not_isAlpha_of_isBlank {c : Char} (h : isBlank c = true) : c.isAlpha = false := by
  simp only [isBlank, Char.toNat, Bool.or_eq_true, Bool.and_eq_true, decide_eq_true_eq,
    beq_iff_eq] at h
  change (decide (c.val ≥ 65 ∧ c.val ≤ 90) || (decide (c.val ≥ 97) && decide (c.val ≤ 122))) = false
  simp only [UInt32.le_iff_toNat_le, ge_iff_le, Bool.or_eq_false_iff, Bool.and_eq_false_iff,
    decide_eq_false_iff_not, UInt32.reduceToNat]
  omega

namespace Delimiter

theorem not_isAlpha_left (d : Delimiter) : d.left.isAlpha = false := by cases d <;> rfl

theorem closer?_left (d : Delimiter) : closer? d.left = some d.right := by cases d <;> rfl

theorem exists_of_closer? {left right : Char} (h : closer? left = some right) :
    ∃ d : Delimiter, d.left = left ∧ d.right = right := by
  unfold closer? at h
  split at h
  · exact ⟨braces, rfl, Option.some.inj h⟩
  · exact ⟨parentheses, rfl, Option.some.inj h⟩
  · cases h

end Delimiter

/-! ## Written blocks -/

/-- A block as it is written. Its group ends with the delimiter that closes it, so the body in front
of that is balanced. -/
structure PrintedBlock where
  kind : Text
  before : Blanks := ⟨[], rfl⟩
  delimiter : Delimiter
  body : Text
  kind_ne_nil : kind ≠ [] := by decide
  kind_letters : kind.all Char.isAlpha = true := by decide
  balanced_body : balanced delimiter.left delimiter.right 0 body = true := by decide

namespace PrintedBlock

def group (b : PrintedBlock) : Text := b.delimiter.left :: (b.body ++ [b.delimiter.right])

def text (b : PrintedBlock) : Text := '@' :: (b.kind ++ (b.before.1 ++ b.group))

/-- The entry that the block holds. -/
def entry? (b : PrintedBlock) : Option Entry := entryOf? (Text.asciiLower b.kind) b.body

theorem text_append (b : PrintedBlock) (rest : Text) :
    b.text ++ rest = '@' :: (b.kind ++
      (b.before.1 ++ b.delimiter.left :: (b.body ++ b.delimiter.right :: rest))) := by
  simp [text, group]

/-- The kind ends where its letters end: no letter is blank or a delimiter. -/
theorem span_kind (b : PrintedBlock) (t : Text) :
    let behind := b.before.1 ++ b.delimiter.left :: t
    (b.kind ++ behind).takeWhile Char.isAlpha = b.kind ∧
      (b.kind ++ behind).dropWhile Char.isAlpha = behind := by
  refine span_append (List.all_eq_true.1 b.kind_letters) fun c hc => ?_
  generalize b.before = before at hc
  obtain ⟨blanks, hblanks⟩ := before
  cases blanks with
  | nil =>
    obtain rfl := Option.some.inj hc
    exact b.delimiter.not_isAlpha_left
  | cons d blanks =>
    obtain rfl := Option.some.inj hc
    exact not_isAlpha_of_isBlank (List.all_eq_true.1 hblanks d List.mem_cons_self)

/-- A written block is read up to its end, whatever follows. -/
theorem read?_text (b : PrintedBlock) (rest : Text) :
    Block.read? (b.text ++ rest) = some (b.entry?, rest) := by
  obtain ⟨hkind, hbehind⟩ := b.span_kind (b.body ++ b.delimiter.right :: rest)
  have hclosing := closing?_append b.delimiter.right_ne_left b.balanced_body rest
  rw [text_append, Block.read?]
  simp only [hkind, hbehind, b.kind_ne_nil, if_false]
  rw [Text.trimStart_append b.before.2, Text.trimStart_cons b.delimiter.isBlank_left]
  simp [b.delimiter.closer?_left, hclosing, entry?]

end PrintedBlock

/-! ## Reading -/

namespace Block

variable {t rest : Text} {e? : Option Entry}

/-- What is read is a written block. -/
theorem exists_of_read? (h : read? t = some (e?, rest)) :
    ∃ b : PrintedBlock, t = b.text ++ rest ∧ e? = b.entry? := by
  unfold read? at h
  split at h
  next t =>
    have hsplit : t.takeWhile Char.isAlpha ++ t.dropWhile Char.isAlpha = t :=
      List.takeWhile_append_dropWhile
    have hletters : (t.takeWhile Char.isAlpha).all Char.isAlpha = true :=
      List.all_eq_true.2 fun _ hc => List.mem_takeWhile_imp hc
    generalize t.takeWhile Char.isAlpha = kind at h hsplit hletters
    generalize t.dropWhile Char.isAlpha = behind at h hsplit
    have hblanks : behind.takeWhile isBlank ++ Text.trimStart behind = behind :=
      List.takeWhile_append_dropWhile
    by_cases hkind : kind = []
    · simp [hkind] at h
    · simp only [if_neg hkind] at h
      split at h
      next c u htrim =>
        simp only [Option.bind_eq_bind, Option.bind_eq_some_iff] at h
        obtain ⟨right, hright, ⟨body, rest⟩, hclosing, hread⟩ := h
        obtain ⟨rfl, rfl⟩ := Prod.mk.inj (Option.some.inj hread)
        obtain ⟨d, rfl, rfl⟩ := Delimiter.exists_of_closer? hright
        obtain ⟨rfl, hbody⟩ := (closing?_eq_some_iff d.right_ne_left).1 hclosing
        refine ⟨⟨kind, ⟨behind.takeWhile isBlank, ?_⟩, d, body, hkind, hletters, hbody⟩, ?_, rfl⟩
        · exact List.all_eq_true.2 fun _ hc => List.mem_takeWhile_imp hc
        · rw [PrintedBlock.text_append, ← htrim, hblanks, hsplit]
      next => cases h
  next => cases h

/-- Reading accepts exactly the written blocks. -/
theorem read?_eq_some_iff :
    read? t = some (e?, rest) ↔ ∃ b : PrintedBlock, t = b.text ++ rest ∧ e? = b.entry? := by
  constructor
  · exact exists_of_read?
  · rintro ⟨b, rfl, rfl⟩
    exact b.read?_text rest

theorem exact_read? : Exact read? := by
  intro t e? rest h
  obtain ⟨b, rfl, rfl⟩ := read?_eq_some_iff.1 h
  exact ⟨b.text, rfl, fun rest' _ => b.read?_text rest'⟩

theorem proper_read? : Proper read? := by
  intro t e? rest h
  obtain ⟨b, rfl, rfl⟩ := read?_eq_some_iff.1 h
  rw [List.length_append]
  exact Nat.lt_add_of_pos_left (Nat.succ_pos _)

end Block

theorem Block.read?_eq_none {c : Char} (hc : c ≠ '@') (t : Text) : Block.read? (c :: t) = none := by
  unfold Block.read?
  split
  · exact absurd (List.cons.inj ‹_›).1 hc
  · rfl

theorem Block.read?_gap {g : Gap} {u : Text} (hu : u <:+ g.1) (hne : u ≠ []) (t : Text) :
    Block.read? (u ++ t) = none := by
  obtain ⟨c, u, rfl⟩ := List.exists_cons_of_ne_nil hne
  exact Block.read?_eq_none (ne_of_mem_of_not_mem (hu.subset List.mem_cons_self) g.2) _

/-- The blocks of a text, with their byte ranges, are what a scan for blocks finds. -/
theorem occurrences_blocks_iff {t : Text} {os : List (Located (Option Entry))} :
    Occurrences Block.read? 0 t os ↔ os = (blocks t).locate 0 :=
  occurrences_iff Block.exact_read? Block.proper_read?

/-! ## Blocks one after the other -/

theorem blocks_cons {c : Char} {t : Text} (h : Block.read? (c :: t) = none) :
    blocks (c :: t) = (blocks t).prepend [c] :=
  Segments.cut_cons h

theorem blocks_text_append (b : PrintedBlock) (t : Text) :
    blocks (b.text ++ t) = .found [] b.text b.entry? (blocks t) :=
  Segments.cut_of_read? (List.cons_ne_nil _ _) (b.read?_text t)

/-- Induction on what a scan finds: it is at the end, passes over a character, or takes a block. -/
theorem blocks_induction {motive : Text → Prop} (done : motive [])
    (pass : ∀ c t, Block.read? (c :: t) = none → motive t → motive (c :: t))
    (take : ∀ (b : PrintedBlock) t, motive t → motive (b.text ++ t)) (t : Text) : motive t := by
  match t with
  | [] => exact done
  | c :: t =>
    cases hread : Block.read? (c :: t) with
    | none => exact pass c t hread (blocks_induction done pass take t)
    | some found =>
      obtain ⟨e?, rest⟩ := found
      have hrest := Block.proper_read? hread
      obtain ⟨b, htext, -⟩ := Block.read?_eq_some_iff.1 hread
      exact htext ▸ take b rest (blocks_induction done pass take rest)
termination_by t.length
decreasing_by
  · exact Nat.lt_succ_self _
  · exact hrest

namespace PrintedBlock

/-- Blocks as they are written, each with the text in front of it, and more text behind the last. -/
def textOf : List (Gap × PrintedBlock) → Text → Text
  | [], ending => ending
  | (gap, b) :: bs, ending => gap.1 ++ (b.text ++ textOf bs ending)

/-- What the blocks hold, with the byte ranges of their texts; the first gap starts at byte `n`. -/
def locate (n : Nat) : List (Gap × PrintedBlock) → List (Located (Option Entry))
  | [] => []
  | (gap, b) :: bs =>
    let start := n + Text.size gap.1
    let stop := start + Text.size b.text
    ⟨start, stop, b.entry?⟩ :: locate stop bs

/-- Written blocks are found again where they stand. -/
theorem locate_blocks_textOf (n : Nat) (bs : List (Gap × PrintedBlock)) (ending : Gap) :
    (blocks (textOf bs ending.1)).locate n = locate n bs := by
  induction bs generalizing n with
  | nil =>
    have hcut : blocks ending.1 = .tail ending.1 := Segments.cut_eq_tail fun u hu hne => by
      simpa using Block.read?_gap hu hne []
    rw [textOf, hcut]
    rfl
  | cons b bs ih =>
    obtain ⟨gap, b⟩ := b
    rw [textOf, blocks, Segments.cut_append fun u hu hne => Block.read?_gap hu hne _, ← blocks,
      blocks_text_append, Segments.locate_prepend, Segments.locate, ih]
    rfl

end PrintedBlock

/-! ## Blocks that hold an entry -/

/-- The entry that a block holds, if any, with the range of the block. -/
def holding? (block : Located (Option Entry)) : Option (Located Entry) :=
  block.value.map fun e => ⟨block.start, block.stop, e⟩

theorem holding?_eq_some_iff {block : Located (Option Entry)} {e : Located Entry} :
    holding? block = some e ↔ block = ⟨e.start, e.stop, some e.value⟩ := by
  obtain ⟨start, stop, value⟩ := block
  obtain ⟨start', stop', value'⟩ := e
  cases value <;> simp [holding?, and_comm]

theorem allLocated_eq (t : Text) : allLocated t = ((blocks t).locate 0).filterMap holding? := rfl

theorem located_eq_firsts (t : Text) :
    located t = firsts (fun e => e.value.key) (allLocated t) :=
  eraseDupsBy_eq_firsts _ (fun _ _ => beq_iff_eq) _

namespace PrintedBlock

/-- The entries that written blocks hold, with the byte ranges of the blocks. -/
def holdings (bs : List (Gap × PrintedBlock)) : List (Located Entry) :=
  (locate 0 bs).filterMap holding?

theorem located_textOf (bs : List (Gap × PrintedBlock)) (ending : Gap) :
    located (textOf bs ending.1) = firsts (fun e => e.value.key) (holdings bs) := by
  rw [located_eq_firsts, allLocated_eq, locate_blocks_textOf]
  rfl

end PrintedBlock

end TexBundle.Bibliography
