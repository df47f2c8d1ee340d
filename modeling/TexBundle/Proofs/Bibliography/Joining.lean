import TexBundle.Proofs.Bibliography.RoundTrip

/-!
# One text behind another

What stands in front of a text moves the ranges of its entries, and changes nothing else if no block
runs across the seam. Two kinds of texts have no such block: those that close nothing, in front of
one that closes only what it opens, and those whose blocks are all closed.

* `Located.shift`: the same occurrence further on in a text;
* `Block.read?_eq_none_of_unclosed`, `located_append_unclosed`: nothing that is left open takes a
  part of the text behind it;
* `located_behind_unclosed`: so written blocks are found behind broken ones;
* `AllClosed`, `blocks_append`: a text that leaves nothing open is scanned on its own;
* `located_append_newline`: so joining two bibliographies adds the entries with new keys.
-/

namespace TexBundle

variable {α : Type}

/-! ## Occurrences further on -/

/-- The same occurrence, `n` bytes further on. -/
def Located.shift (n : Nat) (o : Located α) : Located α := ⟨n + o.start, n + o.stop, o.value⟩

namespace Segments

theorem locate_add (m n : Nat) (s : Segments α) :
    s.locate (m + n) = (s.locate n).map (·.shift m) := by
  induction s generalizing n with
  | tail => rfl
  | found b l v rest ih =>
    rw [locate, locate, List.map_cons, Nat.add_assoc, Nat.add_assoc, ih]
    rfl

/-- Segments one behind the other: the last text of the first ones comes in front of the others. -/
def append : Segments α → Segments α → Segments α
  | tail t, s => s.prepend t
  | found b l v rest, s => found b l v (rest.append s)

theorem append_prepend (t : Text) (s s' : Segments α) :
    (s.prepend t).append s' = (s.append s').prepend t := by
  cases s with
  | tail u => exact (prepend_prepend t u s').symm
  | found => rfl

theorem locate_append (n : Nat) (s s' : Segments α) :
    (s.append s').locate n = s.locate n ++ s'.locate (n + Text.size s.text) := by
  induction s generalizing n with
  | tail t => exact locate_prepend n t s'
  | found b l v rest ih =>
    simp only [append, locate, text, ih, Text.size_append, Nat.add_assoc, List.cons_append]

/-- The texts between the occurrences, in front of the first, and behind the last. -/
def between : Segments α → List Text
  | tail t => [t]
  | found b _ _ rest => b :: rest.between

theorem exists_between_prepend (t : Text) (s : Segments α) :
    ∃ g gs, s.between = g :: gs ∧ (s.prepend t).between = (t ++ g) :: gs := by
  cases s with
  | tail u => exact ⟨u, [], rfl, rfl⟩
  | found b l v rest => exact ⟨b, rest.between, rfl, rfl⟩

end Segments

namespace Bibliography

theorem holding?_shift (n : Nat) (block : Located (Option Entry)) :
    holding? (block.shift n) = (holding? block).map (·.shift n) := by
  obtain ⟨start, stop, value⟩ := block
  cases value <;> rfl

theorem filterMap_holding?_shift (n : Nat) (found : List (Located (Option Entry))) :
    (found.map (·.shift n)).filterMap holding? = (found.filterMap holding?).map (·.shift n) := by
  rw [List.filterMap_map, List.map_filterMap]
  exact congrArg (List.filterMap · found) (funext (holding?_shift n))

/-! ## Behind something broken -/

/-- A text that closes only what it opens itself, and that no kind and no blanks run on into. -/
structure ClosesNothing (t : Text) : Prop where
  start : ∀ c, t.head? = some c → c = '@'
  balanced : ∀ d : Delimiter, balanced d.left d.right 0 t = true

/-- A block of which a part stands in front of such a text has been opened in that part. -/
theorem PrintedBlock.exists_opened {b : PrintedBlock} {p t rest : Text} (hne : p ≠ [])
    (hstart : ∀ c, t.head? = some c → c = '@') (htext : p ++ t = b.text ++ rest) :
    ∃ q, q <:+ p ∧ q ++ t = b.body ++ b.delimiter.right :: rest := by
  have hkind : '@' ∉ b.kind ++ b.before.1 := fun h => (List.mem_append.1 h).elim
    (fun h => absurd (List.all_eq_true.1 b.kind_letters _ h) (by decide))
    (Text.not_mem_of_allBlank b.before.2 rfl)
  have hleft : b.delimiter.left ≠ '@' := by cases b.delimiter <;> decide
  rw [b.text_append, ← List.append_assoc, ← List.cons_append, List.append_eq_append_iff] at htext
  rcases htext with ⟨q, hq, ht⟩ | ⟨q, hq, ht⟩
  · -- The seam lies in front of the opening delimiter, where `t` would start with something else.
    obtain ⟨c, p, rfl⟩ := List.exists_cons_of_ne_nil hne
    cases q with
    | nil => exact absurd (hstart _ (by rw [ht]; rfl)) hleft
    | cons d q =>
      obtain rfl := hstart d (by rw [ht]; rfl)
      refine absurd ?_ hkind
      rw [(List.cons.inj hq).2]
      exact List.mem_append_right _ List.mem_cons_self
  · cases q with
    | nil => exact absurd (hstart _ (by rw [← List.nil_append t, ← ht]; rfl)) hleft
    | cons c q =>
      refine ⟨q, ?_, (List.cons.inj ht).2.symm⟩
      rw [hq]
      exact (List.suffix_cons c q).trans (List.suffix_append _ _)

/-- What a text leaves open is not closed by one that closes nothing. -/
theorem Block.read?_eq_none_of_unclosed {p t : Text} (hne : p ≠ [])
    (hp : ∀ d : Delimiter, d.right ∉ p) (ht : ClosesNothing t) : Block.read? (p ++ t) = none := by
  rw [Option.eq_none_iff_forall_ne_some]
  rintro ⟨e?, rest⟩ hread
  obtain ⟨b, htext, -⟩ := Block.read?_eq_some_iff.1 hread
  obtain ⟨q, hq, hgroup⟩ := b.exists_opened hne ht.start htext
  have hclosing := closing?_append b.delimiter.right_ne_left b.balanced_body rest
  rw [← hgroup, closing?_eq_none b.delimiter.right_ne_left (fun h => hp _ (hq.subset h))
    (ht.balanced b.delimiter)] at hclosing
  cases hclosing

theorem blocks_append_unclosed {p t : Text} (hp : ∀ d : Delimiter, d.right ∉ p)
    (ht : ClosesNothing t) : blocks (p ++ t) = (blocks t).prepend p :=
  Segments.cut_append fun _ hu hne =>
    Block.read?_eq_none_of_unclosed hne (fun d h => hp d (hu.subset h)) ht

/-- Behind a text that closes nothing, the entries are the same. -/
theorem located_append_unclosed {p t : Text} (hp : ∀ d : Delimiter, d.right ∉ p)
    (ht : ClosesNothing t) : located (p ++ t) = (located t).map (·.shift (Text.size p)) := by
  rw [located_eq_firsts, located_eq_firsts, allLocated_eq, allLocated_eq,
    blocks_append_unclosed hp ht, Segments.locate_prepend, Nat.add_comm,
    Segments.locate_add, filterMap_holding?_shift, firsts_map]
  rfl

namespace PrintedBlock

theorem balanced_text {b : PrintedBlock} (h : b.delimiter = .braces) :
    balanced '{' '}' 0 b.text = true := by
  have hkind : balanced '{' '}' 0 b.kind = true := balanced_of_ne fun c hc => by
    have hletter := List.all_eq_true.1 b.kind_letters c hc
    constructor <;> rintro rfl <;> exact absurd hletter (by decide)
  have hbody := b.balanced_body
  have hgroup := balanced_group b.delimiter.right_ne_left hbody
  rw [h] at hgroup
  have hblanks := Delimiter.braces.balanced_blanks b.before
  have hrest := Delimiter.braces.balanced_append hkind
    (Delimiter.braces.balanced_append hblanks hgroup)
  rw [text, group, h]
  exact Delimiter.braces.balanced_append (s := ['@']) rfl hrest

theorem balanced_textOf {bs : List (Gap × PrintedBlock)} {ending : Text}
    (hblocks : ∀ b ∈ bs, b.2.delimiter = .braces) (hgaps : ∀ b ∈ bs, '{' ∉ b.1.1 ∧ '}' ∉ b.1.1)
    (hending : '{' ∉ ending ∧ '}' ∉ ending) : balanced '{' '}' 0 (textOf bs ending) = true := by
  have hplain {t : Text} (ht : '{' ∉ t ∧ '}' ∉ t) : balanced '{' '}' 0 t = true :=
    balanced_of_ne fun c hc => ⟨ne_of_mem_of_not_mem hc ht.1, ne_of_mem_of_not_mem hc ht.2⟩
  induction bs with
  | nil => exact hplain hending
  | cons b bs ih =>
    have hrest := ih (fun b hb => hblocks b (List.mem_cons_of_mem _ hb))
      fun b hb => hgaps b (List.mem_cons_of_mem _ hb)
    have hgap := hplain (hgaps b List.mem_cons_self)
    have hblock := balanced_text (hblocks b List.mem_cons_self)
    exact balanced_append hgap (balanced_append hblock hrest)

end PrintedBlock

/-- Blocks in braces as they are written, one at the start, without parentheses anywhere and without
braces between the blocks. -/
structure BracedFile where
  blocks : List (Gap × PrintedBlock)
  ending : Gap
  braced : ∀ b ∈ blocks, b.2.delimiter = .braces := by decide
  gaps_plain : ∀ b ∈ blocks, '{' ∉ b.1.1 ∧ '}' ∉ b.1.1 := by decide
  ending_plain : '{' ∉ ending.1 ∧ '}' ∉ ending.1 := by decide
  start : (PrintedBlock.textOf blocks ending.1).head?.all (· == '@') = true := by decide
  no_parentheses : '(' ∉ PrintedBlock.textOf blocks ending.1 ∧
    ')' ∉ PrintedBlock.textOf blocks ending.1 := by decide

namespace BracedFile

def text (f : BracedFile) : Text := PrintedBlock.textOf f.blocks f.ending.1

theorem closesNothing_text (f : BracedFile) : ClosesNothing f.text where
  start c hc := by
    have hstart := f.start
    rw [← text, hc] at hstart
    exact beq_iff_eq.1 hstart
  balanced d := by
    cases d with
    | braces => exact PrintedBlock.balanced_textOf f.braced f.gaps_plain f.ending_plain
    | parentheses =>
      exact balanced_of_ne fun c hc => ⟨ne_of_mem_of_not_mem hc f.no_parentheses.1,
        ne_of_mem_of_not_mem hc f.no_parentheses.2⟩

end BracedFile

/-- Behind any text without closing delimiters, whatever it opens, blocks in braces are found as on
their own: with the same entries, in ranges that are moved by the size of that text. -/
theorem located_behind_unclosed {p : Text} (hbrace : '}' ∉ p) (hparenthesis : ')' ∉ p)
    (f : BracedFile) :
    located (p ++ f.text) = (located f.text).map (·.shift (Text.size p)) ∧
      located f.text = firsts (fun e => e.value.key) (PrintedBlock.holdings f.blocks) := by
  have hp (d : Delimiter) : d.right ∉ p := by
    cases d with
    | braces => exact hbrace
    | parentheses => exact hparenthesis
  exact ⟨located_append_unclosed hp f.closesNothing_text, PrintedBlock.located_textOf _ _⟩

theorem located_behind_unclosed_two :
    let p : Text := "@a\x7bx, y = \"@b(z = @ \x7b@c"
    '}' ∉ p ∧ ')' ∉ p ∧
      located (p ++ "@misc\x7bk,year=1\x7d and @Book \x7bl,title=\x7ba, b\x7d\x7d.") =
        [⟨23, 38, "misc", "k", [(("year", "1") : Text × Text)]⟩,
          ⟨43, 65, "book", "l", [(("title", "a, b") : Text × Text)]⟩] := by
  intro p
  have hbrace : '}' ∉ p := by decide
  have hparenthesis : ')' ∉ p := by decide
  let entries : List (Gap × PrintedEntry) := [
    (⟨[], by decide⟩, {
      kind := "misc"
      delimiter := .braces
      key := { content := "k" }
      fields := [
        { name := { content := "year" }
          value := { style := .bare, inner := { content := "1" } } }] }),
    (⟨" and ", by decide⟩, {
      kind := "Book"
      before := ⟨" ", rfl⟩
      delimiter := .braces
      key := { content := "l" }
      fields := [
        { name := { content := "title" }
          value := { style := .braced, inner := { content := "a, b" } } }] })]
  let f : BracedFile := { blocks := PrintedFile.blocks entries, ending := ⟨".", by decide⟩ }
  obtain ⟨hshift, hfound⟩ := located_behind_unclosed hbrace hparenthesis f
  refine ⟨hbrace, hparenthesis, hshift.trans ?_⟩
  rw [hfound, PrintedBlock.holdings, ← PrintedFile.locate_eq]
  rfl

/-! ## Behind something closed -/

/-- Every `@` at which the scan for blocks stops starts one: none stands between the blocks. -/
def AllClosed (t : Text) : Prop := ∀ g ∈ (blocks t).between, '@' ∉ g

/-- Written blocks are all closed. -/
theorem allClosed_textOf (bs : List (Gap × PrintedBlock)) (ending : Gap) :
    AllClosed (PrintedBlock.textOf bs ending.1) := by
  induction bs with
  | nil =>
    rw [AllClosed, PrintedBlock.textOf, blocks, Segments.cut_eq_tail fun u hu hne => by
      simpa using Block.read?_gap hu hne []]
    exact List.forall_mem_singleton.2 ending.2
  | cons b bs ih =>
    rw [AllClosed, PrintedBlock.textOf, blocks,
      Segments.cut_append fun u hu hne => Block.read?_gap hu hne _, ← blocks, blocks_text_append]
    exact List.forall_mem_cons.2 ⟨by simpa using b.1.2, ih⟩

/-- The scan of a text that leaves nothing open ends with that text. -/
theorem blocks_append {a : Text} (h : AllClosed a) (t : Text) :
    blocks (a ++ t) = (blocks a).append (blocks t) := by
  induction a using blocks_induction with
  | done => simp [blocks, Segments.cut, Segments.append]
  | pass c a hread ih =>
    obtain ⟨g, gs, hg, hprepend⟩ := Segments.exists_between_prepend [c] (blocks a)
    rw [AllClosed, blocks_cons hread, hprepend] at h
    obtain ⟨hfirst, hrest⟩ := List.forall_mem_cons.1 h
    have hc : c ≠ '@' := fun hc => hfirst (hc ▸ List.mem_cons_self)
    have ha : AllClosed a := by
      rw [AllClosed, hg, List.forall_mem_cons]
      exact ⟨fun h => hfirst (List.mem_append_right _ h), hrest⟩
    rw [List.cons_append, blocks_cons (Block.read?_eq_none hc _), ih ha, blocks_cons hread,
      Segments.append_prepend]
  | take b a ih =>
    rw [AllClosed, blocks_text_append] at h
    rw [List.append_assoc, blocks_text_append, ih (List.forall_mem_cons.1 h).2, blocks_text_append]
    rfl

/-- Two texts joined by a line break have the entries of the first, and behind them those entries of
the second whose key the first does not have, if the first leaves nothing open. -/
theorem located_append_newline {a : Text} (h : AllClosed a) (b : Text) :
    located (a ++ '\n' :: b) = located a ++
      ((located b).map (·.shift (Text.size a + 1))).filter fun e =>
        e.value.key ∉ (located a).map (·.value.key) := by
  have hnewline : blocks ('\n' :: b) = (blocks b).prepend ['\n'] :=
    blocks_cons (Block.read?_eq_none (by decide) b)
  have hall : allLocated (a ++ '\n' :: b) =
      allLocated a ++ (allLocated b).map (·.shift (Text.size a + 1)) := by
    rw [allLocated_eq, blocks_append h, Segments.locate_append, List.filterMap_append, hnewline,
      Segments.locate_prepend, blocks, Segments.text_cut, ← blocks, Nat.zero_add,
      ← Nat.add_zero (Text.size a + _), Segments.locate_add, filterMap_holding?_shift]
    rfl
  rw [located_eq_firsts, hall, firsts_append, firsts_map, located_eq_firsts, located_eq_firsts]
  exact congrArg _ (List.filter_congr fun e _ => decide_eq_decide.2 Iff.rfl)

theorem located_append_newline_mixed :
    let a := PrintedFile.mixed.text
    let b : Text := "@book\x7by\x7d @misc(z)"
    AllClosed a ∧ located (a ++ '\n' :: b) =
      [⟨4, 36, "misc", "x", [(("year", "1999") : Text × Text)]⟩,
        ⟨36, 60, "book", "y", [(("title", "a (b)") : Text × Text)]⟩, ⟨70, 78, "misc", "z", []⟩] := by
  intro a b
  let entries : List (Gap × PrintedEntry) := [
    (⟨[], by decide⟩,
      { kind := "book", delimiter := .braces, key := { content := "y" }, fields := [] }),
    (⟨" ", by decide⟩,
      { kind := "misc", delimiter := .parentheses, key := { content := "z" }, fields := [] })]
  have hfirst : a = PrintedBlock.textOf (PrintedFile.blocks PrintedFile.mixed.entries) [] :=
    PrintedFile.textOf_eq _ _
  have ha : AllClosed a := hfirst ▸ allClosed_textOf _ ⟨[], by decide⟩
  have hlocated : located a =
      firsts (fun e => e.value.key) (PrintedFile.locate 0 PrintedFile.mixed.entries) := by
    rw [hfirst, PrintedFile.locate_eq]
    exact PrintedBlock.located_textOf _ ⟨[], by decide⟩
  have hsecond : located b = firsts (fun e => e.value.key) (PrintedFile.locate 0 entries) := by
    rw [PrintedFile.locate_eq]
    exact PrintedBlock.located_textOf (PrintedFile.blocks entries) ⟨[], by decide⟩
  refine ⟨ha, (located_append_newline ha b).trans ?_⟩
  rw [hlocated, hsecond]
  rfl

end Bibliography

end TexBundle
