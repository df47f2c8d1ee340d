import TexBundle.Proofs.Source.Comment
import TexBundle.Proofs.Source.Reader
import TexBundle.Proofs.Text.Occurrences

/-!
# Include directives as they are written

The two ways to write an include directive, and where in a source they are found: wherever one is
written outside comments, unless it stands inside of what has been matched before.

* `Directive.Written`: a directive, how it is written, and what may stand behind it;
* `Directive.read?_eq_some_iff`: what is read is what is written;
* `locate_uncommented`: which of a scan's matches are dropped;
* `locate_directives`: the directives of a source are the written ones, from left to right.
-/

namespace TexBundle.Source

/-! ## Directives -/

namespace Directive

/-- What a bare argument is made of. -/
def IsWordChar (c : Char) : Prop := isBlank c = false ∧ c ∉ ['{', '}', '\\', '%']

instance (c : Char) : Decidable (IsWordChar c) := inferInstanceAs (Decidable (_ ∧ _))

/-- How a directive is written, with the text behind it: its argument stands in braces, in which no
other brace stands, or it is all of a word that is set off by blanks. -/
inductive Written : Directive → (lexeme rest : Text) → Prop where
  | braced {command : IncludeCommand} {blanks argument rest : Text}
      (hblanks : blanks.allBlank = true) (hargument : '{' ∉ argument ∧ '}' ∉ argument) :
    Written ⟨command, argument⟩
      ('\\' :: (command.name ++ (blanks ++ '{' :: (argument ++ ['}'])))) rest
  | bare {command : IncludeCommand} {blanks word rest : Text}
      (hblanks : blanks.allBlank = true) (hset : blanks ≠ []) (hne : word ≠ [])
      (hword : ∀ c ∈ word, IsWordChar c) (hall : ∀ c, rest.head? = some c → ¬IsWordChar c) :
    Written ⟨command, word⟩ ('\\' :: (command.name ++ (blanks ++ word))) rest

variable {d : Directive} {lexeme rest t : Text} {command : IncludeCommand}

theorem isBare_iff {c : Char} : isBare c = true ↔ IsWordChar c := by
  simp [isBare, IsWordChar, and_assoc]

theorem isBare_eq_false_iff {c : Char} : isBare c = false ↔ ¬IsWordChar c := by
  rw [← isBare_iff, Bool.not_eq_true]

theorem isBraced_of_not_mem {argument : Text} (h : '{' ∉ argument ∧ '}' ∉ argument) :
    ∀ c ∈ argument, isBraced c = true := by
  intro c hc
  have hopen : c ≠ '{' := ne_of_mem_of_not_mem hc h.1
  have hclose : c ≠ '}' := ne_of_mem_of_not_mem hc h.2
  simp [isBraced, hopen, hclose]

theorem Written.lexeme_ne_nil (h : Written d lexeme rest) : lexeme ≠ [] := by
  cases h <;> exact List.cons_ne_nil _ _

theorem command_read?_eq_some_iff :
    IncludeCommand.read? t = some (command, rest) ↔ t = command.name ++ rest := by
  constructor
  · intro h
    obtain ⟨_, command', _, -, hname, -⟩ := List.findSome?_eq_some_iff.1 h
    obtain ⟨u, hstrip, hpair⟩ := Option.map_eq_some_iff.1 hname
    obtain ⟨rfl, rfl⟩ := Prod.mk.inj hpair
    exact Text.stripPrefix?_eq_some_iff.1 hstrip
  · rintro rfl
    -- No name is the start of another one.
    cases command <;> rfl

theorem braced?_eq_some_iff {argument : Text} :
    braced? t = some (argument, rest) ↔
      ∃ blanks : Text, blanks.allBlank = true ∧ ('{' ∉ argument ∧ '}' ∉ argument) ∧
        t = blanks ++ '{' :: (argument ++ '}' :: rest) := by
  constructor
  · intro h
    unfold braced? at h
    split at h
    next body hblanks =>
      split at h
      next rest' hbody =>
        obtain ⟨rfl, rfl⟩ := Prod.mk.inj (Option.some.inj h)
        refine ⟨t.takeWhile isBlank, List.all_eq_true.2 fun _ hc => List.mem_takeWhile_imp hc,
          ⟨fun hm => ?_, fun hm => ?_⟩, ?_⟩
        · exact absurd (List.mem_takeWhile_imp hm) (by decide)
        · exact absurd (List.mem_takeWhile_imp hm) (by decide)
        · rw [← hbody, List.takeWhile_append_dropWhile, ← hblanks, List.takeWhile_append_dropWhile]
      next => cases h
    next => cases h
  · rintro ⟨blanks, hblanks, hargument, rfl⟩
    obtain ⟨-, hbody⟩ := span_append_cons (p := isBlank) (c := '{') (List.all_eq_true.1 hblanks)
      (by decide) (argument ++ '}' :: rest)
    obtain ⟨htake, hdrop⟩ := span_append_cons (c := '}') (isBraced_of_not_mem hargument)
      (by decide) rest
    simp only [braced?, hbody, hdrop, htake]

theorem bare?_eq_some_iff {word : Text} :
    bare? t = some (word, rest) ↔
      ∃ blanks : Text, blanks.allBlank = true ∧ blanks ≠ [] ∧ word ≠ [] ∧
        (∀ c ∈ word, IsWordChar c) ∧ (∀ c, rest.head? = some c → ¬IsWordChar c) ∧
        t = blanks ++ (word ++ rest) := by
  constructor
  · intro h
    simp only [bare?] at h
    split at h
    next hcond =>
      obtain ⟨rfl, rfl⟩ := Prod.mk.inj (Option.some.inj h)
      obtain ⟨hlength, hne⟩ := hcond
      refine ⟨t.takeWhile isBlank, List.all_eq_true.2 fun _ hc => List.mem_takeWhile_imp hc,
        fun hnil => ?_, hne, fun c hc => isBare_iff.1 (List.mem_takeWhile_imp hc),
        fun c hc => isBare_eq_false_iff.1 (not_of_head?_dropWhile hc), ?_⟩
      · have hall := congrArg List.length (List.takeWhile_append_dropWhile (p := isBlank) (l := t))
        rw [hnil, List.nil_append] at hall
        exact absurd hlength (hall ▸ Nat.lt_irrefl _)
      · rw [List.takeWhile_append_dropWhile, List.takeWhile_append_dropWhile]
    next => cases h
  · rintro ⟨blanks, hblanks, hset, hne, hword, hall, rfl⟩
    obtain ⟨c, word, rfl⟩ := List.exists_cons_of_ne_nil hne
    have hdrop : (blanks ++ (c :: word ++ rest)).dropWhile isBlank = c :: word ++ rest :=
      (span_append_cons (List.all_eq_true.1 hblanks) (hword c List.mem_cons_self).1 _).2
    obtain ⟨htake, hbehind⟩ := span_append (p := isBare) (l := c :: word)
      (fun d hd => isBare_iff.2 (hword d hd)) fun d hd => isBare_eq_false_iff.2 (hall d hd)
    have hlength : (c :: word ++ rest).length < (blanks ++ (c :: word ++ rest)).length := by
      have hpos := List.length_pos_iff.2 hset
      simp only [List.length_append]
      omega
    simp only [bare?, hdrop, htake, hbehind]
    exact if_pos ⟨hlength, hne⟩

theorem argument?_eq_some_iff {x : Text × Text} :
    (braced? t <|> bare? t) = some x ↔ braced? t = some x ∨ bare? t = some x := by
  rw [Option.orElse_eq_orElse, Option.orElse_eq_or, Option.or_eq_some_iff]
  exact or_congr_right (and_iff_right_of_imp fun h => braced?_eq_none (h ▸ rfl))

theorem read?_eq_some_iff_argument {argument : Text} :
    read? t = some (⟨command, argument⟩, rest) ↔
      ∃ u, t = '\\' :: (command.name ++ u) ∧
        (braced? u = some (argument, rest) ∨ bare? u = some (argument, rest)) := by
  rw [directive_eq]
  constructor
  · intro h
    obtain ⟨v, hslash, hbody⟩ := Option.bind_eq_some_iff.1 h
    obtain ⟨⟨command', u⟩, hcommand, hread⟩ := Option.bind_eq_some_iff.1 hbody
    obtain ⟨⟨argument', rest'⟩, hargument, hd⟩ := Option.bind_eq_some_iff.1 hread
    obtain ⟨⟨rfl, rfl⟩, rfl⟩ : (command' = command ∧ argument' = argument) ∧ rest' = rest := by
      simpa using hd
    refine ⟨u, ?_, argument?_eq_some_iff.1 hargument⟩
    rw [← command_read?_eq_some_iff.1 hcommand]
    exact Text.stripPrefix?_eq_some_iff.1 hslash
  · rintro ⟨u, rfl, hargument⟩
    have hbody : body? (command.name ++ u) = some (⟨command, argument⟩, rest) := by
      rw [body?, command_read?_eq_some_iff.2 rfl, Option.bind_some,
        argument?_eq_some_iff.2 hargument, Option.bind_some]
    exact Option.bind_eq_some_iff.2 ⟨_, Text.stripPrefix?_eq_some_iff.2 rfl, hbody⟩

/-- A directive is read exactly where it is written, up to its end. -/
theorem read?_eq_some_iff :
    read? t = some (d, rest) ↔ ∃ lexeme, t = lexeme ++ rest ∧ Written d lexeme rest := by
  obtain ⟨command, argument⟩ := d
  rw [read?_eq_some_iff_argument]
  constructor
  · rintro ⟨u, rfl, hargument⟩
    rcases hargument with hbraced | hbare
    · obtain ⟨blanks, hblanks, hargument, rfl⟩ := braced?_eq_some_iff.1 hbraced
      exact ⟨_, by simp, .braced hblanks hargument⟩
    · obtain ⟨blanks, hblanks, hset, hne, hword, hall, rfl⟩ := bare?_eq_some_iff.1 hbare
      exact ⟨_, by simp, .bare hblanks hset hne hword hall⟩
  · rintro ⟨lexeme, rfl, hwritten⟩
    cases hwritten with
    | @braced _ blanks _ _ hblanks hargument =>
      refine ⟨blanks ++ '{' :: (argument ++ '}' :: rest), by simp, .inl ?_⟩
      exact braced?_eq_some_iff.2 ⟨blanks, hblanks, hargument, rfl⟩
    | @bare _ blanks _ _ hblanks hset hne hword hall =>
      refine ⟨blanks ++ (argument ++ rest), by simp, .inr ?_⟩
      exact bare?_eq_some_iff.2 ⟨blanks, hblanks, hset, hne, hword, hall, rfl⟩

end Directive

/-! ## What a scan reports -/

variable {α : Type}

/-- Of the matches of a scan, those are dropped that start inside a comment. The scan has come to the
end of `before`, in the text that goes on with that of the segments. -/
theorem locate_uncommented (before : Text) (s : Segments α) :
    (s.filter LineState.after (· != .comment) (LineState.plain.after before)).locate
        (Text.size before) =
      (s.locate (Text.size before)).filter fun m =>
        isCommentedAt? (before ++ s.text) m.start = some false := by
  induction s generalizing before with
  | tail t => rfl
  | found b l v rest ih =>
    have htext : before ++ (Segments.found b l v rest).text = before ++ b ++ l ++ rest.text := by
      simp [Segments.text]
    have hstart : isCommentedAt? (before ++ b ++ l ++ rest.text) (Text.size before + Text.size b) =
        some (isCommented (before ++ b)) := by
      rw [← Text.size_append, List.append_assoc (before ++ b), isCommentedAt?_append]
    have ih := ih (before ++ b ++ l)
    rw [Text.size_append, Text.size_append] at ih
    rw [htext, Segments.filter, Segments.locate, List.filter_cons]
    simp only [hstart, ← LineState.after_append]
    by_cases hb : isCommented (before ++ b) = true
    · have hdrop : (LineState.plain.after (before ++ b) != .comment) = false := by
        rw [isCommented_iff.1 hb]
        rfl
      rw [hdrop, hb, if_neg (by decide), if_neg (by decide), Segments.locate_prepend,
        Text.size_append, ← Nat.add_assoc]
      exact ih
    · rw [Bool.not_eq_true] at hb
      have hkeep : (LineState.plain.after (before ++ b) != .comment) = true :=
        bne_iff_ne.2 (isCommented_eq_false_iff.1 hb)
      rw [hkeep, hb, if_pos rfl, if_pos (by decide), Segments.locate]
      exact congrArg _ ih

/-- The include directives of a source are, of the matches of a scan, those that start outside
comments. Matches are written directives, one behind the other, and wherever one is written, there is
a match, unless that place lies inside of an earlier match. -/
theorem locate_directives (t : Text) :
    ∃ matched : List (Located Directive),
      (directives t).locate 0 = matched.filter (isCommentedAt? t ·.start = some false) ∧
      matched.Pairwise (fun a b => a.stop ≤ b.start) ∧
      (∀ m ∈ matched, m.start < m.stop ∧ m.stop ≤ Text.size t ∧
        ∃ lexeme rest, m.Covers 0 t lexeme rest ∧ m.value.Written lexeme rest) ∧
      ∀ before lexeme rest d, t = before ++ (lexeme ++ rest) → Directive.Written d lexeme rest →
        ⟨Text.size before, Text.size before + Text.size lexeme, d⟩ ∈ matched ∨
          ∃ m ∈ matched, m.start < Text.size before ∧ Text.size before < m.stop := by
  have hscan := (occurrences_iff exact_directive proper_directive).2
    (Eq.refl ((Segments.cut Directive.read? t).locate 0))
  refine ⟨_, ?_, hscan.pairwise, fun m hm => ?_, fun before lexeme rest d ht hwritten => ?_⟩
  · have hfilter := locate_uncommented [] (Segments.cut Directive.read? t)
    rwa [List.nil_append, Segments.text_cut] at hfilter
  · obtain ⟨lexeme, rest, hcovers, hne, hread⟩ := hscan.exists_of_mem hm
    obtain ⟨lexeme', hlexeme, hwritten⟩ := Directive.read?_eq_some_iff.1 hread
    obtain rfl := List.append_cancel_right hlexeme
    exact ⟨hcovers.start_lt hne, Nat.zero_add (Text.size t) ▸ hcovers.stop_le,
      lexeme, rest, hcovers, hwritten⟩
  · have hread := Directive.read?_eq_some_iff.2 ⟨lexeme, rfl, hwritten⟩
    have hfound := hscan.mem_or_inside hwritten.lexeme_ne_nil hread ht
    rwa [Nat.zero_add] at hfound

/-- A directive in the argument of another one is not found: it stands inside of that match. -/
theorem locate_directives_nested :
    let t : Text := "\\input\x7ba \\input b\x7d"
    let before : Text := "\\input\x7ba "
    let lexeme : Text := "\\input b"
    t = before ++ (lexeme ++ ['}']) ∧ Directive.Written ⟨.input, "b"⟩ lexeme ['}'] ∧
      ∃ matched : List (Located Directive),
        (directives t).locate 0 = matched.filter (isCommentedAt? t ·.start = some false) ∧
        (⟨9, 17, ⟨.input, "b"⟩⟩ ∈ matched ∨ ∃ m ∈ matched, m.start < 9 ∧ 9 < m.stop) := by
  intro t before lexeme
  have hwritten : Directive.Written ⟨.input, "b"⟩ lexeme ['}'] :=
    @Directive.Written.bare .input [' '] ['b'] ['}'] rfl (List.cons_ne_nil _ _)
      (List.cons_ne_nil _ _) (List.forall_mem_singleton.2 (by decide)) (by rintro c ⟨rfl⟩; decide)
  obtain ⟨matched, hfilter, -, -, hall⟩ := locate_directives t
  exact ⟨rfl, hwritten, matched, hfilter, hall before lexeme ['}'] _ rfl hwritten⟩

end TexBundle.Source
