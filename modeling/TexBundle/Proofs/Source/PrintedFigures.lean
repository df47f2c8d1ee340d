import TexBundle.Proofs.Source.Figure
import TexBundle.Proofs.Source.Printed

/-!
# Printed figures

Figures in either form, one after the other. Each reader finds those of its form and passes over the
others, so that together they find them all, in order.

* `PrintedFigure`: the ways to write a reference to a stored figure;
* `finds_plain`, `finds_detokenized`: what each of the two readers makes of it;
* `merge_filter`: two complementary parts of a list, put together again;
* `figureKeys_textOf`: the keys of printed figures.
-/

namespace TexBundle.Source

open Bibliography (Blanks)

/-! ## Figures as they are written -/

/-- The command of a figure, without its backslash. -/
def figureCommand : Text := "includegraphics"

/-- The command that keeps a key as it is, without its backslash. -/
def wrapperCommand : Text := "detokenize"

/-- The two forms. -/
inductive FigureForm where
  | plain
  /-- The blanks are those behind `\detokenize`, behind the brace there, and behind the inner
  argument. -/
  | detokenized (before start after : Blanks)

/-- A reference to a stored figure. -/
structure PrintedFigure where
  star : PrintedStar := {}
  option : Option PrintedOption := none
  start : Blanks := ⟨[], rfl⟩
  form : FigureForm
  key : Text
  stop : Blanks := ⟨[], rfl⟩
  key_ne_nil : key ≠ [] := by decide
  key_chars : key.all (fun c => !isBlank c && c ∉ ['{', '}']) = true := by decide
  key_inert : Inert key := by decide

namespace PrintedFigure

variable (f : PrintedFigure)

def isDetokenized : Bool :=
  match f.form with
  | .plain => false
  | .detokenized .. => true

/-- The stored file, up to the brace that closes it. -/
def file : Text := figurePrefix ++ (f.key ++ (f.stop.1 ++ ['}']))

/-- What stands between the outer braces, the closing one included. -/
def argument : Text :=
  match f.form with
  | .plain => f.file
  | .detokenized before start after =>
    '\\' :: (wrapperCommand ++ (before.1 ++ '{' :: (start.1 ++ (f.file ++ (after.1 ++ ['}'])))))

/-- What stands behind the name of the command. -/
def body : Text :=
  f.star.text ++ (PrintedOption.textOf f.option.toList ++ '{' :: (f.start.1 ++ f.argument))

def text : Text := '\\' :: (figureCommand ++ f.body)

theorem isKeyChar_of_mem {c : Char} (h : c ∈ f.key) : isKeyChar c = true := by
  have hc := List.all_eq_true.1 f.key_chars c h
  simpa [isKeyChar, and_assoc] using hc

theorem inert_file : Inert f.file := by
  have hprefix : Inert figurePrefix := by decide
  simp [file, hprefix, f.key_inert, inert_nil]

/-- What is left when everything in front of the argument has been passed over. -/
theorem openBrace?_body (t : Text) :
    openBrace? (skipOption (skipStar (f.body ++ t))) = some (Text.trimStart (f.argument ++ t)) := by
  have hbody : f.body ++ t = f.star.text ++
      (PrintedOption.textOf f.option.toList ++ '{' :: (f.start.1 ++ (f.argument ++ t))) := by
    simp [body]
  have htail : f.option.toList.tail = [] := by cases f.option <;> rfl
  rw [hbody, f.star.skipStar_text (PrintedOption.opensArgument_textOf _ _),
    PrintedOption.skipOption_textOf, htail]
  exact congrArg some (Text.trimStart_append f.start.2 _)

theorem trimStart_file (t : Text) : Text.trimStart (f.file ++ t) = f.file ++ t := by
  rw [file, List.append_assoc]
  exact trimStart_figurePrefix_append _

theorem closeBrace?_blanks (b : Blanks) (t : Text) : closeBrace? (b.1 ++ '}' :: t) = some t := by
  rw [closeBrace?, Text.trimStart_append b.2]
  rfl

/-- A key is read up to the blanks and the brace behind it. -/
theorem key?_file (t : Text) :
    Figure.key? (f.file ++ t) = some (f.key, f.stop.1 ++ '}' :: t) := by
  have hend : ∀ c, (f.stop.1 ++ '}' :: t).head? = some c → isKeyChar c = false := by
    obtain ⟨blanks, hblanks⟩ := f.stop
    intro c hc
    cases blanks with
    | nil =>
      obtain rfl := Option.some.inj hc
      decide
    | cons d blanks =>
      obtain rfl := Option.some.inj hc
      simp [isKeyChar, List.all_eq_true.1 hblanks d List.mem_cons_self]
  obtain ⟨htake, hdrop⟩ := span_append (fun c => f.isKeyChar_of_mem) hend
  have hfile : f.file ++ t = figurePrefix ++ (f.key ++ (f.stop.1 ++ '}' :: t)) := by
    simp [file]
  rw [hfile, Figure.key?, Text.stripPrefix?_eq_some_iff.2 rfl]
  simp only [Option.bind_eq_bind, Option.bind_some, htake, hdrop, if_neg f.key_ne_nil]

/-! ## What the readers make of it -/

theorem text_append (t : Text) : f.text ++ t = "\\includegraphics" ++ (f.body ++ t) :=
  congrArg ('\\' :: ·) (List.append_assoc ..)

theorem readPlain?_text (t : Text) :
    Figure.readPlain? (f.text ++ t) = if f.isDetokenized then none else some (f.key, t) := by
  rw [plain_eq, text_append]
  simp only [Text.stripPrefix?_eq_some_iff.2 rfl, Option.bind_some, Figure.plainBody?,
    openBrace?_body]
  unfold argument isDetokenized
  split
  next =>
    simp only [trimStart_file, key?_file, Option.bind_some, closeBrace?_blanks, Option.map_some]
    rfl
  next => rfl

theorem readDetokenized?_text (t : Text) :
    Figure.readDetokenized? (f.text ++ t) = if f.isDetokenized then some (f.key, t) else none := by
  rw [detokenized_eq, text_append]
  simp only [Text.stripPrefix?_eq_some_iff.2 rfl, Option.bind_some, Figure.detokenizedBody?,
    openBrace?_body]
  unfold argument isDetokenized
  split
  next =>
    rw [trimStart_file]
    rfl
  next _ before start after _ =>
    have happend :
        '\\' :: (wrapperCommand ++
          (before.1 ++ '{' :: (start.1 ++ (f.file ++ (after.1 ++ ['}']))))) ++ t =
        "\\detokenize" ++ (before.1 ++ '{' :: (start.1 ++ (f.file ++ (after.1 ++ '}' :: t)))) := by
      show '\\' :: _ = '\\' :: (wrapperCommand ++ _)
      simp
    have htrim (u : Text) : Text.trimStart ("\\detokenize" ++ u) = "\\detokenize" ++ u :=
      Text.trimStart_cons (by decide) _
    have hopen (u : Text) :
        openBrace? (Text.trimStart (before.1 ++ '{' :: u)) = some (Text.trimStart u) := by
      rw [Text.trimStart_append before.2]
      rfl
    simp only [happend, htrim, Text.stripPrefix?_eq_some_iff.2 rfl, Option.bind_some, hopen,
      Text.trimStart_append start.2, trimStart_file, key?_file, closeBrace?_blanks, Option.map_some]
    rfl

/-- What stands in front of the argument, without the backslash. -/
def front : Text :=
  figureCommand ++ (f.star.text ++ (PrintedOption.textOf f.option.toList ++ '{' :: f.start.1))

theorem text_eq : f.text = '\\' :: (f.front ++ f.argument) := by
  simp [text, body, front]

theorem inert_front : Inert f.front := by
  have hname : Inert figureCommand := by decide
  simp [front, hname, f.star.inert_text, PrintedOption.inert_textOf]

/-- No command stands in a figure besides its own and `\detokenize`. -/
theorem argument_cases :
    f.isDetokenized = false ∧ Inert f.argument ∨
      f.isDetokenized = true ∧
        ∃ u, f.argument = '\\' :: (wrapperCommand ++ u) ∧ Inert (wrapperCommand ++ u) := by
  unfold isDetokenized argument
  split
  next => exact .inl ⟨rfl, f.inert_file⟩
  next _ before start after _ =>
    have hname : Inert wrapperCommand := by decide
    refine .inr ⟨rfl, _, rfl, ?_⟩
    simp [hname, f.inert_file, inert_nil]

theorem percent_not_mem_text : '%' ∉ f.text := by
  rw [text_eq]
  have hargument : '%' ∉ f.argument := by
    rcases f.argument_cases with ⟨-, h⟩ | ⟨-, u, hu, h⟩
    · exact h.2
    · rw [hu, List.mem_cons, not_or]
      exact ⟨by decide, h.2⟩
  simp [f.inert_front.2, hargument]

end PrintedFigure

theorem readPlain?_backslash {c : Char} {t : Text} (h : c ≠ '\\') :
    Figure.readPlain? (c :: t) = none := by
  rw [plain_eq]
  exact stripPrefix?_bind_eq_none _ h

theorem readDetokenized?_backslash {c : Char} {t : Text} (h : c ≠ '\\') :
    Figure.readDetokenized? (c :: t) = none := by
  rw [detokenized_eq]
  exact stripPrefix?_bind_eq_none _ h

/-- A source without commands refers to no figures. -/
theorem figureKeys_of_not_mem {source : Text} (h : '\\' ∉ source) : figureKeys source = [] := by
  have hplain : figuresBy Figure.readPlain? source = [] := by
    rw [figuresBy, Segments.cut_eq_tail_of_not_mem readPlain?_backslash h]
    rfl
  have hdetokenized : figuresBy Figure.readDetokenized? source = [] := by
    rw [figuresBy, Segments.cut_eq_tail_of_not_mem readDetokenized?_backslash h]
    rfl
  rw [figureKeys_of_nil hdetokenized, hplain]
  rfl

/-- A figure that a reader does not read is passed over as a whole. -/
theorem cut_figure {β : Type} {read? : Text → Option (β × Text)} {f : PrintedFigure} {t : Text}
    (hslash : ∀ {c t}, c ≠ '\\' → read? (c :: t) = none)
    (hname : ∀ t, read? ('\\' :: (wrapperCommand ++ t)) = none) (h : read? (f.text ++ t) = none) :
    Segments.cut read? (f.text ++ t) = (Segments.cut read? t).prepend f.text := by
  have hargument : Segments.cut read? (f.argument ++ t) =
      (Segments.cut read? t).prepend f.argument := by
    rcases f.argument_cases with ⟨-, hinert⟩ | ⟨-, u, hu, hinert⟩
    · exact cut_inert hslash hinert.1 t
    · have hwrapper : read? ('\\' :: (wrapperCommand ++ u ++ t)) = none := by
        rw [List.append_assoc]
        exact hname _
      rw [hu, List.cons_append, Segments.cut_cons hwrapper, cut_inert hslash hinert.1,
        Segments.prepend_prepend]
      rfl
  rw [f.text_eq, List.cons_append] at h
  rw [f.text_eq, List.cons_append, Segments.cut_cons h, List.append_assoc,
    cut_inert hslash f.inert_front.1, hargument, Segments.prepend_prepend,
    Segments.prepend_prepend]
  rfl

theorem finds_plain :
    Finds PrintedFigure.text Figure.readPlain? (!·.isDetokenized) PrintedFigure.key where
  backslash := readPlain?_backslash
  ne_nil _ := List.cons_ne_nil _ _
  found {f} t h := by
    rw [Bool.not_eq_true'] at h
    rw [f.readPlain?_text, h, if_neg Bool.false_ne_true]
  passed {f} t h := by
    rw [Bool.not_eq_false'] at h
    refine cut_figure readPlain?_backslash (fun t => ?_) ?_
    · rw [plain_eq]
      rfl
    · rw [f.readPlain?_text, if_pos h]

theorem finds_detokenized :
    Finds PrintedFigure.text Figure.readDetokenized? (·.isDetokenized) PrintedFigure.key where
  backslash := readDetokenized?_backslash
  ne_nil _ := List.cons_ne_nil _ _
  found {f} t h := by rw [f.readDetokenized?_text, if_pos h]
  passed {f} t h := by
    refine cut_figure readDetokenized?_backslash (fun t => ?_) ?_
    · rw [detokenized_eq]
      rfl
    · rw [f.readDetokenized?_text, h, if_neg Bool.false_ne_true]

/-! ## Both forms together -/

theorem cons_merge {α : Type} {le : α → α → Bool} {a : α} {l r : List α}
    (h : ∀ b ∈ r, le a b = true) : (a :: l).merge r le = a :: l.merge r le := by
  cases r with
  | nil => rw [List.merge_right, List.merge_right]
  | cons b r => exact List.cons_merge_cons_pos _ _ _ (h b List.mem_cons_self)

theorem merge_cons {α : Type} {le : α → α → Bool} {a : α} {l r : List α}
    (h : ∀ b ∈ l, le b a = false) : l.merge (a :: r) le = a :: l.merge r le := by
  cases l with
  | nil => rw [List.nil_merge, List.nil_merge]
  | cons b l =>
    have hb : ¬le b a = true := by simp [h b List.mem_cons_self]
    exact List.cons_merge_cons_neg _ _ _ hb

/-- Two complementary parts of a sorted list make up that list again. -/
theorem merge_filter {α : Type} {le : α → α → Bool} (p : α → Bool) {l : List α}
    (h : l.Pairwise fun a b => le a b = true ∧ le b a = false) :
    (l.filter p).merge (l.filter (!p ·)) le = l := by
  induction l with
  | nil => exact List.nil_merge _
  | cons a l ih =>
    obtain ⟨ha, hl⟩ := List.pairwise_cons.1 h
    rw [List.filter_cons, List.filter_cons]
    cases p a with
    | true =>
      rw [if_pos rfl, if_neg (by decide), cons_merge fun b hb => (ha b (List.mem_of_mem_filter hb)).1,
        ih hl]
    | false =>
      rw [if_neg (by decide), if_pos (by decide),
        merge_cons fun b hb => (ha b (List.mem_of_mem_filter hb)).2, ih hl]

/-- The keys of printed figures are found in order, each once, whichever form a figure has. -/
theorem figureKeys_textOf (figures : List (Gap × PrintedFigure)) (ending : Gap) :
    figureKeys (textOf PrintedFigure.text figures ending.1) =
      (figures.map (·.2.key)).eraseDups := by
  have hclear : '%' ∉ textOf PrintedFigure.text figures ending.1 :=
    percent_not_mem_textOf _ PrintedFigure.percent_not_mem_text figures ending
  let found := places PrintedFigure.text 0 figures
  let byStop (o p : Located PrintedFigure) : Bool := o.stop ≤ p.stop
  have hsorted : found.Pairwise fun o p => byStop o p = true ∧ byStop p o = false :=
    (pairwise_places (fun _ => List.cons_ne_nil _ _) 0 figures).imp fun hlt =>
      ⟨decide_eq_true hlt.le, decide_eq_false (Nat.not_le.2 hlt)⟩
  have hmerge : ((found.filter (·.value.isDetokenized)).map (means PrintedFigure.key)).merge
      ((found.filter (!·.value.isDetokenized)).map (means PrintedFigure.key))
        (fun a b => a.stop ≤ b.stop) = found.map (means PrintedFigure.key) := by
    refine Eq.trans (List.map_merge fun _ _ _ _ => ?_).symm (congrArg _ (merge_filter _ hsorted))
    rfl
  rw [figureKeys, figuresBy, figuresBy, uncommented_eq_self (by rwa [Segments.text_cut]),
    uncommented_eq_self (by rwa [Segments.text_cut]), finds_detokenized.locate_cut,
    finds_plain.locate_cut, hmerge, map_value_means]

set_option maxRecDepth 2000 in
/-- Both forms, with a star, an option and blanks, and one key in either form. -/
theorem figureKeys_textOf_both :
    let blank : Blanks := ⟨[' '], rfl⟩
    let none : Blanks := ⟨[], rfl⟩
    let figures : List (Gap × PrintedFigure) := [
      (⟨"See ", by decide⟩, { form := .plain, key := "b", option := some { content := "scale=2" } }),
      (⟨" and ", by decide⟩,
        { form := .detokenized blank blank blank, key := "a_1", star := ⟨true, blank⟩ }),
      (⟨[], by decide⟩, { form := .detokenized none none none, key := "b" })]
    let t := textOf PrintedFigure.text figures "."
    t = "See \\includegraphics[scale=2]\x7bassets/b\x7d and " ++
        ("\\includegraphics* \x7b\\detokenize \x7b assets/a_1\x7d \x7d" ++
        "\\includegraphics\x7b\\detokenize\x7bassets/b\x7d\x7d.") ∧
      figureKeys t = ["b", "a_1"] := by
  intro blank none figures t
  exact ⟨rfl, (figureKeys_textOf figures ⟨".", by decide⟩).trans (by decide)⟩

end TexBundle.Source
