import TexBundle.Source.Citation
import TexBundle.Source.Figure
import TexBundle.Source.Include
import TexBundle.Proofs.Text.Reader

/-!
# The readers of LaTeX commands

Whether a citation, a figure or an include directive stands at the start of a text, and what it
means, does not depend on anything behind the character after it.

* `StopsAtBrace`: why this holds although stars, options and blanks may be left out before an
  argument in braces;
* `exact_citation`, `exact_plain`, `exact_detokenized`, `exact_directive`: the four readers.
-/

namespace TexBundle.Source

/-! ## In front of an argument -/

/-- Whatever is passed over in front of an opening brace does not depend on what is behind it. -/
def StopsAtBrace (pass : Text → Text) : Prop :=
  ∀ ⦃t body⦄, pass t = '{' :: body →
    ∃ l, t = l ++ '{' :: body ∧ ∀ body', pass (l ++ '{' :: body') = '{' :: body'

variable {pass : Text → Text} {p : Char → Bool}

theorem head?_append_brace (l body body' : Text) :
    (l ++ '{' :: body).head? = (l ++ '{' :: body').head? := by
  cases l <;> rfl

theorem stopsAtBrace_id : StopsAtBrace id := by
  intro t body h
  exact ⟨[], h, fun _ => rfl⟩

theorem StopsAtBrace.trimStart (h : StopsAtBrace pass) : StopsAtBrace (pass ∘ Text.trimStart) := by
  intro t body hpass
  obtain ⟨k, hk, hcongr⟩ := h hpass
  obtain ⟨l, hl, hl'⟩ := passes_trimStart (rfl : some (Text.trimStart t) = _)
  refine ⟨l ++ k, by rw [hl, hk, List.append_assoc], fun body' => ?_⟩
  have htrim : Text.trimStart (l ++ (k ++ '{' :: body')) = k ++ '{' :: body' :=
    Option.some.inj (hl' _ (by rw [hk, head?_append_brace]))
  rw [Function.comp_apply, List.append_assoc, htrim, hcongr]

/-- An option that is closed is passed over, with the blanks behind it. -/
theorem skipOption_closed {a : Text} (h : ']' ∉ a) (t : Text) :
    skipOption ('[' :: (a ++ ']' :: t)) = Text.trimStart t := by
  have hmem : ∀ c ∈ a, (c != ']') = true := fun c hc => bne_iff_ne.2 (ne_of_mem_of_not_mem hc h)
  have hdrop : (a ++ ']' :: t).dropWhile (· != ']') = ']' :: t :=
    (span_append hmem (by simp)).2
  simp only [skipOption, hdrop]

theorem skipOption_cases (t : Text) :
    (∃ a u, ']' ∉ a ∧ t = '[' :: (a ++ ']' :: u)) ∨ skipOption t = t := by
  unfold skipOption
  split
  · rename_i body
    split
    · rename_i u hdrop
      refine .inl ⟨body.takeWhile (· != ']'), u, fun hm => ?_, ?_⟩
      · have hne := List.mem_takeWhile_imp hm
        simp at hne
      · rw [← hdrop, List.takeWhile_append_dropWhile]
    · exact .inr rfl
  · exact .inr rfl

/-- An option may be there or not. -/
theorem StopsAtBrace.option (h : StopsAtBrace pass)
    (hpass : ∀ t, skipOption t = t → pass t = t) : StopsAtBrace (pass ∘ skipOption) := by
  intro t body hread
  rw [Function.comp_apply] at hread
  rcases skipOption_cases t with ⟨a, u, ha, rfl⟩ | hsame
  · rw [skipOption_closed ha] at hread
    obtain ⟨l, rfl, hl⟩ := h.trimStart hread
    refine ⟨'[' :: (a ++ ']' :: l), by simp, fun body' => ?_⟩
    have hcons : '[' :: (a ++ ']' :: l) ++ '{' :: body' =
        '[' :: (a ++ ']' :: (l ++ '{' :: body')) := by simp
    rw [Function.comp_apply, hcons, skipOption_closed ha]
    exact hl body'
  · rw [hsame, hpass t hsame] at hread
    exact ⟨[], hread, fun body' => hpass _ rfl⟩

theorem stopsAtBrace_option : StopsAtBrace skipOption :=
  stopsAtBrace_id.option fun _ _ => rfl

theorem stopsAtBrace_options : StopsAtBrace (skipOption ∘ skipOption) :=
  stopsAtBrace_option.option fun _ h => h

/-- A star may be there or not. -/
theorem StopsAtBrace.star (h : StopsAtBrace pass) : StopsAtBrace (pass ∘ skipStar) := by
  intro t body hread
  by_cases hstar : t.head? = some '*'
  · obtain ⟨u, rfl⟩ := List.head?_eq_some_iff.1 hstar
    obtain ⟨l, hl, hcongr⟩ := h.trimStart hread
    exact ⟨'*' :: l, congrArg _ hl, hcongr⟩
  · have hskip (u : Text) (hu : u.head? = t.head?) : skipStar u = Text.trimStart u := by
      unfold skipStar
      split
      · exact absurd hu.symm hstar
      · rfl
    rw [Function.comp_apply, hskip t rfl] at hread
    obtain ⟨l, rfl, hcongr⟩ := h.trimStart hread
    refine ⟨l, rfl, fun body' => ?_⟩
    rw [Function.comp_apply, hskip _ (head?_append_brace l body' body)]
    exact hcongr body'

/-- The argument in braces that follows what is passed over, its characters those of a class. -/
def argument? (pass : Text → Text) (p : Char → Bool) (t : Text) : Option (Text × Text) :=
  match pass t with
  | '{' :: body =>
    match body.dropWhile p with
    | '}' :: rest => some (body.takeWhile p, rest)
    | _ => none
  | _ => none

theorem StopsAtBrace.exact (h : StopsAtBrace pass) : Exact (argument? pass p) := by
  intro t a rest hread
  unfold argument? at hread
  split at hread
  · rename_i body hpass
    split at hread
    · rename_i rest' hdrop
      obtain ⟨rfl, rfl⟩ := Prod.mk.inj (Option.some.inj hread)
      obtain ⟨l, rfl, hl⟩ := h hpass
      have hbody : body = body.takeWhile p ++ '}' :: rest' := by
        rw [← hdrop, List.takeWhile_append_dropWhile]
      refine ⟨l ++ '{' :: (body.takeWhile p ++ ['}']), ?_, fun rest _ => ?_⟩
      · rw [List.append_assoc, List.cons_append, List.append_assoc, List.singleton_append, ← hbody]
      · have hhead : ('}' :: rest).head? = (body.dropWhile p).head? := by
          rw [hdrop]
          rfl
        obtain ⟨htake, hdrop'⟩ := span_congr p body hhead
        have happend : l ++ '{' :: (body.takeWhile p ++ ['}']) ++ rest =
            l ++ '{' :: (body.takeWhile p ++ '}' :: rest) := by simp
        simp only [argument?, happend, hl, hdrop', htake]
    · cases hread
  · cases hread

/-! ## Citations -/

/-- A name and behind it a list of keys. -/
def Citation.named? (t : Text) : Option (Text × Text) :=
  (some (t.takeWhile Char.isAlpha, t.dropWhile Char.isAlpha)
    |>.filter fun x => isCiteName x.1).bind fun x =>
      argument? ((skipOption ∘ skipOption) ∘ skipStar) (· != '}') x.2

theorem exact_named : Exact Citation.named? :=
  ((exact_span Char.isAlpha).filter isCiteName).bind fun _ => stopsAtBrace_options.star.exact

theorem stripPrefix?_singleton_of_ne {c : Char} {t : Text} (h : ∀ u, t ≠ c :: u) :
    Text.stripPrefix? [c] t = none := by
  cases t with
  | nil => rfl
  | cons d t =>
    have hc : c ≠ d := fun e => h t (by rw [e])
    rw [Text.stripPrefix?, if_neg hc]

theorem citation_eq :
    Citation.read? = fun t => (Text.stripPrefix? ['\\'] t).bind Citation.named? := by
  funext t
  unfold Citation.read?
  split
  · simp only [Text.stripPrefix?, if_true, Option.bind_some, Citation.named?, Option.filter_some]
    split
    · rfl
    · rfl
  · rename_i hne
    rw [stripPrefix?_singleton_of_ne fun u e => hne u e]
    rfl

theorem exact_citation : Exact Citation.read? := by
  rw [citation_eq]
  exact (passes_stripPrefix _).exact exact_named

theorem proper_citation : Proper Citation.read? := by
  rw [citation_eq]
  exact exact_named.proper (List.cons_ne_nil _ _)

/-! ## Figures -/

theorem passes_openBrace (h : StopsAtBrace pass) : Passes fun t => openBrace? (pass t) := by
  intro t rest hread
  simp only [openBrace?] at hread
  split at hread
  · rename_i body hpass
    obtain rfl := Option.some.inj hread
    obtain ⟨l, rfl, hl⟩ := h hpass
    obtain ⟨k, hk, hk'⟩ := passes_trimStart (rfl : some (Text.trimStart body) = _)
    refine ⟨l ++ '{' :: k, by rw [List.append_assoc, List.cons_append, ← hk], fun rest' hrest => ?_⟩
    have htrim := hk' rest' hrest
    simp only [List.append_assoc, List.cons_append, hl]
    exact htrim
  · cases hread

theorem passes_closeBrace : Passes closeBrace? := by
  intro t rest hread
  unfold closeBrace? at hread
  split at hread
  · rename_i rest' htrim
    obtain rfl := Option.some.inj hread
    obtain ⟨l, hl, hl'⟩ := passes_trimStart (rfl : some (Text.trimStart t) = _)
    refine ⟨l ++ ['}'], by rw [hl, htrim, List.append_assoc, List.singleton_append],
      fun rest _ => ?_⟩
    have hclose : Text.trimStart (l ++ '}' :: rest) = '}' :: rest :=
      Option.some.inj (hl' _ (by rw [htrim]; rfl))
    simp only [List.append_assoc, List.singleton_append, closeBrace?, hclose]
  · cases hread

theorem exact_key : Exact Figure.key? := by
  have hspan : Exact fun t => some (t.takeWhile isKeyChar, t.dropWhile isKeyChar)
      |>.filter fun x => x.1 ≠ [] := (exact_span isKeyChar).filter (· ≠ [])
  have heq : Figure.key? = fun t => (Text.stripPrefix? figurePrefix t).bind fun t =>
      some (t.takeWhile isKeyChar, t.dropWhile isKeyChar) |>.filter fun x => x.1 ≠ [] := by
    funext t
    refine congrArg (Option.bind _) (funext fun t => ?_)
    by_cases h : t.takeWhile isKeyChar = [] <;> simp [h, Option.filter_some]
  rw [heq]
  exact (passes_stripPrefix _).exact hspan

/-- What follows the name of the command in a figure without `\detokenize`. -/
def Figure.plainBody? (t : Text) : Option (Text × Text) :=
  (openBrace? (skipOption (skipStar t))).bind fun t =>
    (Figure.key? t).bind fun x => (closeBrace? x.2).map (x.1, ·)

theorem exact_plainBody : Exact Figure.plainBody? :=
  (passes_openBrace stopsAtBrace_option.star).exact (exact_key.passes passes_closeBrace)

theorem plain_eq : Figure.readPlain? =
    fun t => (Text.stripPrefix? "\\includegraphics" t).bind Figure.plainBody? := by
  unfold Figure.readPlain? Figure.head? Figure.plainBody?
  simp only [Option.bind_eq_bind, Option.pure_def, Option.map_eq_bind, Option.bind_assoc,
    Option.bind_some, Function.comp_def]

theorem exact_plain : Exact Figure.readPlain? := by
  rw [plain_eq]
  exact (passes_stripPrefix _).exact exact_plainBody

theorem proper_plain : Proper Figure.readPlain? := by
  rw [plain_eq]
  exact exact_plainBody.proper (by decide)

/-- What follows the name of the command in a figure with `\detokenize`. -/
def Figure.detokenizedBody? (t : Text) : Option (Text × Text) :=
  (openBrace? (skipOption (skipStar t))).bind fun t =>
    (Text.stripPrefix? "\\detokenize" t).bind fun t =>
      (openBrace? (Text.trimStart t)).bind fun t =>
        (Figure.key? t).bind fun x => ((closeBrace? x.2).bind closeBrace?).map (x.1, ·)

theorem exact_detokenizedBody : Exact Figure.detokenizedBody? :=
  have hclose := passes_closeBrace.trans passes_closeBrace
  have hinner := (passes_openBrace stopsAtBrace_id.trimStart).exact (exact_key.passes hclose)
  (passes_openBrace stopsAtBrace_option.star).exact ((passes_stripPrefix _).exact hinner)

theorem detokenized_eq : Figure.readDetokenized? =
    fun t => (Text.stripPrefix? "\\includegraphics" t).bind Figure.detokenizedBody? := by
  unfold Figure.readDetokenized? Figure.head? Figure.detokenizedBody?
  simp only [Option.bind_eq_bind, Option.pure_def, Option.map_eq_bind, Option.bind_assoc,
    Option.bind_some, Function.comp_def]

theorem exact_detokenized : Exact Figure.readDetokenized? := by
  rw [detokenized_eq]
  exact (passes_stripPrefix _).exact exact_detokenizedBody

theorem proper_detokenized : Proper Figure.readDetokenized? := by
  rw [detokenized_eq]
  exact exact_detokenizedBody.proper (by decide)

/-! ## Include directives -/

theorem exact_command : Exact IncludeCommand.read? := by
  intro t command rest hread
  obtain ⟨_, command', _, -, hmap, -⟩ := List.findSome?_eq_some_iff.1 hread
  obtain ⟨u, hstrip, hpair⟩ := Option.map_eq_some_iff.1 hmap
  obtain ⟨rfl, rfl⟩ := Prod.mk.inj hpair
  refine ⟨command'.name, Text.stripPrefix?_eq_some_iff.1 hstrip, fun rest' _ => ?_⟩
  -- No name is the start of another one, so only one of them is read.
  cases command' <;> rfl

theorem exact_bare : Exact Directive.bare? := by
  intro t a rest hread
  simp only [Directive.bare?] at hread
  split at hread
  · rename_i hcond
    obtain ⟨rfl, rfl⟩ := Prod.mk.inj (Option.some.inj hread)
    obtain ⟨hlen, hne⟩ := hcond
    generalize hw : t.dropWhile isBlank = word at *
    have ht : t.takeWhile isBlank ++ word = t := by rw [← hw, List.takeWhile_append_dropWhile]
    have hword : word.takeWhile Directive.isBare ++ word.dropWhile Directive.isBare = word :=
      List.takeWhile_append_dropWhile
    refine ⟨t.takeWhile isBlank ++ word.takeWhile Directive.isBare,
      by rw [List.append_assoc, hword, ht], fun rest' hrest => ?_⟩
    have hhead : (word.takeWhile Directive.isBare ++ rest').head? = word.head? := by
      rw [head?_append_congr hrest, hword]
    have hblank := (span_congr isBlank t (hhead.trans (by rw [hw]))).2
    obtain ⟨htake, hdrop⟩ := span_congr Directive.isBare word hrest
    have hshort : (word.takeWhile Directive.isBare ++ rest').length <
        (t.takeWhile isBlank ++ (word.takeWhile Directive.isBare ++ rest')).length := by
      rw [← ht, List.length_append] at hlen
      simp only [List.length_append]
      omega
    simp only [Directive.bare?, List.append_assoc, hblank, htake, hdrop]
    rw [if_pos ⟨hshort, hne⟩]
  · cases hread

/-- A bare word does not start with a brace. -/
theorem braced?_eq_none {t : Text} (h : (Directive.bare? t).isSome) :
    Directive.braced? t = none := by
  simp only [Directive.bare?] at h
  split at h
  · rename_i hcond
    unfold Directive.braced?
    split
    · rename_i body hdrop
      rw [hdrop] at hcond
      exact absurd rfl hcond.2
    · rfl
  · cases h

theorem exact_argument : Exact fun t => Directive.braced? t <|> Directive.bare? t := by
  have hbraced : Exact Directive.braced? := stopsAtBrace_id.trimStart.exact
  intro t a rest hread
  cases hb : Directive.braced? t with
  | some r =>
    have hr : r = (a, rest) := by simpa [hb] using hread
    subst hr
    obtain ⟨l, rfl, hl⟩ := hbraced hb
    exact ⟨l, rfl, fun rest' hrest => by simp [hl rest' hrest]⟩
  | none =>
    have hbare : Directive.bare? t = some (a, rest) := by simpa [hb] using hread
    obtain ⟨l, rfl, hl⟩ := exact_bare hbare
    refine ⟨l, rfl, fun rest' hrest => ?_⟩
    have hread' := hl rest' hrest
    simp [braced?_eq_none (by rw [hread']; rfl), hread']

/-- What follows the backslash in an include directive. -/
def Directive.body? (t : Text) : Option (Directive × Text) :=
  (IncludeCommand.read? t).bind fun x =>
    (braced? x.2 <|> bare? x.2).bind fun y => some (⟨x.1, y.1⟩, y.2)

theorem exact_directive_argument (command : IncludeCommand) : Exact fun t =>
    (Directive.braced? t <|> Directive.bare? t).bind fun y =>
      some (({ command, argument := y.1 } : Directive), y.2) := by
  intro t d rest hread
  obtain ⟨⟨a, u⟩, harg, hd⟩ := Option.bind_eq_some_iff.1 hread
  obtain ⟨rfl, rfl⟩ := Prod.mk.inj (Option.some.inj hd)
  obtain ⟨l, rfl, hl⟩ := exact_argument harg
  refine ⟨l, rfl, fun rest' hrest => ?_⟩
  have hread' := hl rest' hrest
  simp only [hread', Option.bind_some]

theorem exact_body : Exact Directive.body? :=
  exact_command.bind exact_directive_argument

theorem directive_eq :
    Directive.read? = fun t => (Text.stripPrefix? ['\\'] t).bind Directive.body? := by
  funext t
  unfold Directive.read?
  split
  · rfl
  · rename_i hne
    rw [stripPrefix?_singleton_of_ne fun u e => hne u e]
    rfl

theorem exact_directive : Exact Directive.read? := by
  rw [directive_eq]
  exact (passes_stripPrefix _).exact exact_body

theorem proper_directive : Proper Directive.read? := by
  rw [directive_eq]
  exact exact_body.proper (List.cons_ne_nil _ _)

end TexBundle.Source
