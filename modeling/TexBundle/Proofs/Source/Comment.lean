import TexBundle.Source.Comment
import TexBundle.Proofs.Text.Cutting
import TexBundle.Proofs.Text.Offsets
import TexBundle.Proofs.Text.Reader
import TexBundle.Proofs.Text.Segments
import Mathlib.Data.List.Forall2

/-!
# What comments can change

A scanner looks for a pattern everywhere, and only then drops the occurrences that start inside a
comment. So what a comment says can still matter: an occurrence that starts in a comment may take
text of the next lines with it, and one that starts before a comment may take the comment in.

* `SameCode`: two texts differ at most inside comments;
* `Scans`: reading a text in which comments are passed over, whatever they say;
* `KeepsApart`: the occurrences of a text keep comments and the rest of it apart;
* `KeepsApart.scans`: the scanner then passes over comments too;
* `Scans.congr`: and what is found does not depend on what the comments say.
-/

namespace TexBundle.Source

/-! ## Texts without their comments -/

namespace LineState

variable {st : LineState} {c : Char} {l t u : Text}

/-- A text without what its comments say. The `%` that start comments stay, and so do line ends. -/
def code : LineState → Text → Text
  | _, [] => []
  | st, c :: t => if st = comment ∧ c ≠ '\n' then code st t else c :: code (st.step c) t

theorem step_comment (h : c ≠ '\n') : comment.step c = comment := by
  unfold step
  split <;> simp_all

/-- A comment goes on to the end of its line. -/
theorem after_comment (h : '\n' ∉ t) : comment.after t = comment := by
  induction t with
  | nil => rfl
  | cons c t ih =>
    rw [List.mem_cons, not_or] at h
    rw [after_cons, step_comment (Ne.symm h.1), ih h.2]

@[simp] theorem step_newline (st : LineState) : st.step '\n' = plain := by
  cases st <;> rfl

theorem code_cons_comment (h : c ≠ '\n') (t : Text) : code comment (c :: t) = code comment t := by
  rw [code, if_pos ⟨rfl, h⟩]

theorem code_newline (st : LineState) (t : Text) : code st ('\n' :: t) = '\n' :: code plain t := by
  rw [code, if_neg (by simp), step_newline]

theorem code_cons (h : st ≠ comment) (c : Char) (t : Text) :
    code st (c :: t) = c :: code (st.step c) t := by
  rw [code, if_neg (by simp [h])]

theorem code_append (st : LineState) (s t : Text) :
    code st (s ++ t) = code st s ++ code (st.after s) t := by
  induction s generalizing st with
  | nil => rfl
  | cons c s ih =>
    rw [List.cons_append, after_cons]
    by_cases h : st = comment ∧ c ≠ '\n'
    · obtain ⟨rfl, hc⟩ := h
      rw [code_cons_comment hc, code_cons_comment hc, step_comment hc, ih]
    · rw [code, if_neg h, code, if_neg h, ih, List.cons_append]

/-- Nothing of a comment stands in a text. -/
def Clear (st : LineState) (l : Text) : Prop := ∀ p, p <+: l → st.after p ≠ comment

theorem Clear.ne (h : st.Clear l) : st ≠ comment := h [] List.nil_prefix

theorem Clear.of_cons (h : st.Clear (c :: l)) : (st.step c).Clear l :=
  fun p hp => h (c :: p) (List.cons_prefix_cons.2 ⟨rfl, hp⟩)

theorem head?_code (h : st ≠ comment) (t : Text) : (code st t).head? = t.head? := by
  cases t with
  | nil => rfl
  | cons c t => rw [code_cons h, List.head?_cons, List.head?_cons]

/-- Where nothing of a comment stands, texts that differ in comments only are the same. -/
theorem Clear.exists_append (h : st.Clear l) (hu : code st u = code st (l ++ t)) :
    ∃ t', u = l ++ t' ∧ code (st.after l) t' = code (st.after l) t := by
  induction l generalizing st u with
  | nil => exact ⟨u, rfl, hu⟩
  | cons c l ih =>
    rw [List.cons_append, code_cons h.ne] at hu
    cases u with
    | nil => cases hu
    | cons d u =>
      rw [code_cons h.ne] at hu
      obtain ⟨rfl, hu⟩ := List.cons.inj hu
      obtain ⟨t', rfl, ht⟩ := ih h.of_cons hu
      exact ⟨t', rfl, ht⟩

end LineState

open LineState (plain comment)

/-- Two lines are the same, or the same up to some place inside a comment. -/
def SameLine (l l' : Text) : Prop :=
  l = l' ∨ ∃ p, p <+: l ∧ p <+: l' ∧ isCommented p = true

instance (l l' : Text) : Decidable (SameLine l l') :=
  decidable_of_iff (l = l' ∨ ∃ p ∈ l.inits, p <+: l' ∧ isCommented p = true)
    (by simp [SameLine, List.mem_inits])

/-- Two texts have the same lines up to what is said in comments. -/
def SameCode (t u : Text) : Prop :=
  List.Forall₂ SameLine (t.splitBy (· == '\n')) (u.splitBy (· == '\n'))

variable {α : Type} {read? : Text → Option (α × Text)} {b b' l t t' : Text} {v : α}
  {vs vs' : List (Text × α)}

theorem isCommented_iff : isCommented b = true ↔ plain.after b = comment := by
  rw [isCommented, beq_iff_eq]

theorem isCommented_eq_false_iff : isCommented b = false ↔ plain.after b ≠ comment := by
  rw [← Bool.not_eq_true, isCommented_iff]

theorem isCommentedAt?_append (before rest : Text) :
    isCommentedAt? (before ++ rest) (Text.size before) = some (isCommented before) := by
  rw [isCommentedAt?, Text.takeBytes?_size_append, Option.map_some]

theorem code_comment_of_line (h : '\n' ∉ t) : comment.code t = [] := by
  induction t with
  | nil => rfl
  | cons c t ih =>
    rw [List.mem_cons, not_or] at h
    rw [LineState.code_cons_comment (Ne.symm h.1), ih h.2]

theorem SameLine.code_eq {l l' : Text} (h : SameLine l l') (hl : '\n' ∉ l) (hl' : '\n' ∉ l') :
    plain.code l = plain.code l' := by
  rcases h with rfl | ⟨p, ⟨r, rfl⟩, ⟨r', rfl⟩, hp⟩
  · rfl
  · have hr : '\n' ∉ r := fun hm => hl (List.mem_append_right p hm)
    have hr' : '\n' ∉ r' := fun hm => hl' (List.mem_append_right p hm)
    rw [LineState.code_append, LineState.code_append, isCommented_iff.1 hp,
      code_comment_of_line hr, code_comment_of_line hr']

theorem after_concat_newline (b : Text) : plain.after (b ++ ['\n']) = plain := by
  rw [LineState.after_append, LineState.after_cons, LineState.step_newline, LineState.after_nil]

theorem after_concat_comment {c : Char} (hb : plain.after b = comment) (hc : c ≠ '\n') :
    plain.after (b ++ [c]) = comment := by
  rw [LineState.after_append, hb]
  exact LineState.step_comment hc

theorem code_concat_comment {c : Char} (hb : plain.after b = comment) (hc : c ≠ '\n') :
    plain.code (b ++ [c]) = plain.code b := by
  rw [LineState.code_append, hb, LineState.code_cons_comment hc]
  exact List.append_nil _

theorem code_append_newline (l t : Text) :
    plain.code (l ++ '\n' :: t) = plain.code l ++ '\n' :: plain.code t := by
  rw [LineState.code_append, LineState.code_newline]

theorem code_intercalate_lines {ls ls' : List Text} (h : List.Forall₂ SameLine ls ls')
    (hl : ∀ l ∈ ls, '\n' ∉ l) (hl' : ∀ l ∈ ls', '\n' ∉ l) :
    plain.code (['\n'].intercalate ls) = plain.code (['\n'].intercalate ls') := by
  induction h with
  | nil => rfl
  | @cons l l' ls ls' hline hrest ih =>
    have hcode := hline.code_eq (hl l List.mem_cons_self) (hl' l' List.mem_cons_self)
    have ih := ih (fun k hk => hl k (List.mem_cons_of_mem _ hk))
      fun k hk => hl' k (List.mem_cons_of_mem _ hk)
    by_cases hne : ls = []
    · subst hne
      cases hrest
      simpa using hcode
    · have hne' : ls' ≠ [] := fun h => hne (by
        subst h
        cases hrest
        rfl)
      rw [List.intercalate_cons_of_ne_nil hne, List.intercalate_cons_of_ne_nil hne',
        List.append_assoc, List.append_assoc, List.singleton_append, List.singleton_append,
        code_append_newline, code_append_newline, hcode, ih]

theorem SameCode.code_eq (h : SameCode t t') : plain.code t = plain.code t' := by
  have hline (t : Text) : ∀ l ∈ t.splitBy (· == '\n'), '\n' ∉ l := fun l hl hm => by
    have := Text.not_of_mem_splitBy hl hm
    simp at this
  have hjoin (t : Text) : ['\n'].intercalate (t.splitBy (· == '\n')) = t := by
    rw [Text.splitBy_eq_splitOnP]
    exact List.intercalate_splitOn '\n'
  have hcode := code_intercalate_lines h (hline t) (hline t')
  rwa [hjoin, hjoin] at hcode

/-! ## Reading with comments passed over -/

/-- Reading a text from left to right, behind some text before it. Places inside comments are passed
over, and so are those where nothing can be read; everywhere else an occurrence is taken, with
nothing of a comment in it. Each occurrence is given with the text up to its end. -/
inductive Scans (read? : Text → Option (α × Text)) : Text → Text → List (Text × α) → Prop where
  | nil (b : Text) : Scans read? b [] []
  | pass {b : Text} {c : Char} {t : Text} {vs : List (Text × α)}
    (hread : plain.after b ≠ comment → read? (c :: t) = none) (h : Scans read? (b ++ [c]) t vs) :
    Scans read? b (c :: t) vs
  | take {b l t : Text} {v : α} {vs : List (Text × α)} (hne : l ≠ [])
    (hclear : (plain.after b).Clear l) (hread : read? (l ++ t) = some (v, t))
    (h : Scans read? (b ++ l) t vs) : Scans read? b (l ++ t) ((b ++ l, v) :: vs)

namespace Scans

theorem eq_nil (h : Scans read? b [] vs) : vs = [] := by
  generalize ht : ([] : Text) = t at h
  cases h with
  | nil => rfl
  | pass => cases ht
  | take hne => exact absurd (List.append_eq_nil_iff.1 ht.symm).1 hne

/-- In a comment that is the last of the text, nothing is found. -/
theorem eq_nil_of_comment (h : Scans read? b t vs) (hb : plain.after b = comment)
    (ht : comment.code t = []) : vs = [] := by
  induction h with
  | nil => rfl
  | @pass b c t vs _ _ ih =>
    by_cases hc : c = '\n'
    · subst hc
      rw [LineState.code_newline] at ht
      cases ht
    · rw [LineState.code_cons_comment hc] at ht
      exact ih (after_concat_comment hb hc) ht
  | take _ hclear => exact absurd hb hclear.ne

/-- In a comment nothing is found before the line ends. -/
theorem exists_newline (h : Scans read? b t vs) (hb : plain.after b = comment) {x : Text}
    (ht : comment.code t = '\n' :: x) :
    ∃ b₁ t₁, Scans read? b₁ t₁ vs ∧ plain.after b₁ = plain ∧
      plain.code b₁ = plain.code b ++ ['\n'] ∧ plain.code t₁ = x := by
  induction h with
  | nil => cases ht
  | @pass b c t vs _ h ih =>
    by_cases hc : c = '\n'
    · subst hc
      rw [LineState.code_newline] at ht
      exact ⟨_, t, h, after_concat_newline b, code_append_newline b [], (List.cons.inj ht).2⟩
    · rw [LineState.code_cons_comment hc] at ht
      rw [← code_concat_comment hb hc]
      exact ih (after_concat_comment hb hc) ht
  | take _ hclear => exact absurd hb hclear.ne

/-- Two texts that differ in comments only have the same occurrences at the same places. -/
theorem congr (hexact : Exact read?) (h : Scans read? b t vs) (h' : Scans read? b' t' vs')
    (hb : plain.after b' = plain.after b) (hcode : plain.code b' = plain.code b)
    (ht : (plain.after b).code t' = (plain.after b).code t) :
    vs'.map (fun o => (plain.code o.1, o.2)) = vs.map fun o => (plain.code o.1, o.2) := by
  induction h generalizing b' t' vs' with
  | @nil b =>
    by_cases hc : plain.after b = comment
    · rw [h'.eq_nil_of_comment (hb.trans hc) (by rw [← hc, ht]; rfl)]
    · cases t' with
      | nil => rw [h'.eq_nil]
      | cons c t' =>
        rw [LineState.code_cons hc] at ht
        cases ht
  | @pass b c t vs hread h ih =>
    by_cases hc : plain.after b = comment
    · by_cases hn : c = '\n'
      · subst hn
        rw [hc, LineState.code_newline] at ht
        obtain ⟨b₁, t₁, h₁, hb₁, hcode₁, ht₁⟩ := h'.exists_newline (hb.trans hc) ht
        have hstate := after_concat_newline b
        refine ih h₁ (hb₁.trans hstate.symm) ?_ (by rw [hstate, ht₁])
        rw [hcode₁, hcode]
        exact (code_append_newline b []).symm
      · -- Only the first text moves on; the second one may have to say less.
        rw [hc, LineState.code_cons_comment hn] at ht
        have hstate := after_concat_comment hc hn
        refine ih h' (by rw [hb, hc, hstate]) ?_ (by rw [hstate, ht])
        rw [hcode, code_concat_comment hc hn]
    · have hstate : plain.after (b ++ [c]) = (plain.after b).step c := LineState.after_append ..
      cases h' with
      | nil =>
        rw [LineState.code_cons hc] at ht
        cases ht
      | @pass _ c' t' _ _ h' =>
        rw [LineState.code_cons hc, LineState.code_cons hc] at ht
        obtain ⟨rfl, ht⟩ := List.cons.inj ht
        refine ih h' ?_ ?_ (by rw [hstate, ht])
        · rw [LineState.after_append, LineState.after_append, hb]
        · rw [LineState.code_append, LineState.code_append, hcode, hb]
      | @take _ l t' v _ _ hclear hread' _ =>
        -- What is read in the second text could be read here as well.
        rw [hb] at hclear
        obtain ⟨t₁, heq, ht₁⟩ := hclear.exists_append ht.symm
        have hhead : t₁.head? = t'.head? := by
          have hne : (plain.after b).after l ≠ comment := hclear l (List.prefix_refl l)
          rw [← LineState.head?_code hne t₁, ht₁, LineState.head?_code hne]
        obtain ⟨k, hk, hcongr⟩ := hexact hread'
        obtain rfl := List.append_cancel_right hk
        have := hcongr t₁ hhead
        rw [← heq, hread hc] at this
        cases this
  | @take b l t v vs hne hclear hread h ih =>
    obtain ⟨t₁, rfl, ht₁⟩ := hclear.exists_append ht
    have hhead : t₁.head? = t.head? := by
      have hne : (plain.after b).after l ≠ comment := hclear l (List.prefix_refl l)
      rw [← LineState.head?_code hne t₁, ht₁, LineState.head?_code hne]
    obtain ⟨k, hk, hcongr⟩ := hexact hread
    obtain rfl := List.append_cancel_right hk
    have hread₁ := hcongr t₁ hhead
    generalize hu : l ++ t₁ = u at h' hread₁
    cases h' with
    | nil => exact absurd (List.append_eq_nil_iff.1 hu).1 hne
    | @pass _ c t' _ hnone _ =>
      rw [hnone (by rw [hb]; exact hclear.ne)] at hread₁
      cases hread₁
    | @take _ l' t' v' _ _ hclear' hread' h' =>
      obtain ⟨rfl, rfl⟩ := Prod.mk.inj (Option.some.inj (hread'.symm.trans hread₁))
      obtain rfl := List.append_cancel_right hu
      have hstate : plain.after (b ++ l) = (plain.after b).after l := LineState.after_append ..
      have hends : plain.code (b' ++ l) = plain.code (b ++ l) := by
        rw [LineState.code_append, LineState.code_append, hcode, hb]
      have hrest := ih h' (by rw [LineState.after_append, LineState.after_append, hb]) hends
        (by rw [hstate, ht₁])
      rw [List.map_cons, List.map_cons, hends, hrest]

/-- An occurrence ends behind a character that is not inside a comment. -/
theorem ends (h : Scans read? b t vs) :
    ∀ o ∈ vs, o.1 <+: b ++ t ∧ ∃ p c, o.1 = p ++ [c] ∧ plain.after p ≠ comment := by
  induction h with
  | nil => exact List.forall_mem_nil _
  | @pass b c t vs _ _ ih =>
    intro o ho
    have hend := ih o ho
    rwa [List.append_assoc, List.singleton_append] at hend
  | @take b l t v vs hne hclear _ _ ih =>
    refine List.forall_mem_cons.2 ⟨⟨⟨t, List.append_assoc ..⟩, ?_⟩, fun o ho => ?_⟩
    · refine ⟨b ++ l.dropLast, l.getLast hne, ?_, ?_⟩
      · rw [List.append_assoc, List.dropLast_append_getLast]
      · rw [LineState.after_append]
        exact hclear _ (List.dropLast_prefix l)
    · have hend := ih o ho
      rwa [List.append_assoc] at hend

end Scans

/-! ## Places, counted with and without comments -/

theorem size_lt_of_concat {p q : Text} {c : Char} (h : q <+: p) :
    Text.size q < Text.size (p ++ [c]) := by
  obtain ⟨r, rfl⟩ := h
  have hc := Char.utf8Size_pos c
  simp only [Text.size_append, Text.size_cons]
  omega

theorem length_code_lt_of_concat {p q : Text} {c : Char} (h : q <+: p)
    (hp : plain.after p ≠ comment) :
    (plain.code q).length < (plain.code (p ++ [c])).length := by
  obtain ⟨r, rfl⟩ := h
  rw [LineState.code_append _ (q ++ r), LineState.code_cons hp, LineState.code_append]
  simp only [List.length_append, List.length_cons]
  omega

/-- Two ends of occurrences come in the same order in a text and in that text without comments. -/
theorem size_le_size_iff {p q t : Text} {c d : Char} (hp : p ++ [c] <+: t) (hq : q ++ [d] <+: t)
    (hpc : plain.after p ≠ comment) (hqd : plain.after q ≠ comment) :
    Text.size (p ++ [c]) ≤ Text.size (q ++ [d]) ↔
      (plain.code (p ++ [c])).length ≤ (plain.code (q ++ [d])).length := by
  by_cases heq : p ++ [c] = q ++ [d]
  · rw [heq]
    simp
  · rcases List.prefix_or_prefix_of_prefix hp hq with h | h
    · have hpre : p ++ [c] <+: q := (List.prefix_concat_iff.1 h).resolve_left heq
      exact iff_of_true (size_lt_of_concat hpre).le (length_code_lt_of_concat hpre hqd).le
    · have hpre : q ++ [d] <+: p := (List.prefix_concat_iff.1 h).resolve_left (Ne.symm heq)
      exact iff_of_false (Nat.not_le.2 (size_lt_of_concat hpre))
        (Nat.not_le.2 (length_code_lt_of_concat hpre hpc))

/-! ## Scanners that pass over comments -/

/-- An occurrence does not mix comments and the rest of a text. Outside comments it has nothing of a
comment in it; and if it starts inside one, then no occurrence could start outside comments in what
it takes. -/
structure Unmixed (read? : Text → Option (α × Text)) (before lexeme rest : Text) : Prop where
  outside : isCommented before = false →
    ∀ n ≤ lexeme.length, isCommented (before ++ lexeme.take n) = false
  inside : isCommented before = true →
    ∀ n < lexeme.length, isCommented (before ++ lexeme.take n) = false →
      read? (lexeme.drop n ++ rest) = none

instance (before lexeme rest : Text) : Decidable (Unmixed read? before lexeme rest) :=
  decidable_of_iff (_ ∧ _) ⟨fun h => ⟨h.1, h.2⟩, fun h => ⟨h.outside, h.inside⟩⟩

/-- No occurrence mixes comments and the rest of a text that stands behind another one. -/
def Apart (read? : Text → Option (α × Text)) : Text → Segments α → Prop
  | _, .tail _ => True
  | before, .found b l _ rest =>
    Unmixed read? (before ++ b) l rest.text ∧ Apart read? (before ++ b ++ l) rest

instance decidableApart (read? : Text → Option (α × Text)) :
    (before : Text) → (s : Segments α) → Decidable (Apart read? before s)
  | _, .tail _ => .isTrue trivial
  | before, .found b l _ rest =>
    have := decidableApart read? (before ++ b ++ l) rest
    inferInstanceAs (Decidable (_ ∧ _))

/-- A scanner does not come upon occurrences that mix comments and the rest of a text. -/
def KeepsApart (read? : Text → Option (α × Text)) (t : Text) : Prop :=
  Apart read? [] (Segments.cut read? t)

instance (t : Text) : Decidable (KeepsApart read? t) :=
  inferInstanceAs (Decidable (Apart _ _ _))

theorem apart_prepend (b t : Text) (s : Segments α) :
    Apart read? b (s.prepend t) ↔ Apart read? (b ++ t) s := by
  cases s with
  | tail u => exact Iff.rfl
  | found u l v rest => simp only [Segments.prepend, Apart, List.append_assoc]

/-- Where the occurrences end that a scanner keeps, and what they mean. -/
def remaining (before : Text) (s : Segments α) : List (Nat × α) :=
  ((s.filter LineState.after (· != .comment) (plain.after before)).locate (Text.size before)).map
    fun o => (o.stop, o.value)

theorem filter_prepend (st : LineState) (t : Text) (s : Segments α) :
    (s.prepend t).filter LineState.after (· != .comment) st =
      (s.filter LineState.after (· != .comment) (st.after t)).prepend t := by
  cases s with
  | tail u => rfl
  | found u l v rest =>
    rw [Segments.prepend]
    simp only [Segments.filter, LineState.after_append]
    split
    · rfl
    · rw [Segments.prepend_prepend, List.append_assoc]

theorem remaining_prepend (b t : Text) (s : Segments α) :
    remaining b (s.prepend t) = remaining (b ++ t) s := by
  rw [remaining, remaining, filter_prepend, Segments.locate_prepend, Text.size_append,
    LineState.after_append]

theorem remaining_found (hb : plain.after b ≠ comment) (l : Text) (v : α) (rest : Segments α) :
    remaining b (.found [] l v rest) = (Text.size (b ++ l), v) :: remaining (b ++ l) rest := by
  have hkeep : (plain.after b != comment) = true := bne_iff_ne.2 hb
  simp only [remaining, Segments.filter, LineState.after_nil, hkeep, if_true, Segments.locate,
    List.map_cons, Text.size_nil, Nat.add_zero, Text.size_append, LineState.after_append]

theorem remaining_found_of_commented (hb : plain.after b = comment) (l : Text) (v : α)
    (rest : Segments α) : remaining b (.found [] l v rest) = remaining (b ++ l) rest := by
  have hdrop : (plain.after b != comment) = false := by simp [hb]
  simp only [remaining, Segments.filter, LineState.after_nil, hdrop, Bool.false_eq_true, if_false,
    List.nil_append, Segments.locate_prepend, Text.size_append, LineState.after_append]

theorem Unmixed.clear {rest : Text} (h : Unmixed read? b l rest) (hb : plain.after b ≠ comment) :
    (plain.after b).Clear l := by
  intro p hp
  have hlive := h.outside (isCommented_eq_false_iff.2 hb) p.length hp.length_le
  rw [← List.prefix_iff_eq_take.1 hp, isCommented_eq_false_iff, LineState.after_append] at hlive
  exact hlive

/-- What an occurrence takes that starts inside a comment is passed over. -/
theorem Scans.of_commented (hquiet : ∀ n < l.length, isCommented (b ++ l.take n) = false →
      read? (l.drop n ++ t) = none) (h : Scans read? (b ++ l) t vs) :
    Scans read? b (l ++ t) vs := by
  induction l generalizing b with
  | nil => rwa [List.append_nil] at h
  | cons c l ih =>
    refine .pass (fun hb => ?_) (ih (fun n hn hlive => ?_) ?_)
    · have hnone := hquiet 0 (by simp)
      rw [List.take_zero, List.append_nil, isCommented_eq_false_iff] at hnone
      exact hnone hb
    · have hnone := hquiet (n + 1) (by simpa using hn)
      rw [List.take_succ_cons, ← List.singleton_append, ← List.append_assoc] at hnone
      exact hnone hlive
    · rwa [List.append_assoc, List.singleton_append]

/-- If no occurrence mixes comments and the rest of a text, then those that are kept are the ones
that are found if comments are passed over. -/
theorem Apart.scans (hexact : Exact read?) (hproper : Proper read?)
    (h : Apart read? b (Segments.cut read? t)) :
    ∃ vs, Scans read? b t vs ∧
      remaining b (Segments.cut read? t) = vs.map fun o => (Text.size o.1, o.2) := by
  induction hn : t.length using Nat.strong_induction_on generalizing b t with
  | _ n ih =>
    cases t with
    | nil =>
      rw [Segments.cut]
      exact ⟨[], .nil b, rfl⟩
    | cons c t =>
      cases hread : read? (c :: t) with
      | none =>
        have hcut := Segments.cut_cons hread
        rw [hcut, apart_prepend] at h
        obtain ⟨vs, hvs, hrem⟩ := ih t.length (by simp [← hn]) h rfl
        exact ⟨vs, .pass (fun _ => hread) hvs, by rw [hcut, remaining_prepend, hrem]⟩
      | some r =>
        obtain ⟨v, rest⟩ := r
        have hlen := hproper hread
        obtain ⟨l, hl, -⟩ := hexact hread
        have hne : l ≠ [] := fun hnil => by
          rw [hl, hnil, List.nil_append] at hlen
          exact Nat.lt_irrefl _ hlen
        rw [hl] at hread h ⊢
        rw [Segments.cut_of_read? hne hread] at h ⊢
        obtain ⟨hmix, hrest⟩ := h
        rw [List.append_nil] at hmix hrest
        obtain ⟨vs, hvs, hrem⟩ := ih rest.length (by omega) hrest rfl
        by_cases hb : plain.after b = comment
        · have hquiet := hmix.inside (isCommented_iff.2 hb)
          rw [Segments.text_cut] at hquiet
          exact ⟨vs, .of_commented hquiet hvs, by rw [remaining_found_of_commented hb, hrem]⟩
        · refine ⟨(b ++ l, v) :: vs, .take hne (hmix.clear hb) hread hvs, ?_⟩
          rw [remaining_found hb, hrem]
          rfl

/-- What a scanner keeps of two texts that differ in comments only: the same occurrences, at places
that correspond to each other. -/
theorem KeepsApart.exists_scans (hexact : Exact read?) (hproper : Proper read?)
    (hcode : SameCode t t') (h : KeepsApart read? t) (h' : KeepsApart read? t') :
    ∃ vs vs', Scans read? [] t vs ∧ Scans read? [] t' vs' ∧
      remaining [] (Segments.cut read? t) = vs.map (fun o => (Text.size o.1, o.2)) ∧
      remaining [] (Segments.cut read? t') = vs'.map (fun o => (Text.size o.1, o.2)) ∧
      vs'.map (fun o => (plain.code o.1, o.2)) = vs.map fun o => (plain.code o.1, o.2) := by
  obtain ⟨vs, hvs, hrem⟩ := Apart.scans hexact hproper h
  obtain ⟨vs', hvs', hrem'⟩ := Apart.scans hexact hproper h'
  exact ⟨vs, vs', hvs, hvs', hrem, hrem', hvs.congr hexact hvs' rfl rfl hcode.code_eq.symm⟩

theorem map_snd_remaining (t : Text) :
    (remaining [] (Segments.cut read? t)).map (·.2) = (uncommented (.cut read? t)).values := by
  rw [remaining, List.map_map, ← Segments.map_value_locate 0]
  rfl

/-- What is found outside comments does not depend on what the comments say, if no occurrence mixes
the two. -/
theorem values_uncommented_eq (hexact : Exact read?) (hproper : Proper read?)
    (hcode : SameCode t t') (h : KeepsApart read? t) (h' : KeepsApart read? t') :
    (uncommented (.cut read? t)).values = (uncommented (.cut read? t')).values := by
  obtain ⟨vs, vs', -, -, hrem, hrem', hsame⟩ := h.exists_scans hexact hproper hcode h'
  have hvalues := congrArg (List.map (·.2)) hsame
  rw [List.map_map, List.map_map] at hvalues
  rw [← map_snd_remaining, ← map_snd_remaining, hrem, hrem', List.map_map, List.map_map]
  exact hvalues.symm

end TexBundle.Source
