import TexBundle.Expansion

/-!
# Traces of an expansion

What becomes of the include directives of a text, as a tree in which the trace of a file that is
spliced in hangs at its directive.

* `Trace.source`, `Trace.text`, `Trace.report`: what a trace was made from, and what it comes to;
* `Trace.edges`: the directives that are come upon, with the files that are open there;
* `Unfolds`: the rules that directives are followed by, one for each thing that may become of one;
* `Unfolds.unique`: these rules leave no choice;
* `ofRoot_unfolds`, `Unfolds.ofRoot_eq`: expansion follows them, and nothing else does, so that what
  holds of every trace holds of its result.
-/

namespace TexBundle

namespace Report

@[simp] theorem included_append (r s : Report) : (r ++ s).included = r.included ++ s.included := rfl
@[simp] theorem skipped_append (r s : Report) : (r ++ s).skipped = r.skipped ++ s.skipped := rfl
@[simp] theorem spliced_append (r s : Report) : (r ++ s).spliced = r.spliced + s.spliced := rfl

@[simp] theorem depthLimited_append (r s : Report) :
    (r ++ s).depthLimited = (r.depthLimited || s.depthLimited) := rfl

@[simp] theorem exhausted_append (r s : Report) :
    (r ++ s).exhausted = (r.exhausted || s.exhausted) := rfl

theorem append_assoc (r s t : Report) : r ++ s ++ t = r ++ (s ++ t) := by
  show append (append r s) t = append r (append s t)
  simp [append, Nat.add_assoc, Bool.or_assoc]

theorem append_empty (r : Report) : r ++ ({} : Report) = r := by
  show append r {} = r
  simp [append]

theorem empty_append (r : Report) : ({} : Report) ++ r = r := by
  show append {} r = r
  simp [append]

end Report

namespace Expansion

open Source (Directive)

/-- Why a directive stays as written although it is followed. -/
inductive Cause where
  | missing
  | exhausted
deriving DecidableEq, Repr

/-- What becomes of the directives of a text, from left to right. Each one comes with the text
before it, its own text, and the path that it means. -/
inductive Trace where
  /-- The text behind the last directive. -/
  | tail (text : Text)
  /-- The text of a file that lies too deep to be expanded. -/
  | deep (text : Text)
  | kept (before lexeme path : Text) (cause : Cause) (rest : Trace)
  | skipped (before lexeme path : Text) (rest : Trace)
  /-- `body` is the trace of the file's own text. -/
  | spliced (before lexeme path : Text) (body rest : Trace)
deriving DecidableEq, Repr

/-- What becomes of one directive. -/
inductive Fate where
  | kept (cause : Cause)
  | skipped
  | spliced
deriving DecidableEq, Repr

/-- A directive that is come upon: the files open there, the innermost first, the file it means, and
what becomes of it. -/
structure Edge where
  chain : List Text
  path : Text
  fate : Fate
deriving DecidableEq, Repr

/-- What a directive that stays as written adds to the report. -/
def Cause.report (path : Text) : Cause → Report
  | missing => { missing := [path] }
  | exhausted => { exhausted := true }

@[simp] theorem Cause.included_report (path : Text) (c : Cause) :
    (c.report path).included = [] := by
  cases c <;> rfl

@[simp] theorem Cause.skipped_report (path : Text) (c : Cause) : (c.report path).skipped = [] := by
  cases c <;> rfl

@[simp] theorem Cause.spliced_report (path : Text) (c : Cause) : (c.report path).spliced = 0 := by
  cases c <;> rfl

@[simp] theorem Cause.depthLimited_report (path : Text) (c : Cause) :
    (c.report path).depthLimited = false := by
  cases c <;> rfl

@[simp] theorem Cause.exhausted_report (path : Text) (c : Cause) :
    (c.report path).exhausted = (c == .exhausted) := by
  cases c <;> rfl

namespace Trace

/-- The text before expansion. -/
def source : Trace → Text
  | tail t | deep t => t
  | kept b l _ _ rest | skipped b l _ rest | spliced b l _ _ rest => b ++ (l ++ rest.source)

/-- The text after expansion. `ended` says whether the line before it is at its end. -/
def text : Trace → (ended : Bool) → Text
  | tail t, _ | deep t, _ => t
  | kept b l _ _ rest, ended => b ++ (l ++ rest.text (endsLine (endsLine ended b) l))
  | skipped b _ p rest, ended =>
    let marker := onOwnLines (endsLine ended b) (Marker.skipped p) rest.source
    b ++ (marker ++ rest.text (endsLine (endsLine ended b) marker))
  | spliced b _ p body rest, ended =>
    let file := onOwnLines (endsLine ended b) (block p (body.text true)) rest.source
    b ++ (file ++ rest.text (endsLine (endsLine ended b) file))

def report : Trace → Report
  | tail _ => {}
  | deep _ => { depthLimited := true }
  | kept _ _ p c rest => c.report p ++ rest.report
  | skipped _ _ p rest => { skipped := [p] } ++ rest.report
  | spliced _ _ p body rest =>
    { included := [p], spliced := charge p body.source } ++ body.report ++ rest.report

/-- The directives that are come upon in a text with this chain of open files. -/
def edges : (chain : List Text) → Trace → List Edge
  | _, tail _ | _, deep _ => []
  | chain, kept _ _ p c rest => ⟨chain, p, .kept c⟩ :: rest.edges chain
  | chain, skipped _ _ p rest => ⟨chain, p, .skipped⟩ :: rest.edges chain
  | chain, spliced _ _ p body rest =>
    ⟨chain, p, .spliced⟩ :: (body.edges (p :: chain) ++ rest.edges chain)

end Trace

/-! ## The rules -/

/-- A text is followed to a trace, so many levels deep and with so many bytes spent. The first file
of the chain is the one that the text belongs to; the text comes cut at its directives. -/
inductive Unfolds (sources : Sources) (limits : Limits) :
    (levels : Nat) → (chain : List Text) → Segments Directive → (spent : Nat) → Trace → Prop where
  | deep {chain s spent} : Unfolds sources limits 0 chain s spent (.deep s.text)
  | tail {levels chain t spent} :
    Unfolds sources limits (levels + 1) chain (.tail t) spent (.tail t)
  | missing {levels file chain b l d rest spent path tr}
      (hp : path = Path.target (Path.directory file) d.argument)
      (hs : sourceOf? sources path = none)
      (hr : Unfolds sources limits (levels + 1) (file :: chain) rest spent tr) :
    Unfolds sources limits (levels + 1) (file :: chain) (.found b l d rest) spent
      (.kept b l path .missing tr)
  | skipped {levels file chain b l d rest spent path source tr}
      (hp : path = Path.target (Path.directory file) d.argument)
      (hs : sourceOf? sources path = some source) (hc : path ∈ file :: chain)
      (hr : Unfolds sources limits (levels + 1) (file :: chain) rest spent tr) :
    Unfolds sources limits (levels + 1) (file :: chain) (.found b l d rest) spent
      (.skipped b l path tr)
  | exhausted {levels file chain b l d rest spent path source tr}
      (hp : path = Path.target (Path.directory file) d.argument)
      (hs : sourceOf? sources path = some source) (hc : path ∉ file :: chain)
      (hb : limits.maxBytes < spent + charge path source)
      (hr : Unfolds sources limits (levels + 1) (file :: chain) rest spent tr) :
    Unfolds sources limits (levels + 1) (file :: chain) (.found b l d rest) spent
      (.kept b l path .exhausted tr)
  | spliced {levels file chain b l d rest spent path source body tr}
      (hp : path = Path.target (Path.directory file) d.argument)
      (hs : sourceOf? sources path = some source) (hc : path ∉ file :: chain)
      (hb : spent + charge path source ≤ limits.maxBytes)
      (hbody : Unfolds sources limits levels (path :: file :: chain) (Source.directives source)
        (spent + charge path source) body)
      (hr : Unfolds sources limits (levels + 1) (file :: chain) rest
        (spent + charge path source + body.report.spliced) tr) :
    Unfolds sources limits (levels + 1) (file :: chain) (.found b l d rest) spent
      (.spliced b l path body tr)

variable {sources : Sources} {limits : Limits} {levels spent : Nat} {chain : List Text}
  {s : Segments Directive} {tr : Trace}

theorem lookup_of_sourceOf? {path source : Text} (h : sourceOf? sources path = some source) :
    sources.lookup path = some source := by
  rw [sourceOf?] at h
  split at h
  · cases h
  · exact h

theorem mem_of_lookup {path source : Text} (h : sources.lookup path = some source) :
    (path, source) ∈ sources := by
  obtain ⟨l, r, rfl, -⟩ := List.lookup_eq_some_iff.1 h
  exact List.mem_append_right l List.mem_cons_self

theorem mem_of_sourceOf? {path source : Text} (h : sourceOf? sources path = some source) :
    (path, source) ∈ sources :=
  mem_of_lookup (lookup_of_sourceOf? h)

/-- A trace remembers the text that it was made from. -/
theorem Unfolds.source_eq (h : Unfolds sources limits levels chain s spent tr) :
    tr.source = s.text := by
  induction h with
  | deep => rfl
  | tail => rfl
  | missing _ _ _ ih => simp [Trace.source, Segments.text, ih]
  | skipped _ _ _ _ ih => simp [Trace.source, Segments.text, ih]
  | exhausted _ _ _ _ _ ih => simp [Trace.source, Segments.text, ih]
  | spliced _ _ _ _ _ _ _ ih => simp [Trace.source, Segments.text, ih]

theorem Unfolds.source_eq_of_directives {t : Text}
    (h : Unfolds sources limits levels chain (Source.directives t) spent tr) : tr.source = t := by
  rw [h.source_eq, Source.text_directives]

/-- At most one rule applies to a directive, and it determines what becomes of it. -/
theorem Unfolds.unique (h : Unfolds sources limits levels chain s spent tr) {tr' : Trace}
    (h' : Unfolds sources limits levels chain s spent tr') : tr = tr' := by
  induction h generalizing tr' with
  | deep => cases h'; rfl
  | tail => cases h'; rfl
  | missing hp hs _ ih =>
    subst hp
    cases h' with
    | missing hp' hs' hr' => rw [hp', ih hr']
    | skipped hp' hs' | exhausted hp' hs' | spliced hp' hs' => simp [← hp', hs'] at hs
  | skipped hp hs hc _ ih =>
    subst hp
    cases h' with
    | skipped hp' hs' hc' hr' => rw [hp', ih hr']
    | missing hp' hs' => simp [← hp', hs'] at hs
    | exhausted hp' hs' hc' | spliced hp' hs' hc' => exact absurd (hp' ▸ hc) hc'
  | exhausted hp hs hc hb _ ih =>
    subst hp
    cases h' with
    | exhausted hp' hs' hc' hb' hr' => rw [hp', ih hr']
    | missing hp' hs' => simp [← hp', hs'] at hs
    | skipped hp' hs' hc' => exact absurd (hp' ▸ hc') hc
    | spliced hp' hs' hc' hb' =>
      subst hp'
      obtain rfl := Option.some.inj (hs.symm.trans hs')
      omega
  | spliced hp hs hc hb _ _ ihb ihr =>
    subst hp
    cases h' with
    | missing hp' hs' => simp [← hp', hs'] at hs
    | skipped hp' hs' hc' => exact absurd (hp' ▸ hc') hc
    | exhausted hp' hs' hc' hb' =>
      subst hp'
      obtain rfl := Option.some.inj (hs.symm.trans hs')
      omega
    | spliced hp' hs' hc' hb' hbody' hr' =>
      subst hp'
      obtain rfl := Option.some.inj (hs.symm.trans hs')
      obtain rfl := ihb hbody'
      rw [ihr hr']

/-! ## Expansion follows the rules -/

section Follow

variable {nested : Expander} {path lexeme following source : Text} {ended : Bool}

theorem follow_missing (h : sourceOf? sources path = none) :
    follow sources limits chain nested path lexeme following ended spent =
      ⟨lexeme, Cause.missing.report path⟩ := by
  simp [follow, h, Cause.report]

theorem follow_skipped (h : sourceOf? sources path = some source) (hc : path ∈ chain) :
    follow sources limits chain nested path lexeme following ended spent =
      ⟨onOwnLines ended (Marker.skipped path) following, { skipped := [path] }⟩ := by
  simp [follow, h, hc]

theorem follow_exhausted (h : sourceOf? sources path = some source) (hc : path ∉ chain)
    (hb : limits.maxBytes < spent + charge path source) :
    follow sources limits chain nested path lexeme following ended spent =
      ⟨lexeme, Cause.exhausted.report path⟩ := by
  simp [follow, h, hc, hb, Cause.report]

theorem follow_spliced (h : sourceOf? sources path = some source) (hc : path ∉ chain)
    (hb : spent + charge path source ≤ limits.maxBytes) :
    follow sources limits chain nested path lexeme following ended spent =
      ⟨onOwnLines ended (block path (nested path source (spent + charge path source)).text)
          following,
        { included := [path], spliced := charge path source } ++
          (nested path source (spent + charge path source)).report⟩ := by
  simp [follow, h, hc, Nat.not_lt.2 hb]

end Follow

/-- Following the directives of a file one after the other, given that the files it includes unfold.
The trace does not depend on where the line before the text ends. -/
theorem splice_unfolds {file : Text}
    (ih : ∀ path source spent, ∃ tr,
      Unfolds sources limits levels (path :: file :: chain) (Source.directives source) spent tr ∧
      expand sources limits levels (file :: chain) path source spent = ⟨tr.text true, tr.report⟩)
    (s : Segments Directive) (spent : Nat) :
    ∃ tr, Unfolds sources limits (levels + 1) (file :: chain) s spent tr ∧
      ∀ ended, splice sources limits (Path.directory file) (file :: chain)
        (expand sources limits levels (file :: chain)) s ended spent =
          ⟨tr.text ended, tr.report⟩ := by
  induction s generalizing spent with
  | tail t => exact ⟨.tail t, .tail, fun _ => rfl⟩
  | found b l d rest ihs =>
    generalize hp : Path.target (Path.directory file) d.argument = path
    cases hs : sourceOf? sources path with
    | none =>
      obtain ⟨tr, hr, he⟩ := ihs spent
      refine ⟨_, .missing hp.symm hs hr, fun ended => ?_⟩
      simp [splice, hp, follow_missing hs, he, Trace.text, Trace.report]
    | some source =>
      by_cases hc : path ∈ file :: chain
      · obtain ⟨tr, hr, he⟩ := ihs spent
        refine ⟨_, .skipped hp.symm hs hc hr, fun ended => ?_⟩
        simp [splice, hp, follow_skipped hs hc, he, Trace.text, Trace.report, hr.source_eq]
      · by_cases hb : limits.maxBytes < spent + charge path source
        · obtain ⟨tr, hr, he⟩ := ihs spent
          refine ⟨_, .exhausted hp.symm hs hc hb hr, fun ended => ?_⟩
          simp [splice, hp, follow_exhausted hs hc hb, he, Trace.text, Trace.report]
        · have hb := Nat.le_of_not_lt hb
          obtain ⟨body, hbody, heb⟩ := ih path source (spent + charge path source)
          obtain ⟨tr, hr, he⟩ := ihs (spent + charge path source + body.report.spliced)
          refine ⟨_, .spliced hp.symm hs hc hb hbody hr, fun ended => ?_⟩
          simp only [splice, hp, follow_spliced hs hc hb, heb, Report.spliced_append]
          rw [← Nat.add_assoc, he]
          simp only [Trace.text, Trace.report, hr.source_eq, hbody.source_eq_of_directives]

/-- The text of a file unfolds, and the trace gives the text and the report of its expansion. -/
theorem expand_unfolds (sources : Sources) (limits : Limits) (levels : Nat) (chain : List Text)
    (file source : Text) (spent : Nat) :
    ∃ tr, Unfolds sources limits levels (file :: chain) (Source.directives source) spent tr ∧
      expand sources limits levels chain file source spent = ⟨tr.text true, tr.report⟩ := by
  induction levels generalizing chain file source spent with
  | zero =>
    refine ⟨_, .deep, ?_⟩
    simp [expand, Trace.text, Trace.report, Source.text_directives]
  | succ levels ih =>
    obtain ⟨tr, h, he⟩ := splice_unfolds
      (fun path source spent => ih (file :: chain) path source spent)
      (Source.directives source) spent
    exact ⟨tr, h, he true⟩

/-- Expansion from a root follows the rules, `maxDepth` levels below the root and with nothing
spent. -/
theorem ofRoot_unfolds (sources : Sources) (limits : Limits) (path text : Text) :
    ∃ tr, Unfolds sources limits (limits.maxDepth + 1) [path] (Source.directives text) 0 tr ∧
      ofRoot sources limits path text = ⟨tr.text true, tr.report⟩ :=
  expand_unfolds ..

/-- Whatever trace follows the rules from a root is the one that expansion follows. -/
theorem Unfolds.ofRoot_eq {path text : Text}
    (h : Unfolds sources limits (limits.maxDepth + 1) [path] (Source.directives text) 0 tr) :
    ofRoot sources limits path text = ⟨tr.text true, tr.report⟩ := by
  obtain ⟨tr', h', he⟩ := ofRoot_unfolds sources limits path text
  rw [he, h.unique h']

end Expansion

end TexBundle
