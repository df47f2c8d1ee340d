import TexBundle.Proofs.Expansion.Markers
import TexBundle.Proofs.Offsets.Bibliography

/-!
# Expansion by offsets

An expander that goes by byte offsets. It follows the directives of a file in turn and keeps a draft:
what has been written, and the byte up to which the text has been copied. Text that stays as it is,
directives included, is copied only when something has to be written behind it.

* `directoryAt`, `targetAt`: the paths that directives mean, taken apart by offsets;
* `Draft`, `followAt`: what becomes of one directive;
* `expandAt`, `expandRoot`: what becomes of a whole text;
* `Draft.Reaches`: what a draft comes to, with the text that is still to be copied;
* `followAt_reaches`: following a directive writes what expansion puts in its place;
* `expandRoot_eq`: nothing stops the expander, and it writes what expansion writes;
* `scanners_eq_ok`: the same of all scanners that go by offsets.
-/

namespace TexBundle.Offsets

open Source (Directive)
open Expansion

/-! ## Paths -/

/-- Everything before the last `/`. -/
def directoryAt (path : Text) : Scan Text :=
  match lastOffset? '/' path with
  | some slash => sliceTo slash path
  | none => return []

/-- What follows the last dot of the last segment, if something stands on both sides of that dot. -/
def extensionAt? (path : Text) : Scan (Option Text) :=
  let name := Path.fileName path
  match lastOffset? '.' name with
  | some dot =>
    if 0 < dot ∧ dot + 1 < Text.size name then return some (← sliceFrom (dot + 1) name)
    else return none
  | none => return none

/-- The path that a directive means in a file of directory `dir`. -/
def targetAt (dir raw : Text) : Scan Text := do
  let arg := Path.bareArgument raw
  if arg = [] then return []
  else
    let file := if (← extensionAt? arg).isSome then arg else arg ++ ".tex"
    return Path.canonical (if dir = [] then file else dir ++ '/' :: file)

theorem directoryAt_eq (path : Text) : directoryAt path = .ok (Path.directory path) := by
  rw [directoryAt, Path.directory, lastOffset?]
  cases hbreak : path.breakAtLast? '/' with
  | none => rfl
  | some x =>
    obtain ⟨dir, name⟩ := x
    exact sliceTo_of_eq (Text.eq_of_breakAtLast? hbreak) rfl

theorem extensionAt?_eq (path : Text) : extensionAt? path = .ok (Path.extension? path) := by
  rw [extensionAt?, Path.extension?, lastOffset?]
  generalize Path.fileName path = name
  cases hbreak : Text.breakAtLast? '.' name with
  | none => rfl
  | some x =>
    obtain ⟨stem, ext⟩ := x
    obtain rfl := Text.eq_of_breakAtLast? hbreak
    have hsize : Text.size (stem ++ '.' :: ext) = Text.size stem + 1 + Text.size ext := by
      rw [Text.size_append, Text.size_cons, ← Nat.add_assoc]
      rfl
    have hbounds : 0 < Text.size stem ∧ Text.size stem + 1 < Text.size (stem ++ '.' :: ext) ↔
        ¬(stem = [] ∨ ext = []) := by
      rw [hsize, not_or, ← Text.size_eq_zero_iff, ← Text.size_eq_zero_iff]
      omega
    simp only [Option.map_some, hbounds, sliceFrom_succ (c := '.') rfl rfl rfl, ok_bind, ite_not]
    split <;> rfl

theorem targetAt_eq (dir raw : Text) : targetAt dir raw = .ok (Path.target dir raw) := by
  rw [targetAt, Path.target]
  by_cases harg : Path.bareArgument raw = []
  · simp only [if_pos harg]
    rfl
  · simp only [if_neg harg, extensionAt?_eq, ok_bind]
    rfl

/-! ## Following directives -/

/-- What has been written, up to which byte the text has been copied, and what is to report. -/
structure Draft where
  out : Text
  last : Nat
  report : Report

/-- Expands the text of the file at a path and reports what has happened before and there. -/
abbrev ExpanderAt := (path source : Text) → Report → Scan (Text × Report)

variable {sources : Sources} {limits : Limits} {dir text : Text} {chain : List Text}
  {nestedAt : ExpanderAt} {nested : Expander}

/-- Copies the text up to byte `start`, and writes a block on lines of its own behind it. From byte
`stop` on the text goes on with `following`. -/
def Draft.write (w : Draft) (text : Text) (start stop : Nat) (block following : Text)
    (report : Report) : Scan Draft := do
  let out := w.out ++ (← slice w.last start text)
  return ⟨out ++ onOwnLines (endsLine true out) block following, stop, report⟩

/-- Follows one directive of a text. -/
def followAt (sources : Sources) (limits : Limits) (dir : Text) (chain : List Text)
    (nested : ExpanderAt) (text : Text) (w : Draft) (d : Located Directive) : Scan Draft := do
  let path ← targetAt dir d.value.argument
  match sourceOf? sources path with
  | none => return { w with report := w.report ++ { missing := [path] } }
  | some source =>
    let following ← sliceFrom d.stop text
    let cost := charge path source
    if path ∈ chain then
      let report := w.report ++ { skipped := [path] }
      w.write text d.start d.stop (Marker.skipped path) following report
    else if limits.maxBytes < w.report.spliced + cost then
      return { w with report := w.report ++ { exhausted := true } }
    else
      let (body, report) ← nested path source (w.report ++ { included := [path], spliced := cost })
      w.write text d.start d.stop (block path body) following report

/-- Expands the text of a file and of those it includes, so many levels deep. -/
def expandAt (sources : Sources) (limits : Limits) :
    (levels : Nat) → (chain : List Text) → ExpanderAt
  | 0, _ => fun _ text report => return (text, report ++ { depthLimited := true })
  | levels + 1, chain => fun path text report => do
    let step := followAt sources limits (← directoryAt path) (path :: chain)
      (expandAt sources limits levels (path :: chain)) text
    let w ← (← directives text).foldlM step ⟨[], 0, report⟩
    return (w.out ++ (← sliceFrom w.last text), w.report)

/-- Expands the text of the file at `path`. -/
def expandRoot (sources : Sources) (limits : Limits) (path text : Text) : Scan Expansion := do
  let (text, report) ← expandAt sources limits (limits.maxDepth + 1) [] path text {}
  return ⟨text, report⟩

/-! ## What a draft comes to -/

/-- A draft at byte `n` of a text, in front of `rest`. The text passed over since the last copy is
part of what it comes to. -/
def Draft.Reaches (w : Draft) (text : Text) (n : Nat) (written rest : Text) : Prop :=
  ∃ front passed, text = front ++ (passed ++ rest) ∧ w.last = Text.size front ∧
    n = Text.size front + Text.size passed ∧ written = w.out ++ passed

namespace Draft.Reaches

variable {w : Draft} {n : Nat} {written l rest : Text}

theorem pass (h : w.Reaches text n written (l ++ rest)) :
    w.Reaches text (n + Text.size l) (written ++ l) rest := by
  obtain ⟨front, passed, htext, hlast, hn, hwritten⟩ := h
  refine ⟨front, passed ++ l, ?_, hlast, ?_, ?_⟩
  · rw [htext, List.append_assoc]
  · rw [hn, Text.size_append, Nat.add_assoc]
  · rw [hwritten, List.append_assoc]

theorem sliceFrom_eq (h : w.Reaches text n written rest) : sliceFrom n text = .ok rest := by
  obtain ⟨front, passed, htext, -, hn, -⟩ := h
  refine sliceFrom_of_eq (a := front ++ passed) (by rw [htext, List.append_assoc]) ?_
  rw [hn, Text.size_append]

/-- Text that is left is copied in the end. -/
theorem copy_eq (h : w.Reaches text n written rest) :
    ∃ more, sliceFrom w.last text = .ok more ∧ w.out ++ more = written ++ rest := by
  obtain ⟨front, passed, htext, hlast, -, hwritten⟩ := h
  exact ⟨passed ++ rest, sliceFrom_of_eq htext hlast, by rw [hwritten, List.append_assoc]⟩

theorem write_eq (h : w.Reaches text n written (l ++ rest)) (block : Text) (report : Report) :
    ∃ w', w.write text n (n + Text.size l) block rest report = .ok w' ∧ w'.report = report ∧
      w'.Reaches text (n + Text.size l)
        (written ++ onOwnLines (endsLine true written) block rest) rest := by
  obtain ⟨front, passed, htext, hlast, hn, hwritten⟩ := h
  have hslice : slice w.last n text = .ok passed := slice_of_eq htext hlast (hlast ▸ hn)
  have hplace : n + Text.size l = Text.size (front ++ passed ++ l) := by
    rw [hn, Text.size_append, Text.size_append]
  refine ⟨⟨written ++ onOwnLines (endsLine true written) block rest, n + Text.size l, report⟩, ?_,
    rfl, front ++ passed ++ l, [], ?_, hplace, hplace, (List.append_nil _).symm⟩
  · rw [write, hslice, ok_bind, ← hwritten]
    rfl
  · rw [htext]
    simp

end Draft.Reaches

/-! ## What the expander does -/

variable {w : Draft} {n : Nat} {written rest : Text}

/-- Following a directive writes what expansion puts in its place, given that the files it means are
expanded as expansion does. -/
theorem followAt_reaches (limits : Limits) (dir : Text) (chain : List Text)
    (hnested : ∀ path source report, sourceOf? sources path = some source →
      nestedAt path source report =
        .ok ((nested path source report.spliced).text,
          report ++ (nested path source report.spliced).report))
    {l : Text} (h : w.Reaches text n written (l ++ rest)) (d : Directive) {here : Expansion}
    (hhere : follow sources limits chain nested (Path.target dir d.argument) l rest
      (endsLine true written) w.report.spliced = here) :
    ∃ w', followAt sources limits dir chain nestedAt text w ⟨n, n + Text.size l, d⟩ = .ok w' ∧
      w'.report = w.report ++ here.report ∧
        w'.Reaches text (n + Text.size l) (written ++ here.text) rest := by
  simp only [followAt, targetAt_eq, ok_bind]
  generalize Path.target dir d.argument = path at hhere ⊢
  cases hsource : sourceOf? sources path with
  | none =>
    rw [follow_missing hsource] at hhere
    subst hhere
    exact ⟨_, rfl, rfl, h.pass⟩
  | some source =>
    simp only [h.pass.sliceFrom_eq, ok_bind]
    by_cases hchain : path ∈ chain
    · rw [follow_skipped hsource hchain] at hhere
      subst hhere
      simp only [if_pos hchain]
      exact h.write_eq _ _
    · by_cases hbudget : limits.maxBytes < w.report.spliced + charge path source
      · rw [follow_exhausted hsource hchain hbudget] at hhere
        subst hhere
        simp only [if_neg hchain, if_pos hbudget]
        exact ⟨_, rfl, rfl, h.pass⟩
      · rw [follow_spliced hsource hchain (Nat.le_of_not_lt hbudget)] at hhere
        subst hhere
        simp only [if_neg hchain, if_neg hbudget, hnested _ _ _ hsource, ok_bind,
          Report.spliced_append, Report.append_assoc]
        exact h.write_eq _ _

/-- Following the directives of a text in turn, and copying what is left then, writes what expansion
writes. -/
theorem foldlM_followAt (limits : Limits) (dir : Text) (chain : List Text)
    (hnested : ∀ path source report, sourceOf? sources path = some source →
      nestedAt path source report =
        .ok ((nested path source report.spliced).text,
          report ++ (nested path source report.spliced).report))
    {s : Segments Directive} (h : w.Reaches text n written s.text) {e : Expansion}
    (he : splice sources limits dir chain nested s (endsLine true written) w.report.spliced = e) :
    ∃ w' rest, (s.locate n).foldlM (followAt sources limits dir chain nestedAt text) w = .ok w' ∧
      sliceFrom w'.last text = .ok rest ∧ w'.out ++ rest = written ++ e.text ∧
        w'.report = w.report ++ e.report := by
  induction s generalizing w n written e with
  | tail t =>
    subst he
    obtain ⟨rest, hrest, hout⟩ := h.copy_eq
    exact ⟨w, rest, rfl, hrest, hout, (Report.append_empty _).symm⟩
  | found before l d s ih =>
    rw [Segments.text, List.append_assoc] at h
    rw [splice, ← endsLine_append] at he
    obtain ⟨w', hfollow, hreport, hreaches⟩ :=
      followAt_reaches limits dir chain hnested h.pass d rfl
    simp only [← endsLine_append, ← Report.spliced_append, ← hreport] at he
    obtain ⟨w'', left, hfold, hcopy, hout, hreport'⟩ := ih hreaches rfl
    subst he
    refine ⟨w'', left, ?_, hcopy, ?_, ?_⟩
    · simp only [Segments.locate, List.foldlM_cons, hfollow, ok_bind, hfold]
    · rw [hout]
      simp
    · rw [hreport', hreport, Report.append_assoc]

/-- Texts of less than 4 GiB are expanded, whatever has been reported before. -/
theorem expandAt_eq (hsources : ∀ f ∈ sources, Text.size f.2 < UInt32.size) (levels : Nat)
    (path : Text) (htext : Text.size text < UInt32.size) (report : Report) {e : Expansion}
    (he : expand sources limits levels chain path text report.spliced = e) :
    expandAt sources limits levels chain path text report = .ok (e.text, report ++ e.report) := by
  induction levels generalizing chain path text report e with
  | zero =>
    subst he
    rfl
  | succ levels ih =>
    have hnested : ∀ file source report, sourceOf? sources file = some source →
        expandAt sources limits levels (path :: chain) file source report =
          .ok ((expand sources limits levels (path :: chain) file source report.spliced).text,
            report ++ (expand sources limits levels (path :: chain) file source
              report.spliced).report) :=
      fun file source report hsource =>
        ih file (hsources _ (mem_of_sourceOf? hsource)) report rfl
    have hstart : Draft.Reaches ⟨[], 0, report⟩ text 0 [] (Source.directives text).text :=
      ⟨[], [], (Source.text_directives text).symm, rfl, rfl, rfl⟩
    obtain ⟨w, rest, hfold, hcopy, hout, hreport⟩ :=
      foldlM_followAt limits (Path.directory path) (path :: chain) hnested hstart he
    simp only [expandAt, directives_eq htext, directoryAt_eq, ok_bind, hfold, hcopy, hout, hreport]
    rfl

theorem expandRoot_eq (hsources : ∀ f ∈ sources, Text.size f.2 < UInt32.size) (path : Text)
    (htext : Text.size text < UInt32.size) :
    expandRoot sources limits path text = .ok (ofRoot sources limits path text) := by
  rw [expandRoot, expandAt_eq hsources _ path htext {} rfl, ok_bind, Report.empty_append]
  rfl

/-! ## All scanners -/

/-- No text of less than 4 GiB stops a scanner: whatever characters it holds, all slices are cut where
characters end, all bytes that are looked at are there, all ranges are in order, and each round of a
loop comes nearer to the end. What is found is what is found in the text itself. -/
theorem scanners_eq_ok {t : Text} (ht : Text.size t < UInt32.size)
    (hsources : ∀ f ∈ sources, Text.size f.2 < UInt32.size) (limits : Limits) (path : Text) :
    located t = .ok (Bibliography.located t) ∧
      directives t = .ok ((Source.directives t).locate 0) ∧
      figureKeys t = .ok (Source.figureKeys t) ∧
      citedKeys t = .ok (Source.citedKeys t) ∧
      expandRoot sources limits path t = .ok (ofRoot sources limits path t) :=
  ⟨located_eq ht, directives_eq ht, figureKeys_eq t, citedKeys_eq t, expandRoot_eq hsources path ht⟩

/-- A text in which characters of more than one byte stand in front of, inside of and behind whatever
is looked for. -/
theorem scanners_eq_ok_wide :
    let sources : Sources := [("ä.tex", "ñ")]
    let t : Text := "ß @misc\x7bü, x = \"é\"\x7d\n" ++
      "\\includegraphics\x7bassets/ç\x7d% \\input\x7bö\x7d\n\\cite\x7bü\x7d \\input\x7bä\x7d."
    Text.size t = 84 ∧ (∀ f ∈ sources, Text.size f.2 < UInt32.size) ∧
      (∃ entries, located t = .ok entries ∧
        entries.map (fun e => (e.start, e.stop, e.value)) =
          [(3, 22, ⟨"misc", "ü", [("x", "é")]⟩)]) ∧
      (∃ found, directives t = .ok found ∧
        found.map (fun d => (d.start, d.stop, d.value)) = [(73, 83, ⟨.input, "ä"⟩)]) ∧
      figureKeys t = .ok ["ç"] ∧ citedKeys t = .ok ["ü"] ∧
      ∃ e, expandRoot sources {} "m.tex" t = .ok e ∧ e.report.included = ["ä.tex"] := by
  intro sources t
  have ht : Text.size t = 84 := by decide +kernel
  have hsources : ∀ f ∈ sources, Text.size f.2 < UInt32.size := by decide +kernel
  obtain ⟨hlocated, hdirectives, hfigures, hcited, hexpand⟩ :=
    scanners_eq_ok (t := t) (ht ▸ by decide) hsources {} "m.tex"
  have hkeys : Source.figureKeys t = ["ç"] := by
    have hnone : Source.figuresBy Source.Figure.readDetokenized? t = [] :=
      List.isEmpty_iff.1 (by decide +kernel)
    rw [Source.figureKeys, hnone, List.nil_merge]
    decide +kernel
  refine ⟨ht, hsources, ⟨_, hlocated, ?_⟩, ⟨_, hdirectives, ?_⟩, hfigures.trans (congrArg _ hkeys),
    hcited.trans (congrArg _ ?_), _, hexpand, ?_⟩
  all_goals decide +kernel

end TexBundle.Offsets
