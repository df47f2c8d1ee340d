import TexBundle.Source.Figure
import TexBundle.Proofs.Text.Segments
import Mathlib.Data.List.TakeWhile

/-!
# Keys of figures

* `isKeyChar_of_mem_figureKeys`: a key that is collected is not empty and has key characters only;
* `figureKeys_plain`: conversely, each such key is collected from a text that refers to it.
-/

namespace TexBundle.Source

/-! ## Every key is well formed -/

theorem Figure.isKeyChar_of_key? {t key rest : Text} (h : Figure.key? t = some (key, rest)) :
    key ≠ [] ∧ ∀ c ∈ key, isKeyChar c = true := by
  obtain ⟨u, -, h⟩ := Option.bind_eq_some_iff.1 h
  split at h
  · cases h
  · rename_i hne
    obtain ⟨rfl, rfl⟩ := Prod.mk.inj (Option.some.inj h)
    exact ⟨hne, fun c hc => List.mem_takeWhile_imp hc⟩

theorem Figure.isKeyChar_of_readPlain? {t key rest : Text}
    (h : Figure.readPlain? t = some (key, rest)) : key ≠ [] ∧ ∀ c ∈ key, isKeyChar c = true := by
  simp only [readPlain?, Option.bind_eq_bind, Option.bind_eq_some_iff, Option.pure_def,
    Option.some.injEq, Prod.mk.injEq] at h
  obtain ⟨_, -, _, -, ⟨k, u⟩, hkey, _, -, rfl, -⟩ := h
  exact isKeyChar_of_key? hkey

theorem Figure.isKeyChar_of_readDetokenized? {t key rest : Text}
    (h : Figure.readDetokenized? t = some (key, rest)) :
    key ≠ [] ∧ ∀ c ∈ key, isKeyChar c = true := by
  simp only [readDetokenized?, Option.bind_eq_bind, Option.bind_eq_some_iff, Option.pure_def,
    Option.some.injEq, Prod.mk.injEq] at h
  obtain ⟨_, -, _, -, _, -, _, -, ⟨k, u⟩, hkey, _, -, _, -, rfl, -⟩ := h
  exact isKeyChar_of_key? hkey

theorem exists_read?_of_mem_figuresBy {read? : Text → Option (Text × Text)} {source : Text}
    {l : Located Text} (h : l ∈ figuresBy read? source) :
    ∃ t rest, read? t = some (l.value, rest) := by
  have hv : l.value ∈ ((figuresBy read? source).map (·.value)) := List.mem_map_of_mem h
  rw [figuresBy, Segments.map_value_locate] at hv
  exact Segments.exists_read?_of_mem_values_cut (Segments.mem_values_of_mem_filter hv)

theorem isKeyChar_of_mem_figureKeys {source key : Text} (h : key ∈ figureKeys source) :
    key ≠ [] ∧ ∀ c ∈ key, isKeyChar c = true := by
  rw [figureKeys, List.mem_eraseDups] at h
  obtain ⟨l, hl, rfl⟩ := List.mem_map.1 h
  rcases List.mem_merge.1 hl with hl | hl
  · obtain ⟨t, rest, hread⟩ := exists_read?_of_mem_figuresBy hl
    exact Figure.isKeyChar_of_readDetokenized? hread
  · obtain ⟨t, rest, hread⟩ := exists_read?_of_mem_figuresBy hl
    exact Figure.isKeyChar_of_readPlain? hread

/-! ## Every well-formed key is found -/

/-- A reference to a stored figure, without anything that may be left out. -/
def Figure.plain (key : Text) : Text :=
  "\\includegraphics" ++ '\x7b' :: (figurePrefix ++ (key ++ ['\x7d']))

theorem trimStart_figurePrefix_append (t : Text) :
    Text.trimStart (figurePrefix ++ t) = figurePrefix ++ t := by
  have hhead : (figurePrefix ++ t).head? = some 'a' := rfl
  refine Text.trimStart_eq_self_iff.2 fun c hc => ?_
  obtain rfl := Option.some.inj (hhead.symm.trans hc)
  decide

theorem Figure.head?_includegraphics (t : Text) :
    Figure.head? ("\\includegraphics" ++ '\x7b' :: t) = some ('\x7b' :: t) := by
  rw [head?, Text.stripPrefix?_eq_some_iff.2 rfl]
  rfl

theorem Figure.key?_append {key : Text} (hne : key ≠ []) (h : ∀ c ∈ key, isKeyChar c = true)
    (t : Text) : Figure.key? (figurePrefix ++ (key ++ '\x7d' :: t)) = some (key, '\x7d' :: t) := by
  have htake : (key ++ '\x7d' :: t).takeWhile isKeyChar = key := by
    rw [List.takeWhile_append_of_pos h, List.takeWhile_cons_of_neg (by decide), List.append_nil]
  have hdrop : (key ++ '\x7d' :: t).dropWhile isKeyChar = '\x7d' :: t := by
    rw [List.dropWhile_append_of_pos h, List.dropWhile_cons_of_neg (by decide)]
  rw [key?, Text.stripPrefix?_eq_some_iff.2 rfl]
  simp only [Option.bind_eq_bind, Option.bind_some, htake, hdrop, if_neg hne]

theorem Figure.readPlain?_plain {key : Text} (hne : key ≠ []) (h : ∀ c ∈ key, isKeyChar c = true) :
    Figure.readPlain? (plain key) = some (key, []) := by
  unfold plain
  rw [readPlain?, head?_includegraphics]
  simp only [Option.bind_eq_bind, Option.bind_some, openBrace?, trimStart_figurePrefix_append,
    key?_append hne h]
  rfl

theorem Figure.head?_eq_none {u : Text} (h : '\\' ∉ u) : Figure.head? u = none := by
  have hstrip : Text.stripPrefix? "\\includegraphics" u = none := by
    refine Option.eq_none_iff_forall_ne_some.2 fun r hr => h ?_
    rw [Text.stripPrefix?_eq_some_iff.1 hr]
    exact List.mem_append_left r (by decide)
  rw [head?, hstrip]
  rfl

theorem Figure.not_mem_tail_plain {key : Text} (h : '\\' ∉ key) : '\\' ∉ (plain key).tail := by
  have htail : (plain key).tail =
      "includegraphics" ++ '\x7b' :: (figurePrefix ++ (key ++ ['\x7d'])) := rfl
  have hprefix : '\\' ∉ figurePrefix := by decide
  simp [htail, hprefix, h]

/-- No figure with `\detokenize` stands in a text with one command, which has none. -/
theorem Figure.readDetokenized?_suffix_plain {key u : Text} (h : '\\' ∉ key)
    (hu : u <:+ plain key) : Figure.readDetokenized? u = none := by
  obtain ⟨front, hfront⟩ := hu
  cases front with
  | nil =>
    obtain rfl : u = plain key := hfront
    have hdetokenize :
        Text.stripPrefix? "\\detokenize" (figurePrefix ++ (key ++ ['\x7d'])) = none := rfl
    unfold plain
    rw [readDetokenized?, head?_includegraphics]
    simp only [Option.bind_eq_bind, Option.bind_some, openBrace?, trimStart_figurePrefix_append,
      hdetokenize, Option.bind_none]
  | cons c front =>
    have htail : front ++ u = (plain key).tail := congrArg List.tail hfront
    have hmem : '\\' ∉ u := fun hm =>
      not_mem_tail_plain h (htail ▸ List.mem_append_right front hm)
    rw [readDetokenized?, head?_eq_none hmem]
    rfl

/-- Without figures of one form, there is nothing to merge. -/
theorem figureKeys_of_nil {source : Text} (h : figuresBy Figure.readDetokenized? source = []) :
    figureKeys source = ((figuresBy Figure.readPlain? source).map (·.value)).eraseDups := by
  rw [figureKeys, h, List.nil_merge]

/-- A key is collected from the text that refers to it, and no other is. -/
theorem figureKeys_plain {key : Text} (hne : key ≠ []) (h : ∀ c ∈ key, isKeyChar c = true)
    (hslash : '\\' ∉ key) : figureKeys (Figure.plain key) = [key] := by
  have hdetokenized : Segments.cut Figure.readDetokenized? (Figure.plain key) =
      .tail (Figure.plain key) :=
    Segments.cut_eq_tail fun u hu _ => Figure.readDetokenized?_suffix_plain hslash hu
  have hplain : Segments.cut Figure.readPlain? (Figure.plain key) =
      .found [] (Figure.plain key) key (.tail []) :=
    Segments.cut_eq_found (List.cons_ne_nil _ _) (Figure.readPlain?_plain hne h)
  have hnone : figuresBy Figure.readDetokenized? (Figure.plain key) = [] := by
    rw [figuresBy, hdetokenized]
    rfl
  rw [figureKeys_of_nil hnone, figuresBy, hplain]
  rfl

end TexBundle.Source
