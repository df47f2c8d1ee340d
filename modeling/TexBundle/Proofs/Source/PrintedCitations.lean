import TexBundle.Proofs.Source.Printed
import TexBundle.Proofs.Text.Cutting

/-!
# Printed citations

Citation commands one after the other, each with a list of keys.

* `PrintedCitation`: the ways to write a citation;
* `isCiteName_iff`: the names of citation commands;
* `keysOfList_list`: the keys of a list as it is written;
* `citedKeys_textOf`: the keys of printed citations.
-/

namespace TexBundle

namespace Text

/-- Pieces without separators are cut apart again. -/
theorem splitBy_intercalate {c : Char} {pieces : List Text} (hne : pieces ≠ [])
    (h : ∀ piece ∈ pieces, c ∉ piece) :
    splitBy (· == c) ([c].intercalate pieces) = pieces := by
  rw [splitBy_eq_splitOnP]
  exact List.splitOn_intercalate c h hne

end Text

namespace Source

/-- A citation command. The pieces of its list are keys with blanks around them, or blank. -/
structure PrintedCitation where
  name : Text
  star : PrintedStar := {}
  options : List PrintedOption := []
  pieces : List Text
  name_letters : name.all Char.isAlpha = true := by decide
  name_cite : "cite" <:+: name ∨ "Cite" <:+: name := by decide
  options_le : options.length ≤ 2 := by decide
  pieces_chars : ∀ piece ∈ pieces, piece.all (· ∉ ['{', '}', ',', '%', '\\']) = true := by decide

namespace PrintedCitation

variable (c : PrintedCitation)

def list : Text := [','].intercalate c.pieces

/-- What stands behind the name of the command. -/
def body : Text :=
  c.star.text ++ (PrintedOption.textOf c.options ++ '{' :: (c.list ++ ['}']))

def text : Text := '\\' :: (c.name ++ c.body)

/-- The keys of a citation, in order. Blank ones and the star are no keys. -/
def keys : List Text := (c.pieces.map Text.trim).filter fun key => key ≠ [] ∧ key ≠ ['*']

theorem isCiteName_iff {name : Text} :
    isCiteName name = true ↔ "cite" <:+: name ∨ "Cite" <:+: name := by
  rw [isCiteName, Bool.or_eq_true, Text.includes_iff, Text.includes_iff]

theorem not_mem_of_mem_pieces {piece : Text} (hpiece : piece ∈ c.pieces) {x : Char}
    (hx : x ∈ piece) : x ∉ ['{', '}', ',', '%', '\\'] :=
  of_decide_eq_true (List.all_eq_true.1 (c.pieces_chars piece hpiece) x hx)

theorem not_mem_list {x : Char} (hx : x ∈ ['{', '}', '%', '\\']) : x ∉ c.list := by
  refine Text.not_mem_intercalate ?_ fun piece hpiece hmem =>
    c.not_mem_of_mem_pieces hpiece hmem (List.Sublist.subset ?_ hx)
  · rintro rfl
    exact absurd hx (by decide)
  · decide

theorem inert_body : Inert c.body := by
  have hlist : Inert c.list := ⟨c.not_mem_list (by decide), c.not_mem_list (by decide)⟩
  simp [body, c.star.inert_text, PrintedOption.inert_textOf, hlist, inert_nil]

theorem percent_not_mem_text : '%' ∉ c.text := by
  have hname : '%' ∉ c.name := fun h =>
    absurd (List.all_eq_true.1 c.name_letters '%' h) (by decide)
  simp [text, hname, c.inert_body.2]

theorem body_append (t : Text) :
    c.body ++ t = c.star.text ++ (PrintedOption.textOf c.options ++ '{' :: (c.list ++ '}' :: t)) := by
  simp [body]

/-- The list is read behind everything that may stand in front of it. -/
theorem argument?_body (t : Text) :
    argument? ((skipOption ∘ skipOption) ∘ skipStar) (· != '}') (c.body ++ t) =
      some (c.list, t) := by
  have htail : c.options.tail.tail = [] := by
    have hle := c.options_le
    refine List.eq_nil_of_length_eq_zero ?_
    rw [List.length_tail, List.length_tail]
    omega
  have hpass : ((skipOption ∘ skipOption) ∘ skipStar) (c.body ++ t) =
      '{' :: (c.list ++ '}' :: t) := by
    rw [body_append, Function.comp_apply, Function.comp_apply,
      c.star.skipStar_text (PrintedOption.opensArgument_textOf _ _),
      PrintedOption.skipOption_textOf, PrintedOption.skipOption_textOf, htail]
    rfl
  obtain ⟨htake, hdrop⟩ := span_append_cons (p := (· != '}')) (c := '}') (l := c.list)
    (fun x hx => bne_iff_ne.2 (ne_of_mem_of_not_mem hx (c.not_mem_list (by decide))))
    (by decide) t
  simp only [argument?, hpass, hdrop, htake]

theorem read?_text (t : Text) : Citation.read? (c.text ++ t) = some (c.list, t) := by
  have hend : ∀ x, (c.body ++ t).head? = some x → x.isAlpha = false := fun x hx =>
    c.star.not_isAlpha_of_head? (PrintedOption.opensArgument_textOf _ _) (c.body_append t ▸ hx)
  obtain ⟨htake, hdrop⟩ := span_append (List.all_eq_true.1 c.name_letters) hend
  have htext : c.text ++ t = '\\' :: (c.name ++ (c.body ++ t)) := by simp [text]
  rw [citation_eq, htext]
  simp only [Text.stripPrefix?, if_true, Option.bind_some, Citation.named?, htake, hdrop,
    Option.filter_some, isCiteName_iff.2 c.name_cite, argument?_body]

end PrintedCitation

theorem citation_backslash {c : Char} {t : Text} (h : c ≠ '\\') : Citation.read? (c :: t) = none := by
  rw [citation_eq]
  exact stripPrefix?_bind_eq_none _ h

theorem finds_citation :
    Finds PrintedCitation.text Citation.read? (fun _ => true) PrintedCitation.list where
  backslash := citation_backslash
  ne_nil _ := List.cons_ne_nil _ _
  found {c} t _ := c.read?_text t
  passed _ h := absurd h Bool.noConfusion

theorem keysOfList_list (c : PrintedCitation) : keysOfList c.list = c.keys := by
  by_cases hne : c.pieces = []
  · rw [PrintedCitation.list, PrintedCitation.keys, hne]
    rfl
  · have hpieces : ∀ piece ∈ c.pieces, ',' ∉ piece := fun piece hpiece hmem =>
      c.not_mem_of_mem_pieces hpiece hmem (by decide)
    rw [keysOfList, PrintedCitation.list, Text.splitBy_intercalate hne hpieces]
    rfl

/-- The keys of printed citations are found in order, each once. -/
theorem citedKeys_textOf (citations : List (Gap × PrintedCitation)) (ending : Gap) :
    citedKeys (textOf PrintedCitation.text citations ending.1) =
      (citations.flatMap (·.2.keys)).eraseDups := by
  have hclear : '%' ∉ textOf PrintedCitation.text citations ending.1 :=
    percent_not_mem_textOf _ PrintedCitation.percent_not_mem_text citations ending
  have hvalues : (Segments.cut Citation.read?
      (textOf PrintedCitation.text citations ending.1)).values = citations.map (·.2.list) := by
    rw [← Segments.map_value_locate 0, finds_citation.locate_cut, List.filter_true,
      map_value_means]
  rw [citedKeys, uncommented_eq_self (by rwa [Segments.text_cut]), hvalues, List.flatMap_map]
  simp only [keysOfList_list]

set_option maxRecDepth 2000 in
/-- Two options, a star, the key that is none, and one key twice. -/
theorem citedKeys_textOf_three :
    let citations : List (Gap × PrintedCitation) := [
      (⟨"See ", by decide⟩,
        { name := "parencite", options := [⟨"see", ⟨" ", rfl⟩, by decide, by decide⟩,
            ⟨"12", ⟨[], rfl⟩, by decide, by decide⟩], pieces := ["b", " a"] }),
      (⟨" and ", by decide⟩, { name := "Citet", star := ⟨true, ⟨" ", rfl⟩⟩, pieces := [" a ", "c"] }),
      (⟨[], by decide⟩, { name := "nocite", pieces := ["*"] })]
    let t := textOf PrintedCitation.text citations "."
    t = "See \\parencite[see] [12]\x7bb, a\x7d and \\Citet* \x7b a ,c\x7d\\nocite\x7b*\x7d." ∧
      citedKeys t = ["b", "a", "c"] := by
  intro citations t
  exact ⟨rfl, (citedKeys_textOf citations ⟨".", by decide⟩).trans (by decide)⟩

end Source

end TexBundle
