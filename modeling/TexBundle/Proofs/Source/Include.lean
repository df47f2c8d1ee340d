import TexBundle.Source.Include
import TexBundle.Proofs.Text.Segments

/-!
# Texts with few directives

* `directives_append`: a directive in front of more text, which is cut on its own unless the
  directive leaves a comment or a backslash open;
* `directives_eq_found`: a directive that is the whole text;
* `directives_of_not_mem`: a text without any.
-/

namespace TexBundle.Source

variable {d : Directive} {l rest : Text}

theorem directives_nil : directives [] = .tail [] := by
  rw [directives, Segments.cut]
  rfl

theorem directives_append (hl : l ≠ []) (h : Directive.read? (l ++ rest) = some (d, rest))
    (hplain : LineState.plain.after l = .plain) :
    directives (l ++ rest) = .found [] l d (directives rest) := by
  rw [directives, Segments.cut_of_read? hl h, uncommented, Segments.filter, LineState.after_nil]
  simp only [hplain, directives, uncommented]
  rfl

theorem directives_eq_found (hl : l ≠ []) (h : Directive.read? l = some (d, []))
    (hplain : LineState.plain.after l = .plain) :
    directives l = .found [] l d (.tail []) := by
  have hfound := directives_append hl (by rwa [List.append_nil]) hplain
  rwa [List.append_nil, directives_nil] at hfound

theorem Directive.read?_backslash {c : Char} {t : Text} (h : c ≠ '\\') :
    Directive.read? (c :: t) = none := by
  rw [Directive.read?]
  intro u hu
  exact h (List.cons.inj hu).1

/-- A source without commands has no directives. -/
theorem directives_of_not_mem {source : Text} (h : '\\' ∉ source) :
    directives source = .tail source := by
  rw [directives, Segments.cut_eq_tail_of_not_mem Directive.read?_backslash h]
  rfl

end TexBundle.Source
