import TexBundle.Text.Segments

/-!
# Line comments

A `%` starts a comment that ends with its line, unless a backslash escapes it; a backslash escapes
the next backslash too. `LineState` is what a reader has to remember of the line so far.

* `isCommented`: whether a position is inside a comment, given the text before it;
* `uncommented`: drops the occurrences of a pattern that start inside a comment.
-/

namespace TexBundle.Source

inductive LineState where
  | plain
  | escaped
  | comment
deriving DecidableEq, Repr

namespace LineState

def step : LineState → Char → LineState
  | _, '\n' => plain
  | comment, _ => comment
  | plain, '\\' => escaped
  | plain, '%' => comment
  | _, _ => plain

/-- The state behind a piece of text. -/
def after (st : LineState) (t : Text) : LineState := t.foldl step st

@[simp] theorem after_nil (st : LineState) : st.after [] = st := rfl

@[simp] theorem after_cons (st : LineState) (c : Char) (t : Text) :
    st.after (c :: t) = (st.step c).after t := rfl

@[simp] theorem after_append (st : LineState) (s t : Text) :
    st.after (s ++ t) = (st.after s).after t := by
  simp [after]

end LineState

/-- Whether the end of `before` lies inside a comment. -/
def isCommented (before : Text) : Bool := LineState.plain.after before == .comment

/-- Whether byte `pos` of a text lies inside a comment; no answer if no character starts or ends
there. -/
def isCommentedAt? (text : Text) (pos : Nat) : Option Bool :=
  (text.takeBytes? pos).map isCommented

/-- The occurrences that do not start inside a comment. -/
def uncommented {α : Type} (s : Segments α) : Segments α :=
  s.filter LineState.after (· != .comment) .plain

theorem text_uncommented {α : Type} (s : Segments α) : (uncommented s).text = s.text :=
  Segments.text_filter ..

end TexBundle.Source
