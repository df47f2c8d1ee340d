import TexBundle.Source.Citation

/-!
# Figure references

`\includegraphics` may refer to a stored figure as `{assets/key}` or as
`{\detokenize{assets/key}}`, which keeps underscores in the key intact. `figureKeys` collects the
keys of both forms outside comments, each once.

The two forms are looked for independently, because a figure of one form may stand in the optional
argument of the other; the keys come in the order in which their commands end.
-/

namespace TexBundle.Source

/-- The directory that every stored figure lies in. -/
def figurePrefix : Text := "assets/"

/-- Characters of a figure key. -/
def isKeyChar (c : Char) : Bool := !isBlank c && c != '{' && c != '}'

/-- The command name, star and optional argument that open a figure of either form. -/
def Figure.head? (t : Text) : Option Text :=
  (Text.stripPrefix? "\\includegraphics" t).map fun t => skipOption (skipStar t)

/-- `{`, blanks around it allowed behind it only. -/
def openBrace? : Text → Option Text
  | '{' :: t => some (Text.trimStart t)
  | _ => none

/-- `}` behind any blanks. -/
def closeBrace? (t : Text) : Option Text :=
  match Text.trimStart t with
  | '}' :: rest => some rest
  | _ => none

/-- The figure directory and a key that is not empty. -/
def Figure.key? (t : Text) : Option (Text × Text) := do
  let t ← Text.stripPrefix? figurePrefix t
  if t.takeWhile isKeyChar = [] then none else some (t.takeWhile isKeyChar, t.dropWhile isKeyChar)

def Figure.readPlain? (t : Text) : Option (Text × Text) := do
  let t ← openBrace? (← Figure.head? t)
  let (key, t) ← Figure.key? t
  return (key, ← closeBrace? t)

def Figure.readDetokenized? (t : Text) : Option (Text × Text) := do
  let t ← openBrace? (← Figure.head? t)
  let t ← Text.stripPrefix? "\\detokenize" t
  let t ← openBrace? (Text.trimStart t)
  let (key, t) ← Figure.key? t
  return (key, ← closeBrace? (← closeBrace? t))

/-- The figures of one form outside comments. -/
def figuresBy (read? : Text → Option (Text × Text)) (source : Text) : List (Located Text) :=
  (uncommented (.cut read? source)).locate 0

def figureKeys (source : Text) : List Text :=
  let detokenized := figuresBy Figure.readDetokenized? source
  let plain := figuresBy Figure.readPlain? source
  ((detokenized.merge plain fun a b => a.stop ≤ b.stop).map (·.value)).eraseDups

end TexBundle.Source
