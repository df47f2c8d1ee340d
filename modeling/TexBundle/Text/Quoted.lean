import TexBundle.Text.Basic
import TexBundle.Text.Quoted.Table

/-!
# Quoted texts

How a text is shown inside a message: in double quotes, with everything escaped that would not be
seen as it is.
-/

namespace TexBundle.Text

/-- A character as it is shown inside quotes. -/
def quotedChar (c : Char) : Text :=
  match c with
  | '\x00' => "\\0"
  | '\t' => "\\t"
  | '\n' => "\\n"
  | '\r' => "\\r"
  | '"' => "\\\""
  | '\\' => "\\\\"
  | c =>
    if c.toNat < 0x20 || hiddenRanges.any (·.has c) then
      "\\u\x7b" ++ Nat.toDigits 16 c.toNat ++ "\x7d"
    else [c]

def quoted (t : Text) : Text := "\"" ++ t.flatMap quotedChar ++ "\""

end TexBundle.Text
