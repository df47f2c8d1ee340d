import TexBundle.Text.Basic

/-!
# UTF-8

Texts as bytes. Bytes that are no text are read leniently: each sequence that breaks off becomes one
replacement character, and reading goes on with the byte that broke it.

* `encode`: the bytes of a text;
* `decode?`: the text of bytes, if they are one;
* `decodeLossy`: the text of any bytes.
-/

namespace TexBundle.Utf8

/-- The bytes of a text. -/
def encode (t : Text) : Bytes := t.flatMap String.utf8EncodeChar

/-- A sequence of which some bytes are still to come: how many after the next one, the value so far,
and the range of the next byte. -/
structure Pending where
  more : Nat
  value : Nat
  low : Nat
  high : Nat

/-- The characters that are complete behind a byte, and the sequence that is still open; `none` stands
for a sequence that breaks off. -/
abbrev Step := List (Option Char) × Option Pending

/-- What a byte starts. The ranges keep out overlong forms, surrogates, and values beyond the last
code point. -/
def start (b : UInt8) : Step :=
  let n := b.toNat
  if n < 0x80 then ([some (Char.ofNat n)], none)
  else if n < 0xC2 then ([none], none)
  else if n < 0xE0 then ([], some ⟨0, n - 0xC0, 0x80, 0xBF⟩)
  else if n = 0xE0 then ([], some ⟨1, 0, 0xA0, 0xBF⟩)
  else if n = 0xED then ([], some ⟨1, 13, 0x80, 0x9F⟩)
  else if n < 0xF0 then ([], some ⟨1, n - 0xE0, 0x80, 0xBF⟩)
  else if n = 0xF0 then ([], some ⟨2, 0, 0x90, 0xBF⟩)
  else if n < 0xF4 then ([], some ⟨2, n - 0xF0, 0x80, 0xBF⟩)
  else if n = 0xF4 then ([], some ⟨2, 4, 0x80, 0x8F⟩)
  else ([none], none)

/-- One byte behind a sequence that has been started, if any. -/
def step (pending : Option Pending) (b : UInt8) : Step :=
  match pending with
  | none => start b
  | some p =>
    if p.low ≤ b.toNat ∧ b.toNat ≤ p.high then
      let value := p.value * 64 + (b.toNat - 0x80)
      match p.more with
      | 0 => ([some (Char.ofNat value)], none)
      | more + 1 => ([], some ⟨more, value, 0x80, 0xBF⟩)
    else
      let (chars, pending) := start b
      (none :: chars, pending)

/-- The characters of bytes behind a sequence that has been started, if any. -/
def decodeFrom : Option Pending → Bytes → List (Option Char)
  | pending, [] => if pending.isSome then [none] else []
  | pending, b :: bs =>
    let (chars, pending) := step pending b
    chars ++ decodeFrom pending bs

def decodeChars (bytes : Bytes) : List (Option Char) := decodeFrom none bytes

/-- The text of bytes, if they are one. -/
def decode? (bytes : Bytes) : Option Text := (decodeChars bytes).mapM id

/-- The text of bytes, with replacement characters. -/
def decodeLossy (bytes : Bytes) : Text := (decodeChars bytes).map (·.getD '\ufffd')

end TexBundle.Utf8
