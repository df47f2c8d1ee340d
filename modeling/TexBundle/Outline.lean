import TexBundle.Text.Basic

/-!
# Outlines

The content tree handed to a renderer: sections with children, and paragraphs.
-/

namespace TexBundle

inductive Outline where
  | heading (id title : Text) (level : UInt8) (children : List Outline)
  | paragraph (text : Text)
deriving Repr

end TexBundle
