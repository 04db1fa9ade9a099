import CodeOutline.Recognition.Source

/-! Recognition of Python: definitions at any depth of indentation. -/

namespace CodeOutline.Recognition.Python

open Pattern

def functionPattern : Pattern :=
  all [lineStart, indent, optional (all [text "async", gap]), text "def", gap, name, indent, text "("]

def classPattern : Pattern :=
  all [lineStart, indent, text "class", gap, name, indent, optional parenthesized, indent, text ":"]

def scan (source : Source) : List Element :=
  source.elements .function functionPattern ++ source.elements .classDecl classPattern

end CodeOutline.Recognition.Python
