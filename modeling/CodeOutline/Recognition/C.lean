import CodeOutline.Recognition.Source

/-! Recognition of C and C++. A function counts where its body follows; a prototype does not. -/

namespace CodeOutline.Recognition.C

open Pattern

def classPattern : Pattern := all [lineStart, indent, text "class", someBlanks, name]

def structPattern : Pattern :=
  all [wordEdge, optional (all [text "typedef", someBlanks]), text "struct", someBlanks, name]

def isTypeChar (c : Char) : Bool := Text.isAsciiWord c || "*&:<>~".toList.contains c

def functionPattern : Pattern :=
  all [lineStart, oneOrMore (all [atLeastOne isTypeChar, gap]), run (· == '*'),
    star (all [word, text "::"]), group (all [optional (text "~"), word]), blanks, parenthesized, blanks,
    optional (all [text "const", blanks]), text "\x7b"]

/-- Keywords that fit the shape of a definition. -/
def reserved : List String :=
  ["if", "for", "while", "switch", "do", "return", "class", "struct", "namespace"]

def scan (source : Source) : List Element :=
  source.elements .classDecl classPattern ++
  source.elements .typeDecl structPattern ++
  source.distinctElements .function reserved [functionPattern]

end CodeOutline.Recognition.C
