import CodeOutline.Recognition.Source

/-! Recognition of Java. A method is seen by its visibility; one without a return type is a
constructor and is passed over. -/

namespace CodeOutline.Recognition.Java

open Pattern

def modifiers (words : List String) : Pattern := star (all [anyOf (words.map text), someBlanks])

def classPattern : Pattern :=
  all [wordEdge, modifiers ["public", "private", "protected", "abstract", "final", "static", "sealed"],
    text "class", someBlanks, name]

def interfacePattern : Pattern :=
  all [wordEdge, modifiers ["public", "private", "protected", "abstract", "static", "sealed"],
    text "interface", someBlanks, name]

def isTypeChar (c : Char) : Bool := Text.isAsciiWord c || "<>[],.?".toList.contains c

def methodPattern : Pattern :=
  all [wordEdge, anyOf (["public", "private", "protected"].map text), someBlanks,
    optional (all [text "static", someBlanks]), optional (all [text "final", someBlanks]),
    oneOrMore (all [atLeastOne isTypeChar, someBlanks]), name, blanks, text "("]

/-- Words that stand where a method's name would. -/
def reserved : List String :=
  ["class", "interface", "enum", "if", "for", "while", "switch", "catch"]

def scan (source : Source) : List Element :=
  source.elements .classDecl classPattern ++
  source.elements .interfaceDecl interfacePattern ++
  source.distinctElements .function reserved [methodPattern]

end CodeOutline.Recognition.Java
