import CodeOutline.Recognition.Source

/-! Recognition of Go: declarations that start in the first column. A struct is reported as a class,
and methods as functions. -/

namespace CodeOutline.Recognition.Go

open Pattern

def functionPattern : Pattern :=
  all [lineStart, text "func", someBlanks, optional (all [parenthesized, blanks]), name, blanks,
    optional (upToFirst '[' ']'), text "("]

def typeHead : Pattern := all [lineStart, text "type", someBlanks, name, someBlanks]

def structPattern : Pattern := all [typeHead, text "struct", wordEdge]

def interfacePattern : Pattern := all [typeHead, text "interface", wordEdge]

/-- The second group is the first token of the type's definition. -/
def typePattern : Pattern := all [typeHead, group (atLeastOne fun c => !Text.isBlank c)]

def definesPlainType (s : Sighting) : Bool :=
  let target := s.groups.getD 1 []
  !("struct".toList.isPrefixOf target || "interface".toList.isPrefixOf target)

def scan (source : Source) : List Element :=
  source.elements .function functionPattern ++
  source.elements .classDecl structPattern ++
  source.elements .interfaceDecl interfacePattern ++
  ((source.sightings typePattern).filter definesPlainType).map (·.element .typeDecl)

end CodeOutline.Recognition.Go
