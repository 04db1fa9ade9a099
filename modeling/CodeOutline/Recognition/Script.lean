import CodeOutline.Recognition.Source

/-! Recognition of scripts: JavaScript and TypeScript. -/

namespace CodeOutline.Recognition.Script

open Pattern

def exporting : Pattern := optional (all [text "export", someBlanks])

def asynchronous : Pattern := optional (all [text "async", someBlanks])

def functionDeclaration : Pattern :=
  all [exporting, asynchronous, text "function", someBlanks, name]

/-- `const f = function` or `let f = function`. -/
def boundFunction (binder : String) : Pattern :=
  all [exporting, text binder, someBlanks, name, blanks, text "=", blanks, asynchronous, text "function"]

/-- `const f = (...) =>` or `let f = (...) =>`. -/
def boundArrow (binder : String) : Pattern :=
  all [exporting, text binder, someBlanks, name, blanks, text "=", blanks, asynchronous, parenthesized,
    blanks, text "=>"]

def functionMember : Pattern :=
  all [name, blanks, text ":", blanks, asynchronous, text "function"]

def arrowMember : Pattern :=
  all [name, blanks, text ":", blanks, asynchronous, parenthesized, blanks, text "=>"]

/-- A name found by two of these is reported where the earlier one found it. -/
def functionPatterns : List Pattern := [
  functionDeclaration, boundFunction "const", boundArrow "const", boundFunction "let", boundArrow "let",
  functionMember, arrowMember]

/-- Names of the module system that the function patterns pick up. -/
def reserved : List String := ["require", "exports"]

def verbs : List String := ["get", "post", "put", "delete", "patch"]

def isQuote (c : Char) : Bool := "'\"`".toList.contains c

/-- `router.get('/path'`: the verb is the first group, the path the second. -/
def routeOf (object : String) : Pattern :=
  all [text object, text ".", group (anyOf (verbs.map text)), blanks, text "(", blanks, one isQuote,
    group (atLeastOne fun c => !isQuote c), one isQuote]

def routeElement (s : Sighting) : Element :=
  let path := String.ofList (s.groups.getD 1 [])
  ⟨.route, s.name.toUpper ++ " " ++ path, s.line⟩

def declaration (keyword : String) : Pattern := all [exporting, text keyword, someBlanks, name]

def moduleExport : Pattern := all [text "module.exports", blanks, text "=", blanks, name]

def routes (source : Source) : List Element :=
  ["router", "app"].flatMap fun object => (source.sightings (routeOf object)).map routeElement

def declarations (source : Source) : List Element :=
  source.distinctElements .function reserved functionPatterns ++
  routes source ++
  source.elements .classDecl (declaration "class") ++
  source.elements .interfaceDecl (declaration "interface") ++
  source.elements .typeDecl (declaration "type")

/-- What a module exports is reported only of a file without any declaration. -/
def scan (source : Source) : List Element :=
  match declarations source with
  | [] => source.elements .moduleExport moduleExport
  | found => found

end CodeOutline.Recognition.Script
