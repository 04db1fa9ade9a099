import CodeOutline.Path
import CodeOutline.Recognition.C
import CodeOutline.Recognition.Go
import CodeOutline.Recognition.Java
import CodeOutline.Recognition.Python
import CodeOutline.Recognition.Script

/-! The languages whose declarations are recognized, chosen by a file's extension. -/

namespace CodeOutline

inductive Language where
  | script
  | python
  | java
  | go
  | c
deriving DecidableEq, Repr

namespace Language

def every : List Language := [script, python, java, go, c]

def extensions : Language → List String
  | script => ["ts", "tsx", "js", "jsx"]
  | python => ["py"]
  | java => ["java"]
  | go => ["go"]
  | c => ["c", "cpp"]

def name : Language → String
  | script => "JavaScript/TypeScript"
  | python => "Python"
  | java => "Java"
  | go => "Go"
  | c => "C/C++"

def supportedExtensions : List String := every.flatMap extensions

/-- Letters of the basic alphabet are compared without case. -/
def ofExtension? (extension : String) : Option Language :=
  every.find? fun language => language.extensions.contains extension.toLower

/-- A file of an unknown kind is read as a script. -/
def ofExtension (extension : String) : Language := (ofExtension? extension).getD script

def ofPath (path : String) : Language := ((Path.suffix? path).map ofExtension).getD script

def recognize : Language → Source → List Element
  | script => Recognition.Script.scan
  | python => Recognition.Python.scan
  | java => Recognition.Java.scan
  | go => Recognition.Go.scan
  | c => Recognition.C.scan

def scan (language : Language) (content : String) : List Element :=
  language.recognize (Source.ofText content.toList)

theorem ofExtension?_mem {extension : String} {language : Language} (h : ofExtension? extension = some language) :
    extension.toLower ∈ language.extensions := by
  simpa using List.find?_some h

end Language

end CodeOutline
