/-! Elements: the declarations and routes found in a source file. -/

namespace CodeOutline

namespace Element

inductive Kind where
  | function
  | classDecl
  | interfaceDecl
  | typeDecl
  | route
  | moduleExport
deriving DecidableEq, Repr

namespace Kind

def every : List Kind := [function, classDecl, interfaceDecl, typeDecl, route, moduleExport]

def label : Kind → String
  | function => "function"
  | classDecl => "class"
  | interfaceDecl => "interface"
  | typeDecl => "type"
  | route => "route"
  | moduleExport => "export"

def ofLabel? (s : String) : Option Kind := every.find? (·.label == s)

theorem ofLabel?_label (k : Kind) : ofLabel? k.label = some k := by
  cases k <;> decide

end Kind

end Element

structure Element where
  kind : Element.Kind
  name : String
  line : UInt32
deriving DecidableEq, Repr

end CodeOutline
