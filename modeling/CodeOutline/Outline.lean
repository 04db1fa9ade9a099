import CodeOutline.Language

/-! The outline of a source file: its path and the elements found in it. -/

namespace CodeOutline

structure Outline where
  path : String
  elements : List Element
deriving DecidableEq, Repr

/-- How many elements of each kind there are. -/
structure Tally where
  functions : Nat
  classes : Nat
  interfaces : Nat
  types : Nat
  routes : Nat
  exports : Nat
deriving DecidableEq, Repr

namespace Tally

def ofElements (elements : List Element) : Tally :=
  let count kind := elements.countP (·.kind == kind)
  ⟨count .function, count .classDecl, count .interfaceDecl, count .typeDecl, count .route, count .moduleExport⟩

def total (t : Tally) : Nat :=
  t.functions + t.classes + t.interfaces + t.types + t.routes + t.exports

/-- Exports are mentioned only where there are some. -/
def render (t : Tally) : String :=
  let part (n : Nat) (noun : String) := toString n ++ " " ++ noun
  let parts := [part t.functions "functions", part t.classes "classes", part t.interfaces "interfaces",
    part t.types "types", part t.routes "routes"]
  ", ".intercalate (if t.exports > 0 then parts ++ [part t.exports "exports"] else parts)

end Tally

namespace Outline

def ofSource (path content : String) : Outline := ⟨path, (Language.ofPath path).scan content⟩

def isEmpty (o : Outline) : Bool := o.elements.isEmpty

def ofKind (o : Outline) (kind : Element.Kind) : List Element := o.elements.filter (·.kind = kind)

def find? (o : Outline) (name : String) : Option Element := o.elements.find? (·.name = name)

def tally (o : Outline) : Tally := Tally.ofElements o.elements

end Outline

theorem Tally.total_ofElements (elements : List Element) :
    (Tally.ofElements elements).total = elements.length := by
  induction elements with
  | nil => rfl
  | cons e rest ih =>
    obtain ⟨kind, name, line⟩ := e
    cases kind <;> simp_all [Tally.ofElements, Tally.total] <;> omega

end CodeOutline
