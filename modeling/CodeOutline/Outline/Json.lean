import CodeOutline.Json.Printer
import CodeOutline.Json.Reader
import CodeOutline.Json.Record
import CodeOutline.Outline

/-! Elements and outlines as JSON records. -/

namespace CodeOutline

namespace Element

def toJson (e : Element) : Json :=
  .record [("type", .ofText e.kind.label), ("name", .ofText e.name), ("line", .ofNat e.line.toNat)]

def ofJson? (j : Json) : Option Element := do
  match ← j.fields? ["type", "name", "line"] with
  | [some kind, some name, some line] =>
    return ⟨← Kind.ofLabel? (← kind.name?), ← name.text?, (← line.nat? UInt32.size).toUInt32⟩
  | _ => none

/-- The elements as an indented array. -/
def prettyList (elements : List Element) : String := (Json.array (elements.map toJson)).pretty

end Element

namespace Outline

def toJson (o : Outline) : Json :=
  .record [("file_path", .ofText o.path), ("elements", .array (o.elements.map Element.toJson))]

def ofJson? (j : Json) : Option Outline := do
  match ← j.fields? ["file_path", "elements"] with
  | [some path, some elements] => return ⟨← path.text?, ← elements.list? Element.ofJson?⟩
  | _ => none

def pretty (o : Outline) : String := o.toJson.pretty

def prettyList (outlines : List Outline) : String := (Json.array (outlines.map toJson)).pretty

end Outline

end CodeOutline
