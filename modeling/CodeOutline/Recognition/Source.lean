import CodeOutline.Element
import CodeOutline.Pattern.Build
import CodeOutline.Text.LineIndex

/-! A text under recognition, and how the matches of a pattern in it become elements. -/

namespace CodeOutline

structure Source where
  text : List Char
  lines : Text.LineIndex

/-- A match: the line it starts on and the texts of its groups. -/
structure Sighting where
  line : UInt32
  groups : List (List Char)

namespace Sighting

/-- The text of the first group. -/
def name (s : Sighting) : String := String.ofList (s.groups.headD [])

def element (kind : Element.Kind) (s : Sighting) : Element := ⟨kind, s.name, s.line⟩

/-- Keeps the first sighting of each name that is not among `seen`. -/
def firstOfEachName (seen : List String) : List Sighting → List Sighting
  | [] => []
  | s :: rest =>
    if s.name ∈ seen then firstOfEachName seen rest
    else s :: firstOfEachName (s.name :: seen) rest

end Sighting

namespace Source

def ofText (text : List Char) : Source := ⟨text, Text.LineIndex.ofText text⟩

def sightings (source : Source) (p : Pattern) : List Sighting :=
  (p.occurrences source.text).map fun o => ⟨source.lines.lineAt o.position, o.groups⟩

def elements (source : Source) (kind : Element.Kind) (p : Pattern) : List Element :=
  (source.sightings p).map (·.element kind)

/-- Elements with distinct names, none of them reserved. Earlier patterns go before later ones. -/
def distinctElements (source : Source) (kind : Element.Kind) (reserved : List String)
    (ps : List Pattern) : List Element :=
  (Sighting.firstOfEachName reserved (ps.flatMap source.sightings)).map (·.element kind)

end Source

end CodeOutline
