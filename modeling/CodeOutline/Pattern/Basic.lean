/-! Patterns over texts. A pattern describes, for a place in a text, the places where a match that
starts there may end, in order of preference: the first alternative before the second, and more
repetitions before fewer. A run of characters is always taken as far as it goes. -/

namespace CodeOutline

/-- A place in a text: how many characters and bytes stand before it, the last of these characters and
the text after it. A newline is thought to stand before the whole text. -/
structure Cursor where
  index : Nat
  position : Nat
  before : Char
  rest : List Char

inductive Pattern where
  | literal (text : List Char)
  | one (set : Char → Bool)
  /-- All characters of the set that follow. -/
  | run (set : Char → Bool)
  | seq (first second : Pattern)
  | either (first second : Pattern)
  | optional (body : Pattern)
  | star (body : Pattern)
  /-- Remembers the text that its body matches. -/
  | group (body : Pattern)
  | lineStart
  /-- Holds between a character of the set and one outside it, the end of the text counting as outside. -/
  | edge (set : Char → Bool)

namespace Cursor

def start (text : List Char) : Cursor := ⟨0, 0, '\n', text⟩

def next? (c : Cursor) : Option (Char × Cursor) :=
  match c.rest with
  | [] => none
  | x :: rest => some (x, ⟨c.index + 1, c.position + x.utf8Size, x, rest⟩)

/-- The text from `c` up to a later place `stop` of the same text. -/
def textTo (c stop : Cursor) : List Char := c.rest.take (stop.index - c.index)

def skip? (c : Cursor) : List Char → Option Cursor
  | [] => some c
  | x :: text =>
    match c.next? with
    | some (y, later) => if x = y then later.skip? text else none
    | none => none

/-- The place after all characters of `set` that follow. -/
def passFrom (set : Char → Bool) (index position : Nat) (before : Char) : List Char → Cursor
  | [] => ⟨index, position, before, []⟩
  | x :: rest =>
    if set x then passFrom set (index + 1) (position + x.utf8Size) x rest
    else ⟨index, position, before, x :: rest⟩

def pass (c : Cursor) (set : Char → Bool) : Cursor := passFrom set c.index c.position c.before c.rest

end Cursor

/-- One way to match: where it ends, and the start and end of each group passed on the way. -/
structure Match where
  groups : List (Cursor × Cursor)
  stop : Cursor

namespace Match

def groupTexts (m : Match) : List (List Char) := m.groups.map fun g => g.1.textTo g.2

end Match

namespace Pattern

/-- Repeats `step` at most once for each element of `budget`, more repetitions first; `shorter`
holds the matches with fewer repetitions. -/
def repeated (step : Cursor → List Match) : List Char → Match → List Match → List Match
  | [], m, shorter => m :: shorter
  | _ :: budget, m, shorter =>
    (step m.stop).foldr (fun further tail => repeated step budget ⟨m.groups ++ further.groups, further.stop⟩ tail)
      (m :: shorter)

def atEdge (set : Char → Bool) (c : Cursor) : Bool :=
  set c.before != c.rest.head?.any set

def atLineStart (c : Cursor) : Bool := c.before == '\n'

def matchesAt : Pattern → Cursor → List Match
  | literal text, c => (c.skip? text).toList.map fun stop => ⟨[], stop⟩
  | one set, c =>
    match c.next? with
    | some (x, stop) => if set x then [⟨[], stop⟩] else []
    | none => []
  | run set, c => [⟨[], c.pass set⟩]
  | seq first second, c =>
    (first.matchesAt c).flatMap fun m =>
      (second.matchesAt m.stop).map fun n => ⟨m.groups ++ n.groups, n.stop⟩
  | either first second, c => first.matchesAt c ++ second.matchesAt c
  | optional body, c => body.matchesAt c ++ [⟨[], c⟩]
  | star body, c => repeated body.matchesAt c.rest ⟨[], c⟩ []
  | group body, c => (body.matchesAt c).map fun m => ⟨(c, m.stop) :: m.groups, m.stop⟩
  | lineStart, c => if atLineStart c then [⟨[], c⟩] else []
  | edge set, c => if atEdge set c then [⟨[], c⟩] else []

/-- The preferred match that starts exactly at `c`. -/
def matchAt? (p : Pattern) (c : Cursor) : Option Match := (p.matchesAt c).head?

/-- A match of a pattern in a text: where it starts and what its groups hold. -/
structure Occurrence where
  position : Nat
  groups : List (List Char)

/-- Looks for a match at `c` and, where there is none, at every later place in turn. After a match
the search goes on at its end. Each step leaves a character behind, so `budget` may be any list that
is as long as the text after `c`. -/
def occurrencesFrom (p : Pattern) : List Char → Cursor → List Occurrence
  | [], c => ((p.matchAt? c).map fun m => ⟨c.position, m.groupTexts⟩).toList
  | _ :: budget, c =>
    match p.matchAt? c with
    | some m => ⟨c.position, m.groupTexts⟩ :: occurrencesFrom p budget m.stop
    | none =>
      match c.next? with
      | some (_, later) => occurrencesFrom p budget later
      | none => []

/-- All matches in a text, from left to right, none overlapping the one before. -/
def occurrences (p : Pattern) (text : List Char) : List Occurrence :=
  occurrencesFrom p text (Cursor.start text)

end Pattern

end CodeOutline
