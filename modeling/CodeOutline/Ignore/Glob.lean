import CodeOutline.Text.Utf8

/-! Globs, the patterns of ignore files. A star stays within one component of a path, two stars cross
any number of them. A path is matched byte by byte, each byte written as the character of its number. -/

namespace CodeOutline.Ignore

inductive Glob where
  | char (c : Char)
  | anyChar
  | star
  /-- Two stars at the beginning: any folders, or none. -/
  | deepStart
  /-- Two stars at the end: anything below. -/
  | deepEnd
  /-- Two stars between slashes: a slash, or folders with slashes around them. -/
  | deepMiddle
  | set (negated : Bool) (ranges : List (Char × Char))
  | choice (branches : List (List Glob))

namespace Glob

/-- A glob that is being read: the tokens of the branch under way, the last one first, and for each open
group, innermost first, its finished branches and the tokens before it. -/
structure Build where
  current : List Glob
  groups : List (List (List Glob) × List Glob)

/-- A set that is being read. -/
structure SetBuild where
  negated : Bool
  started : Bool
  inRange : Bool
  /-- The last one first. -/
  ranges : List (Char × Char)

/-- What the characters read so far have left open. Each star remembers the character before it. -/
inductive Mode where
  | plain (previous : Option Char)
  | star (previous : Option Char)
  | twoStars (previous : Option Char)
  | escape
  | set (content : SetBuild) (before : Build) (rest : List Char)

inductive Outcome where
  | invalid
  /-- The text ended inside a set, which began after `before` and in front of `rest`. -/
  | openSet (before : Build) (rest : List Char)
  | complete (glob : List Glob)

namespace Build

def empty : Build := ⟨[], []⟩

def push (b : Build) (g : Glob) : Build := { b with current := g :: b.current }

def openGroup (b : Build) : Build := ⟨[], ([], b.current) :: b.groups⟩

def nextBranch (b : Build) : Build :=
  match b.groups with
  | [] => b.push (.char ',')
  | (branches, outer) :: groups => ⟨[], (b.current.reverse :: branches, outer) :: groups⟩

def closeGroup? (b : Build) : Option Build :=
  match b.groups with
  | [] => none
  | (branches, outer) :: groups => some ⟨.choice (b.current.reverse :: branches).reverse :: outer, groups⟩

/-- Puts a deep star in the place of the slash before it; after another deep star it adds nothing. -/
def pushDeep (b : Build) (g : Glob) : Build :=
  match b.current with
  | .deepStart :: _ | .deepEnd :: _ => b
  | _ :: tokens => { b with current := g :: tokens }
  | [] => b.push g

def pushTwoStars (b : Build) : Build := (b.push .star).push .star

/-- What two stars mean depends on the characters around them. The second part tells whether the
following slash belongs to them. -/
def closeTwoStars (b : Build) (previous next : Option Char) : Build × Bool :=
  if b.current.isEmpty then
    match next with
    | none => (b.push .deepStart, false)
    | some '/' => (b.push .deepStart, true)
    | some _ => (b.pushTwoStars, false)
  else if previous ≠ some '/' ∧ (b.groups.isEmpty ∨ (previous ≠ some ',' ∧ previous ≠ some '\x7b')) then
    (b.pushTwoStars, false)
  else
    match next with
    | none => (b.pushDeep .deepEnd, false)
    | some '/' => (b.pushDeep .deepMiddle, true)
    | some c =>
      if (c = ',' ∨ c = '\x7d') ∧ ¬ b.groups.isEmpty then (b.pushDeep .deepEnd, false)
      else (b.pushTwoStars, false)

def finish (b : Build) : Outcome := if b.groups.isEmpty then .complete b.current.reverse else .invalid

end Build

namespace SetBuild

def empty : SetBuild := ⟨false, false, false, []⟩

def add (s : SetBuild) (c : Char) : SetBuild :=
  { s with started := true, inRange := false, ranges := (c, c) :: s.ranges }

/-- Makes `c` the end of the last range, which must not begin after it. -/
def endRange? (s : SetBuild) (c : Char) : Option SetBuild :=
  match s.ranges with
  | (first, _) :: ranges =>
    if c < first then none else some { s with inRange := false, ranges := (first, c) :: ranges }
  | [] => none

/-- A hyphen left at the end stands for itself. -/
def token (s : SetBuild) : Glob :=
  .set s.negated (if s.inRange then ('-', '-') :: s.ranges else s.ranges).reverse

/-- Adds a character other than the closing bracket. -/
def read? (s : SetBuild) (c : Char) : Option SetBuild :=
  if s.inRange then s.endRange? c
  else if c = '-' ∧ s.started then some { s with inRange := true }
  else some (s.add c)

end SetBuild

/-- Reads a character where nothing is open. Sets are read only where `sets` is on. -/
def readPlain (sets : Bool) (b : Build) (previous : Option Char) (c : Char) (rest : List Char) :
    Option (Mode × Build) :=
  if c = '*' then some (.star previous, b)
  else if c = '?' then some (.plain (some c), b.push .anyChar)
  else if c = '[' ∧ sets then some (.set .empty b rest, b)
  else if c = '\x7b' then some (.plain (some c), b.openGroup)
  else if c = '\x7d' then (b.closeGroup?).map fun b => (.plain (some c), b)
  else if c = ',' then some (.plain (some c), b.nextBranch)
  else if c = '\\' then some (.escape, b)
  else some (.plain (some c), b.push (.char c))

def readSet (s : SetBuild) (before : Build) (after : List Char) (c : Char) : Option (Mode × Build) :=
  if ¬ s.started ∧ ¬ s.negated ∧ (c = '!' ∨ c = '^') then
    some (.set { s with negated := true } before after, before)
  else if c = ']' ∧ s.started then some (.plain (some c), before.push s.token)
  else (s.read? c).map fun s => (.set s before after, before)

def readChar (sets : Bool) (mode : Mode) (b : Build) (c : Char) (rest : List Char) : Option (Mode × Build) :=
  match mode with
  | .plain previous => readPlain sets b previous c rest
  | .star previous =>
    if c = '*' then some (.twoStars previous, b)
    else readPlain sets (b.push .star) (some '*') c rest
  | .twoStars previous =>
    let (b, withSlash) := b.closeTwoStars previous (some c)
    if withSlash then some (.plain (some c), b) else readPlain sets b (some '*') c rest
  | .escape => some (.plain (some c), b.push (.char c))
  | .set s before after => readSet s before after c

def parseFrom (sets : Bool) (mode : Mode) (b : Build) : List Char → Outcome
  | [] =>
    match mode with
    | .plain _ => b.finish
    | .star _ => (b.push .star).finish
    | .twoStars previous => (b.closeTwoStars previous none).1.finish
    | .escape => .invalid
    | .set _ before rest => .openSet before rest
  | c :: rest =>
    match readChar sets mode b c rest with
    | some (mode, b) => parseFrom sets mode b rest
    | none => .invalid

/-- A bracket that opens a set without end stands for itself, and so do all after it. -/
def parse? (cs : List Char) : Option (List Glob) :=
  match parseFrom true (.plain none) .empty cs with
  | .complete glob => some glob
  | .invalid => none
  | .openSet before rest =>
    match parseFrom false (.plain (some '[')) (before.push (.char '[')) rest with
    | .complete glob => some glob
    | _ => none

/-! ## Matching -/

def byteChar (b : UInt8) : Char := Char.ofNat b.toNat

def byteChars (cs : List Char) : List Char := (Text.Utf8.encodeChars cs).map byteChar

/-- The bytes that a set names: both ends of its ranges byte by byte, and what lies between the last
byte of the first end and the first byte of the second. -/
def inRange (c : Char) (range : Char × Char) : Bool :=
  let first := byteChars [range.1]
  let last := byteChars [range.2]
  first.contains c || (range.1 ≠ range.2 &&
    (last.contains c || (first.getLast?.any (· ≤ c) && last.head?.any (c ≤ ·))))

/-- For each place of a text, the first before all of its characters, whether the part of a glob that has
been passed can end there. -/
abbrev Marks := List Bool

namespace Marks

def start (text : List Char) : Marks := true :: text.map fun _ => false

def union (a b : Marks) : Marks := List.zipWith or a b

/-- Moves each mark over one character of the set. -/
def step (set : Char → Bool) (text : List Char) (m : Marks) : Marks :=
  false :: List.zipWith (fun c marked => marked && set c) text m

/-- Moves marks over any number of characters of the set. `carried` tells whether one comes from the
place before. -/
def spreadFrom (set : Char → Bool) (carried : Bool) : List Char → Marks → Marks
  | c :: text, marked :: m => (marked || carried) :: spreadFrom set ((marked || carried) && set c) text m
  | _, m => m.map (· || carried)

def spread (set : Char → Bool) (text : List Char) (m : Marks) : Marks := spreadFrom set false text m

def slash (text : List Char) (m : Marks) : Marks := m.step (· == '/') text

def anything (text : List Char) (m : Marks) : Marks := m.spread (fun _ => true) text

def last (m : Marks) : Bool := m.getLast?.any id

end Marks

mutual

/-- The marks after a token of a glob. -/
def pass (text : List Char) : Glob → Marks → Marks
  | char c, m => (byteChars [c]).foldl (fun m b => m.step (· == b) text) m
  | anyChar, m => m.step (· != '/') text
  | star, m => m.spread (· != '/') text
  | deepStart, m => (m.union (m.slash text)).union ((m.anything text).slash text)
  | deepEnd, m => (m.slash text).anything text
  | deepMiddle, m => (m.slash text).union (((m.slash text).anything text).slash text)
  | set negated ranges, m => m.step (fun c => ranges.any (inRange c) != negated) text
  | choice branches, m => passAny text branches m

def passAll (text : List Char) : List Glob → Marks → Marks
  | [], m => m
  | g :: rest, m => passAll text rest (pass text g m)

/-- Empty branches do not count. -/
def passAny (text : List Char) : List (List Glob) → Marks → Marks
  | [], m => m
  | [] :: rest, m => passAny text rest m
  | branch :: rest, m =>
    if rest.all (·.isEmpty) then passAll text branch m
    else (passAll text branch m).union (passAny text rest m)

end

/-- Two stars alone match everything. -/
def matchesText : List Glob → List Char → Bool
  | [deepStart], _ => true
  | glob, text => (passAll text glob (.start text)).last

def isChar : Glob → Bool
  | char _ => true
  | _ => false

/-- Whether a glob spells out a whole path, perhaps below any folders. -/
def spellsPath : List Glob → Bool
  | deepStart :: rest => rest.all isChar && rest.any fun | char c => c == '/' | _ => false
  | glob => glob.all isChar

/-- A path that ends in a dot has no name and no extension to go by; only globs that end otherwise or
spell out the path reach it. -/
def reaches (glob : List Glob) (path : String) : Bool :=
  match path.toList.getLast?, glob.getLast? with
  | some '.', some (char '.') => spellsPath glob
  | _, _ => true

def matchesPath (glob : List Glob) (path : String) : Bool :=
  reaches glob path && matchesText glob (byteChars path.toList)

end Glob

end CodeOutline.Ignore
