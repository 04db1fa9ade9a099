/-! TOML values, and the tables of a document while it is read. How a table came to be decides whether
it may be added to. -/

namespace CodeOutline

namespace Toml

inductive Value where
  | text (s : String)
  | integer (i : Int)
  | float
  | bool (b : Bool)
  | moment
  | array (items : List Value)
  | table (entries : List (String × Value))

/-- How a table came to be: by a header or in braces, by a longer header, or by a dotted key. -/
inductive Origin where
  | declared
  | implied
  | dotted
deriving DecidableEq, Repr

/-- What a key stands for while the document is read: a complete value, a table, or the tables of an
array of tables, the last one first. -/
inductive Node where
  | value (v : Value)
  | table (origin : Origin) (entries : List (String × Node))
  | tables (entries : List (List (String × Node)))

abbrev Entries := List (String × Node)

namespace Entries

def find? (entries : Entries) (key : String) : Option Node :=
  (List.find? (·.1 == key) entries).map (·.2)

/-- Replaces the entry of a key, or adds one at the end. -/
def put (entries : Entries) (key : String) (node : Node) : Entries :=
  if entries.any (·.1 == key) then entries.map fun e => if e.1 == key then (key, node) else e
  else entries ++ [(key, node)]

/-- Changes the table at the end of a path, which may lead through arrays of tables to the last of
their tables. Missing tables are made with origin `made`. A dotted key does not lead into a table that
was declared, and nothing leads into a value. -/
def descend (made : Origin) (change : Origin → Entries → Option Entries) :
    List String → Origin → Entries → Option Entries
  | [], origin, entries => change origin entries
  | key :: path, _, entries =>
    match find? entries key with
    | none => do return put entries key (.table made (← descend made change path made []))
    | some (.value _) => none
    | some (.table origin inner) =>
      if made = .dotted ∧ origin = .declared then none
      else do return put entries key (.table origin (← descend made change path origin inner))
    | some (.tables []) => none
    | some (.tables (last :: before)) => do
      return put entries key (.tables ((← descend made change path .declared last) :: before))

/-- Adds a pair to the table that the header's path leads to. A dotted key ends in a table that dotted
keys made, a plain one in a table that they did not make. -/
def insertPair (header path : List String) (key : String) (v : Value) (entries : Entries) : Option Entries :=
  descend .implied (fun _ here =>
    descend .dotted (fun origin inner =>
      if (origin == .dotted) == path.isEmpty then none
      else if (find? inner key).isSome then none
      else some (inner ++ [(key, .value v)])) path .declared here) header .declared entries

/-- Declares the table of a header. One that longer headers have implied may be declared once. -/
def declare (path : List String) (key : String) (entries : Entries) : Option Entries :=
  descend .implied (fun _ here =>
    match find? here key with
    | none => some (here ++ [(key, .table .declared [])])
    | some (.table .implied inner) => some (put here key (.table .declared inner))
    | some _ => none) path .declared entries

/-- Adds a table to an array of tables. -/
def declareElement (path : List String) (key : String) (entries : Entries) : Option Entries :=
  descend .implied (fun _ here =>
    match find? here key with
    | none => some (here ++ [(key, .tables [[]])])
    | some (.tables before) => some (put here key (.tables ([] :: before)))
    | some _ => none) path .declared entries

end Entries

mutual

def Node.toValue : Node → Value
  | .value v => v
  | .table _ entries => .table (entriesValues entries)
  | .tables entries => .array (tablesValues entries).reverse

def entriesValues : List (String × Node) → List (String × Value)
  | [] => []
  | (key, node) :: rest => (key, node.toValue) :: entriesValues rest

def tablesValues : List (List (String × Node)) → List Value
  | [] => []
  | entries :: rest => .table (entriesValues entries) :: tablesValues rest

end

end Toml

end CodeOutline
