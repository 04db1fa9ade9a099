import CodeOutline.Ignore.Level

/-! The ignore rules that a user has set for all repositories. -/

namespace CodeOutline.Ignore.User

open Text

/-- The folder of the user's settings; a relative one counts from the working folder. -/
def configFolder? (env : Environment) : Option String :=
  match (env.get? "XDG_CONFIG_HOME").filter (· ≠ "") with
  | some folder => some folder
  | none => (env.get? "HOME").map (Path.join · ".config")

def isAsciiBlank (c : Option Char) : Bool :=
  c.any fun c => c == ' ' || c == '\t' || c == '\n' || c == '\r' || c.toNat == 11 || c.toNat == 12

def skipBlanks (cs : List (Option Char)) : List (Option Char) := cs.dropWhile isAsciiBlank

def sameLetter (a : Char) (b : Option Char) : Bool := b.any fun b => a.toLower == b.toLower

/-- Takes off a word written in any case. -/
def dropWord? : List Char → List (Option Char) → Option (List (Option Char))
  | [], cs => some cs
  | _ :: _, [] => none
  | a :: word, c :: cs => if sameLetter a c then dropWord? word cs else none

def dropQuote : List (Option Char) → List (Option Char)
  | some '"' :: cs => cs
  | cs => cs

/-- Whether a line may end here: nothing but blanks, and one quote among them, up to its end. -/
def endsLine (cs : List (Option Char)) : Bool :=
  let blanks := cs.takeWhile isAsciiBlank
  let rest := cs.drop blanks.length
  rest.isEmpty || blanks.contains (some '\n') ||
    (rest.head? == some (some '"') &&
      (let blanks := (rest.drop 1).takeWhile isAsciiBlank
       (rest.drop (1 + blanks.length)).isEmpty || blanks.contains (some '\n')))

/-- The setting's value: text without blanks, perhaps in quotes, that fills its line. -/
def value? (cs : List (Option Char)) : Option (List (Option Char)) :=
  let cs := skipBlanks (dropQuote (skipBlanks cs))
  let token := cs.takeWhile (!isAsciiBlank ·)
  let rest := cs.drop token.length
  if token.isEmpty then none
  else if 2 ≤ token.length ∧ token.getLast? = some (some '"') ∧ endsLine (some '"' :: rest) then
    some token.dropLast
  else if endsLine rest then some token
  else none

def settingAt? (cs : List (Option Char)) : Option (List (Option Char)) := do
  let cs ← dropWord? "excludesfile".toList (skipBlanks cs)
  let cs ← dropWord? ['='] (skipBlanks cs)
  value? cs

/-- The first setting that begins a line. -/
def findSetting? (atLineStart : Bool) : List (Option Char) → Option (List (Option Char))
  | [] => none
  | c :: rest =>
    match if atLineStart then settingAt? (c :: rest) else none with
    | some value => some value
    | none => findSetting? (c == some '\n') rest

/-- A tilde stands for the home folder wherever it occurs. -/
def expandTilde (env : Environment) (path : List Char) : String :=
  match env.get? "HOME" with
  | some home => String.ofList (path.flatMap fun c => if c = '~' then home.toList else [c])
  | none => String.ofList path

/-- The file of ignore rules that a settings file names. -/
def excludesFile? (d : Disk) (env : Environment) (settings : String) : Option String :=
  match d.read settings with
  | .ok content => do return expandTilde env (← (← findSetting? true (Utf8.decode content)).mapM id)
  | .error _ => none

def rulesFile? (d : Disk) (env : Environment) : Option String :=
  (env.get? "HOME").bind (fun home => excludesFile? d env (Path.join home ".gitconfig")) <|>
  (configFolder? env).bind (fun folder => excludesFile? d env (Path.join folder "git/config")) <|>
  (configFolder? env).map (Path.join · "git/ignore")

/-- The rules count from the working folder. -/
def rules (d : Disk) (env : Environment) : Rules :=
  match rulesFile? d env with
  | some path => Rules.ofFile d (Disk.absolutePath d.current) path
  | none => .empty

end CodeOutline.Ignore.User
