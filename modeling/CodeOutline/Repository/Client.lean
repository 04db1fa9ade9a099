import CodeOutline.Base64
import CodeOutline.Config.Basic
import CodeOutline.Http.Exchange
import CodeOutline.Json.Record
import CodeOutline.Language
import CodeOutline.Repository.Reference

/-! Reading a repository through GitHub's interface: its tree of files and the content of one file. -/

namespace CodeOutline.Repository

inductive Failure where
  | invalidUrl (url : String)
  | status (code : Nat) (message : String)
  | network
  | unreadable
  | undecodable (path : String) (flaw : Base64.Flaw)
deriving DecidableEq, Repr

/-- The text of a failure, where it does not depend on how a library words it. -/
def Failure.message? : Failure → Option String
  | invalidUrl url => some ("Invalid GitHub URL: " ++ url)
  | status code message => some ("GitHub API returned error: " ++ toString code ++ " - " ++ message)
  | network => none
  | unreadable => none
  | undecodable path flaw => some ("Could not decode content of " ++ path ++ ": " ++ flaw.message)

structure Client where
  apiUrl : String
  token : Option String
deriving DecidableEq, Repr

/-- A file as the tree lists it, with its size in bytes where that is known. -/
structure Listed where
  path : String
  size : Option Nat
deriving DecidableEq, Repr

/-- An entry of the tree: a file, a folder or something else. -/
structure TreeEntry where
  path : String
  kind : String
  size : Option Nat
deriving DecidableEq, Repr

namespace Client

def make (apiUrl : String) (token : Option String) : Client := ⟨Text.dropTrailing '/' apiUrl, token⟩

def ofConfig (config : Config.Repository) : Client := make config.apiUrl config.token

def headers (c : Client) : List (String × String) :=
  [("user-agent", Config.userAgent), ("accept", "application/vnd.github+json")]
    ++ (c.token.map fun token => ("authorization", "Bearer " ++ token)).toList

def base (c : Client) (r : Reference) : String := c.apiUrl ++ "/repos/" ++ r.owner ++ "/" ++ r.name

def treeUrl (c : Client) (r : Reference) (branch : String) : String :=
  c.base r ++ "/git/trees/" ++ branch ++ "?recursive=1"

def contentsUrl (c : Client) (r : Reference) (path branch : String) : String :=
  c.base r ++ "/contents/" ++ path ++ "?ref=" ++ branch

def readReply (response : Option Http.Response) : Except Failure Json :=
  match response with
  | none => .error .network
  | some response =>
    if !response.isSuccess then .error (.status response.status response.text)
    else
      match response.json? with
      | some json => .ok json
      | none => .error .unreadable

def getJson (c : Client) (url : String) : Http.Online (Except Failure Json) := do
  return readReply (← Http.request .get url c.headers none)

/-- The path has to end in a supported extension, in small letters, after its last dot. -/
def isCodePath (path : String) : Bool :=
  match Text.cutLast? '.' path.toList with
  | some (_, extension) => Language.supportedExtensions.contains (String.ofList extension)
  | none => false

def sizeLimit : Nat := UInt64.size

def entryOfJson? (j : Json) : Option TreeEntry := do
  match ← j.fields? ["path", "type", "size"] with
  | [some path, some kind, size] =>
    return ⟨← path.text?, ← kind.text?, ← Json.optional? (Json.nat? sizeLimit) size⟩
  | _ => none

def bool? : Json → Option Bool
  | .bool b => some b
  | _ => none

def treeOfJson? (j : Json) : Option (List TreeEntry) := do
  match ← j.fields? ["tree", "truncated"] with
  | [some tree, truncated] =>
    match truncated with
    | some flag => let _ ← bool? flag
    | none => pure ()
    tree.list? entryOfJson?
  | _ => none

/-- Everything that is not a folder and has the path of a code file, in the order of the tree. -/
def listed (entries : List TreeEntry) : List Listed :=
  (entries.filter fun e => e.kind ≠ "tree" && isCodePath e.path).map fun e => ⟨e.path, e.size⟩

def readTree (reply : Except Failure Json) : Except Failure (List Listed) := do
  match treeOfJson? (← reply) with
  | some entries => return listed entries
  | none => .error .unreadable

def fetchTree (c : Client) (r : Reference) (branch : String) : Http.Online (Except Failure (List Listed)) := do
  return readTree (← c.getJson (c.treeUrl r branch))

def isAsciiSpace (b : UInt8) : Bool := b == 0x20 || b == 9 || b == 10 || b == 12 || b == 13

/-- The text of a file whose bytes come as base64, with white space anywhere in it. -/
def decodeContent (path content : String) : Except Failure String :=
  match Base64.decode ((Text.Utf8.encode content).filter (!isAsciiSpace ·)) with
  | .ok bytes => .ok (String.ofList (Text.Utf8.decodeLossy bytes))
  | .error flaw => .error (.undecodable path flaw)

/-- Content that is missing is empty. -/
def contentOfJson? (j : Json) : Option String := do
  match ← j.fields? ["content"] with
  | [some content] => content.text?
  | [none] => some ""
  | _ => none

def readContents (path : String) (reply : Except Failure Json) : Except Failure String := do
  match contentOfJson? (← reply) with
  | some content => decodeContent path content
  | none => .error .unreadable

def fetchFile (c : Client) (r : Reference) (path branch : String) : Http.Online (Except Failure String) := do
  return readContents path (← c.getJson (c.contentsUrl r path branch))

end Client

end CodeOutline.Repository
