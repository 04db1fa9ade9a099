import CodeOutline.Text.Numeral
import CodeOutline.Text.Split
import CodeOutline.Text.Utf8

/-! Addresses of web resources and the request target that an address stands for. -/

namespace CodeOutline.Http

open Text

/-- An address in normal form: its path and query hold no character that has to be escaped. -/
structure Url where
  scheme : String
  authority : List Char
  path : List (List Char)
  query : Option (List Char)
deriving DecidableEq

namespace Url

def isSlash (c : Char) : Bool := c == '/' || c == '\\'

def isControl (c : Char) : Bool := c.toNat < 0x20

def isOutsideAscii (c : Char) : Bool := 0x7F ≤ c.toNat

def isEscapedInPath (c : Char) : Bool :=
  isControl c || isOutsideAscii c || " \"#<>?`\x7b\x7d".toList.contains c

def isEscapedInQuery (c : Char) : Bool :=
  isControl c || isOutsideAscii c || " \"#<>'".toList.contains c

def upperHex (n : Nat) : Char := "0123456789ABCDEF".toList.getD n '0'

def escapeByte (b : UInt8) : List Char := ['%', upperHex (b.toNat / 16), upperHex (b.toNat % 16)]

def escape (escaped : Char → Bool) (cs : List Char) : List Char :=
  cs.flatMap fun c => if escaped c then (Utf8.encodeChars [c]).flatMap escapeByte else [c]

/-- The bytes that a text with escapes stands for. -/
def unescape : List Char → List UInt8
  | '%' :: a :: b :: rest =>
    match hexDigit? a, hexDigit? b with
    | some high, some low => (high * 16 + low).toUInt8 :: unescape rest
    | _, _ => Utf8.encodeChars ['%'] ++ unescape (a :: b :: rest)
  | c :: rest => Utf8.encodeChars [c] ++ unescape rest
  | [] => []
termination_by cs => cs.length

def trimControls (cs : List Char) : List Char :=
  let drop := List.dropWhile fun c : Char => decide (c.toNat ≤ 0x20)
  (drop (drop cs).reverse).reverse

def isLineChar (c : Char) : Bool := c == '\t' || c == '\n' || c == '\r'

/-- A dot may be written as an escape. -/
def undot : List Char → List Char
  | '%' :: '2' :: 'e' :: rest => '.' :: undot rest
  | '%' :: '2' :: 'E' :: rest => '.' :: undot rest
  | c :: rest => c :: undot rest
  | [] => []

/-- The segments between slashes of either kind; there is always at least one. -/
def segments (cs : List Char) : List (List Char) :=
  splitAt '/' (cs.map fun c => if c = '\\' then '/' else c)

/-- Follows the segments: a dot stays, two dots go back by one, any other goes down. `passed` holds the
segments on the way, the last one first. -/
def resolve (passed : List (List Char)) : List (List Char) → List (List Char)
  | [] => passed.reverse
  | segment :: rest =>
    let back := undot segment = ['.', '.']
    let passed := if back then passed.drop 1 else passed
    if back ∨ undot segment = ['.'] then resolve (if rest = [] then [] :: passed else passed) rest
    else resolve (escape isEscapedInPath segment :: passed) rest

def isForbiddenInHost (c : Char) : Bool :=
  c.toNat ≤ 0x20 || c.toNat == 0x7F || "\"#%/:<>?@[\\]^`\x7b|\x7d".toList.contains c

/-- A host name, or an address in brackets. -/
def isHost (cs : List Char) : Bool :=
  match cs with
  | [] => false
  | '[' :: rest =>
    rest.getLast? == some ']' && rest.dropLast.all fun c => (hexDigit? c).isSome || c == ':' || c == '.'
  | _ => !cs.any isForbiddenInHost

/-- A service's number, which may be left out. -/
def isServiceNumber (cs : List Char) : Bool := cs.isEmpty || ((numeral? 10 cs).any (· < 65536))

/-- The part after the last `@` names a host and perhaps, after a colon, a service. -/
def isAuthority (cs : List Char) : Bool :=
  let place := match cutLast? '@' cs with
    | some (_, after) => after
    | none => cs
  match cutLast? ':' place with
  | some (host, service) => (isHost host && isServiceNumber service) || isHost place
  | none => isHost place

def parse? (address : String) : Option Url := do
  let cs := (trimControls address.toList).filter (!isLineChar ·)
  let (scheme, rest) ← cutFirst? ':' cs
  let scheme := (String.ofList scheme).toLower
  if !(scheme = "http" || scheme = "https") then none
  else
    let rest := rest.dropWhile isSlash
    let authority := rest.takeWhile fun c => !isSlash c && c != '?' && c != '#'
    let rest := rest.drop authority.length
    if !isAuthority authority then none
    else
      let withoutFragment := rest.takeWhile (· != '#')
      let path := withoutFragment.takeWhile (· != '?')
      let query := (cutFirst? '?' withoutFragment).map fun (_, query) => escape isEscapedInQuery query
      return ⟨scheme, authority, resolve [] (segments (path.drop 1)), query⟩

/-- What a request to this address asks its server for. -/
def target (u : Url) : String :=
  let path := u.path.flatMap ('/' :: ·)
  String.ofList (path ++ (u.query.map ('?' :: ·)).getD [])

end Url

end CodeOutline.Http
