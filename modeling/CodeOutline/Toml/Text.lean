import CodeOutline.Text.Numeral

/-! Strings of TOML. Basic strings know escapes, literal ones do not; both may stand in three quotes and
then span lines. -/

namespace CodeOutline.Toml

open Text

def isBlank (c : Char) : Bool := c == ' ' || c == '\t'

/-- Text may hold any character but control characters, among which the tab is an exception. -/
def isTextChar (c : Char) : Bool := c == '\t' || (0x20 ≤ c.toNat && c.toNat != 0x7F)

/-- The text after an opening line end, which does not count. -/
def dropLineEnd : List Char → List Char
  | '\n' :: rest => rest
  | '\r' :: '\n' :: rest => rest
  | cs => cs

/-- What has been read of a basic string leaves open. -/
inductive BasicMode where
  | text
  /-- Quotes that end the string or belong to it. -/
  | quotes (count : Nat)
  | escape
  | unicode (missing value : Nat)
  /-- After a backslash at the end of a line all blanks and line ends are passed over. -/
  | gap (lineEnded : Bool)

def shortEscape? : Char → Option Char
  | 'b' => some (Char.ofNat 8)
  | 't' => some '\t'
  | 'n' => some '\n'
  | 'f' => some (Char.ofNat 12)
  | 'r' => some '\r'
  | '"' => some '"'
  | '\\' => some '\\'
  | _ => none

def scalar? (n : Nat) : Option Char := if n.isValidChar then some (Char.ofNat n) else none

/-- Text between single basic quotes; the opening one has been read. `read` holds what is read so far,
the last character first. -/
def basicText (mode : BasicMode) (read : List Char) : List Char → Option (String × List Char)
  | [] => none
  | c :: rest =>
    match mode with
    | .escape =>
      if c = 'u' then basicText (.unicode 4 0) read rest
      else if c = 'U' then basicText (.unicode 8 0) read rest
      else
        match shortEscape? c with
        | some e => basicText .text (e :: read) rest
        | none => none
    | .unicode missing value =>
      match hexDigit? c with
      | none => none
      | some d =>
        let value := value * 16 + d
        if 1 < missing then basicText (.unicode (missing - 1) value) read rest
        else
          match scalar? value with
          | some e => basicText .text (e :: read) rest
          | none => none
    | _ =>
      if c = '"' then some (String.ofList read.reverse, rest)
      else if c = '\\' then basicText .escape read rest
      else if isTextChar c then basicText .text (c :: read) rest
      else none

/-- Adds quotes that belong to the text. -/
def addQuotes (quote : Char) (count : Nat) (read : List Char) : List Char := List.replicate count quote ++ read

/-- Text between triple basic quotes. Up to two quotes directly before the closing ones belong to it. -/
def longBasicText (mode : BasicMode) (read : List Char) : List Char → Option (String × List Char)
  | [] =>
    match mode with
    | .quotes count =>
      if 3 ≤ count then some (String.ofList (addQuotes '"' (count - 3) read).reverse, []) else none
    | _ => none
  | c :: rest =>
    match mode with
    | .escape =>
      if c = 'u' then longBasicText (.unicode 4 0) read rest
      else if c = 'U' then longBasicText (.unicode 8 0) read rest
      else if isBlank c then longBasicText (.gap false) read rest
      else if c = '\n' then longBasicText (.gap true) read rest
      else if c = '\r' ∧ rest.head? = some '\n' then longBasicText (.gap false) read rest
      else
        match shortEscape? c with
        | some e => longBasicText .text (e :: read) rest
        | none => none
    | .unicode missing value =>
      match hexDigit? c with
      | none => none
      | some d =>
        let value := value * 16 + d
        if 1 < missing then longBasicText (.unicode (missing - 1) value) read rest
        else
          match scalar? value with
          | some e => longBasicText .text (e :: read) rest
          | none => none
    | .gap false =>
      if isBlank c ∨ (c = '\r' ∧ rest.head? = some '\n') then longBasicText (.gap false) read rest
      else if c = '\n' then longBasicText (.gap true) read rest
      else none
    | .gap true =>
      if isBlank c ∨ c = '\n' ∨ (c = '\r' ∧ rest.head? = some '\n') then longBasicText (.gap true) read rest
      else if c = '"' then longBasicText (.quotes 1) read rest
      else if c = '\\' then longBasicText .escape read rest
      else if isTextChar c then longBasicText .text (c :: read) rest
      else none
    | .quotes count =>
      if c = '"' then
        if count = 4 then some (String.ofList (addQuotes '"' 2 read).reverse, rest)
        else longBasicText (.quotes (count + 1)) read rest
      else if 3 ≤ count then some (String.ofList (addQuotes '"' (count - 3) read).reverse, c :: rest)
      else
        let read := addQuotes '"' count read
        if c = '\\' then longBasicText .escape read rest
        else if c = '\n' ∨ isTextChar c then longBasicText .text (c :: read) rest
        else if c = '\r' ∧ rest.head? = some '\n' then longBasicText .text read rest
        else none
    | .text =>
      if c = '"' then longBasicText (.quotes 1) read rest
      else if c = '\\' then longBasicText .escape read rest
      else if c = '\n' ∨ isTextChar c then longBasicText .text (c :: read) rest
      else if c = '\r' ∧ rest.head? = some '\n' then longBasicText .text read rest
      else none

def literalText (read : List Char) : List Char → Option (String × List Char)
  | [] => none
  | c :: rest =>
    if c = '\'' then some (String.ofList read.reverse, rest)
    else if isTextChar c then literalText (c :: read) rest
    else none

/-- Text between triple literal quotes; `quotes` of them have just been read. -/
def longLiteralText (quotes : Nat) (read : List Char) : List Char → Option (String × List Char)
  | [] =>
    if 3 ≤ quotes then some (String.ofList (addQuotes '\'' (quotes - 3) read).reverse, []) else none
  | c :: rest =>
    if c = '\'' then
      if quotes = 4 then some (String.ofList (addQuotes '\'' 2 read).reverse, rest)
      else longLiteralText (quotes + 1) read rest
    else if 3 ≤ quotes then some (String.ofList (addQuotes '\'' (quotes - 3) read).reverse, c :: rest)
    else
      let read := addQuotes '\'' quotes read
      if c = '\n' ∨ isTextChar c then longLiteralText 0 (c :: read) rest
      else if c = '\r' ∧ rest.head? = some '\n' then longLiteralText 0 read rest
      else none

/-- A string on one line, as keys may be. -/
def shortString? : List Char → Option (String × List Char)
  | '"' :: rest => basicText .text [] rest
  | '\'' :: rest => literalText [] rest
  | _ => none

def string? : List Char → Option (String × List Char)
  | '"' :: '"' :: '"' :: rest => longBasicText .text [] (dropLineEnd rest)
  | '\'' :: '\'' :: '\'' :: rest => longLiteralText 0 [] (dropLineEnd rest)
  | cs => shortString? cs

end CodeOutline.Toml
