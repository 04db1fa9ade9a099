import CodeOutline.Pattern.Basic
import CodeOutline.Text.Blank
import CodeOutline.Text.WordChar

/-! The pieces that declaration patterns are put together from. -/

namespace CodeOutline.Pattern

open Text

def text (s : String) : Pattern := literal s.toList

def all : List Pattern → Pattern
  | [] => literal []
  | [p] => p
  | p :: rest => seq p (all rest)

def anyOf : List Pattern → Pattern
  | [] => one fun _ => false
  | [p] => p
  | p :: rest => either p (anyOf rest)

def atLeastOne (set : Char → Bool) : Pattern := seq (one set) (run set)

def oneOrMore (body : Pattern) : Pattern := seq body (star body)

/-- White space of any kind, line ends included. -/
def blanks : Pattern := run isBlank

def someBlanks : Pattern := atLeastOne isBlank

def isTabOrSpace (c : Char) : Bool := c == ' ' || c == '\t'

def indent : Pattern := run isTabOrSpace

def gap : Pattern := atLeastOne isTabOrSpace

/-- Names are plain: a letter with an accent ends one. -/
def word : Pattern := atLeastOne isAsciiWord

def name : Pattern := group word

/-- From an opening mark to the first closing one; nesting is not followed. -/
def upToFirst (opening closing : Char) : Pattern :=
  all [one (· == opening), run (· != closing), one (· == closing)]

def parenthesized : Pattern := upToFirst '(' ')'

def wordEdge : Pattern := edge isWord

end CodeOutline.Pattern
