/-! Line numbers of byte positions, looked up in the increasing list of the newlines' positions. -/

namespace CodeOutline.Text

/-- Byte positions of the newlines of a text that starts at byte `position`, after those in `found`. -/
def newlinesFrom (position : Nat) (found : Array Nat) : List Char → Array Nat
  | [] => found
  | c :: rest =>
    newlinesFrom (position + c.utf8Size) (if c = '\n' then found.push position else found) rest

structure LineIndex where
  newlines : Array Nat

namespace LineIndex

def ofText (text : List Char) : LineIndex := ⟨newlinesFrom 0 #[] text⟩

/-- Halves `[low, low + width)` until it is empty: everything before it lies before `position`,
nothing after it does. -/
def countBefore (newlines : Array Nat) (position low width : Nat) : Nat :=
  if width = 0 then low
  else
    let half := width / 2
    match newlines[low + half]? with
    | none => low
    | some newline =>
      if newline < position then countBefore newlines position (low + half + 1) (width - half - 1)
      else countBefore newlines position low half
termination_by width
decreasing_by all_goals omega

/-- Lines are counted from one, in 32 bits. -/
def lineAt (index : LineIndex) (position : Nat) : UInt32 :=
  (countBefore index.newlines position 0 index.newlines.size + 1).toUInt32

end LineIndex

end CodeOutline.Text
