/-! Splitting a text at a character. -/

namespace CodeOutline.Text

/-- The pieces between the occurrences of `mark`; there is always one more piece than marks. -/
def splitAt (mark : Char) : List Char → List (List Char)
  | [] => [[]]
  | c :: rest =>
    if c = mark then [] :: splitAt mark rest
    else
      match splitAt mark rest with
      | [] => [[c]]
      | piece :: pieces => (c :: piece) :: pieces

/-- What stands before and after the first occurrence of `mark`. -/
def cutFirst? (mark : Char) : List Char → Option (List Char × List Char)
  | [] => none
  | c :: rest =>
    if c = mark then some ([], rest)
    else (cutFirst? mark rest).map fun (before, after) => (c :: before, after)

/-- What stands before and after the last occurrence of `mark`. -/
def cutLast? (mark : Char) : List Char → Option (List Char × List Char)
  | [] => none
  | c :: rest =>
    match cutLast? mark rest with
    | some (before, after) => some (c :: before, after)
    | none => if c = mark then some ([], rest) else none

/-- What stands before and after the first occurrence of `marker`. -/
def cutText? (marker : List Char) : List Char → Option (List Char × List Char)
  | [] => if marker = [] then some ([], []) else none
  | c :: rest =>
    if marker.isPrefixOf (c :: rest) then some ([], (c :: rest).drop marker.length)
    else (cutText? marker rest).map fun (before, after) => (c :: before, after)

def dropTrailing (mark : Char) (s : String) : String :=
  String.ofList (s.toList.reverse.dropWhile (· == mark)).reverse

theorem cutFirst?_eq_some {mark : Char} {cs before after : List Char}
    (h : cutFirst? mark cs = some (before, after)) : cs = before ++ mark :: after := by
  induction cs generalizing before with
  | nil => simp [cutFirst?] at h
  | cons c rest ih =>
    unfold cutFirst? at h
    split at h
    · grind
    · obtain ⟨⟨_, _⟩, hcut, heq⟩ := Option.map_eq_some_iff.1 h
      obtain ⟨rfl, rfl⟩ := Prod.mk.inj heq
      simp [ih hcut]

theorem cutLast?_eq_some {mark : Char} {cs before after : List Char}
    (h : cutLast? mark cs = some (before, after)) : cs = before ++ mark :: after := by
  induction cs generalizing before with
  | nil => simp [cutLast?] at h
  | cons c rest ih =>
    unfold cutLast? at h
    split at h <;> grind

end CodeOutline.Text
