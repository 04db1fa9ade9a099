import CodeOutline.Http.Url
import Mathlib.Data.List.Basic

/-! Addresses with the same start: whether they stand for a request does not depend on how they go on. -/

namespace CodeOutline.Http.Url

open Text

variable {before segment after : List Char}

/-- An address without the characters that do not count. -/
def cleaned (address : List Char) : List Char := (trimControls address).filter (!isLineChar ·)

def serverOf (cs : List Char) : List Char :=
  (cs.dropWhile isSlash).takeWhile fun c => !isSlash c && c != '?' && c != '#'

def isWebScheme (cs : List Char) : Bool := (String.ofList cs).toLower = "http" || (String.ofList cs).toLower = "https"

/-- Whether a text names a server of the web. -/
def namesServer (cs : List Char) : Bool :=
  match cutFirst? ':' cs with
  | some (scheme, rest) => isWebScheme scheme && isAuthority (serverOf rest)
  | none => false

lemma isSome_parse? (address : String) : (parse? address).isSome = namesServer (cleaned address.toList) := by
  simp only [parse?, namesServer, cleaned, isWebScheme, serverOf]
  cases cutFirst? ':' ((trimControls address.toList).filter (!isLineChar ·)) with
  | none => rfl
  | some parts =>
    obtain ⟨scheme, rest⟩ := parts
    simp only [Option.bind_eq_bind, Option.bind_some]
    grind

/-- A part of a path of which nothing gets lost in an address. -/
def IsSegment (cs : List Char) : Prop := cs ≠ [] ∧ ∀ c ∈ cs, isLineChar c = false ∧ isSlash c = false

lemma dropWhile_append_of_not {p : Char → Bool} {mark : Char} (hp : p mark = false) (before after : List Char) :
    (before ++ mark :: after).dropWhile p = before.dropWhile p ++ mark :: after := by
  rw [List.dropWhile_append]
  split
  · rename_i hempty
    rw [List.isEmpty_iff.mp hempty, List.dropWhile_cons, hp]
    rfl
  · rfl

/-- What counts of the beginning of an address. -/
def opening (before : List Char) : List Char :=
  (before.dropWhile fun c => decide (c.toNat ≤ 0x20)).filter (!isLineChar ·)

/-- What counts of the end of an address. -/
def ending (after : List Char) : List Char :=
  (after.reverse.dropWhile fun c => decide (c.toNat ≤ 0x20)).reverse.filter (!isLineChar ·)

lemma isLineChar_of_le {c : Char} (h : 0x20 ≤ c.toNat) : isLineChar c = false := by
  rw [Bool.eq_false_iff]
  intro hline
  simp only [isLineChar, Bool.or_eq_true, beq_iff_eq] at hline
  obtain (rfl | rfl) | rfl := hline <;> exact absurd h (by decide)

lemma ending_append {mark : Char} (hmark : 0x20 < mark.toNat) (before after : List Char) :
    ending (before ++ mark :: after) = before.filter (!isLineChar ·) ++ mark :: ending after := by
  have hreverse : (before ++ mark :: after).reverse = after.reverse ++ mark :: before.reverse := by simp
  rw [ending, hreverse, dropWhile_append_of_not (decide_eq_false (Nat.not_le.mpr hmark)), List.reverse_append,
    List.reverse_cons, List.reverse_reverse, List.append_assoc, List.singleton_append, List.filter_append,
    List.filter_cons_of_pos (by simp [isLineChar_of_le (Nat.le_of_lt hmark)]), ending]

lemma cleaned_append {mark : Char} (hmark : 0x20 < mark.toNat) (before after : List Char) :
    cleaned (before ++ mark :: after) = opening before ++ mark :: ending after := by
  have hdrop : (before ++ mark :: after).dropWhile (fun c => decide (c.toNat ≤ 0x20)) =
      before.dropWhile (fun c => decide (c.toNat ≤ 0x20)) ++ mark :: after :=
    dropWhile_append_of_not (decide_eq_false (Nat.not_le.mpr hmark)) before after
  change ending ((before ++ mark :: after).dropWhile _) = _
  rw [hdrop, ending_append hmark, opening]

lemma cutFirst?_append_slash (before after : List Char) :
    cutFirst? ':' (before ++ '/' :: after) = match cutFirst? ':' before with
      | some (scheme, rest) => some (scheme, rest ++ '/' :: after)
      | none => (cutFirst? ':' after).map fun (scheme, rest) => (before ++ '/' :: scheme, rest) := by
  induction before with
  | nil => simp [cutFirst?]
  | cons c rest ih =>
    by_cases hc : c = ':'
    · simp [cutFirst?, hc]
    · simp only [List.cons_append, cutFirst?, hc, if_false, ih]
      cases cutFirst? ':' rest <;> simp [Option.map_map, Function.comp_def]

lemma takeWhile_server_append (front after : List Char) :
    (front ++ '/' :: after).takeWhile (fun c => !isSlash c && c != '?' && c != '#') =
      front.takeWhile fun c => !isSlash c && c != '?' && c != '#' := by
  induction front with
  | nil => rfl
  | cons c rest ih => simp [List.takeWhile_cons, ih]

lemma serverOf_append (hsegment : IsSegment segment) (before after : List Char) :
    serverOf (before ++ '/' :: (segment ++ '/' :: after)) = serverOf (before ++ '/' :: (segment ++ ['/'])) := by
  have hdrop : ∀ after : List Char, ('/' :: (segment ++ '/' :: after)).dropWhile isSlash = segment ++ '/' :: after := by
    intro after
    obtain ⟨c, rest, rfl⟩ := List.exists_cons_of_ne_nil hsegment.1
    simp [(hsegment.2 c List.mem_cons_self).2, (by decide : isSlash '/' = true)]
  unfold serverOf
  rw [List.dropWhile_append, List.dropWhile_append]
  split
  · rw [hdrop, hdrop, takeWhile_server_append, takeWhile_server_append]
  · rw [takeWhile_server_append, takeWhile_server_append]

lemma isWebScheme_slash (before after : List Char) : isWebScheme (before ++ '/' :: after) = false := by
  have hslash : '/' ∈ (String.map Char.toLower (String.ofList (before ++ '/' :: after))).toList := by simp
  have hne : ∀ scheme : String, '/' ∉ scheme.toList → (String.ofList (before ++ '/' :: after)).toLower ≠ scheme := by
    rintro _ hscheme rfl
    exact hscheme hslash
  rw [isWebScheme, decide_eq_false (hne "http" (by decide)), decide_eq_false (hne "https" (by decide))]
  rfl

lemma namesServer_slash (h : cutFirst? ':' before = none) : namesServer (before ++ '/' :: after) = false := by
  simp only [namesServer, cutFirst?_append_slash, h]
  cases cutFirst? ':' after with
  | none => rfl
  | some parts => simp [isWebScheme_slash]

/-- What comes behind the first part of a path has no say in whether there is a request. -/
lemma namesServer_append (hsegment : IsSegment segment) (before after after' : List Char) :
    namesServer (before ++ '/' :: (segment ++ '/' :: after)) =
      namesServer (before ++ '/' :: (segment ++ '/' :: after')) := by
  cases hcut : cutFirst? ':' before with
  | none => rw [namesServer_slash hcut, namesServer_slash hcut]
  | some parts =>
    simp only [namesServer, cutFirst?_append_slash before, hcut, serverOf_append hsegment]

lemma isSome_parse?_append {start segment : String} (hsegment : IsSegment segment.toList) (rest rest' : String) :
    (parse? (start ++ "/" ++ segment ++ "/" ++ rest)).isSome =
      (parse? (start ++ "/" ++ segment ++ "/" ++ rest')).isSome := by
  have hkeep : segment.toList.filter (!isLineChar ·) = segment.toList :=
    List.filter_eq_self.mpr fun c hc => by simp [(hsegment.2 c hc).1]
  have htext : ∀ rest : String, (start ++ "/" ++ segment ++ "/" ++ rest).toList =
      start.toList ++ '/' :: (segment.toList ++ '/' :: rest.toList) := by simp
  have hclean : ∀ rest : String, cleaned (start ++ "/" ++ segment ++ "/" ++ rest).toList =
      opening start.toList ++ '/' :: (segment.toList ++ '/' :: ending rest.toList) := by
    intro rest
    rw [htext, cleaned_append (by decide), ending_append (by decide), hkeep]
  rw [isSome_parse?, isSome_parse?, hclean, hclean, namesServer_append hsegment]

end CodeOutline.Http.Url
