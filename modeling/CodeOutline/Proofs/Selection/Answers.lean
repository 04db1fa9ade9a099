import CodeOutline.Proofs.Text.Lowercase
import CodeOutline.Proofs.Text.Numeral
import CodeOutline.Proofs.Text.Split
import CodeOutline.Proofs.Text.Trim
import CodeOutline.Proofs.Text.Validity
import CodeOutline.Selection
import Mathlib.Algebra.Group.Nat.Defs
import Mathlib.Data.List.ReduceOption

/-! Answers to the question which files to document: what an answer chooses, and how much of the input it is. -/

namespace CodeOutline

open Text

namespace Text

variable {mark : Char} {blanks cs : List Char}

lemma map_trim_splitAt_blanks_append (hmark : isBlank mark = false) (h : ∀ x ∈ blanks, isBlank x = true) (cs : List Char) :
    (splitAt mark (blanks ++ cs)).map trim = (splitAt mark cs).map trim := by
  have hclear : mark ∉ blanks := fun hmem => by simp [h mark hmem] at hmark
  by_cases hmem : mark ∈ cs
  · obtain ⟨before, after, rfl, hbefore⟩ := List.eq_append_cons_of_mem hmem
    have hboth : mark ∉ blanks ++ before := by simp [hclear, hbefore]
    rw [← List.append_assoc, splitAt_append_mark, splitAt_append_mark, splitAt_of_not_mem hboth, splitAt_of_not_mem hbefore,
      List.map_append, List.map_append, List.map_singleton, List.map_singleton, trim_blanks_append h]
  · have hboth : mark ∉ blanks ++ cs := by simp [hclear, hmem]
    rw [splitAt_of_not_mem hboth, splitAt_of_not_mem hmem, List.map_singleton, List.map_singleton, trim_blanks_append h]

lemma map_trim_splitAt_append_blanks (hmark : isBlank mark = false) (h : ∀ x ∈ blanks, isBlank x = true) (cs : List Char) :
    (splitAt mark (cs ++ blanks)).map trim = (splitAt mark cs).map trim := by
  have hclear : mark ∉ blanks := fun hmem => by simp [h mark hmem] at hmark
  by_cases hmem : mark ∈ cs
  · obtain ⟨before, after, rfl, hafter⟩ := exists_last_mark hmem
    have hboth : mark ∉ after ++ blanks := by simp [hclear, hafter]
    rw [List.append_assoc, List.cons_append, splitAt_append_mark, splitAt_append_mark, splitAt_of_not_mem hboth,
      splitAt_of_not_mem hafter, List.map_append, List.map_append, List.map_singleton, List.map_singleton,
      trim_append_blanks h]
  · have hboth : mark ∉ cs ++ blanks := by simp [hclear, hmem]
    rw [splitAt_of_not_mem hboth, splitAt_of_not_mem hmem, List.map_singleton, List.map_singleton, trim_append_blanks h]

/-- The blanks around a text belong to the first and the last of its pieces. -/
lemma map_trim_splitAt_trim (hmark : isBlank mark = false) (cs : List Char) :
    (splitAt mark (trim cs)).map trim = (splitAt mark cs).map trim := by
  obtain ⟨⟨before, after, hcs, hbefore, hafter⟩, -, -⟩ := isTrimmed_trim cs
  conv_rhs => rw [hcs, map_trim_splitAt_append_blanks hmark hafter, map_trim_splitAt_blanks_append hmark hbefore]

end Text

namespace Selection

open Text.Utf8

variable {files items : List String} {answer item : String} {number? : Option Nat} {numbers : List (Option Nat)}
  {line more : List UInt8}

/-- The answer is the word `all` in any case, with blanks around it. -/
def IsAll (answer : String) : Prop := ∃ word, IsTrimmed answer.toList word ∧ word.map Char.toLower = "all".toList

/-- An item of an answer is a numeral with blanks around it, or what is no numeral. -/
inductive StandsFor : String → Option Nat → Prop
  | number {before after numeral : List Char} {n : Nat} : (∀ x ∈ before, isBlank x = true) → (∀ x ∈ after, isBlank x = true) →
      IsUnsigned (2 ^ 64) numeral n → StandsFor (String.ofList (before ++ numeral ++ after)) (some n)
  | other {item : String} {word : List Char} : IsTrimmed item.toList word → (∀ n, ¬IsUnsigned (2 ^ 64) word n) →
      StandsFor item none

/-- What is chosen, and what is shown. -/
structure Chooses (files : List String) : Prop where
  of_numbers : ∀ items numbers, (∀ item ∈ items, ',' ∉ item.toList) → List.Forall₂ StandsFor items numbers →
    ¬IsAll (",".intercalate items) → choose (",".intercalate items) files = numbers.reduceOption.filterMap (files[·]?)
  of_all : ∀ answer, IsAll answer → choose answer files = files
  ask_line : ∀ line more : List UInt8, 10 ∉ line → ask files (line ++ 10 :: more) = ask files line
  ask_text : ∀ answer : String, '\n' ∉ answer.toList → ask files (encode answer) = (.ok (choose answer files),
    unlines (question files) ++ "\nSelected " ++ toString (choose answer files).length ++ " files for documentation\n")
  ask_bytes : ∀ line : List UInt8, 10 ∉ line → (∀ answer, line ≠ encode answer) →
    ask files line = (.error .notText, unlines (question files))

lemma isAll_iff : IsAll answer ↔ (String.ofList (trim answer.toList)).toLower = "all" := by
  rw [← String.toList_inj, toList_toLower, String.toList_ofList]
  constructor
  · rintro ⟨word, htrimmed, hword⟩
    rw [htrimmed.trim_eq, hword]
  · exact fun h => ⟨_, isTrimmed_trim _, h⟩

lemma isBlank_of_mem_isUnsigned {limit n : Nat} {numeral : List Char} {c : Char} (h : IsUnsigned limit numeral n)
    (hc : c ∈ numeral) : isBlank c = false := by
  have hdigit : ∀ c : Char, c.isDigit = true → isBlank c = false := by
    intro c hc
    apply isBlank_of_isAsciiWord
    simp [isAsciiWord, Char.isAlphanum, hc]
  obtain ⟨digits, hnumeral, -, hall, -⟩ := h
  obtain rfl | rfl := hnumeral
  · exact hdigit c (hall c hc)
  · obtain rfl | hmem := List.mem_cons.mp hc
    · decide
    · exact hdigit c (hall c hmem)

lemma StandsFor.chosen?_eq (h : StandsFor item number?) : chosen? files item.toList = number?.bind (files[·]?) := by
  cases h with
  | @number before after numeral n hbefore hafter hnumeral =>
    have htrim : trim (before ++ numeral ++ after) = numeral := by
      rw [trim_append_blanks hafter, trim_blanks_append hbefore]
      refine IsTrimmed.trim_eq ⟨⟨[], [], by simp, by simp, by simp⟩, fun x hx => ?_, fun x hx => ?_⟩
      · exact isBlank_of_mem_isUnsigned hnumeral (List.mem_of_mem_head? hx)
      · exact isBlank_of_mem_isUnsigned hnumeral (List.mem_of_mem_getLast? hx)
    have hread : unsigned? indexLimit numeral = some n := unsigned?_eq_some_iff.mpr hnumeral
    rw [String.toList_ofList, chosen?, htrim, hread]
  | @other item word hword hnone =>
    have hread : unsigned? indexLimit word = none :=
      Option.eq_none_iff_forall_ne_some.mpr fun n hn => hnone n (unsigned?_eq_some_iff.mp hn)
    rw [chosen?, hword.trim_eq, hread]

lemma filterMap_chosen? (h : List.Forall₂ StandsFor items numbers) :
    (items.map String.toList).filterMap (chosen? files) = numbers.reduceOption.filterMap (files[·]?) := by
  induction h with
  | nil => rfl
  | @cons item number? items numbers hitem _ ih =>
    rw [List.map_cons, List.filterMap_cons, hitem.chosen?_eq, ih]
    cases number? with
    | none => rw [List.reduceOption_cons_of_none]; rfl
    | some n => rw [List.reduceOption_cons_of_some, List.filterMap_cons]; rfl

lemma choose_of_not_isAll (h : ¬IsAll answer) (files : List String) :
    choose answer files = (splitAt ',' answer.toList).filterMap (chosen? files) := by
  have hchosen : ∀ pieces : List (List Char), pieces.filterMap (chosen? files) =
      (pieces.map trim).filterMap fun word => (unsigned? indexLimit word).bind (files[·]?) := by
    intro pieces
    rw [List.filterMap_map]
    rfl
  rw [choose, if_neg (mt isAll_iff.mpr h), hchosen, map_trim_splitAt_trim (by decide), ← hchosen]

lemma choose_intercalate (hitems : ∀ item ∈ items, ',' ∉ item.toList) (h : List.Forall₂ StandsFor items numbers)
    (hall : ¬IsAll (",".intercalate items)) :
    choose (",".intercalate items) files = numbers.reduceOption.filterMap (files[·]?) := by
  have hcomma : ",".toList = [','] := rfl
  rw [choose_of_not_isAll hall, String.toList_intercalate, hcomma, ← filterMap_chosen? h]
  by_cases hne : items = []
  · subst hne
    rfl
  · rw [splitAt_intercalate (mt List.map_eq_nil_iff.mp hne)]
    intro piece hpiece
    obtain ⟨item, hitem, rfl⟩ := List.mem_map.mp hpiece
    exact hitems item hitem

lemma choose_append_newline (answer : String) (files : List String) : choose (answer ++ "\n") files = choose answer files := by
  have htrim : trim (answer ++ "\n").toList = trim answer.toList := by
    rw [String.toList_append]
    exact trim_append_blanks (by simp; decide) _
  rw [choose, choose, htrim]

lemma firstLine_of_not_mem (h : 10 ∉ line) : firstLine line = line := by
  induction line with
  | nil => rfl
  | cons b rest ih =>
    obtain ⟨hb, hrest⟩ := not_or.mp (mt List.mem_cons.mpr h)
    rw [firstLine, if_neg (Ne.symm hb), ih hrest]

lemma firstLine_append (h : 10 ∉ line) (more : List UInt8) : firstLine (line ++ 10 :: more) = line ++ [10] := by
  induction line with
  | nil => rfl
  | cons b rest ih =>
    obtain ⟨hb, hrest⟩ := not_or.mp (mt List.mem_cons.mpr h)
    rw [List.cons_append, firstLine, if_neg (Ne.symm hb), ih hrest, List.cons_append]

lemma unlines_append (lines others : List String) : unlines (lines ++ others) = unlines lines ++ unlines others := by
  rw [unlines, List.map_append, String.join_append, unlines, unlines]

lemma ask_of_none (h : decodeStrict? (firstLine line) = none) :
    ask files line = (.error .notText, unlines (question files)) := by
  rw [ask, h]

lemma ask_of_some {cs : List Char} (h : decodeStrict? (firstLine line) = some cs) :
    ask files line = (.ok (choose (String.ofList cs) files), unlines (question files) ++ "\nSelected " ++
      toString (choose (String.ofList cs) files).length ++ " files for documentation\n") := by
  rw [ask, h]
  have hclosing : ∀ text : String, unlines ["", text] = "\n" ++ (text ++ "\n") := by simp [unlines]
  have hhead : "\nSelected " = "\n" ++ "Selected " := rfl
  have htail : " files for documentation\n" = " files for documentation" ++ "\n" := rfl
  simp only [unlines_append, hclosing, hhead, htail, String.append_assoc]

lemma decodeStrict?_append_newline (line : List UInt8) :
    decodeStrict? (line ++ [10]) = (decodeStrict? line).map (· ++ ['\n']) := by
  have hdecode : decode (line ++ [10]) = decode line ++ [some '\n'] := decodeFrom_newline isWide_between [] line []
  rw [decodeStrict?, hdecode, List.mapM_append, decodeStrict?]
  cases (decode line).mapM id <;> rfl

lemma ask_append_line (h : 10 ∉ line) (more : List UInt8) : ask files (line ++ 10 :: more) = ask files line := by
  have hfirst := firstLine_of_not_mem h
  have hboth : decodeStrict? (firstLine (line ++ 10 :: more)) = (decodeStrict? line).map (· ++ ['\n']) := by
    rw [firstLine_append h, decodeStrict?_append_newline]
  cases hline : decodeStrict? line with
  | none =>
    rw [hline, Option.map_none] at hboth
    rw [ask_of_none hboth, ask_of_none (hfirst.symm ▸ hline)]
  | some cs =>
    rw [hline, Option.map_some] at hboth
    have hnewline : String.ofList (cs ++ ['\n']) = String.ofList cs ++ "\n" := String.ofList_append
    rw [ask_of_some hboth, ask_of_some (hfirst.symm ▸ hline), hnewline, choose_append_newline]

lemma not_mem_encode (h : '\n' ∉ answer.toList) : 10 ∉ encode answer := by
  rw [← List.count_eq_zero, ← count_decodeLossy, decodeLossy_encode, List.count_eq_zero]
  exact h

/-- An answer chooses the files whose numbers it holds. Only the first line of the input counts. -/
theorem chooses_by_number (files : List String) : Chooses files where
  of_numbers _ _ hitems h hall := choose_intercalate hitems h hall
  of_all _ h := by rw [choose, if_pos (isAll_iff.mp h)]
  ask_line _ more h := ask_append_line h more
  ask_text answer h := by
    have hdecode : decodeStrict? (firstLine (encode answer)) = some answer.toList := by
      rw [firstLine_of_not_mem (not_mem_encode h), decodeStrict?_eq_some_iff, encode_eq_encodeChars]
    rw [ask_of_some hdecode, String.ofList_toList]
  ask_bytes line h hnone := by
    refine ask_of_none (Option.eq_none_iff_forall_ne_some.mpr fun cs hcs => hnone (String.ofList cs) ?_)
    rw [firstLine_of_not_mem h, decodeStrict?_eq_some_iff] at hcs
    exact hcs

example : choose " 1,+02,x,18446744073709551616,,0\n" ["a", "b", "c"] = ["b", "c", "a"] := by decide +kernel

end Selection

end CodeOutline
