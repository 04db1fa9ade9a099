import CodeOutline.Json.Printer
import CodeOutline.Json.Token
import CodeOutline.Proofs.Text.Numeral
import Mathlib.Data.List.TakeWhile

/-! The tokens of printed JSON. -/

namespace CodeOutline.Json

open Text

/-- JSON made of texts, natural numbers and what holds them: the values that are printed here. -/
inductive Plain : Json → Prop
  | null : Plain null
  | bool (b : Bool) : Plain (bool b)
  | number (n : Nat) : Plain (ofNat n)
  | string (s : String) : Plain (ofText s)
  | array {items : List Json} : (∀ item ∈ items, Plain item) → Plain (array items)
  | record {entries : List (String × Json)} : (∀ entry ∈ entries, Plain entry.2) → Plain (record entries)

mutual

def tokensOf : Json → List Token
  | null => [.null]
  | bool b => [.bool b]
  | number numeral => [.number numeral]
  | string s => [.string s]
  | array [] => [.openBracket, .closeBracket]
  | array (item :: items) => .openBracket :: (tokensOf item ++ (tokensOfItems items ++ [.closeBracket]))
  | object [] => [.openBrace, .closeBrace]
  | object ((key, value) :: entries) =>
    .openBrace :: .string key :: .colon :: (tokensOf value ++ (tokensOfEntries entries ++ [.closeBrace]))

def tokensOfItems : List Json → List Token
  | [] => []
  | item :: items => .comma :: (tokensOf item ++ tokensOfItems items)

def tokensOfEntries : List (Option String × Json) → List Token
  | [] => []
  | (key, value) :: entries => .comma :: .string key :: .colon :: (tokensOf value ++ tokensOfEntries entries)

end

/-- The text is at its end, or goes on with a character that continues no word and no number. -/
def Parted : List (Option Char) → Prop
  | [] => True
  | none :: _ => False
  | some c :: _ => c.isLower = false ∧ isNumberChar c = false

variable {state next : LexState} {tokens closed : List Token} {rest : List (Option Char)} {c : Char}

lemma tokensFrom_of_readChar {x : Option Char} (h : readChar state tokens x = some (next, closed)) :
    tokensFrom state tokens (x :: rest) = tokensFrom next closed rest := by
  rw [tokensFrom, h]

/-- Where the text parts, an open word or number is a token. -/
lemma tokensFrom_of_closeToken (h : closeToken state tokens = some closed) (hr : Parted rest) :
    tokensFrom state tokens rest = tokensFrom .between closed rest := by
  match rest, hr with
  | [], _ => rw [tokensFrom, tokensFrom, h, closeToken]
  | some c :: rest, ⟨hlower, hnumber⟩ =>
    cases state with
    | between =>
      rw [← Option.some.inj h]
    | word letters =>
      simp only [tokensFrom, readChar, hlower, h]
      rfl
    | number chars =>
      simp only [tokensFrom, readChar, hnumber, h]
      rfl
    | string | escape | unicode => cases h

/-! ## Blanks -/

lemma tokensFrom_blanks (n : Nat) :
    tokensFrom .between tokens ((List.replicate n ' ').map some ++ rest) = tokensFrom .between tokens rest := by
  induction n with
  | zero => rfl
  | succ n ih => exact ih

lemma tokensFrom_newLine (depth : Nat) :
    tokensFrom .between tokens ((newLine depth).map some ++ rest) = tokensFrom .between tokens rest :=
  tokensFrom_blanks (2 * depth)

/-! ## Numbers -/

lemma isNumberChar_of_isDigit (h : c.isDigit = true) : isNumberChar c = true := by
  rw [isNumberChar, h, Bool.true_or]

lemma readBetween_of_isDigit (h : c.isDigit = true) : readBetween tokens c = some (.number [c], tokens) := by
  have hall : ∀ n < 58, (Char.ofNat n).isDigit = true → isSpace (Char.ofNat n) = false ∧ Char.ofNat n ≠ '"' ∧
      (Char.ofNat n).isLower = false := by decide
  have hrange : 48 ≤ c.toNat ∧ c.toNat ≤ 57 := Char.isDigit_iff_toNat.mp h
  obtain ⟨hspace, hquote, hlower⟩ := hall c.toNat (by omega) (by rwa [Char.ofNat_toNat])
  rw [Char.ofNat_toNat] at hspace hquote hlower
  rw [readBetween, hspace, if_neg hquote, hlower, h]
  rfl

lemma tokensFrom_digits {digits : List Char} (h : ∀ d ∈ digits, d.isDigit = true) (chars : List Char) :
    tokensFrom (.number chars) tokens (digits.map some ++ rest) =
      tokensFrom (.number (digits.reverse ++ chars)) tokens rest := by
  induction digits generalizing chars with
  | nil => rfl
  | cons d digits ih =>
    have hd : readChar (.number chars) tokens (some d) = some (.number (d :: chars), tokens) := by
      rw [readChar, if_pos (isNumberChar_of_isDigit (h d List.mem_cons_self))]
    rw [List.map_cons, List.cons_append, tokensFrom_of_readChar hd, ih fun e he => h e (List.mem_cons_of_mem d he)]
    simp

lemma dropDigits_of_isDigit {cs : List Char} (h : ∀ d ∈ cs, d.isDigit = true) : dropDigits cs = [] :=
  List.dropWhile_eq_nil_iff.mpr h

lemma isNumeral_toString (n : Nat) : isNumeral (toString n).toList = true := by
  cases hn : (toString n).toList with
  | nil => exact absurd hn (toString_ne_nil n)
  | cons d ds =>
    have hd : d.isDigit = true := isDigit_of_mem_toString (n := n) (by rw [hn]; exact List.mem_cons_self)
    have hds : dropDigits (d :: ds) = [] :=
      dropDigits_of_isDigit fun e he => isDigit_of_mem_toString (n := n) (by rwa [hn])
    have hminus : d ≠ '-' := by
      rintro rfl
      cases hd
    by_cases hzero : d = '0'
    · subst hzero
      rw [toList_toString] at hn
      rw [eq_nil_of_toDigits_eq_cons hn]
      rfl
    · have hfirst : startsWithDigit (d :: ds) = true := hd
      have hsign : ∀ rest, d :: ds = '-' :: rest → False := fun rest h => hminus (List.cons.inj h).1
      have hlead : ∀ rest, d :: ds = '0' :: rest → False := fun rest h => hzero (List.cons.inj h).1
      rw [isNumeral, hfirst, hds]
      · rfl
      · exact hsign
      · exact hlead

lemma tokensFrom_number (n : Nat) (hr : Parted rest) :
    tokensFrom .between tokens ((toString n).toList.map some ++ rest) =
      tokensFrom .between (.number (toString n) :: tokens) rest := by
  have hall : ∀ d ∈ (toString n).toList, d.isDigit = true := fun d => isDigit_of_mem_toString
  have hnumeral := isNumeral_toString n
  have hback : String.ofList (toString n).toList = toString n := String.ofList_toList
  revert hall hnumeral hback
  cases (toString n).toList with
  | nil => intro _ h; cases h
  | cons d ds =>
    intro hall hnumeral hback
    have hclose : closeToken (.number (ds.reverse ++ [d])) tokens = some (.number (toString n) :: tokens) := by
      rw [closeToken, List.reverse_append, List.reverse_reverse, List.reverse_singleton, List.singleton_append,
        if_pos hnumeral, hback]
    have hd : readChar .between tokens (some d) = some (.number [d], tokens) :=
      readBetween_of_isDigit (hall d List.mem_cons_self)
    rw [List.map_cons, List.cons_append, tokensFrom_of_readChar hd,
      tokensFrom_digits fun e he => hall e (List.mem_cons_of_mem d he), tokensFrom_of_closeToken hclose hr]

/-! ## Strings -/

lemma hexDigit?_hexChar {n : Nat} (h : n < 16) : hexDigit? (hexChar n) = some n := by
  have hall : ∀ n < 16, hexDigit? (hexChar n) = some n := by decide
  exact hall n h

lemma tokensFrom_shortEscape {e : Char} (h : shortEscape? e = some c) (he : e ≠ 'u') (chars : List Char) :
    tokensFrom (.string ⟨some chars, none⟩) tokens (some '\\' :: some e :: rest) =
      tokensFrom (.string ⟨some (c :: chars), none⟩) tokens rest := by
  have hread : readChar (.escape ⟨some chars, none⟩) tokens (some e) =
      some (.string ⟨some (c :: chars), none⟩, tokens) := by
    rw [readChar, if_neg he, h]
    rfl
  exact tokensFrom_of_readChar hread

lemma tokensFrom_longEscape (h : c.toNat < 0x20) (chars : List Char) :
    tokensFrom (.string ⟨some chars, none⟩) tokens
        (['\\', 'u', '0', '0', hexChar (c.toNat / 16), hexChar (c.toNat % 16)].map some ++ rest) =
      tokensFrom (.string ⟨some (c :: chars), none⟩) tokens rest := by
  have hunit : digitsValue 16 [0, 0, c.toNat / 16, c.toNat % 16] = c.toNat := by
    simp only [digitsValue, List.foldl_cons, List.foldl_nil]
    omega
  have hpush : (⟨some chars, none⟩ : Partial).pushUnit (digitsValue 16 [0, 0, c.toNat / 16, c.toNat % 16]) =
      ⟨some (c :: chars), none⟩ := by
    rw [hunit, Partial.pushUnit, if_neg (by omega), if_neg (by omega), Char.ofNat_toNat]
    rfl
  have hhigh : readChar (.unicode ⟨some chars, none⟩ [0, 0]) tokens (some (hexChar (c.toNat / 16))) =
      some (.unicode ⟨some chars, none⟩ [0, 0, c.toNat / 16], tokens) := by
    rw [readChar, hexDigit?_hexChar (by omega)]
    rfl
  have hlow : readChar (.unicode ⟨some chars, none⟩ [0, 0, c.toNat / 16]) tokens (some (hexChar (c.toNat % 16))) =
      some (.string ⟨some (c :: chars), none⟩, tokens) := by
    rw [readChar, hexDigit?_hexChar (by omega), ← hpush]
    rfl
  calc tokensFrom (.string ⟨some chars, none⟩) tokens
        (['\\', 'u', '0', '0', hexChar (c.toNat / 16), hexChar (c.toNat % 16)].map some ++ rest)
      = tokensFrom (.unicode ⟨some chars, none⟩ [0, 0]) tokens
          (some (hexChar (c.toNat / 16)) :: some (hexChar (c.toNat % 16)) :: rest) := rfl
    _ = tokensFrom (.string ⟨some (c :: chars), none⟩) tokens rest := by
        rw [tokensFrom_of_readChar hhigh, tokensFrom_of_readChar hlow]

lemma tokensFrom_plainChar (hquote : c ≠ '"') (hslash : c ≠ '\\') (h : ¬ c.toNat < 0x20) (chars : List Char) :
    tokensFrom (.string ⟨some chars, none⟩) tokens (some c :: rest) =
      tokensFrom (.string ⟨some (c :: chars), none⟩) tokens rest := by
  have hread : readChar (.string ⟨some chars, none⟩) tokens (some c) =
      some (.string ⟨some (c :: chars), none⟩, tokens) := by
    rw [readChar, readString, if_neg hquote, if_neg hslash, if_neg h]
    rfl
  exact tokensFrom_of_readChar hread

lemma tokensFrom_escapeChar (c : Char) (chars : List Char) :
    tokensFrom (.string ⟨some chars, none⟩) tokens ((escapeChar c).map some ++ rest) =
      tokensFrom (.string ⟨some (c :: chars), none⟩) tokens rest := by
  unfold escapeChar
  split_ifs with hquote hslash hline hreturn htab hback hfeed hcontrol
  · exact tokensFrom_shortEscape (by subst hquote; rfl) (by decide) chars
  · exact tokensFrom_shortEscape (by subst hslash; rfl) (by decide) chars
  · exact tokensFrom_shortEscape (by subst hline; rfl) (by decide) chars
  · exact tokensFrom_shortEscape (by subst hreturn; rfl) (by decide) chars
  · exact tokensFrom_shortEscape (by subst htab; rfl) (by decide) chars
  · exact tokensFrom_shortEscape (by rw [← Char.ofNat_toNat c, hback]; rfl) (by decide) chars
  · exact tokensFrom_shortEscape (by rw [← Char.ofNat_toNat c, hfeed]; rfl) (by decide) chars
  · exact tokensFrom_longEscape hcontrol chars
  · exact tokensFrom_plainChar hquote hslash hcontrol chars

lemma tokensFrom_content (cs chars : List Char) :
    tokensFrom (.string ⟨some chars, none⟩) tokens ((cs.flatMap escapeChar).map some ++ some '"' :: rest) =
      tokensFrom .between (.string (some (String.ofList (chars.reverse ++ cs))) :: tokens) rest := by
  induction cs generalizing chars with
  | nil =>
    rw [List.append_nil]
    rfl
  | cons c cs ih =>
    rw [List.flatMap_cons, List.map_append, List.append_assoc, tokensFrom_escapeChar, ih, List.reverse_cons,
      List.append_assoc, List.singleton_append]

lemma tokensFrom_quotedText (s : String) :
    tokensFrom .between tokens ((quotedText (some s)).map some ++ rest) =
      tokensFrom .between (.string (some s) :: tokens) rest := by
  have h := @tokensFrom_content tokens rest s.toList []
  rw [List.reverse_nil, List.nil_append, String.ofList_toList] at h
  rw [← h, quotedText, quoted]
  simp only [Option.getD_some, List.map_cons, List.map_append, List.map_nil, List.cons_append, List.append_assoc,
    List.nil_append]
  exact tokensFrom_of_readChar rfl

/-! ## Values -/

def Lexed (j : Json) : Prop := ∀ (depth : Nat) (tokens : List Token) (rest : List (Option Char)), Parted rest →
  tokensFrom .between tokens ((prettyChars depth j).map some ++ rest) =
    tokensFrom .between ((tokensOf j).reverse ++ tokens) rest

lemma parted_newLine (depth : Nat) : Parted ((newLine depth).map some ++ rest) := ⟨rfl, rfl⟩

lemma parted_items (items : List Json) (depth : Nat) (h : Parted rest) :
    Parted ((prettyItems depth items).map some ++ rest) := by
  cases items with
  | nil => exact h
  | cons => exact ⟨rfl, rfl⟩

lemma parted_entries (entries : List (Option String × Json)) (depth : Nat) (h : Parted rest) :
    Parted ((prettyEntries depth entries).map some ++ rest) := by
  match entries with
  | [] => exact h
  | (_, _) :: _ => exact ⟨rfl, rfl⟩

lemma tokensFrom_items {items : List Json} (h : ∀ item ∈ items, Lexed item) (depth : Nat) (tokens : List Token)
    (hr : Parted rest) :
    tokensFrom .between tokens ((prettyItems depth items).map some ++ rest) =
      tokensFrom .between ((tokensOfItems items).reverse ++ tokens) rest := by
  induction items generalizing tokens with
  | nil => rfl
  | cons item items ih =>
    have hitem := h item List.mem_cons_self
    have hcomma : readChar .between tokens (some ',') = some (.between, .comma :: tokens) := rfl
    simp only [prettyItems, tokensOfItems, List.map_cons, List.map_append, List.append_assoc, List.cons_append]
    rw [tokensFrom_of_readChar hcomma, tokensFrom_newLine, hitem _ _ _ (parted_items items depth hr),
      ih (fun other hother => h other (List.mem_cons_of_mem item hother))]
    simp

lemma tokensFrom_key (key : String) :
    tokensFrom .between tokens ((quotedText (some key)).map some ++ some ':' :: some ' ' :: rest) =
      tokensFrom .between (.colon :: .string (some key) :: tokens) rest := by
  have hcolon : readChar .between (.string (some key) :: tokens) (some ':') =
    some (.between, .colon :: .string (some key) :: tokens) := rfl
  rw [tokensFrom_quotedText, tokensFrom_of_readChar hcolon]
  exact tokensFrom_of_readChar rfl

lemma tokensFrom_entries {entries : List (String × Json)} (h : ∀ entry ∈ entries, Lexed entry.2) (depth : Nat)
    (tokens : List Token) (hr : Parted rest) :
    tokensFrom .between tokens ((prettyEntries depth (entries.map fun e => (some e.1, e.2))).map some ++ rest) =
      tokensFrom .between ((tokensOfEntries (entries.map fun e => (some e.1, e.2))).reverse ++ tokens) rest := by
  induction entries generalizing tokens with
  | nil => rfl
  | cons entry entries ih =>
    have hvalue := h entry List.mem_cons_self
    have hcomma : readChar .between tokens (some ',') = some (.between, .comma :: tokens) := rfl
    simp only [prettyEntries, tokensOfEntries, List.map_cons, List.map_append, List.append_assoc, List.cons_append,
      List.nil_append]
    rw [tokensFrom_of_readChar hcomma, tokensFrom_newLine, tokensFrom_key, hvalue _ _ _ (parted_entries _ depth hr),
      ih (fun other hother => h other (List.mem_cons_of_mem entry hother))]
    simp

lemma lexed_array {items : List Json} (h : ∀ item ∈ items, Lexed item) : Lexed (array items) := by
  intro depth tokens rest hr
  cases items with
  | nil => rfl
  | cons item items =>
    have hitem := h item List.mem_cons_self
    have hitems : ∀ other ∈ items, Lexed other := fun other hother => h other (List.mem_cons_of_mem item hother)
    have hopen : readChar .between tokens (some '[') = some (.between, .openBracket :: tokens) := rfl
    have hend (read : List Token) : readChar .between read (some ']') = some (.between, .closeBracket :: read) := rfl
    simp only [prettyChars, tokensOf, List.map_cons, List.map_append, List.append_assoc, List.cons_append,
      List.map_nil, List.nil_append]
    rw [tokensFrom_of_readChar hopen, tokensFrom_newLine,
      hitem _ _ _ (parted_items items _ (parted_newLine depth)),
      tokensFrom_items hitems _ _ (parted_newLine depth), tokensFrom_newLine,
      tokensFrom_of_readChar (hend _)]
    simp

lemma lexed_record {entries : List (String × Json)} (h : ∀ entry ∈ entries, Lexed entry.2) : Lexed (record entries) := by
  intro depth tokens rest hr
  cases entries with
  | nil => rfl
  | cons entry entries =>
    have hvalue := h entry List.mem_cons_self
    have hentries : ∀ other ∈ entries, Lexed other.2 := fun other hother => h other (List.mem_cons_of_mem entry hother)
    have hopen : readChar .between tokens (some '\x7b') = some (.between, .openBrace :: tokens) := rfl
    have hend (read : List Token) : readChar .between read (some '\x7d') = some (.between, .closeBrace :: read) := rfl
    simp only [record, prettyChars, tokensOf, List.map_cons, List.map_append, List.append_assoc, List.cons_append,
      List.map_nil, List.nil_append]
    rw [tokensFrom_of_readChar hopen, tokensFrom_newLine, tokensFrom_key,
      hvalue _ _ _ (parted_entries _ _ (parted_newLine depth)),
      tokensFrom_entries hentries _ _ (parted_newLine depth), tokensFrom_newLine,
      tokensFrom_of_readChar (hend _)]
    simp

lemma Plain.lexed {j : Json} (h : Plain j) : Lexed j := by
  induction h with
  | null =>
    intro depth tokens rest hr
    have hnull : closeToken (.word "llun".toList) tokens = some (.null :: tokens) := rfl
    exact tokensFrom_of_closeToken hnull hr
  | bool b =>
    intro depth tokens rest hr
    have htrue : closeToken (.word "eurt".toList) tokens = some (.bool true :: tokens) := rfl
    have hfalse : closeToken (.word "eslaf".toList) tokens = some (.bool false :: tokens) := rfl
    cases b with
    | true => exact tokensFrom_of_closeToken htrue hr
    | false => exact tokensFrom_of_closeToken hfalse hr
  | number n => exact fun depth tokens rest hr => tokensFrom_number n hr
  | string s => exact fun depth tokens rest hr => tokensFrom_quotedText s
  | array _ ih => exact lexed_array ih
  | record _ ih => exact lexed_record ih

lemma tokens?_pretty {j : Json} (h : Plain j) : tokens? (j.pretty.toList.map some) = some (tokensOf j) := by
  have hlexed := h.lexed 0 [] [] trivial
  rw [List.append_nil, List.append_nil] at hlexed
  rw [pretty, String.toList_ofList, tokens?, hlexed, tokensFrom, closeToken, Option.map_some, List.reverse_reverse]

end CodeOutline.Json
