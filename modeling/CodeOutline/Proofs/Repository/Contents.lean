import CodeOutline.Outline.OfFile
import CodeOutline.Proofs.Base64
import CodeOutline.Proofs.Disk.Change
import CodeOutline.Proofs.Json.Records
import CodeOutline.Proofs.Path
import CodeOutline.Proofs.Text.Decoding
import CodeOutline.Repository.Client
import Mathlib.Data.List.GetD

/-! The same file on disk and in a repository: both ways to its text meet, and so do the outlines. -/

namespace CodeOutline

namespace Base64

variable {bytes : List UInt8} {text : String} {c : Char}

def isWhiteSpace (c : Char) : Bool := c == ' ' || c == '\t' || c == '\n' || c == '\x0c' || c == '\r'

/-- A text of base64 with white space anywhere in it. -/
def IsTextOf (bytes : List UInt8) (text : String) : Prop :=
  text.toList.filter (!isWhiteSpace ·) = (encode bytes).map fun b => Char.ofNat b.toNat

lemma lt_of_value {b : UInt8} {v : Nat} (h : value? b = some v) : b.toNat < 128 := by
  unfold value? at h
  simp only at h
  split_ifs at h <;> omega

lemma symbol_lt (v : Nat) : (symbol v).toNat < 128 := by
  by_cases hv : v < 64
  · exact lt_of_value (value_symbol hv)
  · have hlength : alphabet.length ≤ v := Nat.le_of_not_lt hv
    rw [symbol, List.getD_eq_default _ _ hlength]
    decide

lemma lt_of_mem_encode {b : UInt8} (h : b ∈ encode bytes) : b.toNat < 128 := by
  have hpad : pad.toNat < 128 := by decide
  induction bytes using encode.induct with
  | case1 => cases h
  | case2 | case3 =>
    simp only [encode, List.mem_cons, List.not_mem_nil, or_false] at h
    obtain rfl | rfl | rfl | rfl := h <;> first | exact symbol_lt _ | exact hpad
  | case4 _ _ _ _ ih =>
    simp only [encode, List.mem_cons] at h
    obtain rfl | rfl | rfl | rfl | h := h
    iterate 4 exact symbol_lt _
    exact ih h

lemma toUInt8_ofNat {b : UInt8} (h : b.toNat < 128) : (Char.ofNat b.toNat).toUInt8 = b := by
  have hall : ∀ n < 128, (Char.ofNat n).toUInt8.toNat = n := by decide +kernel
  exact UInt8.toNat_inj.mp (hall _ h)

lemma isAsciiSpace_toUInt8 (h : c.toNat < 128) : Repository.Client.isAsciiSpace c.toUInt8 = isWhiteSpace c := by
  have hall : ∀ n < 128, Repository.Client.isAsciiSpace (Char.ofNat n).toUInt8 = isWhiteSpace (Char.ofNat n) := by
    decide +kernel
  rw [← Char.ofNat_toNat c]
  exact hall _ h

lemma filter_encodeChar (c : Char) : (String.utf8EncodeChar c).filter (!Repository.Client.isAsciiSpace ·) =
    if isWhiteSpace c = true then [] else String.utf8EncodeChar c := by
  by_cases hc : c.toNat < 128
  · rw [Text.Utf8.encodeChar_of_lt hc, List.filter_singleton, isAsciiSpace_toUInt8 hc]
    cases isWhiteSpace c <;> rfl
  · have hink : isWhiteSpace c = false := by
      rw [Bool.eq_false_iff]
      intro hspace
      simp only [isWhiteSpace, Bool.or_eq_true, beq_iff_eq] at hspace
      obtain (((rfl | rfl) | rfl) | rfl) | rfl := hspace <;> exact hc (by decide)
    rw [hink, if_neg Bool.false_ne_true, List.filter_eq_self]
    intro b hb
    have hwide := Text.Utf8.le_of_mem_encodeChar (Nat.le_of_not_lt hc) hb
    have hall : ∀ n < 256, 128 ≤ n → (!Repository.Client.isAsciiSpace (UInt8.ofNat n)) = true := by decide +kernel
    have hbyte := hall b.toNat b.toNat_lt hwide
    rwa [UInt8.ofNat_toNat] at hbyte

/-- White space may be taken out before the text is encoded or after it. -/
lemma filter_encode (text : String) : (Text.Utf8.encode text).filter (!Repository.Client.isAsciiSpace ·) =
    Text.Utf8.encode (String.ofList (text.toList.filter (!isWhiteSpace ·))) := by
  rw [Text.Utf8.encode_eq, Text.Utf8.encode_eq, String.toList_ofList]
  induction text.toList with
  | nil => rfl
  | cons c rest ih =>
    rw [List.flatMap_cons, List.filter_append, ih, filter_encodeChar, List.filter_cons]
    cases isWhiteSpace c <;> rfl

lemma encode_symbols (bytes : List UInt8) :
    Text.Utf8.encode (String.ofList ((encode bytes).map fun b => Char.ofNat b.toNat)) = encode bytes := by
  have hascii : ∀ n < 128, (Char.ofNat n).toNat < 128 := by decide +kernel
  have hback : (encode bytes).map (fun b => (Char.ofNat b.toNat).toUInt8) = (encode bytes).map id :=
    List.map_congr_left fun b hb => toUInt8_ofNat (lt_of_mem_encode hb)
  rw [Text.Utf8.encode_of_ascii, String.toList_ofList, List.map_map]
  · exact hback.trans (List.map_id _)
  · intro c hc
    rw [String.toList_ofList] at hc
    obtain ⟨b, hb, rfl⟩ := List.mem_map.mp hc
    exact hascii _ (lt_of_mem_encode hb)

lemma isTextOf_iff : IsTextOf bytes text ↔
    (Text.Utf8.encode text).filter (!Repository.Client.isAsciiSpace ·) = encode bytes := by
  rw [filter_encode, ← encode_symbols bytes, Text.Utf8.encode_injective.eq_iff, String.ofList_inj, IsTextOf]

end Base64

namespace Repository.Client

variable {client : Client} {reference : Reference} {path branch text : String} {bytes : List UInt8}
  {network : Http.Network} {past : List Http.Exchange} {response : Http.Response}

/-- A successful response whose JSON is an object with a text as its `content`, among other entries. -/
structure Carries (response : Http.Response) (text : String) : Prop where
  success : response.isSuccess = true
  content : ∃ before after, response.json? = some (.object (before ++ (some "content", Json.ofText text) :: after)) ∧
    ∀ entry ∈ before ++ after, ∃ key, entry.1 = some key ∧ key ≠ "content"

lemma contentOfJson?_object {before after : List (Option String × Json)}
    (h : ∀ entry ∈ before ++ after, ∃ key, entry.1 = some key ∧ key ≠ "content") :
    contentOfJson? (.object (before ++ (some "content", Json.ofText text) :: after)) = some text := by
  have hrecord : Json.IsRecord ["content"] (.object (before ++ (some "content", Json.ofText text) :: after))
      [some (.ofText text)] := .object (.cons (Json.holds_of_others h) .nil)
  rw [contentOfJson?, Json.fields?_eq_some_iff.mpr hrecord]
  rfl

lemma decodeContent_of_isTextOf (h : Base64.IsTextOf bytes text) :
    decodeContent path text = .ok (Outline.textOfBytes bytes) := by
  rw [decodeContent, Base64.isTextOf_iff.mp h, Base64.decode_encode]
  rfl

lemma fetchFile_of_carries (hc : Carries response text) (ht : Base64.IsTextOf bytes text)
    (hr : (Http.request .get (client.contentsUrl reference path branch) client.headers none network past).1 =
      some response) :
    (client.fetchFile reference path branch network past).1 = .ok (Outline.textOfBytes bytes) := by
  obtain ⟨before, after, hjson, hkeys⟩ := hc.content
  have hreply : readReply (some response) =
      .ok (.object (before ++ (some "content", Json.ofText text) :: after)) := by
    simp [readReply, hc.success, hjson]
  have hcontents : readContents path (readReply (some response)) = .ok (Outline.textOfBytes bytes) := by
    rw [hreply, readContents]
    simp only [bind, Except.bind, contentOfJson?_object hkeys]
    exact decodeContent_of_isTextOf ht
  cases hx : Http.request .get (client.contentsUrl reference path branch) client.headers none network past with
  | mk result next =>
    obtain rfl : result = some response := (congrArg Prod.fst hx).symm.trans hr
    have hget : client.getJson (client.contentsUrl reference path branch) network past =
        (readReply (some response), next) := by
      rw [getJson, Http.Online.bind_of_eq hx]
      rfl
    rw [fetchFile, Http.Online.bind_of_eq hget]
    exact hcontents

end Repository.Client

variable {d : Disk} {root path : String} {bytes : List UInt8}

lemma read_join_empty (d : Disk) (root : String) : d.read (Path.join root "") ≠ .ok bytes := by
  intro h
  by_cases hroot : root = ""
  · subst hroot
    cases h
  · -- what is left is the root with a slash at its end, which names no file
    have hends : Disk.endsAsFolder (Path.join root "") = true := by
      rw [Path.join_eq root rfl, Path.opened, String.append_empty]
      split
      · rename_i hslash
        simpa [Disk.endsAsFolder] using hslash.resolve_left hroot
      · simp [Disk.endsAsFolder]
    exact Disk.read_ne_ok_of_endsAsFolder hends h

lemma ofPath_join (hpath : ∀ c ∈ Path.components path, ∃ name, c = .normal name) (hne : path ≠ "") :
    Language.ofPath (Path.join root path) = Language.ofPath path := by
  have hname := Path.fileName?_join root (Path.isAbsolute_of_normal hpath) (Path.named_ne_nil hpath hne)
  simp only [Language.ofPath, Path.suffix?, hname]

/-- A file has the same elements where it is on disk and where a repository gives it, whatever bytes it has and
wherever on the disk it is. -/
theorem elements_eq_of_fetched {client : Repository.Client} {reference : Repository.Reference} {branch text : String}
    {network : Http.Network} {past : List Http.Exchange} {response : Http.Response}
    (hpath : ∀ c ∈ Path.components path, ∃ name, c = .normal name)
    (hread : d.read (Path.join root path) = .ok bytes) (htext : Base64.IsTextOf bytes text)
    (hcarries : Repository.Client.Carries response text)
    (hreply : (Http.request .get (client.contentsUrl reference path branch) client.headers none network past).1 =
      some response) :
    ∃ o x, Outline.ofFile d (Path.join root path) = .ok o ∧
      (client.fetchFile reference path branch network past).1 = .ok x ∧
      o.elements = (Outline.ofSource path x).elements ∧
      Language.ofPath (Path.join root path) = Language.ofPath path ∧
      x = Outline.textOfBytes bytes := by
  have hne : path ≠ "" := by
    rintro rfl
    exact read_join_empty d root hread
  have hlanguage : Language.ofPath (Path.join root path) = Language.ofPath path := ofPath_join hpath hne
  have hfile : Outline.ofFile d (Path.join root path) =
      .ok (Outline.ofSource (Path.join root path) (Outline.textOfBytes bytes)) := by
    rw [Outline.ofFile, hread]
  have hfetched := Repository.Client.fetchFile_of_carries hcarries htext hreply
  refine ⟨_, _, hfile, hfetched, ?_, hlanguage, rfl⟩
  rw [Outline.ofSource, Outline.ofSource, hlanguage]

theorem elements_eq_of_broken_text :
    let bytes : List UInt8 := [0x63, 0x6C, 0x61, 0x73, 0x73, 0x20, 0x41, 0xFF]
    let d : Disk := ⟨[(["r"], .folder), (["r", "v1.2"], .folder), (["r", "v1.2", "x.py"], .file bytes)], []⟩
    let client : Repository.Client := ⟨"http://h", none⟩
    let response : Http.Response := ⟨200, Text.Utf8.encode "\x7b\"sha\":\"1\",\"content\":\"Y2xh\\nc3MgQf8=\"\x7d"⟩
    let network : Http.Network := fun _ _ => .answered response
    (∀ c ∈ Path.components "v1.2/x.py", ∃ name, c = .normal name) ∧ d.read (Path.join "r" "v1.2/x.py") = .ok bytes ∧
      Base64.IsTextOf bytes "Y2xh\nc3MgQf8=" ∧ Repository.Client.Carries response "Y2xh\nc3MgQf8=" ∧
      (Http.request .get (client.contentsUrl ⟨"o", "r"⟩ "v1.2/x.py" "b") client.headers none network []).1 =
        some response ∧
      ∃ o x, Outline.ofFile d (Path.join "r" "v1.2/x.py") = .ok o ∧
        (client.fetchFile ⟨"o", "r"⟩ "v1.2/x.py" "b" network []).1 = .ok x ∧
        o.elements = (Outline.ofSource "v1.2/x.py" x).elements ∧
        Language.ofPath (Path.join "r" "v1.2/x.py") = Language.ofPath "v1.2/x.py" ∧
        x = Outline.textOfBytes bytes := by
  refine ⟨?path, ?read, ?text, ?carries, ?reply, elements_eq_of_fetched ?path ?read ?text ?carries ?reply⟩
  case path =>
    have hcomponents : Path.components "v1.2/x.py" = [.normal "v1.2", .normal "x.py"] := by decide +kernel
    simp [hcomponents]
  case read => decide +kernel
  case text =>
    unfold Base64.IsTextOf
    decide +kernel
  case carries =>
    refine ⟨by decide, [(some "sha", Json.ofText "1")], [], ?_, ?_⟩
    · have hascii : "\x7b\"sha\":\"1\",\"content\":\"Y2xh\\nc3MgQf8=\"\x7d".toList.all (·.toNat < 128) = true := by
        decide +kernel
      rw [Http.Response.json?, Http.Response.content, if_neg (by decide),
        Text.Utf8.encode_of_ascii fun c hc => of_decide_eq_true (List.all_eq_true.mp hascii c hc)]
      rfl
    · simp
  case reply => decide +kernel

end CodeOutline
