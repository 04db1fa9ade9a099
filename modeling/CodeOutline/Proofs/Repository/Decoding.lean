import CodeOutline.Proofs.Base64.Canonical
import CodeOutline.Proofs.Repository.Contents

/-! Which contents of files are decoded, and to what text. -/

namespace CodeOutline.Repository.Client

variable {path content : String} {bytes : List UInt8}

/-- A content is decoded exactly if it is a text of base64 for some bytes, up to white space. Any other is refused under
the name of its file. -/
structure Decodes (path content : String) : Prop where
  ok_iff : ∀ text, decodeContent path content = .ok text ↔
    ∃ bytes, Base64.IsTextOf bytes content ∧ text = String.ofList (Text.Utf8.decodeLossy bytes)
  unique : ∀ bytes bytes', Base64.IsTextOf bytes content → Base64.IsTextOf bytes' content → bytes = bytes'
  of_encode : ∀ s, Base64.IsTextOf (Text.Utf8.encode s) content → decodeContent path content = .ok s
  refused : (∀ bytes, ¬Base64.IsTextOf bytes content) → ∃ flaw, decodeContent path content = .error (.undecodable path flaw)
  canonical_iff : (∃ bytes, Base64.IsTextOf bytes content) ↔
    Base64.IsCanonical (content.toList.filter (!Base64.isWhiteSpace ·))

lemma decodeContent_eq_ok_iff {text : String} : decodeContent path content = .ok text ↔
    ∃ bytes, Base64.IsTextOf bytes content ∧ text = String.ofList (Text.Utf8.decodeLossy bytes) := by
  constructor
  · intro h
    unfold decodeContent at h
    split at h
    · rename_i bytes hdecode
      exact ⟨bytes, Base64.isTextOf_iff.mpr (Base64.decode_eq_ok_iff.mp hdecode), (Except.ok.inj h).symm⟩
    · cases h
  · rintro ⟨bytes, htext, rfl⟩
    exact decodeContent_of_isTextOf htext

lemma decodeContent_cases (path content : String) : (∃ text, decodeContent path content = .ok text) ∨
    ∃ flaw, decodeContent path content = .error (.undecodable path flaw) := by
  unfold decodeContent
  cases Base64.decode ((Text.Utf8.encode content).filter (!isAsciiSpace ·)) with
  | ok bytes => exact .inl ⟨_, rfl⟩
  | error flaw => exact .inr ⟨flaw, rfl⟩

/-- Decoding undoes encoding, wherever white space stands, and accepts nothing else. -/
theorem decodes_content (path content : String) : Decodes path content where
  ok_iff _ := decodeContent_eq_ok_iff
  unique bytes bytes' h h' := Base64.encode_injective ((Base64.isTextOf_iff.mp h).symm.trans (Base64.isTextOf_iff.mp h'))
  of_encode s h := by
    rw [decodeContent_of_isTextOf h, Outline.textOfBytes, Text.Utf8.decodeLossy_encode, String.ofList_toList]
  refused h := by
    refine (decodeContent_cases path content).resolve_left ?_
    rintro ⟨text, htext⟩
    obtain ⟨bytes, hbytes, -⟩ := decodeContent_eq_ok_iff.mp htext
    exact h bytes hbytes
  canonical_iff := Base64.exists_text_iff

end CodeOutline.Repository.Client
