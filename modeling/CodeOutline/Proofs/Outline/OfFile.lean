import CodeOutline.Outline.OfFile
import CodeOutline.Proofs.Recognition.Lines
import CodeOutline.Proofs.Text.Decoding

/-! The outline of a file: its line numbers are those of the file on disk, whatever bytes the file has. -/

namespace CodeOutline

open Text

namespace Outline

variable {d : Disk} {path : String} {bytes : List UInt8}

/-- The text of the bytes line by line. What is text already stays as it is. -/
structure KeepsLines (bytes : List UInt8) (text : String) : Prop where
  count_eq : text.toList.count '\n' = bytes.count 10
  lines_eq : linesOf text.toList = (bytes.splitOn 10).map Utf8.decodeLossy
  eq_of_encode : ∀ s, bytes = Utf8.encode s → text = s

lemma keepsLines_textOfBytes (bytes : List UInt8) : KeepsLines bytes (textOfBytes bytes) where
  count_eq := by rw [textOfBytes, String.toList_ofList, Utf8.count_decodeLossy]
  lines_eq := by rw [textOfBytes, String.toList_ofList, linesOf, Utf8.splitAt_decodeLossy]
  eq_of_encode := by
    rintro s rfl
    rw [textOfBytes, Utf8.decodeLossy_encode, String.ofList_toList]

/-- The line of a file that a number stands for is decoded to the line of its text with this number. -/
lemma KeepsLines.exists_line {text : String} {n : Nat} (h : KeepsLines bytes text) (hpos : 1 ≤ n)
    (hle : n ≤ text.toList.count '\n' + 1) :
    ∃ line, (bytes.splitOn 10)[n - 1]? = some line ∧ IsLineAt text.toList n (Utf8.decodeLossy line) := by
  have hlength : (bytes.splitOn 10).length = text.toList.count '\n' + 1 := by
    rw [← length_linesOf, h.lines_eq, List.length_map]
  have hlt : n - 1 < (bytes.splitOn 10).length := by omega
  have hline := List.getElem?_eq_getElem hlt
  refine ⟨_, hline, hpos, ?_⟩
  rw [h.lines_eq, List.getElem?_map, hline]
  rfl

/-- The lines of a file are decoded one by one, and each line that its outline names is one of them. -/
theorem keepsLines_of_read (hread : d.read path = .ok bytes) (hlines : bytes.count 10 < 2 ^ 32 - 1) :
    ofFile d path = .ok (ofSource path (textOfBytes bytes)) ∧ KeepsLines bytes (textOfBytes bytes) ∧
      ∀ e ∈ (ofSource path (textOfBytes bytes)).elements, 1 ≤ e.line.toNat ∧
        ∃ line, (bytes.splitOn 10)[e.line.toNat - 1]? = some line ∧
          IsLineAt (textOfBytes bytes).toList e.line.toNat (Utf8.decodeLossy line) := by
  have hkeeps := keepsLines_textOfBytes bytes
  refine ⟨by rw [ofFile, hread], hkeeps, fun e he => ?_⟩
  obtain ⟨hpos, hle⟩ := Language.line_bounds_of_mem (by rwa [hkeeps.count_eq]) he
  exact ⟨hpos, hkeeps.exists_line hpos hle⟩

/-- A character that breaks off at the end of a line takes nothing of the next line. -/
theorem keepsLines_of_broken_characters :
    let bytes : List UInt8 := [0xF0, 0x9F, 0x98, 0x0A, 0x63, 0x6C, 0x61, 0x73, 0x73, 0x20, 0x41, 0x3A, 0xED, 0xA0]
    let d : Disk := ⟨[(["x.py"], .file bytes)], []⟩
    d.read "x.py" = .ok bytes ∧ bytes.count 10 < 2 ^ 32 - 1 ∧
      (ofSource "x.py" (textOfBytes bytes)).elements = [⟨.classDecl, "A", 2⟩] ∧
      ofFile d "x.py" = .ok (ofSource "x.py" (textOfBytes bytes)) ∧ KeepsLines bytes (textOfBytes bytes) ∧
      ∀ e ∈ (ofSource "x.py" (textOfBytes bytes)).elements, 1 ≤ e.line.toNat ∧
        ∃ line, (bytes.splitOn 10)[e.line.toNat - 1]? = some line ∧
          IsLineAt (textOfBytes bytes).toList e.line.toNat (Utf8.decodeLossy line) := by
  refine ⟨?read, ?lines, ?elements, keepsLines_of_read ?read ?lines⟩
  case read => decide +kernel
  case lines => decide
  case elements => decide +kernel

end Outline

end CodeOutline
