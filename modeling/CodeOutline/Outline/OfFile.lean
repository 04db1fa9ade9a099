import CodeOutline.Disk
import CodeOutline.Outline
import CodeOutline.Text.Utf8

/-! The outline of a file on disk. -/

namespace CodeOutline.Outline

/-- The text of a file's bytes, a replacement character standing for what is no text. -/
def textOfBytes (bytes : List UInt8) : String := String.ofList (Text.Utf8.decodeLossy bytes)

def ofFile (d : Disk) (path : String) : Except Disk.Fault Outline :=
  match d.read path with
  | .ok bytes => .ok (ofSource path (textOfBytes bytes))
  | .error failure => .error ⟨path, failure⟩

end CodeOutline.Outline
