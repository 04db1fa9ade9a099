import CodeOutline.Outline.Json

/-! The request for documentation of one file. -/

namespace CodeOutline.Document

def promptHeader (path : String) : String :=
  "You are a technical documentation expert. Generate clear, concise documentation for the following code elements from "
    ++ path ++ ":\n\n"

def promptFooter : String :=
  "\n\nFormat the documentation as markdown with:\n" ++
  "- A brief file overview\n" ++
  "- Each function/class/interface documented with:\n" ++
  "  - Purpose\n" ++
  "  - Parameters (if any)\n" ++
  "  - Return type\n" ++
  "  - Usage example (if applicable)\n\n" ++
  "Keep it professional and practical."

def prompt (path : String) (elements : List Element) : String :=
  promptHeader path ++ Element.prettyList elements ++ promptFooter

end CodeOutline.Document
