import CodeOutline.CommandLine.Arguments
import CodeOutline.Run.Activity

/-! What the command line prints. -/

namespace CodeOutline.CommandLine

def unlines (lines : List String) : String := String.join (lines.map (· ++ "\n"))

def rule : String := String.ofList (List.replicate 60 '=')

def versionText : String := "docugen 0.1.0\n"

def helpText : String := unlines [
  "Generate markdown documentation for a codebase with an LLM",
  "",
  "Usage: docugen [OPTIONS] <--target <DIR>|--github <URL>>",
  "",
  "Options:",
  "      --target <DIR>   Local directory to document",
  "      --github <URL>   GitHub repository URL to document",
  "  -o, --output <DIR>   Output directory for markdown files",
  "      --api-key <KEY>  API key for the LLM provider (defaults to ANTHROPIC_API_KEY)",
  "      --branch <NAME>  Branch to read from when using --github",
  "      --all            Document every repository file without prompting",
  "      --extract-only   Print the extracted elements as JSON and stop",
  "      --config <FILE>  Config file to use instead of docugen.toml",
  "  -v, --verbose        Enable debug logging",
  "  -h, --help           Print help",
  "  -V, --version        Print version"]

def originLines (config : Config) : Origin → List String
  | .folder path => ["  Mode: Local Directory", "  Target: " ++ path]
  | .repository url =>
    ["  Mode: GitHub Repository", "  URL: " ++ url, "  Branch: " ++ config.repository.branch]

def banner (config : Config) (origin : Origin) : String :=
  unlines (["", "   DocuGen - AI-Powered Documentation Generator", rule] ++ originLines config origin ++
    ["  Output: " ++ config.output.folder, "  Model: " ++ config.model.modelOrDefault, rule])

/-- Requests for documentation are reported only by their number, once they are answered. -/
def eventLines : Run.Event → List String
  | .stage stage => ["", "Step " ++ toString stage.number ++ ": " ++ stage.title ++ "..."]
  | .found count => ["  Found " ++ toString count ++ " code files", ""]
  | .parsing path => ["     Parsing: " ++ path]
  | .skipped path why => ["     Skipping (" ++ why.reason ++ "): " ++ path]
  | .parsed count => ["  Parsed " ++ toString count ++ " files with code elements"]
  | .documenting .. => []
  | .documented count => ["  Generated documentation for " ++ toString count ++ " files"]
  | .exported path => ["     Exported: " ++ path]

/-- The text of a notice. Quiet runs show only what the user has to answer. -/
def noticeText (quiet : Bool) : Run.Notice → String
  | .event e => if quiet then "" else unlines (eventLines e)
  | .shown text => text
  | .asked _ => ""

def transcript (quiet : Bool) (s : Run.State) : String :=
  String.join (s.notices.toList.map (noticeText quiet))

def outcomeLine (r : Run.Report) : String :=
  if r.filesFound = 0 then "  No code files found"
  else if r.parsed.isEmpty then "  No code elements found to document"
  else
    "  Documentation generation complete! " ++ toString r.exported.length ++ " of " ++
      toString r.parsed.length ++ " files exported"

def summary (r : Run.Report) : String := unlines ["", rule, outcomeLine r, rule, ""]

end CodeOutline.CommandLine
