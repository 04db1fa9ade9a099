import CodeOutline.Config.Basic

/-! A configuration as TOML text. Secrets are left out, and so is what has no value. -/

namespace CodeOutline.Config

def quoted (s : String) : String := "\"" ++ s ++ "\""

def listLines (name : String) (items : List String) : List String :=
  (name ++ " = [") :: items.map (fun item => "    " ++ quoted item ++ ",") ++ ["]"]

def textLine (name value : String) : String := name ++ " = " ++ quoted value

def numberLine (name : String) (value : Nat) : String := name ++ " = " ++ toString value

def optionalLine (name : String) (value : Option String) : List String :=
  (value.map (textLine name)).toList

def scanLines (c : Scan) : List String :=
  ["[scan]"] ++ listLines "include_extensions" c.includeExtensions ++
    listLines "exclude_dirs" c.excludeFolders ++ [numberLine "max_file_size" c.maxFileSize]

def modelLines (c : Model) : List String :=
  ["[llm]", textLine "provider" c.provider] ++ optionalLine "model" c.model ++
    optionalLine "base_url" c.baseUrl ++ [numberLine "max_tokens" c.maxTokens] ++
    optionalLine "api_version" c.apiVersion

def repositoryLines (c : Repository) : List String :=
  ["[github]", textLine "api_url" c.apiUrl, textLine "branch" c.branch]

def outputLines (c : Output) : List String := ["[output]", textLine "dir" c.folder]

def render (c : Config) : String :=
  "\n\n".intercalate (([scanLines c.scan, modelLines c.model, repositoryLines c.repository,
    outputLines c.output]).map fun lines => "\n".intercalate lines) ++ "\n"

/-- The standard configuration as a file to start from. -/
def standardText : String := render .standard

end CodeOutline.Config
