import CodeOutline.CommandLine.Command

/-! The program. It works on the files that a listing names, one path a line, together with the files
that its arguments and its settings name, and writes what has changed. It has no connection to a network. -/

namespace CodeOutline.CommandLine

/-- The variable that holds the path of the listing. -/
def listingVariable : String := "DOCUGEN_LISTING"

def variableNames : List String := [
  "HOME", "XDG_CONFIG_HOME", "DOCUGEN_LLM_PROVIDER", "DOCUGEN_LLM_MODEL", "DOCUGEN_LLM_BASE_URL",
  "DOCUGEN_LLM_API_KEY", "DOCUGEN_LLM_MAX_TOKENS", "DOCUGEN_GITHUB_BRANCH", "DOCUGEN_OUTPUT_DIR",
  "GITHUB_TOKEN", "ANTHROPIC_API_KEY", "OPENAI_API_KEY", "OLLAMA_HOST"]

def readEnvironment : IO Environment := do
  let values ← variableNames.mapM fun name => return (name, ← IO.getEnv name)
  return ⟨values.filterMap fun (name, value) => value.map fun value => (name, value)⟩

def readListing : IO (List String) := do
  match ← IO.getEnv listingVariable with
  | some path => return (← IO.FS.lines path).toList
  | none => return []

/-- A path that cannot be read adds nothing. -/
def loadFile (d : Disk) (path : String) : IO Disk := do
  try
    let content ← IO.FS.readBinFile path
    return d.install (d.placeOf path) (.file content.toList)
  catch _ => return d

def settingFiles (env : Environment) : List String :=
  [Config.projectFile] ++ (Config.userFile? env).toList ++
    ((env.get? "HOME").map (Path.join · ".gitconfig")).toList ++
    ((Ignore.User.configFolder? env).map (Path.join · "git/config")).toList

/-- The file of the user's ignore rules is known only once the settings are read. -/
def loadDisk (env : Environment) (arguments : List String) : IO Disk := do
  let current := ((← IO.getEnv "PWD").map Disk.steps).getD []
  let start : Disk := (Disk.mk [] current).putFolders current
  let d ← (arguments ++ (← readListing) ++ settingFiles env).foldlM loadFile start
  (Ignore.User.rulesFile? d env).toList.foldlM loadFile d

def saveFile (file : Disk.Place × List UInt8) : IO Unit := do
  IO.FS.createDirAll (Disk.absolutePath file.1.dropLast)
  IO.FS.writeBinFile (Disk.absolutePath file.1) ⟨file.2.toArray⟩

end CodeOutline.CommandLine

open CodeOutline CommandLine in
def main (arguments : List String) : IO UInt32 := do
  let env ← readEnvironment
  let disk ← loadDisk env arguments
  let ending := CommandLine.run arguments ⟨disk, env, .offline, []⟩
  (disk.changesBelow ending.final.disk []).forM saveFile
  IO.print ending.output
  ending.complaint.forM fun complaint => IO.eprintln ("Error: " ++ complaint)
  return ending.status.toUInt32
