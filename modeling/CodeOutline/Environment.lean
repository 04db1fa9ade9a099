/-! Environment variables. A variable that is set to the empty text is set; one whose value is not Unicode counts as not
set. -/

namespace CodeOutline

structure Environment where
  entries : List (String × String)

def Environment.get? (env : Environment) (name : String) : Option String :=
  (env.entries.find? (·.1 == name)).map (·.2)

end CodeOutline
