import FileEndpoints.Services

namespace FileEndpoints

def Invocation.transcript (i : Invocation) : String :=
  "Skill: " ++ i.skill ++ "\nExecuted at: " ++ i.executedAt.stamp ++
    "\n\nInstructions:\n" ++ i.instructions ++ "\n\nParameters:\n" ++ i.parameters ++
    "\n\nNotes:\nThis is a placeholder execution for the SkillsFS MVP.\n"

/-- The run of the runner that comes with the library: it does nothing but write the transcript. -/
def Invocation.placeholderRun (i : Invocation) : Run :=
  { outcome := .completed i.transcript, elapsed := 0, endedAt := i.executedAt }

end FileEndpoints
