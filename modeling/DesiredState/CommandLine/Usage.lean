import DesiredState.CommandLine.Request

/-!
# Help and completions
-/

namespace DesiredState.CommandLine

def OptionSpec.shown (o : OptionSpec) : String :=
  let short := match o.short with
    | some c => "-" ++ String.ofList [c] ++ ", "
    | none => "    "
  "  " ++ short ++ "--" ++ o.long ++ (if o.hasValue then " <VALUE>" else "")

def shownCommand (spec : String × List OptionSpec × Nat) : List String :=
  ("  " ++ spec.1) :: spec.2.1.map fun o => "  " ++ o.shown

def helpText : String :=
  "\n".intercalate (["Inspect and maintain stratus deployment state", "",
    "Usage: " ++ programName ++ " [OPTIONS] <COMMAND>", "", "Commands:"] ++
    commandSpecs.flatMap shownCommand ++ ["  " ++ helpName, "", "Options:"] ++
    globalOptions.map OptionSpec.shown ++ ["  -h, --help", "  -V, --version"]) ++ "\n"

/-- What is said about a wrong command line. -/
def usageText (reason : String) : String :=
  "error: " ++ reason ++ "\n\nFor more information, try '--help'.\n"

def versionText (name : String) : String := name ++ " " ++ programVersion ++ "\n"

def completionWords : String := " ".intercalate (commandNames ++ [helpName])

def completionScript (shell : String) : String :=
  match shell with
  | "bash" => "complete -W '" ++ completionWords ++ "' " ++ programName ++ "\n"
  | "elvish" =>
    "set edit:completion:arg-completer[" ++ programName ++ "] = \x7b|@words| put " ++
      completionWords ++ " \x7d\n"
  | "fish" => "complete -c " ++ programName ++ " -f -a '" ++ completionWords ++ "'\n"
  | "powershell" =>
    "Register-ArgumentCompleter -Native -CommandName '" ++ programName ++
      "' -ScriptBlock \x7b -split '" ++ completionWords ++ "' \x7d\n"
  | _ => "#compdef " ++ programName ++ "\n_values command " ++ completionWords ++ "\n"

end DesiredState.CommandLine
