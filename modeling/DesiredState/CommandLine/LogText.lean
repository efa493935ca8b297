import DesiredState.Journal
import DesiredState.Terminal.Plain
import DesiredState.Terminal.Style
import DesiredState.Text.Cell

/-!
# The log in text

A line of the log starts with its level and its source in brackets. Breaks in its text are
indented. Without colours nothing that steers a terminal gets through.
-/

namespace DesiredState.CommandLine

open Terminal

def levelStyle : LogLevel → Style
  | .error => .red
  | .warn => .yellow
  | .info => .green
  | .debug => .blue

def levelText (level : LogLevel) : String := Text.cell level.text 5

def indentedChars (text : List Char) : List Char :=
  text.flatMap fun c => if c = '\n' then ['\n', ' ', ' ', ' ', ' '] else [c]

def fullLogText (coloured : Bool) (l : LogLine) : String :=
  Style.grey.paint coloured "[" ++ (levelStyle l.level).paint coloured (levelText l.level) ++ " " ++
    l.source.text ++ Style.grey.paint coloured "]" ++ " " ++
    String.ofList (indentedChars l.text.toList) ++ "\n"

/-- A line of the log as it is written. -/
def logText (coloured : Bool) (l : LogLine) : String :=
  if coloured then fullLogText true l else plain (fullLogText false l)

/-- The lines of the log that are written, up to a detail. -/
def writtenLog (coloured : Bool) (detail : Nat) (j : Journal) : String :=
  String.join ((j.lines.filter fun l => l.level.detail ≤ detail).map (logText coloured))

end DesiredState.CommandLine
