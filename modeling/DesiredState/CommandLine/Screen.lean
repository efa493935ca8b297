import DesiredState.Command.Deployments
import DesiredState.Terminal.Style
import DesiredState.Text.Cell

/-!
# What commands show

Every text takes whether it is coloured.
-/

namespace DesiredState.CommandLine.Screen

open Terminal

def line (text : String) : String := text ++ "\n"

def success (coloured : Bool) (text : String) : String :=
  line (Style.green.paint coloured "✓" ++ " " ++ text)

def notice (coloured : Bool) (text : String) : String :=
  line (Style.blue.paint coloured "ℹ" ++ " " ++ text)

def remark (coloured : Bool) (text : String) : String :=
  line ("  " ++ Style.dim.paint coloured text)

def header (coloured : Bool) (title : String) : String :=
  line "" ++ line (Style.bold.paint coloured title) ++
    line (Style.dim.paint coloured (String.ofList (List.replicate title.length '─')))

def pair (coloured : Bool) (name value : String) : String :=
  line ("  " ++ Style.dim.paint coloured name ++ ": " ++ value)

/-- Cells with the given widths; what has no width stands as it is. -/
def cells (widths : List Nat) (texts : List String) : List String :=
  texts.zipIdx.map fun (text, i) =>
    match widths[i]? with
    | some width => Text.cell text width
    | none => text

def row (cells : List String) : String := line (" ".intercalate cells)

def headings (coloured : Bool) (widths : List Nat) (texts : List String) : String :=
  row ((cells widths texts).map (Style.bold.paint coloured))

def deploymentWidths : List Nat := [36, 24]

def deployments (coloured : Bool) (records : List DeploymentRecord) : String :=
  headings coloured deploymentWidths ["UUID", "NAME", "RESOURCES"] ++
    String.join (records.map fun r =>
      row (cells deploymentWidths [r.uuid, r.name.getD "-", toString r.resourceCount]))

/-- The widths of the columns before the status of a resource. -/
def kindWidths : List Nat := [24, 16]

def statusWidth : Nat := 11

/-- The widths of the columns after the status of a resource. -/
def identityWidths : List Nat := [24]

/-- A status in its cell; the blanks that fill the cell have no colour. -/
def statusCell (coloured : Bool) (status : Status) : String :=
  status.label coloured ++
    String.ofList (List.replicate (statusWidth - status.text.length) ' ')

def resource (coloured : Bool) (r : Command.ResourceRow) : String :=
  row (cells kindWidths [r.name, r.resourceType] ++ [statusCell coloured r.status] ++
    cells identityWidths [r.resourceId.getD "-", if r.obsolete then "yes" else "no"])

def resources (coloured : Bool) (rows : List Command.ResourceRow) : String :=
  headings coloured (kindWidths ++ [statusWidth] ++ identityWidths)
      ["NAME", "TYPE", "STATUS", "RESOURCE ID", "OBSOLETE"] ++
    String.join (rows.map (resource coloured))

/-- Everything about a deployment; no table where there are no resources. -/
def deployment (coloured : Bool) (record : DeploymentRecord)
    (rows : List Command.ResourceRow) : String :=
  header coloured ("Deployment " ++ record.uuid) ++
    pair coloured "Name" (record.name.getD "-") ++
    pair coloured "Resources" (toString rows.length) ++
    (if rows.isEmpty then "" else line "" ++ resources coloured rows)

end DesiredState.CommandLine.Screen
