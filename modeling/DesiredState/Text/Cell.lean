/-!
# Table cells

A cell has a fixed number of columns: a short text is padded on the right, a long one is cut and
ends in an ellipsis. Each character counts as one column.
-/

namespace DesiredState.Text

/-- Columns at their width; a text longer than a cell of no or one column becomes an ellipsis. -/
def cellChars (text : List Char) (width : Nat) : List Char :=
  if text.length ≤ width then text ++ List.replicate (width - text.length) ' '
  else text.take (width - 1) ++ ['…']

def cell (text : String) (width : Nat) : String := String.ofList (cellChars text.toList width)

end DesiredState.Text
