import DesiredState.Path.Environment
import DesiredState.Text.Alphanumeric

/-!
# Variables and the home directory in paths

`$NAME` and `${NAME}` stand for a variable, `${NAME:-text}` for a variable or for the text
if it is not set, and `$$` for a dollar sign. A leading `~` stands for the home directory. A
path that mentions a variable that is not set and gives no text for it stays as written.
-/

namespace DesiredState.Path

/-- Letters, digits and underscores make up a name. -/
def isNameChar (c : Char) : Bool := Text.isAlphanumeric c || c = '_'

/-- The text before the first closing brace and the text after it. -/
def splitBrace? : List Char → Option (List Char × List Char)
  | [] => none
  | '}' :: rest => some ([], rest)
  | c :: rest => (splitBrace? rest).map fun (inside, after) => (c :: inside, after)

/-- A name and the text after the first `:-`. -/
def splitDefault : List Char → List Char × Option (List Char)
  | [] => ([], none)
  | ':' :: '-' :: rest => ([], some rest)
  | c :: rest =>
    let (name, text) := splitDefault rest
    (c :: name, text)

/-- The name and the text for a variable in braces; a name is never empty before `:-`. -/
def bracedParts (inside : List Char) : List Char × Option (List Char) :=
  match splitDefault inside with
  | ([], some _) => (inside, none)
  | parts => parts

/-- Replace the variables; nothing if one is not set. The first argument bounds the number of
steps, one for each character. -/
def expandVariables? (env : Environment) : Nat → List Char → Option (List Char)
  | 0, _ => some []
  | _, [] => some []
  | fuel + 1, '$' :: '{' :: rest =>
    match splitBrace? rest with
    | none => (expandVariables? env fuel rest).map fun rest => '$' :: '{' :: rest
    | some (inside, rest) => do
      let (name, text) := bracedParts inside
      let value ← ((env.find? (String.ofList name)).map String.toList).or text
      let rest ← expandVariables? env fuel rest
      some (value ++ rest)
  | fuel + 1, '$' :: '$' :: rest => (expandVariables? env fuel rest).map ('$' :: ·)
  | fuel + 1, '$' :: rest =>
    let name := rest.takeWhile isNameChar
    if name.isEmpty then (expandVariables? env fuel rest).map ('$' :: ·)
    else do
      let value ← env.find? (String.ofList name)
      let rest ← expandVariables? env fuel (rest.dropWhile isNameChar)
      some (value.toList ++ rest)
  | fuel + 1, c :: rest => (expandVariables? env fuel rest).map (c :: ·)

/-- The names after each dollar sign of a text, up to the end of the name or of the braces. -/
def mentionedNames : List Char → List String
  | [] => []
  | '$' :: rest =>
    String.ofList (rest.takeWhile isNameChar) ::
      String.ofList (bracedParts ((rest.drop 1).takeWhile (· ≠ '}'))).1 :: mentionedNames rest
  | _ :: rest => mentionedNames rest

/-- Replace a `~` that makes up the whole first component. -/
def expandHome (env : Environment) (path : List Char) : List Char :=
  match path with
  | '~' :: rest =>
    if rest.isEmpty ∨ rest.head? = some '/' then
      match env.home? with
      | some dir => dir.toList ++ rest
      | none => path
    else path
  | _ => path

/-- Expand a path that a user wrote. A `~` that came out of a variable stays. -/
def expand (env : Environment) (path : String) : String :=
  let written := path.toList
  match expandVariables? env (written.length + 1) written with
  | none => path
  | some expanded =>
    if written.head? ≠ some '~' ∧ expanded.head? = some '~' then String.ofList expanded
    else String.ofList (expandHome env expanded)

end DesiredState.Path
