import DesiredState.Text.Hexadecimal

/-!
# The text of a configuration file

A configuration file is a sequence of lines `key = "text"` with comments and blank lines between
them. Keys may be bare or quoted. Texts are written on one line or on several, with escapes
between double quotes and without between single quotes.
-/

namespace DesiredState.Config

def isSpace (c : Char) : Bool := c = ' ' || c = '\t'

/-- Control characters, which may stand nowhere; a tab is none of them. -/
def isControl (c : Char) : Bool := (c.toNat < 0x20 && c ≠ '\t') || c.toNat = 0x7F

/-- Skip blanks within a line. -/
def skipSpace (text : List Char) : List Char := text.dropWhile isSpace

def isBareKeyChar (c : Char) : Bool := c.isAlphanum || c = '_' || c = '-'

/-- A character by its code in a fixed number of hexadecimal digits. -/
def readCode? (count : Nat) (text : List Char) : Option (Char × List Char) := do
  let digits ← (text.take count).mapM Text.hexValue?
  if digits.length < count then none
  else
    let code := digits.foldl (fun n d => 16 * n + d) 0
    if h : code.isValidChar then
      some (Char.ofNatAux code h, text.drop count)
    else none

/-- What follows a backslash between double quotes. -/
def readEscape? : List Char → Option (Char × List Char)
  | 'b' :: rest => some ('\x08', rest)
  | 't' :: rest => some ('\t', rest)
  | 'n' :: rest => some ('\n', rest)
  | 'f' :: rest => some ('\x0c', rest)
  | 'r' :: rest => some ('\r', rest)
  | 'e' :: rest => some ('\x1b', rest)
  | '"' :: rest => some ('"', rest)
  | '\\' :: rest => some ('\\', rest)
  | 'x' :: rest => readCode? 2 rest
  | 'u' :: rest => readCode? 4 rest
  | 'U' :: rest => readCode? 8 rest
  | _ => none

/-- The rest of a text in double quotes on one line. -/
def readBasic? : Nat → List Char → Option (List Char × List Char)
  | 0, _ => none
  | _, [] => none
  | _, '"' :: rest => some ([], rest)
  | fuel + 1, '\\' :: rest => do
    let (c, rest) ← readEscape? rest
    let (text, rest) ← readBasic? fuel rest
    some (c :: text, rest)
  | fuel + 1, c :: rest =>
    if isControl c then none else do
      let (text, rest) ← readBasic? fuel rest
      some (c :: text, rest)

/-- The rest of a text in single quotes on one line. -/
def readLiteral? : List Char → Option (List Char × List Char)
  | [] => none
  | '\'' :: rest => some ([], rest)
  | c :: rest =>
    if isControl c then none else do
      let (text, rest) ← readLiteral? rest
      some (c :: text, rest)

def skipLines : List Char → List Char
  | '\r' :: '\n' :: rest => skipLines rest
  | c :: rest => if isSpace c ∨ c = '\n' then skipLines rest else c :: rest
  | [] => []

/-- The end of a text between three quotes: two more quotes may belong to the text. -/
def closing? (quote : Char) : List Char → Option (List Char × List Char)
  | a :: b :: c :: d :: e :: rest =>
    if a = quote ∧ b = quote ∧ c = quote then
      if d = quote ∧ e = quote then some ([quote, quote], rest)
      else if d = quote then some ([quote], e :: rest)
      else some ([], d :: e :: rest)
    else none
  | [a, b, c, d] =>
    if a = quote ∧ b = quote ∧ c = quote then
      if d = quote then some ([quote], []) else some ([], [d])
    else none
  | [a, b, c] => if a = quote ∧ b = quote ∧ c = quote then some ([], []) else none
  | _ => none

def lineBreak? : List Char → Option (List Char × List Char)
  | '\n' :: rest => some (['\n'], rest)
  | '\r' :: '\n' :: rest => some (['\r', '\n'], rest)
  | _ => none

/-- The rest of a text between three quotes; `escapes` tells double quotes from single ones. -/
def readMultiline? (quote : Char) (escapes : Bool) : Nat → List Char →
    Option (List Char × List Char)
  | 0, _ => none
  | fuel + 1, text =>
    match closing? quote text with
    | some (quotes, rest) => some (quotes, rest)
    | none =>
      match lineBreak? text with
      | some (chars, rest) => do
        let (text, rest) ← readMultiline? quote escapes fuel rest
        some (chars ++ text, rest)
      | none =>
        match text with
        | [] => none
        | c :: rest =>
          if escapes ∧ c = '\\' then
            match lineBreak? (skipSpace rest) with
            | some (_, rest) => readMultiline? quote escapes fuel (skipLines rest)
            | none => do
              let (c, rest) ← readEscape? rest
              let (text, rest) ← readMultiline? quote escapes fuel rest
              some (c :: text, rest)
          else if isControl c then none
          else do
            let (text, rest) ← readMultiline? quote escapes fuel rest
            some (c :: text, rest)

/-- A line break right after three opening quotes does not count. -/
def dropFirstBreak (text : List Char) : List Char :=
  match lineBreak? text with
  | some (_, rest) => rest
  | none => text

def readText? (text : List Char) : Option (List Char × List Char) :=
  match text with
  | '"' :: '"' :: '"' :: rest => readMultiline? '"' true (rest.length + 1) (dropFirstBreak rest)
  | '\'' :: '\'' :: '\'' :: rest =>
    readMultiline? '\'' false (rest.length + 1) (dropFirstBreak rest)
  | '"' :: rest => readBasic? (rest.length + 1) rest
  | '\'' :: rest => readLiteral? rest
  | _ => none

/-- A key, bare or quoted on one line. -/
def readKey? (text : List Char) : Option (List Char × List Char) :=
  match text with
  | '"' :: rest => readBasic? (rest.length + 1) rest
  | '\'' :: rest => readLiteral? rest
  | text =>
    let key := text.takeWhile isBareKeyChar
    if key.isEmpty then none else some (key, text.dropWhile isBareKeyChar)

/-- What may stand at the end of a line, and the text of the next line. -/
def readLineEnd? (text : List Char) : Option (List Char) :=
  let text := skipSpace text
  let text := match text with
    | '#' :: rest => rest.dropWhile fun c => ¬ isControl c
    | text => text
  match text with
  | [] => some []
  | text => (lineBreak? text).map Prod.snd

def readPairs? : Nat → List Char → Option (List (String × String))
  | 0, _ => none
  | fuel + 1, text =>
    match skipSpace text with
    | [] => some []
    | text =>
      match readKey? text with
      | none =>
        match text with
        | '#' :: _ | '\n' :: _ | '\r' :: _ => (readLineEnd? text).bind (readPairs? fuel)
        | _ => none
      | some (key, rest) =>
        match skipSpace rest with
        | '=' :: rest => do
          let (value, rest) ← readText? (skipSpace rest)
          let rest ← readLineEnd? rest
          let pairs ← readPairs? fuel rest
          some ((String.ofList key, String.ofList value) :: pairs)
        | _ => none

/-- The pairs of a file; a mark for the byte order in front does not count. -/
def pairsOf? (text : String) : Option (List (String × String)) :=
  let chars := text.toList
  let chars := if chars.head? = some '\uFEFF' then chars.drop 1 else chars
  readPairs? (chars.length + 1) chars

end DesiredState.Config
