import DesiredState.Json.Number
import DesiredState.Text.Hexadecimal

/-!
# JSON texts

A document is the grammatical structure of a text: numbers and strings as written, members in
their order. Finding the structure needs no decision about values, so a part that nobody asks
for may hold a number too large or half a surrogate pair. The value of a document exists when
its numbers and strings have one and it is not nested too deeply.
-/

namespace DesiredState.Json

/-- A character of a string, or one sixteen-bit unit written by its code. -/
inductive Piece where
  | char (c : Char)
  | unit (u : Nat)
  deriving DecidableEq

inductive Document where
  | null
  | bool (b : Bool)
  | number (l : Literal)
  | string (pieces : List Piece)
  | array (items : List Document)
  | object (members : List (List Piece × Document))

/-- Space, line feed, carriage return and tab stand between tokens. -/
def isBlank (c : Char) : Bool := c = ' ' || c = '\n' || c = '\r' || c = '\t'

/-- Skip what may stand between tokens. -/
def skipBlank (text : List Char) : List Char := text.dropWhile isBlank

def digit? (c : Char) : Option Nat := if c.isDigit then some (c.toNat - '0'.toNat) else none

def readDigits : List Char → List Nat × List Char
  | [] => ([], [])
  | c :: rest =>
    match digit? c with
    | none => ([], c :: rest)
    | some d => (d :: (readDigits rest).1, (readDigits rest).2)

/-- Digits after a point, if a point follows. -/
def readFraction? : List Char → Option (Option (List Nat) × List Char)
  | '.' :: rest =>
    match readDigits rest with
    | ([], _) => none
    | (digits, rest) => some (some digits, rest)
  | text => some (none, text)

def readExponent? (text : List Char) : Option (Option (Bool × List Nat) × List Char) :=
  let digitsOf (down : Bool) (text : List Char) :=
    match readDigits text with
    | ([], _) => none
    | (digits, rest) => some (some (down, digits), rest)
  match text with
  | c :: rest =>
    if c = 'e' ∨ c = 'E' then
      match rest with
      | '+' :: rest => digitsOf false rest
      | '-' :: rest => digitsOf true rest
      | rest => digitsOf false rest
    else some (none, c :: rest)
  | [] => some (none, [])

/-- A number without superfluous zeros in front. -/
def readLiteral? (text : List Char) : Option (Literal × List Char) := do
  let (negative, text) := match text with
    | '-' :: rest => (true, rest)
    | text => (false, text)
  let (whole, text) := readDigits text
  match whole with
  | [] => none
  | 0 :: _ :: _ => none
  | whole =>
    let (fraction, text) ← readFraction? text
    let (exponent, text) ← readExponent? text
    some (⟨negative, whole, fraction, exponent⟩, text)

def simpleEscape? : Char → Option Char
  | '"' => some '"'
  | '\\' => some '\\'
  | '/' => some '/'
  | 'b' => some '\x08'
  | 'f' => some '\x0c'
  | 'n' => some '\n'
  | 'r' => some '\r'
  | 't' => some '\t'
  | _ => none

/-- The rest of a string after its opening quote. -/
def readPieces? : List Char → Option (List Piece × List Char)
  | '"' :: rest => some ([], rest)
  | '\\' :: 'u' :: a :: b :: c :: d :: rest => do
    let unit := 4096 * (← Text.hexValue? a) + 256 * (← Text.hexValue? b) + 16 * (← Text.hexValue? c)
      + (← Text.hexValue? d)
    let (pieces, rest) ← readPieces? rest
    some (.unit unit :: pieces, rest)
  | '\\' :: c :: rest => do
    let c ← simpleEscape? c
    let (pieces, rest) ← readPieces? rest
    some (.char c :: pieces, rest)
  | c :: rest =>
    if c < ' ' ∨ c = '\\' then none else do
      let (pieces, rest) ← readPieces? rest
      some (.char c :: pieces, rest)
  | [] => none

mutual

def readDocument? : Nat → List Char → Option (Document × List Char)
  | 0, _ => none
  | fuel + 1, text =>
    match skipBlank text with
    | 'n' :: 'u' :: 'l' :: 'l' :: rest => some (.null, rest)
    | 't' :: 'r' :: 'u' :: 'e' :: rest => some (.bool true, rest)
    | 'f' :: 'a' :: 'l' :: 's' :: 'e' :: rest => some (.bool false, rest)
    | '"' :: rest => (readPieces? rest).map fun (pieces, rest) => (.string pieces, rest)
    | '[' :: rest =>
      match skipBlank rest with
      | ']' :: rest => some (.array [], rest)
      | rest => (readItems? fuel rest).map fun (items, rest) => (.array items, rest)
    | '{' :: rest =>
      match skipBlank rest with
      | '}' :: rest => some (.object [], rest)
      | rest => (readMembers? fuel rest).map fun (members, rest) => (.object members, rest)
    | rest => (readLiteral? rest).map fun (l, rest) => (.number l, rest)

def readItems? : Nat → List Char → Option (List Document × List Char)
  | 0, _ => none
  | fuel + 1, text => do
    let (item, rest) ← readDocument? fuel text
    match skipBlank rest with
    | ',' :: rest =>
      let (items, rest) ← readItems? fuel rest
      some (item :: items, rest)
    | ']' :: rest => some ([item], rest)
    | _ => none

def readMembers? : Nat → List Char → Option (List (List Piece × Document) × List Char)
  | 0, _ => none
  | fuel + 1, text =>
    match skipBlank text with
    | '"' :: rest => do
      let (key, rest) ← readPieces? rest
      match skipBlank rest with
      | ':' :: rest =>
        let (value, rest) ← readDocument? fuel rest
        match skipBlank rest with
        | ',' :: rest =>
          let (members, rest) ← readMembers? fuel rest
          some ((key, value) :: members, rest)
        | '}' :: rest => some ([(key, value)], rest)
        | _ => none
      | _ => none
    | _ => none

end

/-- The structure of a whole text: one value with nothing but blanks around it. -/
def Document.ofChars? (text : List Char) : Option Document :=
  match readDocument? (2 * text.length + 2) text with
  | some (document, rest) => if (skipBlank rest).isEmpty then some document else none
  | none => none

def Document.ofText? (text : String) : Option Document := ofChars? text.toList

def isHighSurrogate (u : Nat) : Bool := 0xD800 ≤ u && u < 0xDC00

def isLowSurrogate (u : Nat) : Bool := 0xDC00 ≤ u && u < 0xE000

/-- The characters a string stands for; surrogates must come in pairs, both written by code. -/
def decodePieces? : List Piece → Option (List Char)
  | [] => some []
  | .char c :: rest => (decodePieces? rest).map (c :: ·)
  | .unit u :: .unit v :: rest =>
    if isHighSurrogate u then
      if isLowSurrogate v then
        (decodePieces? rest).map
          (Char.ofNat (0x10000 + 0x400 * (u - 0xD800) + (v - 0xDC00)) :: ·)
      else none
    else if isLowSurrogate u then none
    else (decodePieces? (.unit v :: rest)).map (Char.ofNat u :: ·)
  | .unit u :: rest =>
    if isHighSurrogate u ∨ isLowSurrogate u then none
    else (decodePieces? rest).map (Char.ofNat u :: ·)

def stringOf? (pieces : List Piece) : Option String := (decodePieces? pieces).map String.ofList

mutual

/-- The value of a document nested at most `levels` deep, members as written. -/
def Document.value? : Nat → Document → Option Json
  | _, .null => some .null
  | _, .bool b => some (.bool b)
  | _, .number l => l.value?.map .num
  | _, .string pieces => (stringOf? pieces).map .str
  | 0, .array _ => none
  | levels + 1, .array items => (itemValues? levels items).map .arr
  | 0, .object _ => none
  | levels + 1, .object members => (memberValues? levels members).map .obj

def itemValues? : Nat → List Document → Option (List Json)
  | _, [] => some []
  | levels, item :: rest => do
    let item ← item.value? levels
    let rest ← itemValues? levels rest
    some (item :: rest)

def memberValues? : Nat → List (List Piece × Document) → Option (List (String × Json))
  | _, [] => some []
  | levels, (key, value) :: rest => do
    let key ← stringOf? key
    let value ← value.value? levels
    let rest ← memberValues? levels rest
    some ((key, value) :: rest)

end

/-- How many arrays and objects may be open at once. -/
def maxDepth : Nat := 127

/-- The value a text denotes, members as written. -/
def parseAsWritten? (text : String) : Option Json :=
  (Document.ofText? text).bind fun document => document.value? maxDepth

def parse? (text : String) : Option Json := (parseAsWritten? text).map canonical

end DesiredState.Json
