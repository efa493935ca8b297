import DesiredState.Text.Hexadecimal

/-!
# Options of addresses

An option has a name and a value. A percent sign and two digits stand for a byte. Some options say
yes or no, in words or by a number.
-/

namespace DesiredState.Address

/-- The bytes of a text in which a percent sign and two digits stand for a byte; a zero byte ends
the text. -/
def decodeBytes : List Char → List UInt8
  | '%' :: a :: b :: rest =>
    match Text.hexValue? a, Text.hexValue? b with
    | some high, some low =>
      if high = 0 ∧ low = 0 then [] else UInt8.ofNat (16 * high + low) :: decodeBytes rest
    | _, _ => String.utf8EncodeChar '%' ++ decodeBytes (a :: b :: rest)
  | c :: rest => String.utf8EncodeChar c ++ decodeBytes rest
  | [] => []

/-- The text of bytes; where they make up none, each byte is a character. -/
def textOf (bytes : List UInt8) : String :=
  (String.fromUTF8? ⟨bytes.toArray⟩).getD (String.ofList (bytes.map fun b => Char.ofNat b.toNat))

def decoded (part : List Char) : String := textOf (decodeBytes part)

def optionOf (part : List Char) : String × String :=
  (decoded (part.takeWhile (· ≠ '=')), decoded ((part.dropWhile (· ≠ '=')).drop 1))

/-- The options behind a path; those without a name do not count. -/
def optionsOf (query : List Char) : List (String × String) :=
  ((query.splitOn '&').map optionOf).filter fun (name, _) => name ≠ ""

def optionValue? (options : List (String × String)) (name : String) : Option String :=
  (options.find? fun option => option.1 = name).map Prod.snd

def numberOf (base : Nat) (digits : List Nat) : Nat :=
  digits.foldl (fun number digit => base * number + digit) 0

/-- The greatest number that counts; greater ones count as zero. -/
def greatestNumber : Nat := 2147483647

def decimalValue? (c : Char) : Option Nat := if c.isDigit then some (c.toNat - '0'.toNat) else none

/-- The values of the digits at the start of a text. -/
def leadingValues (value? : Char → Option Nat) : List Char → List Nat
  | [] => []
  | c :: rest =>
    match value? c with
    | some digit => digit :: leadingValues value? rest
    | none => []

/-- The number at the start of a text, which is decimal or, after `0x`, hexadecimal. -/
def leadingNumber (text : List Char) : Nat :=
  let number := match text with
    | '0' :: x :: d :: rest =>
      if (x = 'x' ∨ x = 'X') ∧ (Text.hexValue? d).isSome then
        numberOf 16 (leadingValues Text.hexValue? (d :: rest))
      else numberOf 10 (leadingValues decimalValue? text)
    | _ => numberOf 10 (leadingValues decimalValue? text)
  if number ≤ greatestNumber then number else 0

/-- Whether a value says yes: a number that is no multiple of 256, or a word for yes. -/
def saysYes (value : String) : Bool :=
  if (value.toList.head?.bind decimalValue?).isSome then leadingNumber value.toList % 256 ≠ 0
  else ["on", "yes", "true"].contains (String.ofList (value.toList.map Char.toLower))

def optionSaysYes (options : List (String × String)) (name : String) : Bool :=
  (optionValue? options name).any saysYes

end DesiredState.Address
