/-!
# Styles of a terminal

A styled text stands between the sequence that starts its style and the one that ends all styles.
A style that ends within the text would end the outer one too, so the outer one starts again
there.
-/

namespace DesiredState.Terminal

inductive Style where
  | bold
  | dim
  | red
  | green
  | yellow
  | blue
  | grey
  deriving DecidableEq, Repr

def Style.code : Style → List Char
  | .bold => ['1']
  | .dim => ['2']
  | .red => ['3', '1']
  | .green => ['3', '2']
  | .yellow => ['3', '3']
  | .blue => ['3', '4']
  | .grey => ['9', '0']

def Style.startChars (style : Style) : List Char := '\x1b' :: '[' :: (style.code ++ ['m'])

def endChars : List Char := ['\x1b', '[', '0', 'm']

/-- A text with a sequence taken up again after each end of styles. -/
def resumed (start : List Char) : List Char → List Char
  | '\x1b' :: '[' :: '0' :: 'm' :: rest => endChars ++ start ++ resumed start rest
  | c :: rest => c :: resumed start rest
  | [] => []

def Style.paintChars (style : Style) (text : List Char) : List Char :=
  style.startChars ++ resumed style.startChars text ++ endChars

/-- A text in a style, or as it is where nothing is coloured. -/
def Style.paint (style : Style) (coloured : Bool) (text : String) : String :=
  if coloured then String.ofList (style.paintChars text.toList) else text

end DesiredState.Terminal
