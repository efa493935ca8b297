/-!
# Plain text for what is no terminal

Some sequences of characters steer a terminal and are not shown by it. They start with an escape
character; what may follow depends on the kind of sequence. `plain` leaves out such sequences and
all control characters that are no blanks.

A line break or another blank may stand within a sequence. It is shown, and the text after it
counts as text again until something comes that is not shown; from there on the sequence goes on.
-/

namespace DesiredState.Terminal

/-- Where the reading of a sequence stands. -/
inductive Mode where
  /-- Outside of sequences. -/
  | text
  /-- After an escape character. -/
  | escape
  /-- Within a short escape. -/
  | escapeMarks
  /-- At the start of a control sequence. -/
  | control
  /-- In the numbers of a control sequence. -/
  | controlNumbers
  /-- In the marks behind the numbers. -/
  | controlMarks
  /-- In a control sequence that makes no sense. -/
  | controlIgnored
  /-- At the start of a device command. -/
  | device
  /-- In the numbers of a device command. -/
  | deviceNumbers
  /-- In the marks behind the numbers. -/
  | deviceMarks
  /-- In what a device command says, until it is cancelled. -/
  | deviceData
  /-- In a command to the operating system, until the bell. -/
  | command
  /-- In a message, until it is cancelled. -/
  | message
  deriving DecidableEq, Repr

inductive Role where
  /-- It cancels every sequence. -/
  | cancel
  /-- It starts a sequence. -/
  | escape
  /-- Another control character. -/
  | control
  | mark
  | number
  | sign
  /-- It ends a control sequence. -/
  | final
  | delete
  /-- It is no ASCII character. -/
  | other
  deriving DecidableEq, Repr

def Role.of (c : Char) : Role :=
  let code := c.toNat
  if code = 0x18 ∨ code = 0x1A then .cancel
  else if code = 0x1B then .escape
  else if code < 0x20 then .control
  else if code < 0x30 then .mark
  else if code < 0x3C then .number
  else if code < 0x40 then .sign
  else if code < 0x7F then .final
  else if code = 0x7F then .delete
  else .other

/-- What follows an escape character opens a sequence of some kind or is all of it. -/
def Mode.opened (c : Char) : Mode :=
  if c = '[' then .control
  else if c = ']' then .command
  else if c = 'P' then .device
  else if c = 'X' ∨ c = '^' ∨ c = '_' then .message
  else .text

def hasCancel (c : Char) : Bool := (String.utf8EncodeChar c).contains 0x9C

def Mode.next (mode : Mode) (c : Char) : Mode :=
  match Role.of c, mode with
  | .cancel, _ => .text
  | .escape, _ => .escape
  | _, .text => .text
  | .control, .command => if c = '\x07' then .text else .command
  | _, .command => .command
  | _, .deviceData => if hasCancel c then .text else .deviceData
  | _, .message => if hasCancel c then .text else .message
  | .control, mode | .delete, mode | .other, mode => mode
  | .mark, .escape | .mark, .escapeMarks => .escapeMarks
  | _, .escape => .opened c
  | _, .escapeMarks => .text
  | .final, .control | .final, .controlNumbers | .final, .controlMarks
  | .final, .controlIgnored => .text
  | _, .controlIgnored => .controlIgnored
  | .mark, .control | .mark, .controlNumbers | .mark, .controlMarks => .controlMarks
  | _, .control | .number, .controlNumbers => .controlNumbers
  | _, .controlNumbers | _, .controlMarks => .controlIgnored
  | .mark, .device | .mark, .deviceNumbers | .mark, .deviceMarks => .deviceMarks
  | .number, .device | .sign, .device | .number, .deviceNumbers => .deviceNumbers
  | _, .device | _, .deviceNumbers | _, .deviceMarks => .deviceData

/-- Whether blanks are shown within a sequence. -/
def Mode.showsBlanks : Mode → Bool
  | .device | .deviceNumbers | .deviceMarks | .deviceData | .command | .message => false
  | _ => true

def isBreak (c : Char) : Bool := c = '\t' || c = '\n' || c = '\x0c' || c = '\r'

/-- Whether a character is shown. -/
def Mode.shows (mode : Mode) (c : Char) : Bool :=
  if isBreak c then mode.showsBlanks
  else mode = .text && 0x20 ≤ c.toNat && c.toNat ≠ 0x7F

/-- The characters that are shown; `showing` tells that the last one was. -/
def plainChars (mode : Mode) (showing : Bool) : List Char → List Char
  | [] => []
  | c :: rest =>
    if (if showing then .text else mode).shows c then
      c :: plainChars (if Role.of c = .other then .text else mode) true rest
    else plainChars (mode.next c) false rest

/-- A text without what only steers a terminal. -/
def plain (text : String) : String := String.ofList (plainChars .text false text.toList)

example : plainChars .text false ['a', '\x1b', '[', '3', '1', 'm', 'b', '\x07', 'c'] =
    ['a', 'b', 'c'] := by decide

example : plainChars .text false ['\x1b', '[', '\n', 'a', '\x07', '1', 'b', 'c'] =
    ['\n', 'a', 'c'] := by decide

end DesiredState.Terminal
