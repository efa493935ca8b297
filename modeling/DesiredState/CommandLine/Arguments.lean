/-!
# Arguments

A level of a command line consists of options, each at most once unless it is counted, and of
words that stand by themselves. A value follows its option as the next argument or after an equals
sign; short options may share a dash. After two dashes everything is a word.
-/

namespace DesiredState.CommandLine

inductive OptionKind where
  /-- It stands alone. -/
  | switch
  /-- It stands alone and may be repeated. -/
  | counted
  /-- It has a value, which must not be empty. -/
  | filled
  /-- It has a value. -/
  | valued
  deriving DecidableEq

structure OptionSpec where
  long : String
  short : Option Char
  kind : OptionKind
  deriving DecidableEq

structure LevelSpec where
  options : List OptionSpec
  /-- The names of levels below; the first word is one of them. -/
  below : List String
  /-- How many words there are otherwise. -/
  words : Nat
  /-- The words that are accepted, if not all are. -/
  accepted : Option (List String)

structure Level where
  switches : List String
  values : List (String × String)
  words : List String
  deriving DecidableEq

/-- Why reading ended early. -/
inductive Stop where
  | usage (reason : String)
  | help
  | version
  deriving DecidableEq

namespace Level

def empty : Level := ⟨[], [], []⟩

def count (l : Level) (long : String) : Nat := l.switches.count long

def value? (l : Level) (long : String) : Option String :=
  (l.values.find? fun entry => entry.1 = long).map Prod.snd

def addSwitch (l : Level) (o : OptionSpec) : Except Stop Level :=
  if o.kind = .counted ∨ l.count o.long = 0 then
    .ok { l with switches := o.long :: l.switches }
  else .error (.usage ("the argument '--" ++ o.long ++ "' cannot be used multiple times"))

def addValue (l : Level) (o : OptionSpec) (value : String) : Except Stop Level :=
  if o.kind = .filled ∧ value.isEmpty then
    .error (.usage ("a value is required for '--" ++ o.long ++ "' but none was supplied"))
  else if (l.value? o.long).isSome then
    .error (.usage ("the argument '--" ++ o.long ++ "' cannot be used multiple times"))
  else .ok { l with values := l.values ++ [(o.long, value)] }

def addWord (spec : LevelSpec) (l : Level) (word : String) : Except Stop Level :=
  if ¬ spec.below.isEmpty then .error (.usage ("unrecognized subcommand '" ++ word ++ "'"))
  else if spec.words ≤ l.words.length then
    .error (.usage ("unexpected argument '" ++ word ++ "' found"))
  else if spec.accepted.any fun words => ¬ words.contains word then
    .error (.usage ("invalid value '" ++ word ++ "'"))
  else .ok { l with words := l.words ++ [word] }

end Level

def OptionSpec.hasValue (o : OptionSpec) : Bool := o.kind = .filled ∨ o.kind = .valued

/-- An argument and what reading it leaves: the level, and an option that waits for its value. -/
abbrev Progressed : Type := Level × Option OptionSpec

def readShort (spec : LevelSpec) (l : Level) : List Char → Except Stop Progressed
  | [] => .ok (l, none)
  | c :: rest =>
    match spec.options.find? fun o => o.short = some c with
    | some o =>
      if o.hasValue then
        match rest with
        | [] => .ok (l, some o)
        | '=' :: value => (l.addValue o (String.ofList value)).map fun l => (l, none)
        | value => (l.addValue o (String.ofList value)).map fun l => (l, none)
      else
        match l.addSwitch o with
        | .ok l => readShort spec l rest
        | .error stop => .error stop
    | none =>
      if c = 'h' then .error .help
      else if c = 'V' then .error .version
      else .error (.usage ("unexpected argument '-" ++ String.ofList [c] ++ "' found"))

/-- Read the long option behind two dashes; its value may follow an equals sign. -/
def readLong (spec : LevelSpec) (l : Level) (text : List Char) : Except Stop Progressed :=
  let name := String.ofList (text.takeWhile (· ≠ '='))
  let value := (text.dropWhile (· ≠ '=')).tail?
  match spec.options.find? fun o => o.long = name with
  | some o =>
    match o.hasValue, value with
    | true, some value => (l.addValue o (String.ofList value)).map fun l => (l, none)
    | true, none => .ok (l, some o)
    | false, none => (l.addSwitch o).map fun l => (l, none)
    | false, some _ => .error (.usage ("unexpected value for '--" ++ name ++ "'"))
  | none =>
    if value.isSome then .error (.usage ("unexpected argument '--" ++ name ++ "' found"))
    else if name = "help" then .error .help
    else if name = "version" then .error .version
    else .error (.usage ("unexpected argument '--" ++ name ++ "' found"))

/-- Whether an argument is read as options. -/
def isDashed (argument : String) : Bool :=
  match argument.toList with
  | '-' :: _ :: _ => true
  | _ => false

def readArgument (spec : LevelSpec) (l : Level) (argument : String) : Except Stop Progressed :=
  match argument.toList with
  | '-' :: '-' :: text => readLong spec l text
  | '-' :: c :: text => readShort spec l (c :: text)
  | _ => (l.addWord spec argument).map fun l => (l, none)

def readWords (spec : LevelSpec) (l : Level) : List String → Except Stop Level
  | [] => .ok l
  | word :: rest =>
    match l.addWord spec word with
    | .ok l => readWords spec l rest
    | .error stop => .error stop

/-- Read a level. It ends with the arguments or with the name of a level below; what comes after
the name is left over. -/
def readLevel (spec : LevelSpec) : Level → Option OptionSpec → List String →
    Except Stop (Level × Option (String × List String))
  | l, none, [] => .ok (l, none)
  | _, some o, [] =>
    .error (.usage ("a value is required for '--" ++ o.long ++ "' but none was supplied"))
  | l, some o, argument :: rest =>
    if isDashed argument then
      .error (.usage ("a value is required for '--" ++ o.long ++ "' but none was supplied"))
    else
      match l.addValue o argument with
      | .ok l => readLevel spec l none rest
      | .error stop => .error stop
  | l, none, argument :: rest =>
    if spec.below.contains argument then .ok (l, some (argument, rest))
    else if argument = "--" then (readWords spec l rest).map fun l => (l, none)
    else
      match readArgument spec l argument with
      | .ok (l, waiting) => readLevel spec l waiting rest
      | .error stop => .error stop

end DesiredState.CommandLine
