import LineBasic.Settings

/-!
# Command-line arguments

`[-h] [--log-level L] [--log-file F] [--word-bits N] [program]`. Long options
may be shortened to any beginning that is not ambiguous, and take their value
from the next argument or after an equals sign. After `--` every argument is
positional. Options may be repeated, and the last value counts.

Arguments are first sorted into options and others; an ambiguous option is
refused there, before any of them takes effect. Then they are taken from left
to right, and the first that is wrong, or asks for help, ends the reading.
Arguments that are left over are refused together at the end.
-/
namespace LineBasic.Arguments

inductive Flag where
  | help | logLevel | logFile | wordBits
  deriving DecidableEq

/-- The long options in the order in which they are listed. -/
def Flag.all : List Flag := [help, logLevel, logFile, wordBits]

def Flag.long : Flag → String
  | help => "--help"
  | logLevel => "--log-level"
  | logFile => "--log-file"
  | wordBits => "--word-bits"

def Flag.name : Flag → String
  | help => "-h/--help"
  | flag => flag.long

/-- Where a value given in the same argument comes from. -/
inductive Attached where
  | none
  | afterEquals (value : Text)
  | cluster (letters : Text)

/-- What an argument is before it takes effect. -/
inductive Role where
  | positional
  | dashes
  | option (flag : Flag) (attached : Attached)
  | unknownOption

/-- Why the arguments are not accepted. -/
inductive Misuse where
  | ambiguous (typed : Text) (candidates : List Flag)
  | expectedValue (flag : Flag)
  | ignoredValue (flag : Flag) (value : Text)
  | invalidInteger (flag : Flag) (value : Text)
  | invalidChoice (flag : Flag) (value : Text)
  | unrecognized (arguments : List Text)

structure Accepted where
  program : Option Text := none
  choices : Choices := {}

/-- How the reading of the arguments ends. -/
inductive Reading where
  | accepted (result : Accepted)
  | help
  | misuse (fault : Misuse)

def usage : String :=
  "usage: subaruu [-h] [--log-level \x7bDEBUG,INFO,WARNING,ERROR,CRITICAL\x7d] " ++
  "[--log-file LOG_FILE] [--word-bits WORD_BITS] [program]\n"

def helpText : String := usage ++
  "\n" ++
  "Run a line-numbered BASIC program, or edit one interactively.\n" ++
  "\n" ++
  "positional arguments:\n" ++
  "  program               BASIC program to run\n" ++
  "\n" ++
  "options:\n" ++
  "  -h, --help            show this help message and exit\n" ++
  "  --log-level \x7bDEBUG,INFO,WARNING,ERROR,CRITICAL\x7d\n" ++
  "                        Trace logging level (default WARNING)\n" ++
  "  --log-file LOG_FILE   Also write the trace log to this file\n" ++
  "  --word-bits WORD_BITS\n" ++
  "                        Width of the signed integer word (default 32)\n"

/-- A text in a message between quotes. -/
def shown (text : Text) : String := String.ofList text.quoted

def Misuse.message : Misuse → String
  | ambiguous typed candidates =>
      "ambiguous option: " ++ String.ofList typed ++ " could match " ++
        ", ".intercalate (candidates.map Flag.long)
  | expectedValue flag => "argument " ++ flag.name ++ ": expected one argument"
  | ignoredValue flag value =>
      "argument " ++ flag.name ++ ": ignored explicit argument " ++ shown value
  | invalidInteger flag value =>
      "argument " ++ flag.name ++ ": invalid int value: " ++ shown value
  | invalidChoice flag value =>
      "argument " ++ flag.name ++ ": invalid choice: " ++ shown value ++ " (choose from " ++
        ", ".intercalate (Level.all.map fun level => shown level.name) ++ ")"
  | unrecognized arguments =>
      "unrecognized arguments: " ++ " ".intercalate (arguments.map String.ofList)

def Misuse.text (fault : Misuse) : String := usage ++ "subaruu: error: " ++ fault.message ++ "\n"

/-- The part before the first equals sign, and the part after it if there is one. -/
def splitEquals (text : Text) : Text × Attached :=
  let before := text.takeWhile (· != '=')
  match text.drop before.length with
  | _ :: value => (before, .afterEquals value)
  | [] => (before, .none)

/-- Whether an argument reads as a negative number, with or without a fraction. -/
def negativeNumber (text : Text) : Bool :=
  match text with
  | '-' :: body =>
      let body := if body.getLast? = some '\n' then body.dropLast else body
      let whole := body.takeWhile Text.isDecimal
      match body.drop whole.length with
      | [] => !whole.isEmpty
      | '.' :: fraction => !fraction.isEmpty && fraction.all Text.isDecimal
      | _ => false
  | _ => false

/-- What becomes of an argument that starts with a dash and names no option. -/
def sortUnnamed (argument : Text) : Role :=
  if negativeNumber argument || argument.contains ' ' then .positional else .unknownOption

/-- Sort one argument that stands before any `--`. -/
def sortArgument (argument : Text) : Except Misuse Role :=
  match argument with
  | ['-'] => .ok .positional
  | ['-', '-'] => .ok .dashes
  | '-' :: '-' :: _ =>
      let (typed, attached) := splitEquals argument
      match Flag.all.find? (·.long.toList == typed) with
      | some flag => .ok (.option flag attached)
      | none =>
          match Flag.all.filter fun flag => typed.isPrefixOf flag.long.toList with
          | [flag] => .ok (.option flag attached)
          | [] => .ok (sortUnnamed argument)
          | candidates => .error (.ambiguous argument candidates)
  | ['-', 'h'] => .ok (.option .help .none)
  | '-' :: 'h' :: '=' :: value => .ok (.option .help (.afterEquals value))
  | '-' :: 'h' :: letters => .ok (.option .help (.cluster letters))
  | '-' :: _ => .ok (sortUnnamed argument)
  | _ => .ok .positional

def sortAll : List Text → Except Misuse (List (Text × Role))
  | [] => .ok []
  | argument :: rest => do
      match ← sortArgument argument with
      | .dashes => return (argument, .dashes) :: rest.map fun later => (later, .positional)
      | role => return (argument, role) :: (← sortAll rest)

/-- Letters after `-h`: more of the same, perhaps with a value at the end. -/
def helpCluster : Text → Reading
  | [] => .help
  | '-' :: rest => .misuse (.ignoredValue .help ('-' :: rest))
  | 'h' :: '=' :: value => .misuse (.ignoredValue .help value)
  | 'h' :: rest => helpCluster rest
  | _ :: _ => .help

def takeHelp : Attached → Reading
  | .none => .help
  | .afterEquals value => .misuse (.ignoredValue .help value)
  | .cluster letters => helpCluster letters

def takeValue (flag : Flag) (value : Text) (choices : Choices) : Except Misuse Choices :=
  match flag with
  | .logLevel =>
      if (Level.ofText? value).isSome then .ok { choices with level := some value.upper }
      else .error (.invalidChoice flag value.upper)
  | .logFile => .ok { choices with logFile := some value }
  | .wordBits =>
      match Numeral.integer value with
      | .ok bits => .ok { choices with wordBits := some bits }
      | .error _ => .error (.invalidInteger flag value)
  | .help => .ok choices

/-- How far the program argument has come: still to come, announced by `--`,
just taken, or past. -/
inductive Stage where
  | awaited | announced | taken | past
  deriving DecidableEq

structure Taking where
  choices : Choices := {}
  program : Option Text := none
  stage : Stage := .awaited
  leftOver : List Text := []

/-- The first positional argument is the program. -/
def Taking.positional (t : Taking) (argument : Text) : Taking :=
  match t.stage with
  | .awaited | .announced => { t with program := some argument, stage := .taken }
  | .taken | .past => { t with stage := .past, leftOver := t.leftOver ++ [argument] }

/-- A `--` right before or right after the program is dropped. -/
def Taking.dashes (t : Taking) (argument : Text) : Taking :=
  match t.stage with
  | .awaited => { t with stage := .announced }
  | .taken => { t with stage := .past }
  | .announced | .past => { t with leftOver := t.leftOver ++ [argument] }

/-- Another argument stands between the program and what follows. -/
def Taking.leave (t : Taking) : Taking :=
  if t.stage = .taken then { t with stage := .past } else t

def take (t : Taking) : List (Text × Role) → Reading
  | [] =>
      if t.leftOver.isEmpty then .accepted ⟨t.program, t.choices⟩
      else .misuse (.unrecognized t.leftOver)
  | (argument, .positional) :: rest => take (t.positional argument) rest
  | (argument, .dashes) :: rest => take (t.dashes argument) rest
  | (argument, .unknownOption) :: rest =>
      take { t.leave with leftOver := t.leftOver ++ [argument] } rest
  | (_, .option .help attached) :: _ => takeHelp attached
  | (_, .option flag (.afterEquals value)) :: rest =>
      match takeValue flag value t.choices with
      | .ok choices => take { t.leave with choices := choices } rest
      | .error fault => .misuse fault
  | (_, .option flag _) :: (value, .positional) :: rest =>
      match takeValue flag value t.choices with
      | .ok choices => take { t.leave with choices := choices } rest
      | .error fault => .misuse fault
  | (_, .option flag _) :: _ => .misuse (.expectedValue flag)

def parse (arguments : List Text) : Reading :=
  match sortAll arguments with
  | .ok sorted => take {} sorted
  | .error fault => .misuse fault

end LineBasic.Arguments
