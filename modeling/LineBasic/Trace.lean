import LineBasic.Fault

/-!
# The trace

What a running program records about itself. An event is kept as what
happened; its level, the channel it belongs to and its wording are functions
of it. An event is worded as soon as it happens, so an event that holds an
integer too long to be written cannot be recorded.
-/
namespace LineBasic

/-- Levels of trace records, from the least to the most severe. -/
inductive Level where
  | debug | info | warning | error | critical
  deriving DecidableEq

namespace Level

def all : List Level := [debug, info, warning, error, critical]

def name : Level → Text
  | debug => ['D', 'E', 'B', 'U', 'G']
  | info => ['I', 'N', 'F', 'O']
  | warning => ['W', 'A', 'R', 'N', 'I', 'N', 'G']
  | error => ['E', 'R', 'R', 'O', 'R']
  | critical => ['C', 'R', 'I', 'T', 'I', 'C', 'A', 'L']

def rank : Level → Nat
  | debug => 10
  | info => 20
  | warning => 30
  | error => 40
  | critical => 50

def ofText? (text : Text) : Option Level := all.find? (·.name == text.upper)

/-- Whether a log kept at this level takes a record of another. -/
def takes (kept level : Level) : Bool := kept.rank ≤ level.rank

end Level

structure Record where
  level : Level
  channel : String
  message : String
  deriving DecidableEq

/-- A record as a line of a log file, the time left out. -/
def Record.line (r : Record) : String :=
  "[" ++ String.ofList r.level.name ++ "] " ++ r.channel ++ ": " ++ r.message ++ "\n"

inductive Event where
  | indexing
  | indexed (numbers : List Nat)
  | scanFailed (file : Text) (line column : Int) (cause : ScanCause)
  | warned (count : Nat) (message : String)
  | literal (value : Int)
  | variableRead (name : Text) (value : Int)
  | expressionStopped (number : Nat)
  | dividedByZero
  | compared (left : Int) (sign : Symbol) (right : Int)
  | runStarted
  | runEnded
  | lineReached (number : Nat)
  | unrecognized (found : Kind)
  | assigned (name : Text) (value : Int)
  | jumped (number : Nat)
  | printStopped (found : Kind)
  | printed (text : Text)
  | lineAdded (text : Text)
  deriving DecidableEq

namespace Event

def level : Event → Level
  | printed _ => .info
  | _ => .debug

def channel : Event → String
  | indexing | indexed _ => "subaruu.lines"
  | scanFailed .. => "subaruu.tokenizer"
  | warned .. => "subaruu.errors"
  | literal _ | variableRead .. | expressionStopped _ | dividedByZero | compared .. =>
      "subaruu.evaluator"
  | runStarted | runEnded | lineReached _ | unrecognized _ | assigned .. | jumped _
  | printStopped _ | printed _ => "subaruu.interpreter"
  | lineAdded _ => "subaruu.__main__"

def numeral (v : Int) : String := String.ofList (Numeral.decimal v)

def message : Event → String
  | indexing => "Building line number index"
  | indexed numbers =>
      "Found these line numbers: " ++ " ".intercalate (numbers.map fun (n : Nat) => numeral n)
  | scanFailed file line column cause =>
      String.ofList file ++ ":" ++ numeral line ++ ":" ++ numeral column ++ ": " ++ cause.message
  | warned count message => "warning #" ++ numeral count ++ ": " ++ message
  | literal value => "Factor number: " ++ numeral value
  | variableRead name value =>
      "Factor variable " ++ String.ofList name ++ " = " ++ numeral value
  | expressionStopped number => "Expression stops before line number " ++ numeral number
  | dividedByZero => "Division by zero detected, setting result to 0"
  | compared left sign right =>
      "Relation " ++ numeral left ++ " " ++ String.ofList sign.spelling ++ " " ++ numeral right
  | runStarted => "Starting program execution"
  | runEnded => "Program execution finished"
  | lineReached number => "line " ++ numeral number
  | unrecognized found => "Unrecognized statement type: " ++ found.name
  | assigned name value => "LET " ++ String.ofList name ++ " = " ++ numeral value
  | jumped number => "Condition true, jumping to line " ++ numeral number
  | printStopped found => "Found unexpected token: " ++ found.name
  | printed text => "PRINT: " ++ String.ofList text.quoted
  | lineAdded text => "Added line: " ++ String.ofList text

/-- Whether the integers of an event can be written. -/
def writable : Event → Bool
  | indexed numbers => numbers.all fun (n : Nat) => Numeral.writable n
  | literal value | variableRead _ value | assigned _ value => Numeral.writable value
  | compared left _ right => Numeral.writable left && Numeral.writable right
  | expressionStopped number | lineReached number | jumped number => Numeral.writable number
  | _ => true

def record (e : Event) : Record := ⟨e.level, e.channel, e.message⟩

end Event

end LineBasic
