import LineBasic.Store
import LineBasic.Token

/-!
# Errors and faults

An `Error` is a failure of the program that is being run: it has a cause, and
may point at a place and quote the line it is on. A `Fault` is anything that
stops an operation: an error, or a failure that no diagnostic reports, such as
a numeral that cannot be read or an interrupt.

`iterate` is the one loop of the library. It takes a bound on its rounds, and
running out of rounds is a fault of its own.
-/
namespace LineBasic

inductive ErrorClass where
  | general | lexical | grammatical | execution | internal
  deriving DecidableEq

/-- What is wrong at a place in the text. -/
inductive ScanCause where
  | unterminatedString
  | unexpectedCharacter (c : Char)
  | expectedNumber (found : Kind)
  | expectedString (found : Kind)
  | noData (found : Kind)
  | stated (message : String)
  deriving DecidableEq

def ScanCause.message : ScanCause → String
  | .unterminatedString => "Unterminated string"
  | .unexpectedCharacter c => "Unexpected character: " ++ String.ofList (Text.quoted [c])
  | .expectedNumber found => "Expected number, found " ++ found.name
  | .expectedString found => "Expected string, found " ++ found.name
  | .noData found => "No data for " ++ found.name ++ " token"
  | .stated message => message

inductive Cause where
  | scan (cause : ScanCause) (file : Text)
  | unexpectedToken (found expected : Kind)
  | notAFactor (found : Kind)
  | unrecognizedStatement
  | expectedVariable
  | expectedTarget
  | missingLine (number : Int)
  | unreachableLine (number : Int)
  | stated (kind : ErrorClass) (message : String)
  deriving DecidableEq

namespace Cause

def errorClass : Cause → ErrorClass
  | scan _ _ => .lexical
  | unexpectedToken _ _ | notAFactor _ | unrecognizedStatement | expectedVariable
  | expectedTarget => .grammatical
  | missingLine _ => .execution
  | unreachableLine _ => .internal
  | stated kind _ => kind

def message : Cause → String
  | scan cause file => cause.message ++ " in " ++ String.ofList file
  | unexpectedToken found expected =>
      "unexpected `" ++ found.name ++ "` expected `" ++ expected.name ++ "`"
  | notAFactor found => "Syntax Error: Unexpected token in factor: " ++ found.name
  | unrecognizedStatement => "Syntax Error: Unrecognized statement"
  | expectedVariable => "Syntax Error: Expected variable name"
  | expectedTarget => "Syntax Error: Expected line number after THEN"
  | missingLine number =>
      "Runtime Error: Line number " ++ String.ofList (Numeral.decimal number) ++ " not found"
  | unreachableLine number =>
      "Internal Error: Failed to find valid line number " ++
        String.ofList (Numeral.decimal number)
  | stated _ message => message

end Cause

structure Error where
  cause : Cause
  mark : Option Mark
  line : Option Text
  deriving DecidableEq

namespace Error

def errorClass (e : Error) : ErrorClass := e.cause.errorClass

/-- The full text: with a mark and a line, the line is quoted and pointed into. -/
def text (e : Error) : String :=
  match e.mark, e.line with
  | some mark, some line =>
      "Line " ++ String.ofList (Numeral.decimal mark.line) ++ ": " ++ e.cause.message ++ "\n" ++
        String.ofList line ++ "\n" ++ String.ofList mark.pointer
  | _, _ => e.cause.message

end Error

/-- Anything that stops an operation. `stalled` is the bound of a loop. -/
inductive Fault where
  | error (error : Error)
  | numeral (fault : Numeral.Fault)
  | unwritable
  | refused (refusal : Store.Refusal)
  | interrupted
  | stalled
  deriving DecidableEq

namespace Fault

def message : Fault → String
  | error e => e.text
  | numeral fault => fault.message
  | unwritable => Numeral.limitMessage ""
  | refused refusal => refusal.message
  | interrupted => ""
  | stalled => "no progress"

end Fault

/-- Whether a loop goes on, with what it carries, or ends, with its result. -/
inductive Round (α β : Type) where
  | again (carried : α)
  | done (result : β)

/-- At most `rounds` rounds of a loop. -/
def iterate {σ α β : Type} (body : α → EStateM Fault σ (Round α β)) :
    Nat → α → EStateM Fault σ β
  | 0, _ => throw .stalled
  | rounds + 1, carried => do
      match ← body carried with
      | .again next => iterate body rounds next
      | .done result => pure result

/-- A computed result or refusal as an action that leaves the state alone. -/
def lift {σ ε α : Type} (wrap : ε → Fault) : Except ε α → EStateM Fault σ α
  | .ok a => pure a
  | .error e => throw (wrap e)

end LineBasic
