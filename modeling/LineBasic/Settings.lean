import LineBasic.Trace
import LineBasic.Word

/-!
# Settings

The word size, the level of the trace and the file it is also written to. Each
may be chosen directly or by an environment variable, and a direct choice wins.
The environment is read first and as a whole: a word size in it that is no
numeral is refused even if a direct choice would replace it.
-/
namespace LineBasic

structure Settings where
  size : WordSize
  level : Level
  logFile : Option Text

/-- The word size when none is chosen. -/
def WordSize.usual : WordSize := ⟨32, by decide⟩

/-- What is chosen, before it is checked. -/
structure Choices where
  wordBits : Option Int := none
  level : Option Text := none
  logFile : Option Text := none
  deriving DecidableEq

abbrev Environment := List (Text × Text)

namespace Settings

/-- Why choices make no settings. -/
inductive Refusal where
  | wordTooShort (bits : Int)
  | unknownLevel (name : Text)
  | numeral (fault : Numeral.Fault)
  deriving DecidableEq

def Refusal.message : Refusal → String
  | .wordTooShort bits =>
      "word_bits must be at least 2, got " ++ String.ofList (Numeral.decimal bits)
  | .unknownLevel name => "unknown log level " ++ String.ofList name.quoted
  | .numeral fault => fault.message

/-- A word size of at least two bits. -/
def wordSize (bits : Int) : Except Refusal WordSize :=
  if h : 2 ≤ bits.toNat then .ok ⟨bits.toNat, h⟩ else .error (.wordTooShort bits)

def levelNamed (name : Text) : Except Refusal Level :=
  match Level.ofText? name with
  | some level => .ok level
  | none => .error (.unknownLevel name.upper)

/-- The settings of checked choices, the word size before the level. -/
def ofChoices (choices : Choices) : Except Refusal Settings := do
  let size ← match choices.wordBits with
    | some bits => wordSize bits
    | none => pure .usual
  let level ← match choices.level with
    | some name => levelNamed name
    | none => pure .warning
  return ⟨size, level, choices.logFile⟩

end Settings

namespace Choices

def wordBitsVariable : Text := "SUBARUU_WORD_BITS".toList

def levelVariable : Text := "SUBARUU_LOG_LEVEL".toList

def logFileVariable : Text := "SUBARUU_LOG_FILE".toList

def variableNames : List Text := [wordBitsVariable, levelVariable, logFileVariable]

/-- The choices an environment holds. An empty log file is none. -/
def ofEnvironment (environment : Environment) : Except Settings.Refusal Choices := do
  let wordBits ← match environment.lookup wordBitsVariable with
    | some text =>
        match Numeral.integer text with
        | .ok bits => pure (some bits)
        | .error fault => throw (.numeral fault)
    | none => pure none
  return {
    wordBits := wordBits
    level := environment.lookup levelVariable
    logFile := (environment.lookup logFileVariable).filter fun name => !name.isEmpty }

/-- Direct choices over those of the environment. -/
def orElse (direct given : Choices) : Choices where
  wordBits := direct.wordBits.or given.wordBits
  level := direct.level.or given.level
  logFile := direct.logFile.or given.logFile

end Choices

/-- The settings of an environment under direct choices. -/
def Settings.ofEnvironment (environment : Environment) (direct : Choices) :
    Except Settings.Refusal Settings := do
  Settings.ofChoices (direct.orElse (← Choices.ofEnvironment environment))

end LineBasic
