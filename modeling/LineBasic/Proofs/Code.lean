import LineBasic.Program
import LineBasic.Proofs.Spelling
import LineBasic.Word

/-!
# Programs as instructions

A program given by what its lines do: numbered instructions in ascending order. A
state has a place among the lines, the registers, the output, a count of warnings
and a status, and `Code.step` executes the instruction at the place. No text is
looked at for that.

The text of a program is spelled with one space between lexemes. A formula is put
in parentheses where its place asks for an operator of a higher level, and always
where it is printed.
-/
namespace LineBasic

/-- A natural number short enough to be written. -/
structure Literal where
  value : Nat
  writable : Numeral.writable value = true

/-- A register by its letter, in either case. -/
structure Name where
  register : Fin 26
  capital : Bool

/-- A text that may stand between quotes. -/
structure Quotation where
  body : Text
  quoteless : '"' ∉ body
  inLine : '\n' ∉ body

/-- A text that may stand in a remark. -/
structure Remark where
  body : Text
  inLine : '\n' ∉ body

inductive Operator where
  | plus | minus | times | slash
  deriving DecidableEq

inductive Comparison where
  | equal | less | greater | atMost | atLeast | unequal
  deriving DecidableEq

inductive Formula where
  | literal (number : Literal)
  | register (name : Name)
  | operation (operator : Operator) (left right : Formula)

/-- A comparison of two formulas, or that a single one is not zero. -/
inductive Condition where
  | nonzero (formula : Formula)
  | compared (left : Formula) (comparison : Comparison) (right : Formula)

inductive Element where
  | string (quotation : Quotation)
  | comma
  | semicolon
  | value (formula : Formula)

inductive Instruction where
  | remark (remark : Remark)
  | assign (name : Name) (formula : Formula)
  | branch (condition : Condition) (target : Literal)
  | goto (target : Literal)
  | print (elements : List Element)

/-- Numbered instructions, each number once. -/
structure Code where
  lines : List (Literal × Instruction)
  ascending : lines.Pairwise (·.1.value < ·.1.value)

abbrev Registers := Fin 26 → Int

def Registers.set (registers : Registers) (register : Fin 26) (value : Int) : Registers :=
  fun other => if other = register then value else registers other

/-- Sums have level zero and products level one. -/
def Operator.level : Operator → Nat
  | plus | minus => 0
  | times | slash => 1

/-- A quotient drops its fraction, and a quotient by zero is zero. -/
def Operator.result (size : WordSize) : Operator → Int → Int → Int
  | plus, a, b => size.wrap (a + b)
  | minus, a, b => size.wrap (a - b)
  | times, a, b => size.wrap (a * b)
  | slash, a, b => if b = 0 then 0 else size.wrap (a.tdiv b)

/-- A quotient by zero is warned of. -/
def Operator.warnings : Operator → Int → Nat
  | slash, b => if b = 0 then 1 else 0
  | _, _ => 0

def Comparison.holds : Comparison → Int → Int → Bool
  | equal, a, b => a = b
  | less, a, b => a < b
  | greater, a, b => a > b
  | atMost, a, b => a ≤ b
  | atLeast, a, b => a ≥ b
  | unequal, a, b => a ≠ b

section
variable (size : WordSize) (registers : Registers)

def Formula.value : Formula → Int
  | literal number => size.wrap number.value
  | register name => registers name.register
  | operation operator left right => operator.result size left.value right.value

def Formula.warnings : Formula → Nat
  | literal _ | register _ => 0
  | operation operator left right =>
      left.warnings + right.warnings + operator.warnings (right.value size registers)

def Condition.holds : Condition → Bool
  | nonzero formula => formula.value size registers ≠ 0
  | compared left comparison right =>
      comparison.holds (left.value size registers) (right.value size registers)

def Condition.warnings : Condition → Nat
  | nonzero formula => formula.warnings size registers
  | compared left _ right => left.warnings size registers + right.warnings size registers

/-- What an element writes, set off by a space if it is joined to an item before it. -/
def Element.piece (joined : Bool) : Element → Text
  | string quotation => (if joined then [' '] else []) ++ quotation.body
  | value formula =>
      (if joined then [' '] else []) ++ Numeral.decimal (formula.value size registers)
  | comma | semicolon => [' ']

/-- Whether an item right behind the element is joined to it. -/
def Element.joins : Element → Bool
  | string _ | value _ => true
  | comma | semicolon => false

def Element.written : Bool → List Element → Text
  | _, [] => []
  | joined, element :: rest =>
      element.piece size registers joined ++ written element.joins rest

def Element.warnings : Element → Nat
  | value formula => formula.warnings size registers
  | _ => 0

def Element.allWarnings : List Element → Nat
  | [] => 0
  | element :: rest => element.warnings size registers + allWarnings rest

end

inductive Status where
  | running
  | finished
  | failed (cause : Cause)
  deriving DecidableEq

def Status.isFailed : Status → Bool
  | failed _ => true
  | _ => false

structure State where
  place : Nat
  registers : Registers
  output : Text
  warnings : Nat
  status : Status

def State.start : State := ⟨0, fun _ => 0, [], 0, .running⟩

/-- Go on at the line below. -/
def State.pass (s : State) : State := { s with place := s.place + 1 }

def State.warn (s : State) (count : Nat) : State := { s with warnings := s.warnings + count }

def State.fail (s : State) (cause : Cause) : State := { s with status := .failed cause }

namespace Code

/-- Only positive multiples of ten can be jumped to, and of these only the lines there are. -/
def jump (code : Code) (target : Nat) (s : State) : State :=
  if 10 ≤ target ∧ target % 10 = 0 then
    match code.lines.findIdx? (·.1.value = target) with
    | some place => { s with place := place }
    | none => s.fail (.unreachableLine target)
  else s.fail (.missingLine target)

def execute (code : Code) (size : WordSize) (s : State) : Instruction → State
  | .remark _ => s.pass
  | .assign name formula =>
      { s.warn (formula.warnings size s.registers) with
        registers := s.registers.set name.register (formula.value size s.registers) }.pass
  | .branch condition target =>
      let evaluated := s.warn (condition.warnings size s.registers)
      if condition.holds size s.registers then code.jump target.value evaluated
      else evaluated.pass
  | .goto target => code.jump target.value s
  | .print elements =>
      { s.warn (Element.allWarnings size s.registers elements) with
        output := s.output ++ Element.written size s.registers false elements ++ ['\n'] }.pass

/-- Execute the line at the place. Below the last line the program is finished. -/
def step (code : Code) (size : WordSize) (s : State) : State :=
  match s.status with
  | .running =>
      match code.lines[s.place]? with
      | some (_, instruction) => code.execute size s instruction
      | none => { s with status := .finished }
  | _ => s

def after (code : Code) (size : WordSize) : Nat → State
  | 0 => .start
  | count + 1 => code.step size (code.after size count)

end Code

def Name.letter (name : Name) : Char :=
  Char.ofNat ((if name.capital then 'A'.toNat else 'a'.toNat) + name.register)

def Operator.sign : Operator → Symbol
  | plus => .plus
  | minus => .minus
  | times => .times
  | slash => .slash

def Comparison.sign : Comparison → Symbol
  | equal => .equal
  | less => .less
  | greater => .greater
  | atMost => .atMost
  | atLeast => .atLeast
  | unequal => .unequal

def enclosed (ls : List Lexeme) : List Lexeme :=
  .symbol .openParen :: (ls ++ [.symbol .closeParen])

/-- A formula where only operators from a level on may stand without parentheses. What
is to the right of an operator is a level higher, so that operators associate to the left. -/
def Formula.lexemes : Formula → Nat → List Lexeme
  | literal number, _ => [.number number.value]
  | register name, _ => [.letter name.letter]
  | operation operator left right, level =>
      let plain := left.lexemes operator.level ++
        .symbol operator.sign :: right.lexemes (operator.level + 1)
      if operator.level < level then enclosed plain else plain

def Condition.lexemes : Condition → List Lexeme
  | nonzero formula => formula.lexemes 0
  | compared left comparison right =>
      left.lexemes 0 ++ .symbol comparison.sign :: right.lexemes 0

def Element.lexemes : Element → List Lexeme
  | string quotation => [.string quotation.body]
  | comma => [.separator ',']
  | semicolon => [.separator ';']
  | value formula => enclosed (formula.lexemes 0)

/-- Of a remark this is the word alone. -/
def Instruction.lexemes : Instruction → List Lexeme
  | remark _ => [.keyword .REM]
  | assign name formula =>
      .keyword .LET :: .letter name.letter :: .symbol .equal :: formula.lexemes 0
  | branch condition target =>
      .keyword .IF :: (condition.lexemes ++ [.keyword .THEN, .number target.value])
  | goto target => [.keyword .GOTO, .number target.value]
  | print elements => .keyword .PRINT :: elements.flatMap Element.lexemes

def Instruction.text : Instruction → Text
  | remark r => Lexeme.spelled [.keyword .REM] ++ ' ' :: r.body
  | other => Lexeme.spelled other.lexemes

def Code.program (code : Code) : Program :=
  ⟨code.lines.map fun line => ((line.1.value : Int), line.2.text)⟩

def Code.source (code : Code) : Text := code.program.source

end LineBasic
