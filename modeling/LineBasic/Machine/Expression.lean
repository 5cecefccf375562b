import LineBasic.Machine

/-!
# Expressions

Expressions are evaluated as they are read. A sum is made of products, a
product of factors, and a factor is a number, a letter or a sum in
parentheses. Operators of one level associate to the left. Every literal and
every result is wrapped to the word; a division by zero gives zero and a
warning.

Parentheses nest as deep as the text has them. A host that recurses once for
each of them gives up at some depth; that depth is not modelled.
-/
namespace LineBasic.Machine

/-- A quotient, or zero with a warning. -/
def divide (numerator denominator : Int) : Run Int := do
  if denominator = 0 then
    onReports (Reports.warn "divide by zero")
    note .dividedByZero
    pure 0
  else return (← get).size.divide numerator denominator

def multiply? : Lexeme → Option (Int → Int → Run Int)
  | .symbol .times => some fun a b => return (← get).size.wrap (a * b)
  | .symbol .slash => some divide
  | _ => none

def add? : Lexeme → Option (Int → Int → Run Int)
  | .symbol .plus => some fun a b => return (← get).size.wrap (a + b)
  | .symbol .minus => some fun a b => return (← get).size.wrap (a - b)
  | _ => none

/-- An operator and its right operand, or the end of the chain. -/
def chainRound (operand : Run Int) (operator? : Lexeme → Option (Int → Int → Run Int))
    (value : Int) : Run (Round Int Int) := do
  match operator? (← lexeme) with
  | none => pure (.done value)
  | some operator => do
      next
      let other ← operand
      return .again (← operator value other)

/-- Operands and the operators between them, from a first value on, applied from left to right. -/
def chain (operand : Run Int) (operator? : Lexeme → Option (Int → Int → Run Int)) (first : Int) :
    Run Int := do
  iterate (chainRound operand operator?) (← moves) first

/-- A factor, given how to evaluate what stands in parentheses. -/
def factorWith (inner : Run Int) : Run Int := do
  match ← lexeme with
  | .number value => do
      let word := (← get).size.wrap value
      note (.literal word)
      next
      pure word
  | .letter letter => do
      let name := Text.lower [letter]
      let value ← register name
      note (.variableRead name value)
      next
      pure value
  | .symbol .openParen => do
      next
      let value ← inner
      accept (.symbol .closeParen)
      pure value
  | other => failHere (.notAFactor other.kind)

def termOf (factor : Run Int) : Run Int := do
  let first ← factor
  chain factor multiply? first

/-- A line number right after the first term is left to the statement. -/
def sumOf (term : Run Int) : Run Int := do
  let first ← term
  match ← lineNumber? true with
  | some number => do
      note (.expressionStopped number)
      pure first
  | none => chain term add? first

def termWith (inner : Run Int) : Run Int := termOf (factorWith inner)

def expressionWith (inner : Run Int) : Run Int := sumOf (termWith inner)

/-- An expression with parentheses nested less than `depth` deep. -/
def expressionWithin : Nat → Run Int
  | 0 => throw .stalled
  | depth + 1 => expressionWith (expressionWithin depth)

/-- Each parenthesis takes a character, so the length of the text bounds the nesting. -/
def expression : Run Int := do expressionWithin (← moves)

def term : Run Int := termWith expression

def factor : Run Int := factorWith expression

/-- One for a true comparison, zero for a false one. -/
def truth (holds : Bool) : Int := if holds then 1 else 0

/-- What follows the first expression of a comparison. A single expression is compared with zero. -/
def relationFrom (evaluate : Run Int) (left : Int) : Run Int := do
  match ← lexeme with
  | .symbol sign =>
      match sign.compares? with
      | some compares => do
          next
          let right ← evaluate
          note (.compared left sign right)
          pure (truth (compares left right))
      | none => pure (truth (left != 0))
  | _ => pure (truth (left != 0))

/-- A comparison, given how to evaluate its sides. -/
def relationWith (evaluate : Run Int) : Run Int := do
  let left ← evaluate
  relationFrom evaluate left

def relation : Run Int := relationWith expression

end LineBasic.Machine
