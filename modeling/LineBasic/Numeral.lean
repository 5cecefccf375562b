import LineBasic.Text.Blank
import LineBasic.Text.Digit
import LineBasic.Text.Quoted

/-!
# Numerals

Reading and writing integers in decimal. Both ways are limited to 4300 digits.
A numeral in program text is a run of digits; a numeral in a setting may also
have blanks around it, a sign, and single underscores between its digits.
-/
namespace LineBasic.Numeral

/-- The most digits that are read or written. -/
def limit : Nat := 4300

/-- Why a text is not read as an integer. -/
inductive Fault where
  | malformed (text : Text)
  | tooLong (digits : Nat)
  deriving DecidableEq, Repr

/-- The wording of the two limits. -/
def limitMessage (detail : String) : String :=
  "Exceeds the limit (4300 digits) for integer string conversion" ++ detail ++
    "; use sys.set_int_max_str_digits() to increase the limit"

/-- The offending text is quoted up to its two hundredth character. -/
def Fault.message : Fault → String
  | .malformed text =>
      "invalid literal for int() with base 10: " ++ String.ofList (text.quoted.take 200)
  | .tooLong digits => limitMessage (": value has " ++ digits.repr ++ " digits")

/-- The number that decimals spell, most significant first. -/
def value (decimals : Text) : Nat :=
  decimals.foldl (fun n c => 10 * n + (Text.decimalValue? c).getD 0) 0

/-- The number a run of digits spells. The length of the leading decimals is
checked before the digits that have no place value are refused. -/
def natural (digits : Text) : Except Fault Nat :=
  let decimals := digits.takeWhile Text.isDecimal
  if limit < decimals.length then .error (.tooLong decimals.length)
  else if decimals.isEmpty || decimals.length < digits.length then .error (.malformed digits)
  else .ok (value decimals)

/-- Whether underscores stand singly between other characters. -/
def underscoresApart : Text → Bool
  | [] => true
  | ['_'] => false
  | '_' :: '_' :: _ => false
  | _ :: rest => underscoresApart rest

/-- A blank around a setting's numeral: white space, but no separator control. -/
def isPadding (c : Char) : Bool := Text.isBlank c && !(0x1C ≤ c.toNat && c.toNat ≤ 0x1F)

/-- The integer a setting spells. -/
def integer (text : Text) : Except Fault Int :=
  let trimmed := text.trim isPadding
  let (negative, body) := match trimmed with
    | '-' :: rest => (true, rest)
    | '+' :: rest => (false, rest)
    | _ => (false, trimmed)
  let run := body.takeWhile fun c => Text.isDecimal c || c == '_'
  let decimals := run.filter (· != '_')
  if run.head? == some '_' || !underscoresApart run then .error (.malformed text)
  else if limit < decimals.length then .error (.tooLong decimals.length)
  else if decimals.isEmpty || run.length < body.length then .error (.malformed text)
  else
    let magnitude : Int := value decimals
    .ok (if negative then -magnitude else magnitude)

/-- The least magnitude with too many digits to be written. -/
def bound : Nat := Nat.pow 10 limit

/-- Whether an integer is short enough to be written. -/
def writable (v : Int) : Bool := v.natAbs < bound

def decimal (v : Int) : Text :=
  if v < 0 then '-' :: Nat.toDigits 10 v.natAbs else Nat.toDigits 10 v.natAbs

end LineBasic.Numeral
