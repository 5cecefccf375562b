import LineBasic.Text.Quoted

/-!
# Source files

A program file is UTF-8. Its line ends are brought to a single line feed, and
one is added at the end if there is none. Bytes that are not UTF-8 are refused
at the first character that cannot be completed.
-/
namespace LineBasic.Source

abbrev Bytes := List UInt8

/-- Why bytes at `start`, up to and without `stop`, make no character. -/
inductive Reason where
  | badStart | badContinuation | cutShort
  deriving DecidableEq

structure Fault where
  byte : UInt8
  start : Nat
  stop : Nat
  reason : Reason
  deriving DecidableEq

def Reason.message : Reason → String
  | badStart => "invalid start byte"
  | badContinuation => "invalid continuation byte"
  | cutShort => "unexpected end of data"

def Fault.message (f : Fault) : String :=
  let place := if f.stop = f.start + 1
    then "byte 0x" ++ String.ofList (Text.hex 2 f.byte.toNat) ++ " in position " ++ f.start.repr
    else "bytes in position " ++ f.start.repr ++ "-" ++ (f.stop - 1).repr
  "'utf-8' codec can't decode " ++ place ++ ": " ++ f.reason.message

/-- A character of which the first bytes have been read: the bits so far, the
bytes still owed and the range of the next one. -/
structure Partial where
  first : UInt8
  start : Nat
  bits : Nat
  owed : Nat
  low : Nat
  high : Nat

/-- What a first byte of a longer character promises. -/
def lead? (byte : UInt8) (pos : Nat) : Option Partial :=
  let n := byte.toNat
  if 0xC2 ≤ n && n ≤ 0xDF then some ⟨byte, pos, n - 0xC0, 1, 0x80, 0xBF⟩
  else if 0xE0 ≤ n && n ≤ 0xEF then
    some ⟨byte, pos, n - 0xE0, 2, if n = 0xE0 then 0xA0 else 0x80, if n = 0xED then 0x9F else 0xBF⟩
  else if 0xF0 ≤ n && n ≤ 0xF4 then
    some ⟨byte, pos, n - 0xF0, 3, if n = 0xF0 then 0x90 else 0x80, if n = 0xF4 then 0x8F else 0xBF⟩
  else none

/-- Decode from an offset on, after the characters `done`, given last first,
and perhaps the start of another. -/
def decodeFrom (pos : Nat) (done : Text) : Option Partial → Bytes → Except Fault Text
  | none, [] => .ok done.reverse
  | some p, [] => .error ⟨p.first, p.start, pos, .cutShort⟩
  | none, byte :: rest =>
      if byte.toNat < 0x80 then decodeFrom (pos + 1) (Char.ofNat byte.toNat :: done) none rest
      else match lead? byte pos with
        | some p => decodeFrom (pos + 1) done (some p) rest
        | none => .error ⟨byte, pos, pos + 1, .badStart⟩
  | some p, byte :: rest =>
      let n := byte.toNat
      if n < p.low || p.high < n then .error ⟨p.first, p.start, pos, .badContinuation⟩
      else
        let bits := p.bits * 64 + (n - 0x80)
        if p.owed = 1 then decodeFrom (pos + 1) (Char.ofNat bits :: done) none rest
        else decodeFrom (pos + 1) done
          (some { p with bits := bits, owed := p.owed - 1, low := 0x80, high := 0xBF }) rest

def decode (bytes : Bytes) : Except Fault Text := decodeFrom 0 [] none bytes

def encode (text : Text) : Bytes := text.flatMap String.utf8EncodeChar

/-- Carriage returns, with or without a line feed, become line feeds. -/
def unifyLineEnds : Text → Text
  | [] => []
  | '\r' :: '\n' :: rest => '\n' :: unifyLineEnds rest
  | '\r' :: rest => '\n' :: unifyLineEnds rest
  | c :: rest => c :: unifyLineEnds rest

/-- The text with a line end after its last line. -/
def closeLastLine (text : Text) : Text :=
  if text.getLast? = some '\n' then text else text ++ ['\n']

def load (bytes : Bytes) : Except Fault Text :=
  (decode bytes).map fun text => closeLastLine (unifyLineEnds text)

end LineBasic.Source
