import LineBasic.Numeral
import LineBasic.Text.Case

/-!
# Editor commands

What a line typed at the editor asks for. A line that starts with a number
edits the program: the rest of it becomes the text of that line, and with
nothing after the number the line is removed. Any other line names a command,
in any case. Blanks around a line do not matter.
-/
namespace LineBasic

inductive Command where
  | nothing
  | enter (number : Nat) (text typed : Text)
  | remove (number : Nat)
  | quit | help | run | list | new
  | unknown

namespace Command

/-- The digits and the text of a line that edits the program. A text with a
line end inside does not. -/
def edit? (typed : Text) : Option (Text × Text) :=
  let digits := typed.takeWhile Text.isDecimal
  let text := (typed.drop digits.length).dropWhile Text.isBlank
  if digits.isEmpty || text.contains '\n' then none else some (digits, text)

def named (word : Text) : Command :=
  let word := String.ofList word.upper
  if word = "QUIT" || word = "EXIT" then quit
  else if word = "HELP" then help
  else if word = "RUN" then run
  else if word = "LIST" then list
  else if word = "NEW" then new
  else unknown

/-- The command a line asks for. A line number may be too long to be read. -/
def ofLine (line : Text) : Except Numeral.Fault Command :=
  let typed := line.trim Text.isBlank
  if typed.isEmpty then .ok nothing
  else match edit? typed with
    | some (digits, text) =>
        (Numeral.natural digits).map fun number =>
          if text.isEmpty then remove number else enter number text typed
    | none => .ok (named typed)

end Command

end LineBasic
