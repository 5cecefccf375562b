import LineBasic.CommandLine

/-!
# The console

How the console of the program lays out what it is given: each line as it is
with a line end behind it, a panel in a frame and a table in a grid, both just
wide enough. Colours, the wrapping of long lines, and what becomes of tabs and
control characters in them are not covered.
-/
namespace LineBasic.Console

def fill (count : Nat) (c : Char) : Text := List.replicate count c

def rule (left bar joint right : Char) (widths : List Nat) : Text :=
  left :: [joint].intercalate (widths.map fun width => fill (width + 2) bar) ++ [right, '\n']

def row (edge : Char) (widths : List Nat) (cells : List Text) : Text :=
  let padded := List.zipWith (fun width cell => cell ++ fill (width - cell.length) ' ') widths cells
  edge :: ' ' :: [' ', edge, ' '].intercalate padded ++ [' ', edge, '\n']

def panel (title : Text) : Text :=
  rule '╭' '─' '─' '╮' [title.length] ++ row '│' [title.length] [title] ++
    rule '╰' '─' '─' '╯' [title.length]

def table (title : Text) (columns : List Text) (rows : List (List Text)) : Text :=
  let widen := fun (widths : List Nat) (cells : List Text) =>
    List.zipWith (fun width cell => max width cell.length) widths cells
  let widths := rows.foldl widen (columns.map List.length)
  let across := (rule '┏' '━' '┳' '┓' widths).length - 1
  let left := (across - title.length) / 2
  fill left ' ' ++ title ++ fill (across - title.length - left) ' ' ++ ['\n'] ++
    rule '┏' '━' '┳' '┓' widths ++ row '┃' widths columns ++ rule '┡' '━' '╇' '┩' widths ++
    rows.flatMap (row '│' widths) ++ rule '└' '─' '┴' '┘' widths

def render : Saying → Text
  | .line text => text.toList ++ ['\n']
  | .panel title => panel title.toList
  | .table title columns rows =>
      table title.toList (columns.map String.toList) (rows.map (·.map String.toList))

def complaint : CommandLine.Complaint → String
  | .notice notice => notice.text ++ "\n"
  | .line text => text ++ "\n"
  | .usage text => text

def complaints (said : Array CommandLine.Complaint) : String :=
  String.join (said.toList.map complaint)

end LineBasic.Console
