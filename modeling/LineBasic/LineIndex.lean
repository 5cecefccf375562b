import LineBasic.Cursor

/-!
# The line index

The set of numbers in a text that read as line numbers, remarks left out,
kept in ascending order. It records that a number occurs, not where. Building
it drives the cursor through the whole text and back to the start; a text that
cannot be read to its end leaves the numbers found up to there.
-/
namespace LineBasic

structure LineIndex where
  numbers : List Nat
  deriving DecidableEq

namespace LineIndex

def empty : LineIndex := ⟨[]⟩

def insertInto (number : Nat) : List Nat → List Nat
  | [] => [number]
  | head :: rest =>
      if number < head then number :: head :: rest
      else if number = head then head :: rest
      else head :: insertInto number rest

def insert (index : LineIndex) (number : Nat) : LineIndex := ⟨insertInto number index.numbers⟩

def has (index : LineIndex) (number : Int) : Bool :=
  index.numbers.any fun known => (known : Int) == number

def isEmpty (index : LineIndex) : Bool := index.numbers.isEmpty

theorem mem_insertInto {n k : Nat} {l : List Nat} : k ∈ insertInto n l ↔ k = n ∨ k ∈ l := by
  induction l with
  | nil => simp [insertInto]
  | cons head rest ih =>
      simp only [insertInto]
      split
      · simp
      · split
        · subst_vars
          simp
        · simp only [List.mem_cons, ih]
          constructor
          · rintro (h | h | h) <;> simp [h]
          · rintro (h | h | h) <;> simp [h]

theorem pairwise_insertInto {n : Nat} {l : List Nat} (h : l.Pairwise (· < ·)) :
    (insertInto n l).Pairwise (· < ·) := by
  induction l with
  | nil => simp [insertInto]
  | cons head rest ih =>
      obtain ⟨hhead, hrest⟩ := List.pairwise_cons.1 h
      simp only [insertInto]
      split
      · rename_i hlt
        refine List.pairwise_cons.2 ⟨?_, h⟩
        intro k hk
        rcases List.mem_cons.1 hk with rfl | hk
        · exact hlt
        · exact Nat.lt_trans hlt (hhead k hk)
      · split
        · exact h
        · refine List.pairwise_cons.2 ⟨?_, ih hrest⟩
          intro k hk
          rcases mem_insertInto.1 hk with rfl | hk
          · omega
          · exact hhead k hk

end LineIndex

/-- A text under its cursor, with the index of its line numbers. -/
structure Listing where
  cursor : Cursor
  index : LineIndex
  deriving DecidableEq

namespace Listing

def onCursor {α : Type} (action : EStateM Fault Cursor α) : EStateM Fault Listing α := fun l =>
  match action l.cursor with
  | .ok a cursor => .ok a { l with cursor := cursor }
  | .error fault cursor => .error fault { l with cursor := cursor }

/-- One token of the survey: a remark is skipped, a line number recorded. -/
def surveyToken : Unit → EStateM Fault Listing (Round Unit Unit) := fun _ => do
  let l ← get
  match l.cursor.token.lexeme with
  | .sourceEnd => pure (.done ())
  | .keyword .REM => do
      onCursor Cursor.skipLine
      pure (.again ())
  | _ => do
      match l.cursor.lineNumber? true with
      | some number => set { l with index := l.index.insert number }
      | none => pure ()
      onCursor Cursor.next
      pure (.again ())

/-- Bound on the moves that take a cursor through its text. -/
def moves (l : Listing) : Nat := l.cursor.sheet.text.length + 1

/-- Build the index anew and go back to the start. -/
def build : EStateM Fault Listing Unit := do
  modify fun l => { l with index := .empty }
  onCursor Cursor.reset
  let l ← get
  iterate surveyToken l.moves ()
  onCursor Cursor.reset

end Listing

end LineBasic
