import LineBasic.Proofs.Positions

/-!
# Failed moves

A call settles the line it comes to before it reads the token there. If there is none to
read, the token stays, and with it the sheet, but not the line: a call that has left a line
keeps the line below as the current one. The same call then leaves the same line end once
more, so that each time it is repeated the same character is reported one line further
down. A call that stays in its line changes nothing and can be repeated without harm. Going
back to the start mends the line.
-/
namespace LineBasic

/-- The same fault, reported a number of lines further down. -/
def Fault.below (lines : Nat) : Fault → Fault
  | error e =>
      error { e with mark := e.mark.map fun mark => { mark with line := mark.line + lines } }
  | f => f

theorem Sheet.fault_below (sheet : Sheet) (line lines start pos : Nat) (g : Lexeme.Fault) :
    (sheet.fault ⟨line, start⟩ pos g).below lines = sheet.fault ⟨line + lines, start⟩ pos g := by
  cases g <;> rfl

/-- The line below, if one starts there, and otherwise the same line. -/
def Origin.past (origin : Origin) : Option Nat → Origin
  | some start => ⟨origin.line + 1, start⟩
  | none => origin

namespace Move

variable {move : Move} {c d : Cursor} {f : Fault}

/-- Where the line below starts, if a call leaves the current line. -/
def lineBelow? : Move → Cursor → Option Nat
  | next, c => if c.token.lexeme = .lineEnd then some c.token.stop else none
  | skipLine, c => (c.sheet.lineEnd? c.token.start).map (· + 1)
  | reset, _ => none

/-- The line that a call comes to is told by the token and the line before. -/
theorem origin_relined (hmove : move ≠ .reset) (c : Cursor) (origin : Origin) :
    move.origin { c with origin := origin } = origin.past (move.lineBelow? c) := by
  cases move with
  | next =>
      simp only [Move.origin, Cursor.nextOrigin, lineBelow?]
      split <;> rfl
  | skipLine =>
      simp only [Move.origin, Cursor.skipOrigin, lineBelow?]
      cases c.sheet.lineEnd? c.token.start <;> rfl
  | reset => exact absurd rfl hmove

theorem offset_relined (move : Move) (c : Cursor) (origin : Origin) :
    move.offset { c with origin := origin } = move.offset c := by
  cases move <;> rfl

/-- A call that fails does so whatever the cursor takes for its line. -/
theorem run_relined (hmove : move ≠ .reset) (h : move.run c = .error f d) :
    ∃ g, ∀ origin : Origin, move.run { c with origin := origin } =
      .error (c.sheet.fault (origin.past (move.lineBelow? c)) (move.offset c) g)
        { c with origin := origin.past (move.lineBelow? c) } := by
  have hend : c.token.lexeme ≠ .sourceEnd := by
    intro hend
    cases h.symm.trans (run_of_sourceEnd hend hmove)
  obtain ⟨g, hread, -⟩ := eq_of_run_error h
  refine ⟨g, fun origin => ?_⟩
  rw [run_of_ne_sourceEnd (c := { c with origin := origin }) hend, origin_relined hmove,
    offset_relined]
  exact Cursor.moveTo_of_fault _ hread

/-- The cursor after a number of equal calls, whether they succeed or not. -/
def repeated (move : Move) : Nat → Cursor → Cursor
  | 0, c => c
  | count + 1, c => leftBy move.run (move.repeated count c)

/-- A call that fails within its line leaves the cursor as it was. -/
theorem run_repeated_of_stays (hmove : move ≠ .reset) (h : move.run c = .error f d)
    (hstays : move.lineBelow? c = none) (count : Nat) :
    move.run (move.repeated count c) = .error f c := by
  obtain ⟨g, hrun⟩ := run_relined hmove h
  rw [hstays] at hrun
  have hfails : move.run c = .error f c := by
    have hhere := hrun c.origin
    cases h.symm.trans hhere
    exact hhere
  induction count with
  | zero => exact hfails
  | succ count ih =>
      rw [repeated, leftBy, ih]
      exact hfails

/-- A call that fails behind its line is one line further down each time. -/
theorem run_repeated_of_leaves (hmove : move ≠ .reset) (h : move.run c = .error f d) {start : Nat}
    (hleaves : move.lineBelow? c = some start) (count : Nat) :
    move.run (move.repeated count c) = .error (f.below count)
      { c with origin := ⟨c.origin.line + count + 1, start⟩ } := by
  obtain ⟨g, hrun⟩ := run_relined hmove h
  rw [hleaves] at hrun
  obtain rfl : f = c.sheet.fault ⟨c.origin.line + 1, start⟩ (move.offset c) g := by
    cases h.symm.trans (hrun c.origin)
    rfl
  induction count with
  | zero =>
      rw [Sheet.fault_below]
      exact hrun c.origin
  | succ count ih =>
      have hline : c.origin.line + 1 + (count + 1) = c.origin.line + count + 1 + 1 := by omega
      have hleft : move.repeated (count + 1) c =
          { c with origin := ⟨c.origin.line + count + 1, start⟩ } := by rw [repeated, leftBy, ih]
      rw [hleft, Sheet.fault_below, hline]
      exact hrun ⟨c.origin.line + count + 1, start⟩

end Move

namespace Cursor

variable {sheet : Sheet} {c d first : Cursor} {move : Move} {f : Fault}

/-- A call that leaves its line comes to the one below. Past the rest of a last line there
is the end of the source, where nothing fails. -/
theorem exists_lineBelow? (hplaced : c.Placed) (hmove : move ≠ .reset) (h : move.run c = .error f d)
    (hleaves : move = .skipLine ∨ c.token.lexeme = .lineEnd) :
    ∃ stop, c.sheet.lineEnd? c.token.start = some stop ∧ move.lineBelow? c = some (stop + 1) := by
  cases move with
  | next =>
      have hl : c.token.lexeme = .lineEnd := hleaves.resolve_left (by simp)
      obtain ⟨hnewline, hstop⟩ := hplaced.newline hl
      refine ⟨c.token.start, ?_, ?_⟩
      · exact Sheet.lineEnd?_of_unbroken (Nat.le_refl _) hnewline fun q hle hlt => by omega
      · rw [Move.lineBelow?, if_pos hl, hstop]
  | skipLine =>
      cases hline : c.sheet.lineEnd? c.token.start with
      | some stop => exact ⟨stop, rfl, by rw [Move.lineBelow?, hline]; rfl⟩
      | none =>
          obtain ⟨g, hread, -⟩ := Move.eq_of_run_error h
          simp only [Move.offset, skipOffset, hline, List.drop_length] at hread
          cases hread
  | reset => exact absurd rfl hmove

theorem lineBelow?_of_stays (hmove : move = .next) (hl : c.token.lexeme ≠ .lineEnd) :
    move.lineBelow? c = none := by
  subst hmove
  exact if_neg hl

/-- A call that fails keeps the sheet and the token, and going back to the start mends the
line. If the call stays in its line it keeps the cursor whole, and repeated it fails in the
same way. If it leaves its line, the cursor takes the line below for its own, and repeated
the call fails in the same way but for the number of the line, which each time is one more. -/
theorem failed_moves_drift (hstart : start sheet = .ok first) (hreaches : first.Reaches c)
    (hmove : move ≠ .reset) (h : move.run c = .error f d) :
    d.sheet = c.sheet ∧ d.token = c.token ∧ Move.reset.run d = .ok () first ∧
      (move = .next ∧ c.token.lexeme ≠ .lineEnd →
        d = c ∧ ∀ count, move.run (move.repeated count c) = .error f c) ∧
      (move = .skipLine ∨ c.token.lexeme = .lineEnd →
        ∃ stop, c.sheet.lineEnd? c.token.start = some stop ∧
          ∀ count, move.run (move.repeated count c) = .error (f.below count)
            { c with origin := ⟨c.origin.line + count + 1, stop + 1⟩ }) := by
  have hlies := (lies_of_start hstart).reaches hreaches
  obtain ⟨-, -, -, hd⟩ := Move.eq_of_run_error h
  have hsheet : d.sheet = c.sheet := by rw [hd]
  have hreset : Move.reset.run d = .ok () first := by
    apply reset_of_start
    rw [hsheet, hlies.sheet_eq, hstart]
  refine ⟨hsheet, by rw [hd], hreset, ?_, ?_⟩
  · rintro ⟨hnext, hl⟩
    have hagain := Move.run_repeated_of_stays hmove h (lineBelow?_of_stays hnext hl)
    refine ⟨?_, hagain⟩
    cases h.symm.trans (hagain 0)
    rfl
  · intro hleaves
    obtain ⟨stop, hstop, hbelow⟩ := exists_lineBelow? hlies.toPlaced hmove h hleaves
    exact ⟨stop, hstop, Move.run_repeated_of_leaves hmove h hbelow⟩

/-- A dollar sign on the second line, come to from the end of the first: the third attempt
reports it on the fourth line. -/
theorem failed_moves_drift_dollar :
    let sheet : Sheet := ⟨"A\n$".toList, "<input>".toList⟩
    let first : Cursor := ⟨sheet, .first, ⟨.letter 'A', 1, 1, 0, 1⟩⟩
    let c : Cursor := ⟨sheet, .first, ⟨.lineEnd, 1, 2, 1, 2⟩⟩
    let f : Fault := .error (sheet.errorAtOffset ⟨2, 2⟩ 2 (.unexpectedCharacter '$'))
    start sheet = .ok first ∧ first.Reaches c ∧
      Move.next.run c = .error f { c with origin := ⟨2, 2⟩ } ∧
      Move.next.run (Move.next.repeated 2 c) = .error (f.below 2) { c with origin := ⟨4, 2⟩ } ∧
      f.message = "Line 2: Unexpected character: '$' in <input>\n$\n^" ∧
      (f.below 2).message = "Line 4: Unexpected character: '$' in <input>\n$\n^" := by
  intro sheet first c f
  have hstart : start sheet = .ok first := rfl
  have hreaches : first.Reaches c := ⟨1, .next .none⟩
  have hfails : Move.next.run c = .error f { c with origin := ⟨2, 2⟩ } := rfl
  obtain ⟨-, -, -, -, hleaves⟩ := failed_moves_drift hstart hreaches (by decide) hfails
  obtain ⟨stop, hstop, hagain⟩ := hleaves (.inr rfl)
  cases (show c.sheet.lineEnd? c.token.start = some 1 by decide +kernel).symm.trans hstop
  exact ⟨hstart, hreaches, hfails, hagain 2, by decide +kernel, by decide +kernel⟩

/-- A call that fails need not leave the cursor as it was. From the end of the first line it
moves the line, and the same call then reports the same character on a line that the text
does not have. -/
theorem failed_move_changes_line :
    let sheet : Sheet := ⟨"A\n$".toList, "<input>".toList⟩
    let first : Cursor := ⟨sheet, .first, ⟨.letter 'A', 1, 1, 0, 1⟩⟩
    let c : Cursor := ⟨sheet, .first, ⟨.lineEnd, 1, 2, 1, 2⟩⟩
    let d : Cursor := { c with origin := ⟨2, 2⟩ }
    let f (line : Nat) : Fault :=
      .error (sheet.errorAtOffset ⟨line, 2⟩ 2 (.unexpectedCharacter '$'))
    start sheet = .ok first ∧ next first = .ok () c ∧ next c = .error (f 2) d ∧ d ≠ c ∧
      next d = .error (f 3) { c with origin := ⟨3, 2⟩ } ∧
      (f 2).message = "Line 2: Unexpected character: '$' in <input>\n$\n^" ∧
      (f 3).message = "Line 3: Unexpected character: '$' in <input>\n$\n^" := by
  intro sheet first c d f
  have hstart : start sheet = .ok first := rfl
  have hfirst : next first = .ok () c := rfl
  have hfails : next c = .error (f 2) d := rfl
  have hagain : next d = .error (f 3) { c with origin := ⟨3, 2⟩ } := rfl
  exact ⟨hstart, hfirst, hfails, by decide, hagain, by decide +kernel, by decide +kernel⟩

end Cursor

end LineBasic
