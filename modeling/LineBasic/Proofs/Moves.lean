import LineBasic.Proofs.Invariant.Statement

/-!
# Moves of the cursor

All that a machine does to its cursor is to move it: to the next token, past the rest of
a line, or back to the start. So after any number of calls the cursor is some number of
moves away from where it was, failed moves among them. Wherever moves take a cursor, it
stands on a token of its text, and a move on from there that succeeds leads to a token
that starts further on.
-/
namespace LineBasic

namespace Cursor

/-- A cursor after a number of moves, whether they succeed or not. -/
inductive Moves (c : Cursor) : Nat → Cursor → Prop
  | none : Moves c 0 c
  | next {n : Nat} {d : Cursor} : Moves c n d → Moves c (n + 1) (leftBy Cursor.next d)
  | skipLine {n : Nat} {d : Cursor} : Moves c n d → Moves c (n + 1) (leftBy Cursor.skipLine d)
  | reset {n : Nat} {d : Cursor} : Moves c n d → Moves c (n + 1) (leftBy Cursor.reset d)

/-- A cursor on a token of a sheet. -/
structure Lies (sheet : Sheet) (c : Cursor) : Prop extends Placed c where
  sheet_eq : c.sheet = sheet
  start_le : c.token.start ≤ sheet.text.length

/-- Less text ahead is a start further on. -/
theorem lt_start {c d : Cursor} (hsheet : d.sheet = c.sheet)
    (hless : d.ahead.length < c.ahead.length) : c.token.start < d.token.start := by
  rw [ahead, ahead, List.length_drop, List.length_drop, hsheet] at hless
  omega

namespace Lies

variable {sheet : Sheet} {c : Cursor}

theorem stop_le (h : c.Lies sheet) : c.token.stop ≤ sheet.text.length := by
  obtain rfl := h.sheet_eq
  exact h.toPlaced.stop_le h.start_le

theorem landed (h : c.Lies sheet) {origin : Origin} {pos : Nat} (hpos : pos ≤ sheet.text.length)
    {l : Lexeme} {n : Nat} (hr : Lexeme.read (Text.pastGap (c.sheet.text.drop pos)) = .ok (l, n)) :
    (c.landed origin pos l n).Lies sheet := by
  refine ⟨placed_landed origin hr, h.sheet_eq, ?_⟩
  rw [← h.sheet_eq] at hpos ⊢
  exact Sheet.entry_le hpos

/-- A move that fails changes the line of the cursor and not its token. -/
theorem moveTo (h : c.Lies sheet) (origin : Origin) {pos : Nat} (hpos : pos ≤ sheet.text.length) :
    (leftBy (Cursor.moveTo origin pos) c).Lies sheet := by
  unfold leftBy
  cases hr : Lexeme.read (Text.pastGap (c.sheet.text.drop pos)) with
  | ok found =>
      rw [moveTo_of_read origin hr]
      exact h.landed hpos hr
  | error f =>
      rw [moveTo_of_fault origin hr]
      exact ⟨⟨h.le, h.settled, h.here⟩, h.sheet_eq, h.start_le⟩

theorem skipOffset_le (h : c.Lies sheet) : c.skipOffset ≤ sheet.text.length := by
  obtain rfl := h.sheet_eq
  unfold skipOffset
  split
  · rename_i hstop
    exact Sheet.lt_of_lineEnd? hstop
  · exact Nat.le_refl _

theorem next (h : c.Lies sheet) : (leftBy Cursor.next c).Lies sheet := by
  by_cases hend : c.token.lexeme = .sourceEnd
  · have hstay : leftBy Cursor.next c = c := by
      unfold leftBy Cursor.next
      rw [get_bind_apply, hend]
      rfl
    rwa [hstay]
  · rw [leftBy, next_eq_moveTo hend]
    exact h.moveTo _ h.stop_le

theorem skipLine (h : c.Lies sheet) : (leftBy Cursor.skipLine c).Lies sheet := by
  by_cases hend : c.token.lexeme = .sourceEnd
  · have hstay : leftBy Cursor.skipLine c = c := by
      unfold leftBy Cursor.skipLine
      rw [get_bind_apply, hend]
      rfl
    rwa [hstay]
  · rw [leftBy, skipLine_eq_moveTo hend]
    exact h.moveTo _ h.skipOffset_le

theorem reset (h : c.Lies sheet) : (leftBy Cursor.reset c).Lies sheet :=
  h.moveTo .first (Nat.zero_le _)

theorem lt_next (h : c.Lies sheet) (hend : c.token.lexeme ≠ .sourceEnd) {d : Cursor}
    (hd : Cursor.next c = .ok () d) :
    c.token.start < d.token.start ∧ d.token.start ≤ sheet.text.length := by
  have hlies := h.next
  rw [leftBy, hd] at hlies
  have hsheet := hlies.sheet_eq.trans h.sheet_eq.symm
  exact ⟨lt_start hsheet (h.length_next hend hd), hlies.start_le⟩

theorem lt_skipLine (h : c.Lies sheet) (hend : c.token.lexeme ≠ .sourceEnd) {d : Cursor}
    (hd : Cursor.skipLine c = .ok () d) :
    c.token.start < d.token.start ∧ d.token.start ≤ sheet.text.length := by
  have hlies := h.skipLine
  rw [leftBy, hd] at hlies
  have hsheet := hlies.sheet_eq.trans h.sheet_eq.symm
  exact ⟨lt_start hsheet (h.length_skipLine hend hd), hlies.start_le⟩

end Lies

theorem lies_of_start {sheet : Sheet} {c : Cursor} (h : start sheet = .ok c) : c.Lies sheet := by
  obtain rfl := sheet_of_start h
  refine ⟨placed_of_start h, rfl, ?_⟩
  obtain ⟨l, n, -, hc⟩ := start_eq_ok h
  rw [hc]
  exact Sheet.entry_le (Nat.zero_le _)

/-- Some number of moves leads from one cursor to the other. -/
def Reaches (c d : Cursor) : Prop := ∃ n, c.Moves n d

namespace Reaches

variable {c d : Cursor}

theorem next (h : c.Reaches d) : c.Reaches (leftBy Cursor.next d) := by
  obtain ⟨n, hn⟩ := h
  exact ⟨n + 1, hn.next⟩

theorem skipLine (h : c.Reaches d) : c.Reaches (leftBy Cursor.skipLine d) := by
  obtain ⟨n, hn⟩ := h
  exact ⟨n + 1, hn.skipLine⟩

theorem reset (h : c.Reaches d) : c.Reaches (leftBy Cursor.reset d) := by
  obtain ⟨n, hn⟩ := h
  exact ⟨n + 1, hn.reset⟩

end Reaches

theorem Lies.reaches {sheet : Sheet} {c d : Cursor} (h : c.Lies sheet) (hd : c.Reaches d) :
    d.Lies sheet := by
  obtain ⟨n, hn⟩ := hd
  induction hn with
  | none => exact h
  | next _ ih => exact ih.next
  | skipLine _ ih => exact ih.skipLine
  | reset _ ih => exact ih.reset

end Cursor

namespace Listing

/-- An action that does nothing to the cursor of a listing but move it. -/
def Steers {α : Type} (c : Cursor) (x : EStateM Fault Listing α) : Prop :=
  ∀ l, c.Reaches l.cursor → c.Reaches (leftBy x l).cursor

variable {α β : Type} {c : Cursor}

theorem Steers.bind {x : EStateM Fault Listing α} {f : α → EStateM Fault Listing β}
    (h : Steers c x) (hf : ∀ a, Steers c (f a)) : Steers c (x >>= f) := by
  intro l hl
  have hx := h l hl
  unfold leftBy at hx ⊢
  rw [bind_apply]
  generalize x l = r at hx ⊢
  cases r with
  | ok a l' => exact hf a l' hx
  | error f l' => exact hx

theorem onCursor_steers {action : EStateM Fault Cursor α}
    (h : ∀ d, c.Reaches d → c.Reaches (leftBy action d)) : Steers c (onCursor action) := by
  intro l hl
  have haction := h l.cursor hl
  unfold leftBy at haction ⊢
  unfold onCursor
  generalize action l.cursor = r at haction ⊢
  cases r with
  | ok a d => exact haction
  | error f d => exact haction

theorem surveyToken_steers : Steers c (surveyToken ()) := by
  intro l hl
  have hstep := surveyToken_eq l
  by_cases hend : l.cursor.token.lexeme = .sourceEnd
  · rw [if_pos hend] at hstep
    rw [leftBy, hstep]
    exact hl
  rw [if_neg hend] at hstep
  by_cases hrem : l.cursor.token.lexeme = .keyword .REM
  · have hskip := hl.skipLine
    rw [if_pos hrem] at hstep
    rw [leftBy, hstep]
    unfold leftBy at hskip
    generalize Cursor.skipLine l.cursor = r at hskip ⊢
    cases r with
    | ok _ d => exact hskip
    | error f d => exact hskip
  · have hnext := hl.next
    rw [if_neg hrem] at hstep
    rw [leftBy, hstep]
    unfold leftBy at hnext
    generalize Cursor.next l.cursor = r at hnext ⊢
    cases r with
    | ok _ d => exact hnext
    | error f d => exact hnext

theorem iterate_surveyToken_steers (rounds : Nat) : Steers c (iterate surveyToken rounds ()) := by
  induction rounds with
  | zero => exact fun _ hl => hl
  | succ rounds ih =>
      apply surveyToken_steers.bind
      intro round
      cases round with
      | again _ => exact ih
      | done _ => exact fun _ hl => hl

theorem build_steers : Steers c build := by
  have hclear : Steers c (modify fun l : Listing => { l with index := .empty }) := fun _ hl => hl
  have hget : Steers c (get : EStateM Fault Listing Listing) := fun _ hl => hl
  have hreset : Steers c (onCursor Cursor.reset) := onCursor_steers fun _ hd => hd.reset
  apply hclear.bind
  intro _
  apply hreset.bind
  intro _
  apply hget.bind
  intro l
  apply (iterate_surveyToken_steers l.moves).bind
  exact fun _ => hreset

end Listing

namespace Machine

/-- The cursor has come from a place by moves alone. -/
def moving (c : Cursor) : Invariant where
  Holds m := c.Reaches m.cursor
  Value _ := True
  reports h _ := h
  output h _ := h
  started h := h
  finished h := h
  next h := h.next
  skipLine h := h.skipLine
  reset h := h.reset
  build h := Listing.build_steers _ h
  zero := trivial
  wrap _ _ := trivial
  read _ _ _ _ := trivial
  assign h _ _ _ _ _ := h

theorem reaches_stepped (m : Machine) : m.cursor.Reaches m.stepped.cursor := by
  have hself : (moving m.cursor).Holds m := ⟨0, .none⟩
  exact holds_stepped hself

theorem reaches_called (m : Machine) (count : Nat) : m.cursor.Reaches (m.called count).cursor := by
  have hself : (moving m.cursor).Holds m := ⟨0, .none⟩
  exact holds_called hself count

end Machine

end LineBasic
