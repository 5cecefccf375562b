import LineBasic.Machine.Step
import LineBasic.Proofs.Action
import LineBasic.Proofs.Survey

/-!
# The machine at a state

What the single actions of a machine do at one state, as equations. Proofs about
expressions and statements go by these and do not open the actions again.
-/
namespace LineBasic

namespace Reports

def reported (r : Reports) (e : Error) : Reports :=
  { r with errors := r.errors + 1, notices := r.notices.push (.error e) }

def noted (r : Reports) (event : Event) : Reports :=
  if r.tracing then { r with trace := r.trace.push event } else r

/-- The reports after a fault, if it is one of reading, has been recorded. -/
def scanNoted (r : Reports) : Fault → Reports
  | .error ⟨.scan cause file, some mark, _⟩ =>
      r.noted (.scanFailed file mark.line mark.column cause)
  | _ => r

/-- The reports after a fault, if it is one of reading, has been shown. -/
def scanReported (r : Reports) : Fault → Reports
  | .error e => if e.errorClass = .lexical then r.reported e else r
  | _ => r

@[simp] theorem warnings_noted (r : Reports) (event : Event) :
    (r.noted event).warnings = r.warnings := by
  unfold noted
  cases r.tracing <;> rfl

theorem note_of_writable {event : Event} (h : event.writable = true) (r : Reports) :
    note event r = .ok () (r.noted event) := by
  simp only [note, noted, h, if_true]
  cases r.tracing <;> rfl

/-- The place of a fault is always recorded. -/
theorem noteScan_apply (f : Fault) (r : Reports) : noteScan f r = .ok () (r.scanNoted f) := by
  unfold noteScan
  split
  · exact note_of_writable rfl r
  · rename_i hother
    have hsame : r.scanNoted f = r := by
      unfold scanNoted
      split
      · exact absurd rfl (hother _ _ _ _)
      · rfl
    rw [hsame]
    rfl

theorem reportScan_apply (f : Fault) (r : Reports) :
    reportScan f r = .ok () (r.scanReported f) := by
  cases f with
  | error e =>
      simp only [reportScan, scanReported]
      split <;> rfl
  | _ => rfl

end Reports

namespace Machine

/-- A machine that has executed nothing. -/
def fresh (cursor : Cursor) (size : WordSize) (output : Output) (reports : Reports) : Machine :=
  ⟨⟨cursor, .empty⟩, .zero, size, output, reports, false, false⟩

theorem load_of_start {sheet : Sheet} {c : Cursor} (h : Cursor.start sheet = .ok c)
    (size : WordSize) (output : Output) (reports : Reports) :
    load sheet size output reports = .ok (fresh c size output reports) := by
  unfold load openSheet
  rw [h]
  rfl

theorem load_of_fault {sheet : Sheet} {f : Fault} (h : Cursor.start sheet = .error f)
    (size : WordSize) (output : Output) (reports : Reports) :
    load sheet size output reports =
      .error (f, (reports.scanNoted f).scanReported f) := by
  have hopen : openSheet sheet reports = .error f ((reports.scanNoted f).scanReported f) := by
    unfold openSheet
    rw [h]
    simp only
    rw [bind_of_ok (Reports.noteScan_apply f reports), bind_of_ok (Reports.reportScan_apply f _)]
    rfl
  unfold load
  rw [hopen]

theorem start_of_load {sheet : Sheet} {size : WordSize} {output : Output} {reports : Reports}
    {m : Machine} (h : load sheet size output reports = .ok m) :
    ∃ c, Cursor.start sheet = .ok c ∧ m = fresh c size output reports := by
  cases hs : Cursor.start sheet with
  | ok c =>
      rw [load_of_start hs] at h
      cases h
      exact ⟨c, rfl, rfl⟩
  | error f =>
      rw [load_of_fault hs] at h
      cases h

/-- The characters from the current token on. -/
def toGo (m : Machine) : Nat := m.cursor.ahead.length

theorem failHere_apply {α : Type} (cause : Cause) (m : Machine) :
    (failHere cause : Run α) m =
      .error (.error ⟨cause, some m.cursor.token.mark, none⟩)
        { m with reports := m.reports.reported ⟨cause, some m.cursor.token.mark, none⟩ } := rfl

theorem failLine_apply {α : Type} (number : Int) (cause : Int → Cause) (m : Machine) :
    (failLine number cause : Run α) m =
      if Numeral.writable number then
        .error (.error ⟨cause number, none, none⟩)
          { m with reports := m.reports.reported ⟨cause number, none, none⟩ }
      else .error .unwritable m := by
  unfold failLine
  split <;> rfl

theorem note_of_writable {event : Event} (h : event.writable = true) (m : Machine) :
    note event m = .ok () { m with reports := m.reports.noted event } := by
  simp only [note, onReports, Reports.note_of_writable h]

/-- With tracing off an event need not be written. -/
theorem note_apply (event : Event) (m : Machine) :
    note event m =
      if m.reports.tracing = true ∧ event.writable = false then .error .unwritable m
      else .ok () { m with reports := m.reports.noted event } := by
  cases hw : event.writable with
  | true =>
      rw [if_neg (by simp)]
      exact note_of_writable hw m
  | false =>
      simp only [note, onReports, Reports.note, Reports.noted, hw]
      cases m.reports.tracing <;> rfl

def movedTo (m : Machine) (c : Cursor) : Machine :=
  { m with listing := { m.listing with cursor := c } }

theorem onCursor_of_ok {action : EStateM Fault Cursor Unit} {m : Machine} {c : Cursor}
    (h : action m.cursor = .ok () c) : onCursor action m = .ok () (m.movedTo c) := by
  simp only [cursor] at h
  simp only [onCursor, onListing, Listing.onCursor, h]
  rfl

def warned (m : Machine) (message : String) : Machine :=
  { m with reports := { m.reports with
    warnings := m.reports.warnings + 1
    notices := m.reports.notices.push (.warning message)
    trace := if m.reports.tracing then
        m.reports.trace.push (.warned (m.reports.warnings + 1) message)
      else m.reports.trace } }

theorem warn_apply (message : String) (m : Machine) :
    onReports (Reports.warn message) m = .ok () (m.warned message) := by
  obtain ⟨_, _, _, _, ⟨tracing, _, _, _, _⟩, _, _⟩ := m
  cases tracing <;> rfl

@[simp] theorem lexeme_bind_apply {α : Type} (f : Lexeme → Run α) (m : Machine) :
    (lexeme >>= f) m = f m.cursor.token.lexeme m := rfl

@[simp] theorem lineNumber?_bind_apply {α : Type} (atEnd : Bool) (f : Option Nat → Run α)
    (m : Machine) : (lineNumber? atEnd >>= f) m = f (m.cursor.lineNumber? atEnd) m := rfl

@[simp] theorem moves_bind_apply {α : Type} (f : Nat → Run α) (m : Machine) :
    (moves >>= f) m = f (m.cursor.sheet.text.length + 1) m := rfl

theorem toGo_lt_moves (m : Machine) : m.toGo < m.cursor.sheet.text.length + 1 := by
  simp only [toGo, Cursor.ahead, List.length_drop]
  omega

theorem accept_apply (expected : Kind) (m : Machine) :
    accept expected m =
      if m.cursor.token.lexeme.kind = expected then next m
      else failHere (.unexpectedToken m.cursor.token.lexeme.kind expected) m := by
  unfold accept
  rw [lexeme_bind_apply]
  split <;> rfl

-- The factor at a token, one equation for each way it begins.

section
variable {inner : Run Int} {m : Machine}

theorem factorWith_number {value : Nat} (h : m.cursor.token.lexeme = .number value) :
    factorWith inner m =
      (note (.literal (m.size.wrap value)) >>= fun _ => next >>= fun _ =>
        pure (m.size.wrap value)) m := by
  unfold factorWith
  rw [lexeme_bind_apply, h]
  rfl

theorem factorWith_letter {letter : Char} (h : m.cursor.token.lexeme = .letter letter) :
    factorWith inner m =
      (register (Text.lower [letter]) >>= fun value =>
        note (.variableRead (Text.lower [letter]) value) >>= fun _ => next >>= fun _ =>
          pure value) m := by
  unfold factorWith
  rw [lexeme_bind_apply, h]

theorem factorWith_paren (h : m.cursor.token.lexeme = .symbol .openParen) :
    factorWith inner m =
      (next >>= fun _ => inner >>= fun value =>
        accept (.symbol .closeParen) >>= fun _ => pure value) m := by
  unfold factorWith
  rw [lexeme_bind_apply, h]

/-- Whether a factor may begin with a lexeme. -/
def beginsFactor : Lexeme → Bool
  | .number _ | .letter _ | .symbol .openParen => true
  | _ => false

theorem factorWith_other (h : beginsFactor m.cursor.token.lexeme = false) :
    factorWith inner m = failHere (.notAFactor m.cursor.token.lexeme.kind) m := by
  unfold factorWith
  rw [lexeme_bind_apply]
  generalize m.cursor.token.lexeme = l at h ⊢
  cases l with
  | number value => cases h
  | letter name => cases h
  | symbol sign =>
      cases sign with
      | openParen => cases h
      | _ => rfl
  | _ => rfl

end

theorem jump_apply (number : Int) (m : Machine) :
    jump number m =
      if m.index.isEmpty then (buildIndex >>= fun _ => jumpIndexed number) m
      else jumpIndexed number m := by
  unfold jump
  rw [get_bind_apply]
  split <;> rfl

theorem printElement_apply (line : PrintLine) (m : Machine) :
    printElement line m =
      if (m.cursor.lineNumber? false).isSome then .ok (.done line) m else printItem line m := by
  unfold printElement printElementWith
  rw [lineNumber?_bind_apply]
  cases m.cursor.lineNumber? false with
  | some number => rfl
  | none => rfl

theorem passEmptyLine_of_lineEnd {m m' : Machine} (hm : m.cursor.token.lexeme = .lineEnd)
    (hnext : next m = .ok () m') : passEmptyLine () m = .ok (.again ()) m' := by
  unfold passEmptyLine
  rw [lexeme_bind_apply, hm]
  exact bind_of_ok hnext

theorem passEmptyLine_of_ne {m : Machine} (hm : m.cursor.token.lexeme ≠ .lineEnd) :
    passEmptyLine () m = .ok (.done ()) m := by
  unfold passEmptyLine
  rw [lexeme_bind_apply]
  generalize m.cursor.token.lexeme = l at hm ⊢
  split
  · contradiction
  · rfl

theorem lineStatement_of_end {m : Machine} (h : m.cursor.token.lexeme = .sourceEnd) :
    lineStatement m = .ok () { m with finished := true } := by
  have hskip : skipEmptyLines m = .ok () m := iterate_of_done (passEmptyLine_of_ne (by simp [h]))
  unfold lineStatement lineStatementWith
  rw [bind_of_ok hskip, lexeme_bind_apply, h]
  rfl

/-- At the end of the source a line has nothing to execute, so the end needs no case of its own. -/
theorem stepStarted_apply (m : Machine) :
    stepStarted m =
      if m.finished then .ok false m
      else (lineStatement >>= fun _ => get >>= fun m => pure !m.finished) m := by
  unfold stepStarted stepStartedWith
  rw [get_bind_apply]
  cases m.finished with
  | true => rfl
  | false =>
      simp only [Bool.false_eq_true, if_false]
      rw [get_bind_apply]
      cases hc : m.cursor.finished with
      | false => rfl
      | true =>
          have hend : m.cursor.token.lexeme = .sourceEnd := by
            simpa [Cursor.finished, Cursor.kind, Token.kind, Lexeme.kind_eq_sourceEnd] using hc
          rw [bind_of_ok (lineStatement_of_end hend)]
          rfl

theorem stepBody_apply (m : Machine) :
    stepBody m =
      if m.started then stepStarted m
      else (buildIndex >>= fun _ => (modify fun m => { m with started := true }) >>= fun _ =>
        stepStarted) m := by
  unfold stepBody stepBodyWith
  rw [get_bind_apply]
  cases m.started <;> rfl

/-- An action once there is an index, behind the survey if that has not been made. -/
def indexedFirst {α : Type} (x : Run α) : Run α := fun m =>
  if m.started then x m
  else (buildIndex >>= fun _ => (modify fun m => { m with started := true }) >>= fun _ => x) m

theorem indexedFirst_bind {α β : Type} (x : Run α) (f : α → Run β) :
    indexedFirst (x >>= f) = indexedFirst x >>= f := by
  funext m
  rw [bind_apply]
  unfold indexedFirst
  cases m.started with
  | true => rfl
  | false =>
      simp only [Bool.false_eq_true, if_false, bind_apply]
      cases buildIndex m <;> rfl

theorem stepBody_eq_indexedFirst : stepBody = indexedFirst stepStarted := funext stepBody_apply

theorem step_apply (m : Machine) :
    step m = match stepBody m with
      | .ok more after => .ok more after
      | .error f after => .error f { after with reports := after.reports.scanReported f } := by
  unfold step stepWith stepBody
  cases stepBodyWith expression m with
  | ok more after => rfl
  | error f after =>
      simp only [bind_apply, onReports, Reports.reportScan_apply]
      rfl

end Machine

end LineBasic
