import LineBasic.Proofs.Acceptance
import LineBasic.Proofs.Printing

/-!
# Effects are confined

A step that fails leaves every register as it was, wherever in the statement it fails.
One that does not fail has changed at most the register that its statement assigns to.
What has been written stays, and only `PRINT` writes more.

Reading, evaluating and jumping touch neither the registers nor the output, so all there
is to say is about the assignment: it sets its register after everything in it that may
fail, but for the record of the value, and the record succeeds if words can be written.
-/
namespace LineBasic

namespace Machine

variable {sheet : Sheet} {size : WordSize} {bound : Nat} {m p q r : Machine}

inductive Assigns (m : Machine) (letter : Char) : Prop
  | bare : m.cursor.token.lexeme = .letter letter → Assigns m letter
  | withLet {m' : Machine} : m.cursor.token.lexeme = .keyword .LET → next m = .ok () m' →
      m'.cursor.token.lexeme = .letter letter → Assigns m letter

/-- No register but that of a letter has changed. -/
def SparesAllBut (letter : Char) (m m' : Machine) : Prop :=
  ∀ name, name ≠ Text.lower [letter] → m'.store.get? name = m.store.get? name

def assignedValue : Run Int := do
  next
  accept (.symbol .equal)
  expression

theorem assignedValue_inward : Inward assignedValue :=
  next_inward.andThen ((accept_inward _).andThen expression_inward)

theorem assignTo_eq (name : Text) :
    assignTo name = assignedValue >>= fun value => assign name value >>= fun _ =>
      note (.assigned name value) := by
  simp only [assignTo, assignToWith, assignedValue, bind_assoc]

theorem assignedValue_fits (h : m.InRange size) {value : Int}
    (hvalue : assignedValue m = .ok value q) : size.Fits value := by
  have hexpression : Keeps (holdingWords size) size.Fits expression expression :=
    .of_leaves (expression_keeps passes_id).leaves
  exact fits_of_keeps (next_keeps.andThen ((accept_keeps _).andThen hexpression)) h hvalue

theorem assign_of_set {name : Text} {value : Int} {store : Store}
    (h : m.store.assign name value = .ok store) :
    assign name value m = .ok () { m with store := store } := by
  unfold assign
  rw [get_bind_apply, h]
  rfl

theorem assign_of_refused {name : Text} {value : Int} {refusal : Store.Refusal}
    (h : m.store.assign name value = .error refusal) :
    assign name value m = .error (.refused refusal) m := by
  unfold assign
  rw [get_bind_apply, h]
  rfl

/-- An assignment fails before it sets its register, or it sets no other. -/
theorem assignTo_cases (h : m.InRange size) (hsize : size.Writable) (name : Name) :
    (∃ f r, assignTo (Text.lower [name.letter]) m = .error f r ∧ r.store = m.store) ∨
      ∃ r, assignTo (Text.lower [name.letter]) m = .ok () r ∧ SparesAllBut name.letter m r := by
  rw [assignTo_eq]
  cases hvalue : assignedValue m with
  | error f n =>
      exact .inl ⟨f, n, bind_of_error hvalue, assignedValue_inward.store.of_error hvalue⟩
  | ok value n =>
      have hstore := assignedValue_inward.store.of_ok hvalue
      rw [bind_of_ok hvalue]
      cases hassign : n.store.assign (Text.lower [name.letter]) value with
      | error refusal =>
          exact .inl ⟨_, n, bind_of_error (assign_of_refused hassign), hstore⟩
      | ok store =>
          -- The register is set, so the record of it must not fail.
          have hwritable : (Event.assigned (Text.lower [name.letter]) value).writable = true :=
            hsize value (assignedValue_fits h hvalue)
          right
          rw [bind_of_ok (assign_of_set hassign), note_of_writable hwritable]
          refine ⟨_, rfl, ?_⟩
          intro other hother
          have hset := Store.get?_set hassign other
          rw [name.lower_letter, Name.lower_key, ← name.lower_letter, if_neg hother, hstore] at hset
          exact hset

theorem let_cases (h : m.Within sheet bound) (hrange : m.InRange size) (hsize : size.Writable) :
    (∃ f r, letStatement m = .error f r ∧ r.store = m.store) ∨
      ∃ letter r, m.cursor.token.lexeme = .letter letter ∧ letStatement m = .ok () r ∧
        SparesAllBut letter m r := by
  unfold letStatement letStatementWith
  rw [lexeme_bind_apply]
  cases hl : m.cursor.token.lexeme with
  | letter letter =>
      have hhere := h.steady.here
      rw [hl] at hhere
      obtain ⟨name, rfl⟩ := Name.exists_of_read hhere
      rcases assignTo_cases hrange hsize name with hfails | ⟨r, hr, hspares⟩
      · exact .inl hfails
      · exact .inr ⟨name.letter, r, rfl, hr, hspares⟩
  | _ => exact .inl ⟨_, _, failHere_apply _ m, rfl⟩

/-- What may have come of a statement: a failure with all registers as before, or a
success that has left them as they were but for the one assigned to. -/
inductive Confined (p : Machine) : EStateM.Result Fault Machine Unit → Prop
  | failed {f : Fault} {q : Machine} : q.store = p.store → Confined p (.error f q)
  | kept {q : Machine} : q.store = p.store → Confined p (.ok () q)
  | assigned {letter : Char} {q : Machine} : p.Assigns letter → SparesAllBut letter p q →
      Confined p (.ok () q)

theorem Preserves.confined {x : Run Unit} (h : Preserves store x) (p : Machine) :
    Confined p (x p) := by
  cases hx : x p with
  | ok _ q => exact .kept (h.of_ok hx)
  | error f q => exact .failed (h.of_error hx)

theorem InRange.still (h : m.InRange size) (hstore : p.store = m.store) (hsize : p.size = m.size) :
    p.InRange size :=
  ⟨hsize.trans h.sized, hstore ▸ h.keys, hstore ▸ h.fits⟩

theorem letKeyword_confined (h : p.Within sheet bound) (hrange : p.InRange size)
    (hsize : size.Writable) (hl : p.cursor.token.lexeme = .keyword .LET) :
    Confined p ((accept (.keyword .LET) >>= fun _ => letStatement) p) := by
  obtain ⟨n, hnext, hn, -, hstore, -⟩ := exists_next h (by simp [hl]) (by simp [hl])
  have haccept : accept (.keyword .LET) p = .ok () n := by
    rw [accept_apply, if_pos (by rw [hl]; rfl), hnext]
  have hsame : n.size = p.size := (next_inward.preserves fun _ _ _ => rfl).of_ok hnext
  rw [bind_of_ok haccept]
  rcases let_cases hn (hrange.still hstore hsame) hsize with
    ⟨f, r, hr, hkept⟩ | ⟨letter, r, hletter, hr, hspares⟩
  · rw [hr]
    exact .failed (hkept.trans hstore)
  · rw [hr]
    refine .assigned (.withLet hl hnext hletter) ?_
    intro name hname
    rw [hspares name hname, hstore]

theorem statement_confined (h : p.Within sheet bound) (hrange : p.InRange size)
    (hsize : size.Writable) : Confined p (statement p) := by
  have hother : ∀ kind, Preserves store
      (note (.unrecognized kind) >>= fun _ => failHere .unrecognizedStatement : Run Unit) :=
    fun kind => ((note_inward _).andThen (failHere_inward _)).store
  unfold statement statementWith
  rw [lexeme_bind_apply]
  cases hl : p.cursor.token.lexeme with
  | keyword word =>
      cases word with
      | REM => exact skipLine_inward.store.confined p
      | PRINT => exact print_store.confined p
      | IF => exact if_inward.store.confined p
      | GOTO => exact goto_inward.store.confined p
      | LET => exact letKeyword_confined h hrange hsize hl
      | THEN => exact (hother _).confined p
  | letter name =>
      change Confined p (letStatement p)
      rcases let_cases h hrange hsize with ⟨f, r, hr, hkept⟩ | ⟨letter, r, hletter, hr, hspares⟩
      · rw [hr]
        exact .failed hkept
      · rw [hr]
        exact .assigned (.bare hletter) hspares
  | _ => exact (hother _).confined p

/-- The registers after a step: all as before if it fails, and if it does not, all but the
one that its statement assigns to. -/
theorem Underway.registers (h : m.Underway sheet) (hrange : m.InRange size)
    (hsize : size.Writable) :
    (∀ f, m.outcome = .error f → m.stepped.store = m.store) ∧
      ∀ more, m.outcome = .ok more → m.stepped.store = m.store ∨
        ∃ p letter, arrive m = .ok true p ∧ p.Assigns letter ∧ SparesAllBut letter m m.stepped := by
  have hconfined : ∀ {p}, arrive m = .ok true p → Confined p (statement p) := by
    intro p harrive
    have hstore := arrive_store.of_ok harrive
    have hsame : p.size = m.size := (arrive_preserves fun _ _ _ _ _ => rfl).of_ok harrive
    exact statement_confined (h.arrived harrive).1 (hrange.still hstore hsame) hsize
  have hcourse := stepped_course m
  generalize m.outcome = answer at hcourse ⊢
  generalize m.stepped = after at hcourse ⊢
  cases hcourse with
  | strayed hstray =>
      have hstore := arrive_store.of_error hstray
      exact ⟨fun _ _ => hstore, fun more hmore => by cases hmore⟩
  | idle hidle =>
      have hstore := arrive_store.of_ok hidle
      exact ⟨fun _ _ => hstore, fun _ _ => .inl hstore⟩
  | executed hthere hdone =>
      have hstore := arrive_store.of_ok hthere
      have hstatement := hconfined hthere
      rw [hdone] at hstatement
      refine ⟨fun f hf => (by cases hf), fun _ _ => ?_⟩
      cases hstatement with
      | kept hkept => exact .inl (hkept.trans hstore)
      | assigned hassigns hspares =>
          refine .inr ⟨_, _, hthere, hassigns, ?_⟩
          intro name hname
          rw [hspares name hname, hstore]
  | failed hthere hfail =>
      have hstore := arrive_store.of_ok hthere
      have hstatement := hconfined hthere
      rw [hfail] at hstatement
      cases hstatement with
      | failed hkept =>
          have hboth := hkept.trans hstore
          exact ⟨fun _ _ => hboth, fun more hmore => by cases hmore⟩

/-- What a step that comes to `PRINT` writes stands behind what was there. -/
theorem Underway.printsBehind (h : m.Underway sheet) (harrive : arrive m = .ok true p)
    (hprint : p.cursor.token.lexeme = .keyword .PRINT) :
    m.output.text <+: m.stepped.output.text := by
  obtain ⟨q, -, -, -, hline, hbreaks⟩ := h.prints harrive hprint
  cases houtcome : m.outcome with
  | ok more =>
      obtain ⟨-, -, htext, -⟩ := hline more houtcome
      rw [htext, List.append_assoc]
      exact List.prefix_append _ _
  | error f =>
      cases hbreaks f houtcome with
      | spoilt _ _ htext =>
          rw [htext, List.append_assoc]
          exact List.prefix_append _ _
      | interrupted _ _ _ htext =>
          rw [htext, List.append_assoc]
          exact List.prefix_append _ _

/-- A step that comes to `PRINT` sets no register. -/
theorem store_stepped (harrive : arrive m = .ok true p)
    (hprint : p.cursor.token.lexeme = .keyword .PRINT) : m.stepped.store = m.store := by
  refine stepped_preserves (fun _ _ _ _ _ => rfl) fun n hn => ?_
  cases harrive.symm.trans hn
  rw [leftBy, statement_of_print hprint]
  exact print_store p

/-- The output after a step: what was there is still there, and if there is more, the
statement was `PRINT` and no register has changed. -/
theorem Underway.written (h : m.Underway sheet) :
    m.output.text <+: m.stepped.output.text ∧
      (m.stepped.output.text ≠ m.output.text → ∃ p, arrive m = .ok true p ∧
        p.cursor.token.lexeme = .keyword .PRINT ∧ m.stepped.store = m.store) := by
  by_cases hprint : ∃ p, arrive m = .ok true p ∧ p.cursor.token.lexeme = .keyword .PRINT
  · obtain ⟨p, harrive, hlexeme⟩ := hprint
    exact ⟨h.printsBehind harrive hlexeme,
      fun _ => ⟨p, harrive, hlexeme, store_stepped harrive hlexeme⟩⟩
  · have hsame := output_stepped fun p harrive hlexeme => hprint ⟨p, harrive, hlexeme⟩
    rw [hsame]
    exact ⟨List.prefix_refl _, fun hne => absurd rfl hne⟩

/-- If words can be written, then in every call, at whatever time it is made: a failure
leaves all registers as they were; a success has changed at most the one register that
the statement assigns to; and what has been written stays, with more behind it only if
the statement is `PRINT`, which changes no register. -/
theorem effects_confined {output : Output} {reports : Reports}
    (h : load sheet size output reports = .ok m) (hsize : size.Writable) (count : Nat) :
    (∀ f, m.call count = .error f → (m.called (count + 1)).store = (m.called count).store) ∧
      (∀ more, m.call count = .ok more →
        (m.called (count + 1)).store = (m.called count).store ∨
          ∃ p letter, arrive (m.called count) = .ok true p ∧ p.Assigns letter ∧
            SparesAllBut letter (m.called count) (m.called (count + 1))) ∧
      (m.called count).output.text <+: (m.called (count + 1)).output.text ∧
      ((m.called (count + 1)).output.text ≠ (m.called count).output.text →
        ∃ p, arrive (m.called count) = .ok true p ∧
          p.cursor.token.lexeme = .keyword .PRINT ∧
          (m.called (count + 1)).store = (m.called count).store) := by
  obtain ⟨c, hc, rfl⟩ := start_of_load h
  have hunderway := (underway_fresh (Cursor.sheet_of_start hc ▸ hc) size output reports).called count
  have hrange : ((fresh c size output reports).called count).InRange size :=
    holds_called (I := holdingWords size) (inRange_fresh c size output reports) count
  obtain ⟨hfailed, hdone⟩ := hunderway.registers hrange hsize
  exact ⟨hfailed, hdone, hunderway.written⟩

/-- An assignment, a line that is printed, and an assignment that fails behind a division
by zero. -/
theorem effects_confined_quotient :
    let sheet : Sheet := ⟨"LET A=5\nPRINT A\nA=1/0+\n".toList, []⟩
    let m := fresh ⟨sheet, .first, ⟨.keyword .LET, 1, 1, 0, 3⟩⟩ ⟨16, by decide⟩ {} {}
    load sheet ⟨16, by decide⟩ {} {} = .ok m ∧ WordSize.Writable ⟨16, by decide⟩ ∧
      (m.called 1).store.get? ['a'] = some 5 ∧
      (m.called 1).output.text <+: (m.called 2).output.text ∧
      (m.called 2).output.text = "5\n".toList ∧ (m.called 2).store = (m.called 1).store ∧
      (m.call 2).toOption = none ∧ (m.called 3).store = (m.called 2).store := by
  intro sheet m
  have hload : load sheet ⟨16, by decide⟩ {} {} = .ok m := rfl
  have hsize : WordSize.Writable ⟨16, by decide⟩ :=
    (WordSize.writable_iff_bits_le _).2 (by decide)
  have hassigned : (m.called 1).store.get? ['a'] = some 5 := by decide +kernel
  have hbefore : (m.called 1).output.text = [] := by decide +kernel
  have hafter : (m.called 2).output.text = "5\n".toList := by decide +kernel
  have hfails : (m.call 2).toOption = none := by decide +kernel
  obtain ⟨-, -, hbehind, hprinted⟩ := effects_confined hload hsize 1
  obtain ⟨-, -, -, hstore⟩ := hprinted (by rw [hbefore, hafter]; decide)
  refine ⟨hload, hsize, hassigned, hbehind, hafter, hstore, hfails, ?_⟩
  cases hcall : m.call 2 with
  | ok more =>
      rw [hcall] at hfails
      cases hfails
  | error f => exact (effects_confined hload hsize 2).1 f hcall

end Machine

end LineBasic
