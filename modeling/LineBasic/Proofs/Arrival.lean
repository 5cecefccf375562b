import LineBasic.Proofs.Finishing
import LineBasic.Proofs.Inward
import LineBasic.Proofs.Progress

/-!
# Steps by their statements

A step goes to the next statement and executes it. `arrive` is the step up to its
statement, and tells whether there is one: a machine that has finished has none, and one
that comes to the end of its text finishes there. `Course` tells what came of a step by
what came of these two parts.

Going to a statement changes no register and writes nothing. Of the statements only an
assignment changes the registers, and only `PRINT` writes.
-/
namespace LineBasic

theorem leftBy_of_ok {ε σ α : Type} {x : EStateM ε σ α} {s t : σ} {a : α} (h : x s = .ok a t) :
    leftBy x s = t := by
  rw [leftBy, h]

theorem leftBy_of_error {ε σ α : Type} {x : EStateM ε σ α} {s t : σ} {e : ε}
    (h : x s = .error e t) : leftBy x s = t := by
  rw [leftBy, h]

namespace Machine

variable {α β γ : Type} {sheet : Sheet} {bound : Nat} {m p : Machine}

/-- Whatever comes of the action, this part of the machine stays. -/
def Preserves (part : Machine → γ) (x : Run α) : Prop := ∀ m, part (leftBy x m) = part m

namespace Preserves

variable {part : Machine → γ} {x : Run α}

theorem of_ok (h : Preserves part x) {a : α} (hx : x m = .ok a p) : part p = part m :=
  leftBy_of_ok hx ▸ h m

theorem of_error (h : Preserves part x) {f : Fault} (hx : x m = .error f p) : part p = part m :=
  leftBy_of_error hx ▸ h m

theorem pure (a : α) : Preserves part (pure a) := fun _ => rfl

theorem throw (f : Fault) : Preserves part (throw f : Run α) := fun _ => rfl

theorem modify {change : Machine → Machine} (h : ∀ m, part (change m) = part m) :
    Preserves part (modify change) := h

theorem bind {f : α → Run β} (h : Preserves part x) (hf : ∀ a, Preserves part (f a)) :
    Preserves part (x >>= f) := by
  intro m
  cases hx : x m with
  | ok a n =>
      have hleft : leftBy (x >>= f) m = leftBy (f a) n := by
        unfold leftBy
        rw [bind_of_ok hx]
      rw [hleft, hf a n, h.of_ok hx]
  | error e n => rw [leftBy_of_error (bind_of_error hx), h.of_error hx]

theorem andThen {y : Run β} (h : Preserves part x) (hy : Preserves part y) :
    Preserves part (x >>= fun _ => y) :=
  h.bind fun _ => hy

theorem iterate {body : α → Run (Round α β)} (h : ∀ a, Preserves part (body a)) (rounds : Nat)
    (a : α) : Preserves part (iterate body rounds a) := by
  induction rounds generalizing a with
  | zero => exact throw .stalled
  | succ rounds ih =>
      apply (h a).bind
      intro round
      cases round with
      | again b => exact ih b
      | done r => exact pure r

end Preserves

/-- An action that only reads leaves all but the listing and the reports. -/
theorem Inward.preserves {x : Run α} {part : Machine → γ} (h : Inward x)
    (hpart : ∀ m l r, part (m.turned l r m.output) = part m) : Preserves part x := by
  intro m
  cases hx : x m with
  | ok a n =>
      obtain ⟨l, r, rfl, -⟩ := h.of_ok hx
      rw [leftBy_of_ok hx, hpart]
  | error f n =>
      obtain ⟨l, r, rfl, -⟩ := h.of_error hx
      rw [leftBy_of_error hx, hpart]

theorem Inward.store {x : Run α} (h : Inward x) : Preserves store x :=
  h.preserves fun _ _ _ => rfl

theorem Inward.output {x : Run α} (h : Inward x) : Preserves output x :=
  h.preserves fun _ _ _ => rfl

theorem Inward.finished {x : Run α} (h : Inward x) : Preserves finished x :=
  h.preserves fun _ _ _ => rfl

/-- Pass over empty lines and the number of a line; tells whether a statement is there. -/
def reachStatement : Run Bool := do
  skipEmptyLines
  match ← lexeme with
  | .sourceEnd => do
      modify fun m => { m with finished := true }
      pure false
  | .number value => do
      note (.lineReached value)
      next
      pure true
  | _ => pure true

/-- A step up to its statement, once there is an index. -/
def arriveStarted : Run Bool := fun m => if m.finished then .ok false m else reachStatement m

/-- A step up to its statement; tells whether there is one. -/
def arrive : Run Bool := indexedFirst arriveStarted

theorem arriveStarted_of_finished (h : m.finished = true) : arriveStarted m = .ok false m :=
  if_pos h

theorem arriveStarted_of_unfinished (h : m.finished = false) :
    arriveStarted m = reachStatement m :=
  if_neg (by simp [h])

theorem arrive_of_started (h : m.started = true) : arrive m = arriveStarted m := if_pos h

theorem arrive_of_unstarted (h : m.started = false) :
    arrive m = (buildIndex >>= fun _ => (modify fun m => { m with started := true }) >>= fun _ =>
      arriveStarted) m :=
  if_neg (by simp [h])

/-- Execute the statement, if there is one. -/
def perform : Bool → Run Unit
  | true => statement
  | false => pure ()

theorem lineStatement_eq_perform : lineStatement = reachStatement >>= perform := by
  simp only [lineStatement, reachStatement, bind_assoc]
  refine bind_congr fun _ => bind_congr fun l => ?_
  cases l with
  | number value =>
      simp only [bind_assoc]
      rfl
  | _ => rfl

theorem stepBody_eq_perform (m : Machine) :
    stepBody m = (arrive >>= fun more => perform more >>= fun _ => get >>= fun m =>
      pure !m.finished) m := by
  have hstarted : stepStarted = arriveStarted >>= fun more => perform more >>= fun _ =>
      get >>= fun m => pure !m.finished := by
    funext m
    rw [bind_apply, stepStarted_apply]
    cases hfinished : m.finished with
    | true =>
        rw [arriveStarted_of_finished hfinished]
        simp only [if_true, perform]
        rw [pure_bind, get_bind_apply, hfinished]
        rfl
    | false =>
        rw [arriveStarted_of_unfinished hfinished]
        simp only [Bool.false_eq_true, if_false]
        rw [lineStatement_eq_perform, bind_assoc, bind_apply]
  rw [stepBody_eq_indexedFirst, hstarted, indexedFirst_bind, arrive]

/-- What comes of a step: it fails on its way to the statement, there is no statement, or
the statement is executed or fails. -/
inductive Course (m : Machine) : Except Fault Bool → Machine → Prop
  | strayed {f : Fault} {p : Machine} : arrive m = .error f p →
      Course m (.error f) { p with reports := p.reports.scanReported f }
  | idle {p : Machine} : arrive m = .ok false p → Course m (.ok !p.finished) p
  | executed {p q : Machine} : arrive m = .ok true p → statement p = .ok () q →
      Course m (.ok !q.finished) q
  | failed {f : Fault} {p q : Machine} : arrive m = .ok true p → statement p = .error f q →
      Course m (.error f) { q with reports := q.reports.scanReported f }

theorem stepped_course (m : Machine) : Course m m.outcome m.stepped := by
  unfold outcome stepped
  rw [step_apply, stepBody_eq_perform, bind_apply]
  cases harrive : arrive m with
  | error f p => exact .strayed harrive
  | ok more p =>
      cases more with
      | false => exact .idle harrive
      | true =>
          simp only [perform]
          rw [bind_apply]
          cases hstatement : statement p with
          | ok _ q => exact .executed harrive hstatement
          | error f q => exact .failed harrive hstatement

/-- Going to a statement touches neither the registers nor the output. -/
theorem arrive_preserves {part : Machine → γ}
    (hpart : ∀ m l r s t, part { m with listing := l, reports := r, started := s, finished := t } =
      part m) : Preserves part arrive := by
  have hinward : ∀ {α : Type} {x : Run α}, Inward x → Preserves part x :=
    fun h => h.preserves fun m l r => hpart m l r m.started m.finished
  have hreach : Preserves part reachStatement := by
    apply (hinward skipEmptyLines_inward).andThen
    apply (hinward lexeme_inward).bind
    intro l
    cases l with
    | sourceEnd =>
        apply (Preserves.modify fun m => hpart m m.listing m.reports m.started true).andThen
        exact .pure _
    | number value =>
        apply (hinward (note_inward _)).andThen
        apply (hinward next_inward).andThen
        exact .pure _
    | _ => exact .pure _
  have hstarted : Preserves part arriveStarted := by
    intro m
    cases hfinished : m.finished with
    | true => rw [leftBy, arriveStarted_of_finished hfinished]
    | false =>
        rw [leftBy, arriveStarted_of_unfinished hfinished]
        exact hreach m
  have hsurvey := (hinward buildIndex_inward).andThen
    ((Preserves.modify fun m => hpart m m.listing m.reports true m.finished).andThen hstarted)
  intro m
  cases hm : m.started with
  | true =>
      rw [leftBy, arrive_of_started hm]
      exact hstarted m
  | false =>
      rw [leftBy, arrive_of_unstarted hm]
      exact hsurvey m

theorem arrive_store : Preserves store arrive := arrive_preserves fun _ _ _ _ _ => rfl

theorem arrive_output : Preserves output arrive := arrive_preserves fun _ _ _ _ _ => rfl

/-- What a step leaves alone is what its statement leaves alone. -/
theorem stepped_preserves {part : Machine → γ}
    (hpart : ∀ m l r s t, part { m with listing := l, reports := r, started := s, finished := t } =
      part m)
    (h : ∀ p, arrive m = .ok true p → part (leftBy statement p) = part p) :
    part m.stepped = part m := by
  have hreported : ∀ (n : Machine) (r : Reports), part { n with reports := r } = part n :=
    fun n r => hpart n n.listing r n.started n.finished
  have harrive := arrive_preserves hpart
  have hcourse := stepped_course m
  generalize m.outcome = answer at hcourse
  generalize m.stepped = after at hcourse ⊢
  cases hcourse with
  | strayed hstray => rw [hreported, harrive.of_error hstray]
  | idle hidle => exact harrive.of_ok hidle
  | executed hthere hdone =>
      rw [← harrive.of_ok hthere, ← h _ hthere, leftBy_of_ok hdone]
  | failed hthere hfail =>
      rw [hreported, ← harrive.of_ok hthere, ← h _ hthere, leftBy_of_error hfail]

/-- A machine as calls leave it: from its survey on the cursor is steady. -/
structure Underway (sheet : Sheet) (m : Machine) : Prop where
  sheet_eq : m.cursor.sheet = sheet
  opens : ∃ first, Cursor.start sheet = .ok first
  steady : m.started = true → m.cursor.Steady

namespace Underway

theorem within (h : m.Underway sheet) (hstarted : m.started = true) :
    m.Within sheet (m.toGo + 1) :=
  ⟨h.steady hstarted, h.sheet_eq, hstarted, Nat.lt_succ_self _⟩

theorem of_within (h : m.Within sheet bound) : m.Underway sheet := by
  refine ⟨h.sheet_eq, ?_, fun _ => h.steady⟩
  obtain ⟨first, hstart, -⟩ := Cursor.start_of_readable _ h.steady.whole
  exact ⟨first, h.sheet_eq ▸ hstart⟩

/-- A survey fails, or it leaves the cursor on the first token of the text. -/
theorem survey (h : m.Underway sheet) :
    (∃ f l, Listing.build m.listing = .error f l ∧ l.cursor.sheet = sheet) ∨
      ∃ l, Listing.build m.listing = .ok () l ∧
        (Event.indexed l.index.numbers).writable = true ∧
        (m.begun l).Within sheet ((m.begun l).toGo + 1) := by
  obtain rfl := h.sheet_eq
  obtain ⟨first, hstart⟩ := h.opens
  rcases Listing.build_outcome (l := m.listing) hstart with
    ⟨-, -, hreadable, -⟩ | ⟨f, l, hfail, hsheet, -⟩
  · right
    obtain ⟨index, hbuild, -, hwritable⟩ := survey_of_readable hstart hreadable
    obtain ⟨other, hother, hsteady, hsheet, -⟩ := Cursor.Steady.start _ hreadable
    cases hstart.symm.trans hother
    exact ⟨_, hbuild, hwritable, hsteady, hsheet, rfl, Nat.lt_succ_self _⟩
  · exact .inl ⟨f, l, hfail, hsheet⟩

theorem stepped (h : m.Underway sheet) : m.stepped.Underway sheet := by
  -- Whatever comes of a step from a steady cursor, the lockstep of the machine with itself
  -- keeps the cursor steady.
  have hwithin : ∀ {n : Machine}, n.Within sheet (n.toGo + 1) → n.stepped.Underway sheet := by
    intro n hn
    have hpaired := (stepped_agree id hn.paired).2
    exact of_within (.of_paired hpaired (Nat.lt_succ_self _))
  cases hstarted : m.started with
  | true => exact hwithin (h.within hstarted)
  | false =>
      rcases h.survey with ⟨f, l, hfail, hsheet⟩ | ⟨l, hbuild, hwritable, hbegun⟩
      · rw [Machine.stepped, step_of_failed hstarted hfail]
        refine ⟨hsheet, h.opens, ?_⟩
        intro hafter
        exact absurd (hstarted.symm.trans hafter) (by decide)
      · rw [Machine.stepped, step_of_survey hstarted hbuild hwritable]
        exact hwithin hbegun

theorem called (h : m.Underway sheet) (count : Nat) : (m.called count).Underway sheet :=
  called_induction (P := Underway sheet) (fun _ => stepped) h count

theorem noted (h : m.Underway sheet) (event : Event) : (m.noted event).Underway sheet :=
  ⟨h.sheet_eq, h.opens, h.steady⟩

end Underway

theorem underway_fresh {c : Cursor} (h : Cursor.start c.sheet = .ok c) (size : WordSize)
    (output : Output) (reports : Reports) : (fresh c size output reports).Underway c.sheet :=
  ⟨rfl, ⟨c, h⟩, fun hstarted => by cases hstarted⟩

theorem within_of_reachStatement (h : m.Within sheet bound) (hunfinished : m.finished = false)
    (hreach : reachStatement m = .ok true p) :
    p.Within sheet (p.toGo + 1) ∧ p.finished = false := by
  have hself : ∀ {n : Machine} {bound : Nat}, n.Within sheet bound → n.Within sheet (n.toGo + 1) :=
    fun hn => { hn with less := Nat.lt_succ_self _ }
  obtain ⟨_, m₁, hskip, hrest⟩ := bind_eq_ok hreach
  have h₁ := (skipEmptyLines_ends h).of_eq hskip
  have hfinished₁ : m₁.finished = false :=
    (skipEmptyLines_inward.finished.of_ok hskip).trans hunfinished
  rw [lexeme_bind_apply] at hrest
  cases hl : m₁.cursor.token.lexeme with
  | sourceEnd =>
      rw [hl] at hrest
      cases hrest
  | number value =>
      rw [hl] at hrest
      obtain ⟨_, m₂, hnote, hrest⟩ := bind_eq_ok hrest
      obtain ⟨_, m₃, hnext, hrest⟩ := bind_eq_ok hrest
      cases hrest
      obtain ⟨h₂, hcursor⟩ := (note_ends h₁ _).of_eq hnote
      have hlexeme : m₂.cursor.token.lexeme = .number value := by rw [hcursor, hl]
      have h₃ := ((next_ends h₂ (by simp [hlexeme]) (by simp [hlexeme])).of_eq hnext).1
      refine ⟨hself h₃, ?_⟩
      rw [next_inward.finished.of_ok hnext, (note_inward _).finished.of_ok hnote, hfinished₁]
  | _ =>
      rw [hl] at hrest
      cases hrest
      exact ⟨hself h₁, hfinished₁⟩

theorem within_of_arriveStarted (h : m.Within sheet bound) (harrive : arriveStarted m = .ok true p) :
    p.Within sheet (p.toGo + 1) ∧ p.finished = false := by
  cases hfinished : m.finished with
  | true =>
      rw [arriveStarted_of_finished hfinished] at harrive
      cases harrive
  | false =>
      rw [arriveStarted_of_unfinished hfinished] at harrive
      exact within_of_reachStatement h hfinished harrive

/-- A machine at its statement has a steady cursor and has not finished. -/
theorem Underway.arrived (h : m.Underway sheet) (harrive : arrive m = .ok true p) :
    p.Within sheet (p.toGo + 1) ∧ p.finished = false := by
  cases hstarted : m.started with
  | true =>
      rw [arrive_of_started hstarted] at harrive
      exact within_of_arriveStarted (h.within hstarted) harrive
  | false =>
      rw [arrive_of_unstarted hstarted] at harrive
      rcases h.survey with ⟨f, l, hfail, -⟩ | ⟨l, hbuild, hwritable, hbegun⟩
      · rw [bind_of_error (buildIndex_of_failed hfail)] at harrive
        cases harrive
      · rw [bind_of_ok (buildIndex_of_build hbuild hwritable)] at harrive
        exact within_of_arriveStarted hbegun harrive

theorem let_output : Preserves output letStatement := by
  have hassign : ∀ name value, Preserves output (assign name value) := by
    intro name value m
    unfold leftBy assign
    rw [get_bind_apply]
    cases m.store.assign name value <;> rfl
  apply lexeme_inward.output.bind
  intro l
  cases l with
  | letter letter =>
      apply next_inward.output.andThen
      apply (accept_inward _).output.andThen
      apply expression_inward.output.bind
      intro value
      apply (hassign _ value).andThen
      exact (note_inward _).output
  | _ => exact (failHere_inward _).output

/-- Only `PRINT` writes. -/
theorem statement_output (h : p.cursor.token.lexeme ≠ .keyword .PRINT) :
    (leftBy statement p).output = p.output := by
  have hother : ∀ kind, Preserves output
      (note (.unrecognized kind) >>= fun _ => failHere .unrecognizedStatement : Run Unit) :=
    fun kind => ((note_inward _).andThen (failHere_inward _)).output
  unfold leftBy statement statementWith
  rw [lexeme_bind_apply]
  cases hl : p.cursor.token.lexeme with
  | keyword word =>
      cases word with
      | REM => exact skipLine_inward.output p
      | PRINT => exact absurd hl h
      | IF => exact if_inward.output p
      | GOTO => exact goto_inward.output p
      | LET => exact ((accept_inward _).output.andThen let_output) p
      | THEN => exact hother _ p
  | letter name => exact let_output p
  | _ => exact hother _ p

theorem write_store (piece : Text) : Preserves store (write piece) := by
  intro m
  unfold leftBy write
  cases Output.write piece m.output <;> rfl

theorem put_store (line : PrintLine) (piece : Text) (joined : Bool) :
    Preserves store (line.put piece joined) :=
  (write_store piece).andThen (.pure _)

theorem setOff_store (line : PrintLine) : Preserves store line.setOff := by
  unfold PrintLine.setOff
  split
  · exact put_store line [' '] true
  · exact .pure line

theorem printValue_store (line : PrintLine) : Preserves store (printValue line) := by
  apply (setOff_store line).bind
  intro line
  apply expression_inward.store.bind
  intro value
  split
  · exact (put_store line _ true).bind fun _ => .pure _
  · exact .throw _

theorem printElement_store (line : PrintLine) : Preserves store (printElement line) := by
  have hstop : ∀ kind, Preserves store (note (.printStopped kind) >>= fun _ =>
      pure (Round.done line : Round PrintLine PrintLine)) :=
    fun _ => (note_inward _).store.andThen (.pure _)
  apply (lineNumber?_inward false).store.bind
  intro number
  cases number with
  | some number => exact .pure _
  | none =>
      apply lexeme_inward.store.bind
      intro l
      cases l with
      | string body =>
          apply (setOff_store line).bind
          intro line
          apply (put_store line body true).bind
          intro line
          exact next_inward.store.andThen (.pure _)
      | separator mark =>
          apply (put_store line [' '] false).bind
          intro line
          exact next_inward.store.andThen (.pure _)
      | letter name => exact printValue_store line
      | number value => exact printValue_store line
      | symbol sign =>
          cases sign with
          | openParen => exact printValue_store line
          | _ => exact hstop _
      | keyword word => exact hstop _
      | lineEnd => exact .pure _
      | sourceEnd => exact .pure _

theorem endPrint_store : Preserves store endPrint := by
  apply (lineNumber?_inward false).store.bind
  intro number
  cases number with
  | some number => exact .pure _
  | none =>
      apply lexeme_inward.store.bind
      intro l
      cases l with
      | sourceEnd => exact .modify fun _ => rfl
      | lineEnd => exact next_inward.store
      | _ => exact .pure _

/-- `PRINT` sets no register. -/
theorem print_store : Preserves store printStatement := by
  apply (accept_inward _).store.andThen
  apply moves_inward.store.bind
  intro rounds
  apply (Preserves.iterate printElement_store rounds _).bind
  intro line
  apply (write_store _).andThen
  apply (note_inward _).store.andThen
  exact endPrint_store

theorem statement_of_print (h : p.cursor.token.lexeme = .keyword .PRINT) :
    statement p = printStatement p := by
  unfold statement statementWith
  rw [lexeme_bind_apply, h]
  rfl

end Machine

end LineBasic
