import LineBasic.Proofs.Invariant
import LineBasic.Proofs.LexicalSafety
import LineBasic.Proofs.Walk

/-!
# Steps get on

A step does one line and perhaps jumps at its end. `approach` is the step up to its
jump: it comes by the number to jump to, if there is one. Unless the machine finishes,
everything but the jump leaves the cursor further on in the text, since each statement
takes at least the token it begins with; and where there is a jump, the word and the
number of it stand in the text, no earlier than where the step began.

All this is about steps that succeed. `Ends` says what a result holds in that case, and
the facts about expressions are those of a machine in lockstep with itself.
-/
namespace LineBasic

/-- A result of whose value and machine, if it has any, something is known. -/
inductive Ends {α : Type} (post : α → Machine → Prop) : EStateM.Result Fault Machine α → Prop
  | ok {a : α} {m : Machine} : post a m → Ends post (.ok a m)
  | error {f : Fault} {m : Machine} : Ends post (.error f m)

namespace Ends

variable {α β : Type} {P P' : α → Machine → Prop} {Q : β → Machine → Prop} {m : Machine}

theorem of_eq {r : EStateM.Result Fault Machine α} (h : Ends P r) {a : α} (hr : r = .ok a m) :
    P a m := by
  rw [hr] at h
  cases h with
  | ok ha => exact ha

theorem mono {r : EStateM.Result Fault Machine α} (h : Ends P r) (hP : ∀ a m, P a m → P' a m) :
    Ends P' r := by
  cases h with
  | ok ha => exact ok (hP _ _ ha)
  | error => exact error

theorem bind {x : Run α} {f : α → Run β} (h : Ends P (x m))
    (hf : ∀ a m, P a m → Ends Q (f a m)) : Ends Q ((x >>= f) m) := by
  rw [bind_apply]
  generalize x m = r at h ⊢
  cases h with
  | ok ha => exact hf _ _ ha
  | error => exact error

/-- A loop comes to what its rounds lead to. -/
theorem iterate {body : α → Run (Round α β)}
    (hbody : ∀ a m, P a m → Ends (fun round m' => round.Meets (P · m') (Q · m')) (body a m))
    (rounds : Nat) {a : α} (h : P a m) : Ends Q (iterate body rounds a m) := by
  induction rounds generalizing a m with
  | zero => exact error
  | succ rounds ih =>
      apply (hbody a m h).bind
      intro round m' hround
      cases round with
      | again b => exact ih hround
      | done r => exact ok hround

/-- A machine in lockstep with itself ends where it does. -/
theorem of_agree {k : Coupling} {x : Run α} {post : α → α → Machine → Machine → Prop}
    (h : Agree k post (x m) (x m)) : Ends (fun a m' => post a a m' m') (x m) := by
  cases hx : x m with
  | ok a m' =>
      rw [hx] at h
      cases h with
      | ok hpost => exact ok hpost
  | error f m' => exact error

end Ends

namespace Text

/-- A word that jumps, with the number of its target, stands at an offset that reading the
text comes to. -/
def JumpsAt (t : Text) (pos number : Nat) : Prop :=
  t.Visits (t.drop pos) ∧ ∃ word length digits,
    Lexeme.read (t.drop pos) = .ok (.keyword word, length) ∧ (word = .GOTO ∨ word = .THEN) ∧
      Lexeme.read (pastGap ((t.drop pos).drop length)) = .ok (.number number, digits)

end Text

/-- The coupling with itself of a machine whose cursor is steady on a sheet. -/
def Coupling.steady (sheet : Sheet) : Coupling where
  slack := False
  Rel c d := d = c ∧ c.Steady ∧ c.sheet = sheet
  Edge c d := d = c
  left h := h.2.1.toSound
  right h := h.1 ▸ h.2.1.toSound
  alike h := .inl (by rw [h.1])
  line h := by rw [h.1]
  edge := @Coupling.same.edge
  next := by
    rintro c d c' d' ⟨rfl, hs, hsheet⟩ hend hrem hc hd
    cases hc.symm.trans hd
    obtain ⟨e, he, hsteady, hsame, -⟩ := hs.next hend hrem
    cases hc.symm.trans he
    exact ⟨⟨rfl, hsteady, hsame.trans hsheet⟩, fun _ => rfl⟩
  finish := by
    rintro c d d' ⟨rfl, -⟩ hend hline
    cases hend.symm.trans hline
  skip := by
    rintro c d c' d' ⟨rfl, hs, hsheet⟩ hend hc hd
    cases hc.symm.trans hd
    obtain ⟨e, he, hsteady, hsame, -⟩ := hs.skipLine hend
    cases hc.symm.trans he
    exact ⟨rfl, hsteady, hsame.trans hsheet⟩
  start := by
    rintro c d c' d' ⟨rfl, hs, hsheet⟩ hc hd
    cases hc.symm.trans hd
    obtain ⟨e, he, hsteady, hsame, -⟩ := Cursor.Steady.start _ hs.whole
    cases hc.symm.trans he
    exact ⟨rfl, hsteady, hsame.trans hsheet⟩

namespace Machine

/-- A started machine on a sheet, with less than a number of characters to go. -/
structure Within (sheet : Sheet) (bound : Nat) (m : Machine) : Prop where
  steady : m.cursor.Steady
  sheet_eq : m.cursor.sheet = sheet
  started : m.started = true
  less : m.toGo < bound

variable {sheet : Sheet} {bound : Nat} {m m' : Machine}

namespace Within

theorem mono (h : m.Within sheet bound) {more : Nat} (hle : bound ≤ more) :
    m.Within sheet more :=
  { h with less := Nat.lt_of_lt_of_le h.less hle }

/-- A machine that differs in nothing but what it has written, read and noted. -/
theorem still (h : m.Within sheet bound) (hcursor : m'.cursor = m.cursor)
    (hstarted : m'.started = m.started) : m'.Within sheet bound := by
  refine ⟨hcursor ▸ h.steady, hcursor ▸ h.sheet_eq, hstarted.trans h.started, ?_⟩
  have hless := h.less
  rwa [toGo, ← hcursor] at hless

theorem paired (h : m.Within sheet bound) : Paired (.steady sheet) Anywhere m m :=
  ⟨⟨rfl, h.steady, h.sheet_eq⟩, trivial, rfl, rfl, rfl, rfl, ⟨rfl, rfl, rfl, rfl, rfl⟩,
    ⟨h.started, h.started⟩, rfl⟩

theorem of_paired {E : Cursor → Cursor → Prop} (h : Paired (.steady sheet) E m m)
    (hless : m.toGo < bound) : m.Within sheet bound :=
  ⟨h.cursor.2.1, h.cursor.2.2, h.started.1, hless⟩

end Within

theorem note_ends (h : m.Within sheet bound) (event : Event) :
    Ends (fun _ m' => m'.Within sheet bound ∧ m'.cursor = m.cursor) (note event m) := by
  rw [note_apply]
  split
  · exact .error
  · exact .ok ⟨h.still rfl rfl, rfl⟩

theorem write_ends (h : m.Within sheet bound) (piece : Text) :
    Ends (fun _ m' => m'.Within sheet bound ∧ m'.cursor = m.cursor) (write piece m) := by
  unfold write
  cases Output.write piece m.output with
  | ok _ output => exact .ok ⟨h.still rfl rfl, rfl⟩
  | error fault output => exact .error

theorem assign_ends (h : m.Within sheet bound) (name : Text) (value : Int) :
    Ends (fun _ m' => m'.Within sheet bound) (assign name value m) := by
  unfold assign
  rw [get_bind_apply]
  cases m.store.assign name value with
  | ok store => exact .ok (h.still rfl rfl)
  | error refusal => exact .error

theorem next_ends (h : m.Within sheet bound) (hend : m.cursor.token.lexeme ≠ .sourceEnd)
    (hrem : m.cursor.token.lexeme ≠ .keyword .REM) :
    Ends (fun _ m' => m'.Within sheet m.toGo ∧ m'.cursor.ahead = m.cursor.behind.pastGap)
      (next m) := by
  obtain ⟨d, hd, hsteady, hsheet, hahead⟩ := h.steady.next hend hrem
  unfold next
  rw [onCursor_of_ok hd]
  exact .ok ⟨⟨hsteady, hsheet.trans h.sheet_eq, h.started, h.steady.length_next hend hd⟩, hahead⟩

theorem skipLine_ends (h : m.Within sheet bound) (hend : m.cursor.token.lexeme ≠ .sourceEnd) :
    Ends (fun _ m' => m'.Within sheet m.toGo ∧
      m'.cursor.ahead = m.cursor.ahead.afterLine.pastGap) (skipLine m) := by
  obtain ⟨d, hd, hsteady, hsheet, hahead, hless⟩ := h.steady.skipLine hend
  unfold skipLine
  rw [onCursor_of_ok hd]
  exact .ok ⟨⟨hsteady, hsheet.trans h.sheet_eq, h.started, hless⟩, hahead⟩

theorem accept_ends (h : m.Within sheet bound) {expected : Kind} (hend : expected ≠ .sourceEnd)
    (hrem : expected ≠ .keyword .REM) :
    Ends (fun _ m' => m.cursor.token.lexeme.kind = expected ∧ m'.Within sheet m.toGo ∧
      m'.cursor.ahead = m.cursor.behind.pastGap) (accept expected m) := by
  rw [accept_apply]
  split
  · rename_i hkind
    have hend' : m.cursor.token.lexeme ≠ .sourceEnd := fun hl =>
      hend (hkind ▸ Lexeme.kind_eq_sourceEnd.2 hl)
    have hrem' : m.cursor.token.lexeme ≠ .keyword .REM := fun hl =>
      hrem (hkind ▸ Lexeme.kind_eq_keyword.2 hl)
    exact (next_ends h hend' hrem').mono fun _ _ hm' => ⟨hkind, hm'⟩
  · rw [failHere_apply]
    exact .error

theorem expression_ends (h : m.Within sheet bound) :
    Ends (fun _ m' => m'.Within sheet m.toGo) (expression m) := by
  apply (Ends.of_agree (expression_agree h.paired)).mono
  rintro value m' ⟨-, hpaired⟩
  exact .of_paired hpaired hpaired.extra.1.1

theorem relation_ends (h : m.Within sheet bound) :
    Ends (fun _ m' => m'.Within sheet m.toGo) (relation m) := by
  apply (Ends.of_agree (relation_agree h.paired)).mono
  rintro value m' ⟨-, hpaired⟩
  exact .of_paired hpaired hpaired.extra.1.1

theorem let_ends (h : m.Within sheet bound) :
    Ends (fun _ m' => m'.Within sheet m.toGo) (letStatement m) := by
  unfold letStatement letStatementWith
  rw [lexeme_bind_apply]
  cases hl : m.cursor.token.lexeme with
  | letter name =>
      apply (next_ends h (by simp [hl]) (by simp [hl])).bind
      rintro _ m₁ ⟨h₁, -⟩
      apply (accept_ends h₁ (by simp) (by simp)).bind
      rintro _ m₂ ⟨-, h₂, -⟩
      apply (expression_ends h₂).bind
      intro value m₃ h₃
      apply (assign_ends h₃ _ value).bind
      intro _ m₄ h₄
      apply (note_ends h₄ _).mono
      rintro _ m₅ ⟨h₅, -⟩
      have hless := h₁.less
      have hless' := h₂.less
      exact h₅.mono (by omega)
  | _ => exact .error

theorem put_ends (h : m.Within sheet bound) (line : PrintLine) (piece : Text) (joined : Bool) :
    Ends (fun _ m' => m'.Within sheet bound ∧ m'.cursor = m.cursor)
      (line.put piece joined m) := by
  apply (write_ends h piece).bind
  intro _ m₁ h₁
  exact .ok h₁

theorem setOff_ends (h : m.Within sheet bound) (line : PrintLine) :
    Ends (fun _ m' => m'.Within sheet bound ∧ m'.cursor = m.cursor) (line.setOff m) := by
  unfold PrintLine.setOff
  split
  · exact put_ends h line [' '] true
  · exact .ok ⟨h, rfl⟩

/-- An element that takes a token leaves less to go, and one that takes none ends the line
where it is. -/
theorem printElement_ends (h : m.Within sheet bound) (line : PrintLine) :
    Ends (fun round m' => round.Meets (fun _ => m'.Within sheet bound)
      (fun _ => m'.Within sheet bound)) (printElement line m) := by
  have hpass : ∀ {m₁ : Machine} {line : PrintLine}, m₁.Within sheet bound →
      m₁.cursor.token.lexeme ≠ .sourceEnd → m₁.cursor.token.lexeme ≠ .keyword .REM →
      Ends (fun round m' => round.Meets (fun _ => m'.Within sheet bound)
        (fun _ => m'.Within sheet bound))
        ((next >>= fun _ => pure (Round.again line : Round PrintLine PrintLine)) m₁) := by
    intro m₁ line h₁ hend hrem
    apply (next_ends h₁ hend hrem).bind
    rintro _ m₂ ⟨h₂, -⟩
    exact .ok (h₂.mono (Nat.le_of_lt h₁.less))
  have hvalue : Ends (fun round m' => round.Meets (fun _ => m'.Within sheet bound)
      (fun _ => m'.Within sheet bound)) (printValue line m) := by
    apply (setOff_ends h line).bind
    rintro line m₁ ⟨h₁, -⟩
    apply (expression_ends h₁).bind
    intro value m₂ h₂
    split
    · apply (put_ends h₂ line _ true).bind
      rintro _ m₃ ⟨h₃, -⟩
      exact .ok (h₃.mono (Nat.le_of_lt h₁.less))
    · exact .error
  have hstop : ∀ kind, Ends (fun round m' => round.Meets (fun _ => m'.Within sheet bound)
      (fun _ => m'.Within sheet bound))
      ((note (.printStopped kind) >>= fun _ =>
        pure (Round.done line : Round PrintLine PrintLine)) m) := by
    intro kind
    apply (note_ends h _).bind
    rintro _ m₁ ⟨h₁, -⟩
    exact .ok h₁
  rw [printElement_apply]
  split
  · exact .ok h
  · unfold printItem printItemWith
    rw [lexeme_bind_apply]
    cases hl : m.cursor.token.lexeme with
    | string body =>
        apply (setOff_ends h line).bind
        rintro line m₁ ⟨h₁, hcursor₁⟩
        apply (put_ends h₁ line body true).bind
        rintro line m₂ ⟨h₂, hcursor₂⟩
        have hlexeme : m₂.cursor.token.lexeme = .string body := by rw [hcursor₂, hcursor₁, hl]
        exact hpass h₂ (by simp [hlexeme]) (by simp [hlexeme])
    | separator mark =>
        apply (put_ends h line [' '] false).bind
        rintro line m₁ ⟨h₁, hcursor₁⟩
        have hlexeme : m₁.cursor.token.lexeme = .separator mark := by rw [hcursor₁, hl]
        exact hpass h₁ (by simp [hlexeme]) (by simp [hlexeme])
    | letter name => exact hvalue
    | number value => exact hvalue
    | symbol sign =>
        cases sign with
        | openParen => exact hvalue
        | _ => exact hstop _
    | keyword word => exact hstop _
    | lineEnd => exact .ok h
    | sourceEnd => exact .ok h

/-- Where a statement without a jump ends. -/
def GotOn (sheet : Sheet) (bound : Nat) (m : Machine) : Prop :=
  m.finished = true ∨ m.Within sheet bound

theorem endPrint_ends (h : m.Within sheet bound) :
    Ends (fun _ m' => m'.GotOn sheet bound) (endPrint m) := by
  unfold endPrint
  rw [lineNumber?_bind_apply]
  cases m.cursor.lineNumber? false with
  | some number => exact .ok (.inr h)
  | none =>
      simp only [Option.isNone_none, if_true]
      rw [lexeme_bind_apply]
      cases hl : m.cursor.token.lexeme with
      | sourceEnd => exact .ok (.inl rfl)
      | lineEnd =>
          apply (next_ends h (by simp [hl]) (by simp [hl])).mono
          rintro _ m₁ ⟨h₁, -⟩
          exact .inr (h₁.mono (Nat.le_of_lt h.less))
      | _ => exact .ok (.inr h)

theorem print_ends (h : m.Within sheet bound) :
    Ends (fun _ m' => m'.GotOn sheet m.toGo) (printStatement m) := by
  apply (accept_ends h (by simp) (by simp)).bind
  rintro _ m₁ ⟨-, h₁, -⟩
  rw [moves_bind_apply]
  refine (Ends.iterate (P := fun _ m' => m'.Within sheet m.toGo)
    (fun line _ h' => printElement_ends h' line) _ h₁).bind ?_
  intro line m₂ h₂
  apply (write_ends h₂ _).bind
  rintro _ m₃ ⟨h₃, -⟩
  apply (note_ends h₃ _).bind
  rintro _ m₄ ⟨h₄, -⟩
  exact endPrint_ends h₄

/-- A statement that does not jump gets on. -/
theorem statement_ends (h : m.Within sheet bound) (hif : m.cursor.token.lexeme ≠ .keyword .IF)
    (hgoto : m.cursor.token.lexeme ≠ .keyword .GOTO) :
    Ends (fun _ m' => m'.GotOn sheet m.toGo) (statement m) := by
  have hother : ∀ kind, Ends (fun _ m' => m'.GotOn sheet m.toGo)
      ((note (.unrecognized kind) >>= fun _ => failHere .unrecognizedStatement : Run Unit) m) := by
    intro kind
    apply (note_ends h _).bind
    intro _ m₁ _
    rw [failHere_apply]
    exact .error
  unfold statement statementWith
  rw [lexeme_bind_apply]
  cases hl : m.cursor.token.lexeme with
  | keyword word =>
      cases word with
      | REM =>
          apply (skipLine_ends h (by simp [hl])).mono
          rintro _ m₁ ⟨h₁, -⟩
          exact .inr h₁
      | PRINT => exact print_ends h
      | IF => exact absurd hl hif
      | GOTO => exact absurd hl hgoto
      | LET =>
          apply (accept_ends h (by simp) (by simp)).bind
          rintro _ m₁ ⟨-, h₁, -⟩
          apply (let_ends h₁).mono
          intro _ m₂ h₂
          exact .inr (h₂.mono (Nat.le_of_lt h₁.less))
      | THEN => exact hother _
  | letter name =>
      apply (let_ends h).mono
      intro _ m₁ h₁
      exact .inr h₁
  | _ => exact hother _

def gotoTarget : Run (Option Nat) := do
  accept (.keyword .GOTO)
  let target ← lexeme
  accept .number
  accept .lineEnd
  match target with
  | .number value => pure (some value)
  | _ => pure none

def ifTarget : Run (Option Nat) := do
  accept (.keyword .IF)
  let condition ← relation
  accept (.keyword .THEN)
  match ← lexeme with
  | .number target => do
      next
      if condition ≠ 0 then do
        note (.jumped target)
        pure (some target)
      else do
        passLineEnd
        pure none
  | _ => failHere .expectedTarget

/-- A statement up to its jump. -/
def target : Run (Option Nat) := do
  match ← lexeme with
  | .keyword .IF => ifTarget
  | .keyword .GOTO => gotoTarget
  | _ => do
      statement
      pure none

/-- A line up to its jump. -/
def lineTarget : Run (Option Nat) := do
  skipEmptyLines
  match ← lexeme with
  | .sourceEnd => do
      modify fun m => { m with finished := true }
      pure none
  | .number value => do
      note (.lineReached value)
      next
      target
  | _ => target

/-- A step up to its jump, with the number to jump to. -/
def approach : Run (Option Nat) := do
  if !(← get).started then
    buildIndex
    modify fun m => { m with started := true }
  if (← get).finished then return none
  lineTarget

def follow : Option Nat → Run Unit
  | some number => jump number
  | none => pure ()

theorem goto_eq_follow : gotoStatement = gotoTarget >>= follow := by
  simp only [gotoStatement, gotoTarget, bind_assoc]
  refine bind_congr fun _ => bind_congr fun target => bind_congr fun _ => bind_congr fun _ => ?_
  cases target <;> rfl

theorem if_eq_follow : ifStatement = ifTarget >>= follow := by
  simp only [ifStatement, ifTarget, bind_assoc]
  refine bind_congr fun _ => bind_congr fun condition => bind_congr fun _ => bind_congr fun l => ?_
  cases l with
  | number value =>
      simp only [bind_assoc]
      refine bind_congr fun _ => ?_
      split
      · simp [follow]
      · simp [follow, passLineEnd]
  | _ => rfl

theorem target_of_ne (hif : m.cursor.token.lexeme ≠ .keyword .IF)
    (hgoto : m.cursor.token.lexeme ≠ .keyword .GOTO) :
    target m = (statement >>= fun _ => pure none) m := by
  unfold target
  rw [lexeme_bind_apply]
  generalize m.cursor.token.lexeme = l at hif hgoto ⊢
  split
  · contradiction
  · contradiction
  · rfl

theorem target_of_if (h : m.cursor.token.lexeme = .keyword .IF) : target m = ifTarget m := by
  unfold target
  rw [lexeme_bind_apply, h]

theorem target_of_goto (h : m.cursor.token.lexeme = .keyword .GOTO) :
    target m = gotoTarget m := by
  unfold target
  rw [lexeme_bind_apply, h]

theorem statement_eq_follow : statement = target >>= follow := by
  funext m
  rw [bind_apply]
  by_cases hif : m.cursor.token.lexeme = .keyword .IF
  · rw [target_of_if hif, ← bind_apply, ← if_eq_follow]
    unfold statement statementWith
    rw [lexeme_bind_apply, hif]
    rfl
  by_cases hgoto : m.cursor.token.lexeme = .keyword .GOTO
  · rw [target_of_goto hgoto, ← bind_apply, ← goto_eq_follow]
    unfold statement statementWith
    rw [lexeme_bind_apply, hgoto]
  · rw [target_of_ne hif hgoto, bind_apply]
    cases statement m <;> rfl

theorem lineStatement_eq_follow : lineStatement = lineTarget >>= follow := by
  simp only [lineStatement, lineTarget, bind_assoc]
  refine bind_congr fun _ => bind_congr fun l => ?_
  cases l with
  | sourceEnd => rfl
  | number value =>
      simp only [bind_assoc]
      exact bind_congr fun _ => bind_congr fun _ => statement_eq_follow
  | _ => exact statement_eq_follow

/-- A step up to its jump, once there is an index. -/
def approachStarted : Run (Option Nat) := fun m =>
  if m.finished then .ok none m else lineTarget m

theorem approach_apply (m : Machine) :
    approach m =
      if m.started then approachStarted m
      else (buildIndex >>= fun _ => (modify fun m => { m with started := true }) >>= fun _ =>
        approachStarted) m := by
  have hrest : (do
      if (← get).finished then return none
      lineTarget : Run (Option Nat)) = approachStarted := by
    funext m
    unfold approachStarted
    rw [get_bind_apply]
    cases m.finished <;> rfl
  unfold approach
  rw [get_bind_apply]
  cases m.started with
  | true => exact congrFun hrest m
  | false =>
      exact congrArg (fun f : Run (Option Nat) => (buildIndex >>= fun _ =>
        (modify fun m => { m with started := true }) >>= fun _ => f) m) hrest

/-- A step is its approach and the jump that follows. -/
theorem stepBody_eq_follow (m : Machine) :
    stepBody m = (approach >>= fun goal => follow goal >>= fun _ => get >>= fun m =>
      pure !m.finished) m := by
  have hstarted : stepStarted = approachStarted >>= fun goal => follow goal >>= fun _ =>
      get >>= fun m => pure !m.finished := by
    funext m
    rw [bind_apply, stepStarted_apply]
    unfold approachStarted
    cases hfinished : m.finished with
    | true =>
        simp only [if_true, follow]
        rw [pure_bind, get_bind_apply, hfinished]
        rfl
    | false =>
        simp only [Bool.false_eq_true, if_false]
        rw [lineStatement_eq_follow, bind_assoc, bind_apply]
  have happroach : approach = indexedFirst approachStarted := funext approach_apply
  rw [stepBody_eq_indexedFirst, hstarted, indexedFirst_bind, ← happroach]

/-- Where a step is before its jump: without a jump it has got on, and with one the jump
stands in the text. -/
def Approached (sheet : Sheet) (bound : Nat) : Option Nat → Machine → Prop
  | none, m => m.GotOn sheet bound
  | some number, m => m.Within sheet bound ∧
      ∃ pos, (sheet.text.drop pos).length ≤ bound ∧ sheet.text.JumpsAt pos number

theorem Approached.mono {goal : Option Nat} (h : Approached sheet bound goal m) {more : Nat}
    (hle : bound ≤ more) : Approached sheet more goal m := by
  cases goal with
  | none =>
      rcases h with hfinished | hwithin
      · exact .inl hfinished
      · exact .inr (hwithin.mono hle)
  | some number =>
      obtain ⟨hwithin, pos, hpos, hjumps⟩ := h
      exact ⟨hwithin.mono hle, pos, Nat.le_trans hpos hle, hjumps⟩

/-- A number right behind a word that jumps. -/
theorem Within.jumpsAt (h : m.Within sheet bound) {word : Keyword}
    (hword : m.cursor.token.lexeme.kind = .keyword word) (hjumps : word = .GOTO ∨ word = .THEN)
    {less number : Nat} (h' : m'.Within sheet less)
    (hahead : m'.cursor.ahead = m.cursor.behind.pastGap)
    (hnumber : m'.cursor.token.lexeme = .number number) :
    sheet.text.JumpsAt m.cursor.token.start number := by
  obtain rfl := h.sheet_eq
  have hhere := h.steady.here
  have hnext := h'.steady.here
  rw [Lexeme.kind_eq_keyword.1 hword] at hhere
  rw [hahead, h.steady.behind_eq, hnumber] at hnext
  exact ⟨h.steady.visited, _, _, _, hhere, hjumps, hnext⟩

theorem gotoTarget_ends (h : m.Within sheet bound) :
    Ends (Approached sheet m.toGo) (gotoTarget m) := by
  apply (accept_ends h (by simp) (by simp)).bind
  rintro _ m₁ ⟨hword, h₁, hahead⟩
  rw [lexeme_bind_apply]
  apply (accept_ends h₁ (by simp) (by simp)).bind
  rintro _ m₂ ⟨-, h₂, -⟩
  apply (accept_ends h₂ (by simp) (by simp)).bind
  rintro _ m₃ ⟨-, h₃, -⟩
  have hless := h₁.less
  have hless' := h₂.less
  have hend : m₃.Within sheet m.toGo := h₃.mono (by omega)
  cases hl : m₁.cursor.token.lexeme with
  | number value =>
      have hjumps := h.jumpsAt hword (.inl rfl) h₁ hahead hl
      refine .ok ⟨hend, m.cursor.token.start, ?_, hjumps⟩
      rw [← h.sheet_eq]
      exact Nat.le_refl _
  | _ => exact .ok (.inr hend)

theorem passLineEnd_ends (h : m.Within sheet bound) :
    Ends (fun _ m' => m'.Within sheet bound) (passLineEnd m) := by
  unfold passLineEnd
  rw [lexeme_bind_apply]
  split
  · rename_i hl
    apply (next_ends h (by simp [hl]) (by simp [hl])).mono
    rintro _ m₁ ⟨h₁, -⟩
    exact h₁.mono (Nat.le_of_lt h.less)
  · exact .ok h

theorem ifTarget_ends (h : m.Within sheet bound) :
    Ends (Approached sheet m.toGo) (ifTarget m) := by
  apply (accept_ends h (by simp) (by simp)).bind
  rintro _ m₁ ⟨-, h₁, -⟩
  apply (relation_ends h₁).bind
  intro condition m₂ h₂
  apply (accept_ends h₂ (by simp) (by simp)).bind
  rintro _ m₃ ⟨hword, h₃, hahead⟩
  have hless₁ := h₁.less
  have hless₂ := h₂.less
  have hless₃ := h₃.less
  rw [lexeme_bind_apply]
  cases hl : m₃.cursor.token.lexeme with
  | number number =>
      have hjumps := h₂.jumpsAt hword (.inr rfl) h₃ hahead hl
      apply (next_ends h₃ (by simp [hl]) (by simp [hl])).bind
      rintro _ m₄ ⟨h₄, -⟩
      split
      · apply (note_ends h₄ _).bind
        rintro _ m₅ ⟨h₅, -⟩
        refine .ok ⟨h₅.mono (by omega), m₂.cursor.token.start, ?_, hjumps⟩
        rw [← h₂.sheet_eq]
        exact Nat.le_of_lt (Nat.lt_trans hless₂ hless₁)
      · apply (passLineEnd_ends h₄).bind
        intro _ m₅ h₅
        exact .ok (.inr (h₅.mono (by omega)))
  | _ => exact .error

theorem target_ends (h : m.Within sheet bound) : Ends (Approached sheet m.toGo) (target m) := by
  by_cases hif : m.cursor.token.lexeme = .keyword .IF
  · rw [target_of_if hif]
    exact ifTarget_ends h
  by_cases hgoto : m.cursor.token.lexeme = .keyword .GOTO
  · rw [target_of_goto hgoto]
    exact gotoTarget_ends h
  · rw [target_of_ne hif hgoto]
    apply (statement_ends h hif hgoto).bind
    intro _ m₁ h₁
    exact .ok h₁

theorem skipEmptyLines_ends (h : m.Within sheet bound) :
    Ends (fun _ m' => m'.Within sheet bound) (skipEmptyLines m) := by
  refine Ends.iterate (P := fun _ m' => m'.Within sheet bound) ?_ _ h
  intro _ m₁ h₁
  change Ends _ (passEmptyLine () m₁)
  by_cases hl : m₁.cursor.token.lexeme = .lineEnd
  · unfold passEmptyLine
    rw [lexeme_bind_apply, hl]
    apply (next_ends h₁ (by simp [hl]) (by simp [hl])).bind
    rintro _ m₂ ⟨h₂, -⟩
    exact .ok (h₂.mono (Nat.le_of_lt h₁.less))
  · rw [passEmptyLine_of_ne hl]
    exact .ok h₁

theorem lineTarget_ends (h : m.Within sheet bound) :
    Ends (Approached sheet m.toGo) (lineTarget m) := by
  have hself : m.Within sheet (m.toGo + 1) := { h with less := Nat.lt_succ_self _ }
  apply (skipEmptyLines_ends hself).bind
  intro _ m₁ h₁
  have hle : m₁.toGo ≤ m.toGo := Nat.lt_succ_iff.1 h₁.less
  rw [lexeme_bind_apply]
  cases hl : m₁.cursor.token.lexeme with
  | sourceEnd => exact .ok (.inl rfl)
  | number value =>
      apply (note_ends h₁ _).bind
      rintro _ m₂ ⟨h₂, hcursor⟩
      have hlexeme : m₂.cursor.token.lexeme = .number value := by rw [hcursor, hl]
      apply (next_ends h₂ (by simp [hlexeme]) (by simp [hlexeme])).bind
      rintro _ m₃ ⟨h₃, -⟩
      have hless := h₃.less
      rw [toGo, toGo, hcursor] at hless
      apply (target_ends h₃).mono
      intro goal m₄ h₄
      exact h₄.mono (Nat.le_trans (Nat.le_of_lt hless) hle)
  | _ => exact (target_ends h₁).mono fun _ _ h₂ => h₂.mono hle

theorem approach_ends (h : m.Within sheet bound) :
    Ends (Approached sheet m.toGo) (approach m) := by
  rw [approach_apply, if_pos h.started]
  unfold approachStarted
  split
  · rename_i hfinished
    exact .ok (.inl hfinished)
  · exact lineTarget_ends h

/-- A step that takes a jump, with the machine that the jump leaves. -/
def Jumps (m landing : Machine) : Prop :=
  ∃ number before, approach m = .ok (some number) before ∧ jump number before = .ok () landing

/-- A step that goes on has a jump behind it or is further on in the text. -/
theorem step_jumps_or_within (h : m.Within sheet bound) (hstep : step m = .ok true m') :
    m.Jumps m' ∨ m'.Within sheet m.toGo := by
  have hbody : stepBody m = .ok true m' := by
    rw [step_apply] at hstep
    split at hstep
    · rename_i heq
      cases hstep
      exact heq
    · cases hstep
  rw [stepBody_eq_follow] at hbody
  obtain ⟨goal, before, happroach, hrest⟩ := bind_eq_ok hbody
  obtain ⟨_, after, hfollow, hdone⟩ := bind_eq_ok hrest
  rw [get_bind_apply, pure_apply] at hdone
  have hafter : after = m' ∧ after.finished = false := by
    simp only [EStateM.Result.ok.injEq, Bool.not_eq_true'] at hdone
    exact ⟨hdone.2, hdone.1⟩
  obtain ⟨rfl, hfinished⟩ := hafter
  cases goal with
  | some number => exact .inl ⟨number, before, happroach, hfollow⟩
  | none =>
      cases hfollow
      right
      rcases (approach_ends h).of_eq happroach with hend | hwithin
      · exact absurd (hend.symm.trans hfinished) (by decide)
      · exact hwithin

end Machine

end LineBasic
