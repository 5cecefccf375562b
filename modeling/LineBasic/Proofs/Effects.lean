import Mathlib.Logic.Relation
import LineBasic.Proofs.Calls

/-!
# What a step can do

A step is made of single effects: it moves the cursor, records an event, divides by zero
and is warned, writes, sets a register or a flag. It may stop short with a fault, of which
nothing has been shown yet if it is a failure to read a lexeme or no error at all, and
which has just been shown if it is any other error. `Does` says that this is all there is
to a result. It is proved once for every action a step is made of; facts about steps then
follow from the single effects.
-/
namespace LineBasic

/-- A fault of which nothing is shown when it is raised. -/
def Fault.Unshown : Fault → Prop
  | .error e => e.errorClass = .lexical
  | _ => True

/-- An event that no warning comes with. -/
def Event.Plain : Event → Prop
  | .warned .. | .dividedByZero => False
  | _ => True

namespace Machine

def noted (m : Machine) (event : Event) : Machine :=
  { m with reports := m.reports.noted event }

def reported (m : Machine) (e : Error) : Machine := { m with reports := m.reports.reported e }

def dividedByZero (m : Machine) : Machine := (m.warned "divide by zero").noted .dividedByZero

/-- A single thing that a machine does. -/
inductive Effect (m : Machine) : Machine → Prop
  | moved (l : Listing) : Effect m { m with listing := l }
  | noted {event : Event} : event.Plain → Effect m (m.noted event)
  | divided : Effect m m.dividedByZero
  | wrote (o : Output) : Effect m { m with output := o }
  | assigned (s : Store) : Effect m { m with store := s }
  | started : Effect m { m with started := true }
  | finished : Effect m { m with finished := true }

/-- Any number of effects, one after the other. -/
abbrev Effects : Machine → Machine → Prop := Relation.ReflTransGen Effect

/-- The end of an action that faults. -/
inductive Stops (m : Machine) : Fault → Machine → Prop
  | unshown {f : Fault} : f.Unshown → Stops m f m
  | shown {e : Error} : e.errorClass ≠ .lexical → Stops m (.error e) (m.reported e)

end Machine

open Machine

/-- Results that are reached by effects. -/
inductive Does (m : Machine) {α : Type} : EStateM.Result Fault Machine α → Prop
  | ok {a : α} {n : Machine} : Effects m n → Does m (.ok a n)
  | error {f : Fault} {n after : Machine} : Effects m n → n.Stops f after →
      Does m (.error f after)

/-- An action that has effects only, whatever machine it is taken on. -/
def Acts {α : Type} (x : Run α) : Prop := ∀ m, Does m (x m)

namespace Acts

variable {α β : Type}

theorem pure (a : α) : Acts (pure a) := fun _ => .ok .refl

theorem throw {f : Fault} (h : f.Unshown) : Acts (throw f : Run α) :=
  fun _ => .error .refl (.unshown h)

theorem bind {x : Run α} {f : α → Run β} (h : Acts x) (hf : ∀ a, Acts (f a)) :
    Acts (x >>= f) := by
  intro m
  have hx := h m
  rw [bind_apply]
  generalize x m = r at hx ⊢
  cases hx with
  | @ok a n hn =>
      have hrest := hf a n
      simp only
      generalize f a n = s at hrest ⊢
      cases hrest with
      | ok hafter => exact .ok (hn.trans hafter)
      | error hafter hstop => exact .error (hn.trans hafter) hstop
  | error hn hstop => exact .error hn hstop

theorem andThen {x : Run α} {y : Run β} (h : Acts x) (hy : Acts y) : Acts (x >>= fun _ => y) :=
  h.bind fun _ => hy

/-- A loop has the effects of its rounds. -/
theorem iterate {body : α → Run (Round α β)} (h : ∀ a, Acts (body a)) (rounds : Nat) (a : α) :
    Acts (iterate body rounds a) := by
  induction rounds generalizing a with
  | zero => exact throw (f := .stalled) trivial
  | succ rounds ih =>
      apply (h a).bind
      intro round
      cases round with
      | again b => exact ih b
      | done r => exact pure r

end Acts

/-- An action of the cursor or the listing whose faults are not shown by it. -/
def Quiet {σ α : Type} (x : EStateM Fault σ α) : Prop :=
  ∀ s f t, x s = .error f t → f.Unshown

namespace Quiet

variable {σ α β : Type}

theorem of_ok {x : EStateM Fault σ α} (h : ∀ s, ∃ a t, x s = .ok a t) : Quiet x := by
  intro s f t hf
  obtain ⟨a, u, hok⟩ := h s
  cases hok.symm.trans hf

theorem pure (a : α) : Quiet (pure a : EStateM Fault σ α) := .of_ok fun s => ⟨a, s, rfl⟩

theorem get : Quiet (get : EStateM Fault σ σ) := .of_ok fun s => ⟨s, s, rfl⟩

theorem bind {x : EStateM Fault σ α} {f : α → EStateM Fault σ β} (h : Quiet x)
    (hf : ∀ a, Quiet (f a)) : Quiet (x >>= f) := by
  intro s fault t hfault
  rw [bind_apply] at hfault
  cases hx : x s with
  | ok a u =>
      rw [hx] at hfault
      exact hf a _ _ _ hfault
  | error e u =>
      rw [hx] at hfault
      cases hfault
      exact h _ _ _ hx

theorem iterate {body : α → EStateM Fault σ (Round α β)} (h : ∀ a, Quiet (body a))
    (rounds : Nat) (a : α) : Quiet (iterate body rounds a) := by
  induction rounds generalizing a with
  | zero =>
      intro s f t hf
      cases hf
      trivial
  | succ rounds ih =>
      apply (h a).bind
      intro round
      cases round with
      | again b => exact ih b
      | done r => exact pure r

end Quiet

namespace Cursor

theorem moveTo_quiet (origin : Origin) (pos : Nat) : Quiet (moveTo origin pos) := by
  intro c f d h
  cases hr : Lexeme.read (Text.pastGap (c.sheet.text.drop pos)) with
  | ok found =>
      rw [moveTo_of_read origin hr] at h
      cases h
  | error e =>
      rw [moveTo_of_fault origin hr] at h
      cases h
      cases e <;> trivial

theorem unshown_of_start {sheet : Sheet} {f : Fault} (h : start sheet = .error f) :
    f.Unshown := by
  unfold start at h
  cases hr : Lexeme.read (Text.pastGap (sheet.text.drop 0)) with
  | ok found =>
      rw [Sheet.tokenAt_of_read .first hr] at h
      cases h
  | error e =>
      rw [Sheet.tokenAt_of_fault .first hr] at h
      cases h
      cases e <;> trivial

theorem next_quiet : Quiet next := by
  apply Quiet.get.bind
  intro c
  cases c.token.lexeme with
  | sourceEnd => exact .pure ()
  | _ => exact moveTo_quiet _ _

theorem skipLine_quiet : Quiet skipLine := by
  apply Quiet.get.bind
  intro c
  cases c.token.lexeme with
  | sourceEnd => exact .pure ()
  | _ =>
      simp only
      split
      · exact moveTo_quiet _ _
      · exact moveTo_quiet _ _

end Cursor

namespace Listing

theorem onCursor_quiet {action : EStateM Fault Cursor Unit} (h : Quiet action) :
    Quiet (onCursor action) := by
  intro l f l' hl
  unfold onCursor at hl
  split at hl
  · cases hl
  · rename_i haction
    cases hl
    exact h _ _ _ haction

theorem surveyToken_quiet : Quiet (surveyToken ()) := by
  intro l f l' h
  rw [surveyToken_eq] at h
  split at h
  · cases h
  split at h
  · split at h
    · cases h
    · rename_i hskip
      cases h
      exact Cursor.skipLine_quiet _ _ _ hskip
  · split at h
    · cases h
    · rename_i hnext
      cases h
      exact Cursor.next_quiet _ _ _ hnext

theorem build_quiet : Quiet build := by
  have hreset : Quiet (onCursor Cursor.reset) := onCursor_quiet (Cursor.moveTo_quiet _ _)
  have hempty : Quiet (modify fun l : Listing => { l with index := .empty }) :=
    .of_ok fun l => ⟨_, _, rfl⟩
  apply hempty.bind
  intro _
  apply hreset.bind
  intro _
  apply Quiet.get.bind
  intro l
  apply (Quiet.iterate (fun _ => surveyToken_quiet) l.moves ()).bind
  intro _
  exact hreset

end Listing

namespace Machine

variable {α : Type}

theorem get_acts : Acts (get : Run Machine) := fun _ => .ok .refl

theorem lexeme_acts : Acts lexeme := fun _ => .ok .refl

theorem lineNumber?_acts (atEnd : Bool) : Acts (lineNumber? atEnd) := fun _ => .ok .refl

theorem moves_acts : Acts moves := fun _ => .ok .refl

theorem start_acts : Acts (modify fun m => { m with started := true }) :=
  fun _ => .ok (.single .started)

theorem finish_acts : Acts (modify fun m => { m with finished := true }) :=
  fun _ => .ok (.single .finished)

theorem note_acts (event : Event) (h : event.Plain) : Acts (note event) := by
  intro m
  rw [note_apply]
  split
  · exact .error .refl (.unshown (f := .unwritable) trivial)
  · exact .ok (.single (.noted h))

theorem failHere_acts {cause : Cause} (h : cause.errorClass ≠ .lexical) :
    Acts (failHere cause : Run α) := by
  intro m
  rw [failHere_apply]
  exact .error .refl (.shown h)

theorem failLine_acts {number : Int} {cause : Int → Cause}
    (h : (cause number).errorClass ≠ .lexical) : Acts (failLine number cause : Run α) := by
  intro m
  rw [failLine_apply]
  split
  · exact .error .refl (.shown h)
  · exact .error .refl (.unshown (f := .unwritable) trivial)

theorem write_acts (piece : Text) : Acts (write piece) := by
  intro m
  unfold write
  cases hw : Output.write piece m.output with
  | ok _ output => exact .ok (.single (.wrote output))
  | error fault output =>
      obtain ⟨rfl, -⟩ := Output.write_error hw
      exact .error (.single (.wrote output)) (.unshown (f := .interrupted) trivial)

theorem register_acts (name : Text) : Acts (register name) := by
  intro m
  unfold register
  rw [get_bind_apply]
  cases m.store.read name with
  | ok value => exact .ok .refl
  | error refusal => exact .error .refl (.unshown (f := .refused refusal) trivial)

theorem assign_acts (name : Text) (value : Int) : Acts (assign name value) := by
  intro m
  unfold assign
  rw [get_bind_apply]
  cases m.store.assign name value with
  | ok store => exact .ok (.single (.assigned store))
  | error refusal => exact .error .refl (.unshown (f := .refused refusal) trivial)

theorem scanNoted_effects (m : Machine) (f : Fault) :
    Effects m { m with reports := m.reports.scanNoted f } := by
  unfold Reports.scanNoted
  split
  · exact .single (.noted trivial)
  · exact .refl

theorem onListing_acts {action : EStateM Fault Listing Unit} (h : Quiet action) :
    Acts (onListing action) := by
  intro m
  unfold onListing
  cases haction : action m.listing with
  | ok _ listing => exact .ok (.single (.moved listing))
  | error fault listing =>
      simp only [bind_apply, onReports, Reports.noteScan_apply]
      have hmoved : Effects m { m with listing := listing } := .single (.moved listing)
      exact .error (hmoved.trans (scanNoted_effects _ fault)) (.unshown (h _ _ _ haction))

theorem onCursor_acts {action : EStateM Fault Cursor Unit} (h : Quiet action) :
    Acts (onCursor action) :=
  onListing_acts (Listing.onCursor_quiet h)

theorem next_acts : Acts next := onCursor_acts Cursor.next_quiet

theorem skipLine_acts : Acts skipLine := onCursor_acts Cursor.skipLine_quiet

theorem accept_acts (expected : Kind) : Acts (accept expected) := by
  apply lexeme_acts.bind
  intro found
  simp only
  split
  · exact next_acts
  · exact failHere_acts (by simp [Cause.errorClass])

theorem buildIndex_acts : Acts buildIndex := by
  apply (note_acts .indexing trivial).andThen
  apply (onListing_acts Listing.build_quiet).andThen
  exact get_acts.bind fun _ => note_acts _ trivial

theorem divide_zero (numerator : Int) (m : Machine) :
    divide numerator 0 m = .ok 0 m.dividedByZero := by
  unfold divide
  rw [if_pos rfl, bind_of_ok (warn_apply _ m), bind_of_ok (note_of_writable rfl _)]
  rfl

theorem divide_nonzero {denominator : Int} (h : denominator ≠ 0) (numerator : Int) (m : Machine) :
    divide numerator denominator m = .ok (m.size.divide numerator denominator) m := by
  unfold divide
  rw [if_neg h]
  rfl

theorem divide_acts (numerator denominator : Int) : Acts (divide numerator denominator) := by
  intro m
  by_cases hzero : denominator = 0
  · rw [hzero, divide_zero]
    exact .ok (.single .divided)
  · rw [divide_nonzero hzero]
    exact .ok .refl

/-- Operators that have effects only. -/
def Operates (operator? : Lexeme → Option (Int → Int → Run Int)) : Prop :=
  ∀ l operator, operator? l = some operator → ∀ a b, Acts (operator a b)

theorem multiply?_operates : Operates multiply? := by
  intro l operator hl a b
  unfold multiply? at hl
  split at hl
  · cases hl
    exact get_acts.bind fun _ => .pure _
  · cases hl
    exact divide_acts a b
  · cases hl

theorem add?_operates : Operates add? := by
  intro l operator hl a b
  unfold add? at hl
  split at hl
  · cases hl
    exact get_acts.bind fun _ => .pure _
  · cases hl
    exact get_acts.bind fun _ => .pure _
  · cases hl

theorem chain_acts {operand : Run Int} {operator? : Lexeme → Option (Int → Int → Run Int)}
    (hoperator : Operates operator?) (h : Acts operand) (first : Int) :
    Acts (chain operand operator? first) := by
  apply moves_acts.bind
  intro rounds
  refine Acts.iterate ?_ rounds first
  intro value
  apply lexeme_acts.bind
  intro l
  cases hl : operator? l with
  | none => exact .pure _
  | some operator =>
      apply next_acts.andThen
      apply h.bind
      intro other
      apply (hoperator l operator hl value other).bind
      intro result
      exact .pure _

theorem factorWith_acts {inner : Run Int} (h : Acts inner) : Acts (factorWith inner) := by
  have hother : ∀ kind, Acts (failHere (.notAFactor kind) : Run Int) :=
    fun kind => failHere_acts (by simp [Cause.errorClass])
  apply lexeme_acts.bind
  intro l
  cases l with
  | number value =>
      apply get_acts.bind
      intro m
      apply (note_acts (.literal _) trivial).andThen
      apply next_acts.andThen
      exact .pure _
  | letter letter =>
      apply (register_acts _).bind
      intro value
      apply (note_acts (.variableRead _ value) trivial).andThen
      apply next_acts.andThen
      exact .pure _
  | symbol sign =>
      cases sign with
      | openParen =>
          apply next_acts.andThen
          apply h.bind
          intro value
          apply (accept_acts _).andThen
          exact .pure _
      | _ => exact hother _
  | _ => exact hother _

theorem termWith_acts {inner : Run Int} (h : Acts inner) : Acts (termWith inner) := by
  apply (factorWith_acts h).bind
  intro first
  exact chain_acts multiply?_operates (factorWith_acts h) first

theorem expressionWith_acts {inner : Run Int} (h : Acts inner) : Acts (expressionWith inner) := by
  apply (termWith_acts h).bind
  intro first
  apply (lineNumber?_acts true).bind
  intro number
  cases number with
  | some number =>
      apply (note_acts (.expressionStopped number) trivial).andThen
      exact .pure _
  | none => exact chain_acts add?_operates (termWith_acts h) first

theorem expressionWithin_acts (depth : Nat) : Acts (expressionWithin depth) := by
  induction depth with
  | zero => exact .throw (f := .stalled) trivial
  | succ depth ih => exact expressionWith_acts ih

theorem expression_acts : Acts expression := by
  apply moves_acts.bind
  intro depth
  exact expressionWithin_acts depth

theorem relation_acts : Acts relation := by
  apply expression_acts.bind
  intro left
  apply lexeme_acts.bind
  intro l
  cases l with
  | symbol sign =>
      cases hsign : sign.compares? with
      | none =>
          simp only [hsign]
          exact .pure _
      | some compares =>
          simp only [hsign]
          apply next_acts.andThen
          apply expression_acts.bind
          intro right
          apply (note_acts (.compared left sign right) trivial).andThen
          exact .pure _
  | _ => exact .pure _

end Machine

end LineBasic
