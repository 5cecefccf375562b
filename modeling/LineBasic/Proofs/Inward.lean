import LineBasic.Proofs.Effects

/-!
# Actions that only read

Most of what a machine does is reading: it moves the cursor, builds the index and keeps
its reports. Such an action is `Inward`. It leaves the registers, the flags and the output
alone, and it does not look at the output either: on every output it goes the same way.

All actions are inward but those that write, set a register or set a flag. So a jump and a
comparison change no register and write nothing, and an expression has the same value
whatever has been written before it.
-/
namespace LineBasic.Machine

variable {α β : Type} {m m' : Machine}

def turned (m : Machine) (l : Listing) (r : Reports) (o : Output) : Machine :=
  { m with listing := l, reports := r, output := o }

/-- The results of an action, one for each output: the listing and the reports may have
changed, and in the same way on all of them. -/
inductive Turns (m : Machine) (results : Output → EStateM.Result Fault Machine α) : Prop
  | ok {a : α} {l : Listing} {r : Reports} :
      (∀ o, results o = .ok a (m.turned l r o)) → Turns m results
  | error {f : Fault} {l : Listing} {r : Reports} :
      (∀ o, results o = .error f (m.turned l r o)) → Turns m results

/-- An action that only reads, whatever machine it is taken on. -/
def Inward (x : Run α) : Prop := ∀ m : Machine, Turns m fun o => x { m with output := o }

namespace Inward

variable {x : Run α}

/-- An inward action that succeeds does so on every output, and changes nothing else. -/
theorem of_ok (h : Inward x) {a : α} (hx : x m = .ok a m') :
    ∃ l r, m' = m.turned l r m.output ∧ ∀ o, x { m with output := o } = .ok a (m.turned l r o) := by
  cases h m with
  | ok hall =>
      cases hx.symm.trans (hall m.output)
      exact ⟨_, _, rfl, hall⟩
  | error hall => cases hx.symm.trans (hall m.output)

/-- An inward action that fails does so on every output, and changes nothing else. -/
theorem of_error (h : Inward x) {f : Fault} (hx : x m = .error f m') :
    ∃ l r, m' = m.turned l r m.output ∧
      ∀ o, x { m with output := o } = .error f (m.turned l r o) := by
  cases h m with
  | ok hall => cases hx.symm.trans (hall m.output)
  | error hall =>
      cases hx.symm.trans (hall m.output)
      exact ⟨_, _, rfl, hall⟩

/-- Success on one output is success on every other. -/
theorem onto (h : Inward x) {a : α} (hx : x m = .ok a m') (o : Output) :
    x { m with output := o } = .ok a { m' with output := o } := by
  obtain ⟨l, r, rfl, hall⟩ := h.of_ok hx
  exact hall o

/-- Failure on one output is failure on every other. -/
theorem onto_error (h : Inward x) {f : Fault} (hx : x m = .error f m') (o : Output) :
    x { m with output := o } = .error f { m' with output := o } := by
  obtain ⟨l, r, rfl, hall⟩ := h.of_error hx
  exact hall o

theorem pure (a : α) : Inward (pure a) := fun _ => .ok fun _ => rfl

theorem throw (f : Fault) : Inward (throw f : Run α) := fun _ => .error fun _ => rfl

theorem bind {f : α → Run β} (h : Inward x) (hf : ∀ a, Inward (f a)) : Inward (x >>= f) := by
  intro m
  cases h m with
  | error hall => exact .error fun o => bind_of_error (hall o)
  | @ok a l r hall =>
      cases hf a (m.turned l r m.output) with
      | ok hrest => exact .ok fun o => (bind_of_ok (hall o)).trans (hrest o)
      | error hrest => exact .error fun o => (bind_of_ok (hall o)).trans (hrest o)

theorem andThen {y : Run β} (h : Inward x) (hy : Inward y) : Inward (x >>= fun _ => y) :=
  h.bind fun _ => hy

/-- What is done with the state must not look at the output. -/
theorem get_bind {f : Machine → Run β} (hblind : ∀ m o, f { m with output := o } = f m)
    (hf : ∀ m, Inward (f m)) : Inward (get >>= f) := by
  intro m
  cases hf m m with
  | ok hall => exact .ok fun o => (congrFun (hblind m o) _).trans (hall o)
  | error hall => exact .error fun o => (congrFun (hblind m o) _).trans (hall o)

/-- A loop reads if its rounds do. -/
theorem iterate {body : α → Run (Round α β)} (h : ∀ a, Inward (body a)) (rounds : Nat) (a : α) :
    Inward (iterate body rounds a) := by
  induction rounds generalizing a with
  | zero => exact throw .stalled
  | succ rounds ih =>
      apply (h a).bind
      intro round
      cases round with
      | again b => exact ih b
      | done r => exact pure r

end Inward

theorem lexeme_inward : Inward lexeme := .get_bind (fun _ _ => rfl) fun _ => .pure _

theorem lineNumber?_inward (atEnd : Bool) : Inward (lineNumber? atEnd) :=
  .get_bind (fun _ _ => rfl) fun _ => .pure _

theorem moves_inward : Inward moves := .get_bind (fun _ _ => rfl) fun _ => .pure _

/-- An action of the reports reads. -/
theorem onReports_inward (action : EStateM Fault Reports α) : Inward (onReports action) := by
  intro m
  cases h : action m.reports with
  | ok a r => exact .ok fun o => by simp only [onReports, h]; rfl
  | error f r => exact .error fun o => by simp only [onReports, h]; rfl

theorem note_inward (event : Event) : Inward (note event) := onReports_inward _

theorem failHere_inward (cause : Cause) : Inward (failHere cause : Run α) :=
  .get_bind (fun _ _ => rfl) fun _ => onReports_inward _

theorem failLine_inward (number : Int) (cause : Int → Cause) :
    Inward (failLine number cause : Run α) := by
  unfold failLine
  split
  · exact onReports_inward _
  · exact .throw _

/-- An action of the listing reads. -/
theorem onListing_inward (action : EStateM Fault Listing α) : Inward (onListing action) := by
  intro m
  cases h : action m.listing with
  | ok a l => exact .ok fun o => by simp only [onListing, h]; rfl
  | error f l =>
      refine @Turns.error _ _ _ f l (m.reports.scanNoted f) fun o => ?_
      simp only [onListing, h, bind_apply, onReports, Reports.noteScan_apply]
      rfl

theorem onCursor_inward (action : EStateM Fault Cursor α) : Inward (onCursor action) :=
  onListing_inward _

theorem next_inward : Inward next := onCursor_inward _

theorem skipLine_inward : Inward skipLine := onCursor_inward _

theorem accept_inward (expected : Kind) : Inward (accept expected) := by
  apply lexeme_inward.bind
  intro found
  simp only
  split
  · exact next_inward
  · exact failHere_inward _

theorem buildIndex_inward : Inward buildIndex := by
  apply (note_inward _).andThen
  apply (onListing_inward _).andThen
  exact .get_bind (fun _ _ => rfl) fun _ => note_inward _

theorem register_inward (name : Text) : Inward (register name) := by
  refine .get_bind (fun _ _ => rfl) fun m => ?_
  cases m.store.read name with
  | ok value => exact .pure value
  | error refusal => exact .throw _

theorem divide_inward (numerator denominator : Int) : Inward (divide numerator denominator) := by
  unfold divide
  split
  · apply (onReports_inward _).andThen
    apply (note_inward _).andThen
    exact .pure 0
  · exact .get_bind (fun _ _ => rfl) fun _ => .pure _

theorem multiply?_inward {l : Lexeme} {operator : Int → Int → Run Int}
    (h : multiply? l = some operator) (a b : Int) : Inward (operator a b) := by
  unfold multiply? at h
  split at h
  · cases h
    exact .get_bind (fun _ _ => rfl) fun _ => .pure _
  · cases h
    exact divide_inward a b
  · cases h

theorem add?_inward {l : Lexeme} {operator : Int → Int → Run Int}
    (h : add? l = some operator) (a b : Int) : Inward (operator a b) := by
  unfold add? at h
  split at h
  · cases h
    exact .get_bind (fun _ _ => rfl) fun _ => .pure _
  · cases h
    exact .get_bind (fun _ _ => rfl) fun _ => .pure _
  · cases h

theorem chain_inward {operand : Run Int} {operator? : Lexeme → Option (Int → Int → Run Int)}
    (hoperator : ∀ {l operator}, operator? l = some operator → ∀ a b, Inward (operator a b))
    (h : Inward operand) (first : Int) : Inward (chain operand operator? first) := by
  apply moves_inward.bind
  intro rounds
  refine Inward.iterate ?_ rounds first
  intro value
  apply lexeme_inward.bind
  intro l
  cases hl : operator? l with
  | none => exact .pure _
  | some operator =>
      apply next_inward.andThen
      apply h.bind
      intro other
      apply (hoperator hl value other).bind
      intro result
      exact .pure _

theorem factorWith_inward {inner : Run Int} (h : Inward inner) : Inward (factorWith inner) := by
  apply lexeme_inward.bind
  intro l
  cases l with
  | number value =>
      refine .get_bind (fun _ _ => rfl) fun m => ?_
      apply (note_inward _).andThen
      apply next_inward.andThen
      exact .pure _
  | letter letter =>
      apply (register_inward _).bind
      intro value
      apply (note_inward _).andThen
      apply next_inward.andThen
      exact .pure _
  | symbol sign =>
      cases sign with
      | openParen =>
          apply next_inward.andThen
          apply h.bind
          intro value
          apply (accept_inward _).andThen
          exact .pure _
      | _ => exact failHere_inward _
  | _ => exact failHere_inward _

theorem termWith_inward {inner : Run Int} (h : Inward inner) : Inward (termWith inner) := by
  apply (factorWith_inward h).bind
  intro first
  exact chain_inward multiply?_inward (factorWith_inward h) first

theorem expressionWith_inward {inner : Run Int} (h : Inward inner) :
    Inward (expressionWith inner) := by
  apply (termWith_inward h).bind
  intro first
  apply (lineNumber?_inward true).bind
  intro number
  cases number with
  | some number =>
      apply (note_inward _).andThen
      exact .pure _
  | none => exact chain_inward add?_inward (termWith_inward h) first

theorem expressionWithin_inward (depth : Nat) : Inward (expressionWithin depth) := by
  induction depth with
  | zero => exact .throw .stalled
  | succ depth ih => exact expressionWith_inward ih

theorem expression_inward : Inward expression :=
  moves_inward.bind expressionWithin_inward

theorem relation_inward : Inward relation := by
  apply expression_inward.bind
  intro left
  apply lexeme_inward.bind
  intro l
  cases l with
  | symbol sign =>
      cases hsign : sign.compares? with
      | none =>
          simp only [hsign]
          exact .pure _
      | some compares =>
          simp only [hsign]
          apply next_inward.andThen
          apply expression_inward.bind
          intro right
          apply (note_inward _).andThen
          exact .pure _
  | _ => exact .pure _

theorem findLine_inward (number : Int) : Inward (findLine number) := by
  have hskip : Inward (skipLine >>= fun _ => pure (Round.again () : Round Unit Bool)) :=
    skipLine_inward.andThen (.pure _)
  apply moves_inward.bind
  intro rounds
  refine Inward.iterate ?_ rounds ()
  intro _
  apply lexeme_inward.bind
  intro l
  cases l with
  | sourceEnd => exact .pure _
  | number value =>
      simp only
      split
      · apply next_inward.andThen
        exact .pure _
      · exact hskip
  | _ => exact hskip

theorem jump_inward (number : Int) : Inward (jump number) := by
  have hland : Inward (land number) := by
    apply (findLine_inward number).bind
    intro found
    cases found with
    | true => exact .pure _
    | false =>
        simp only [Bool.not_false, if_true]
        exact failLine_inward _ _
  have hindexed : Inward (jumpIndexed number) := by
    intro m
    unfold jumpIndexed
    have hsame : ∀ o : Output, ({ m with output := o } : Machine).index = m.index := fun _ => rfl
    simp only [hsame]
    split
    · exact ((onCursor_inward _).andThen hland) m
    · exact failLine_inward _ _ m
  intro m
  have hsame : ∀ o : Output, ({ m with output := o } : Machine).index = m.index := fun _ => rfl
  simp only [jump_apply, hsame]
  split
  · exact (buildIndex_inward.andThen hindexed) m
  · exact hindexed m

theorem goto_inward : Inward gotoStatement := by
  apply (accept_inward _).andThen
  apply lexeme_inward.bind
  intro target
  apply (accept_inward _).andThen
  apply (accept_inward _).andThen
  cases target with
  | number value => exact jump_inward value
  | _ => exact .pure _

theorem if_inward : Inward ifStatement := by
  apply (accept_inward _).andThen
  apply relation_inward.bind
  intro condition
  apply (accept_inward _).andThen
  apply lexeme_inward.bind
  intro l
  cases l with
  | number target =>
      apply next_inward.andThen
      split
      · apply (note_inward _).andThen
        exact jump_inward _
      · apply lexeme_inward.bind
        intro l
        split
        · exact next_inward
        · exact .pure _
  | _ => exact failHere_inward _

theorem skipEmptyLines_inward : Inward skipEmptyLines := by
  apply moves_inward.bind
  intro rounds
  refine Inward.iterate ?_ rounds ()
  intro _
  apply lexeme_inward.bind
  intro l
  cases l with
  | lineEnd => exact next_inward.andThen (.pure _)
  | _ => exact .pure _

end LineBasic.Machine
