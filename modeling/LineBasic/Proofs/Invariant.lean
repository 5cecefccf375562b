import LineBasic.Proofs.Machine

/-!
# Invariants of a machine

An `Invariant` is a property of machines that the single effects keep: a move of the
cursor, a survey, a report, a write, an assignment. Then expressions, statements and
steps keep it as well, whether they succeed or fault. An invariant may also speak of
values: what every literal, every register and every result has, every value of an
expression has. Expressions are followed here, statements in the module below this one.

Each action is followed together with another one that does the same on the machines
of the invariant. So an evaluator that looks out for something in its values and never
finds it can take the place of the machine's own.
-/
namespace LineBasic

/-- The state that an action leaves, whatever came of it. -/
def leftBy {ε σ α : Type} (x : EStateM ε σ α) (s : σ) : σ :=
  match x s with
  | .ok _ t => t
  | .error _ t => t

/-- A property of machines that single effects keep, and one of the values that are
computed on such machines. -/
structure Invariant where
  Holds : Machine → Prop
  Value : Int → Prop
  reports : ∀ {m}, Holds m → ∀ r, Holds { m with reports := r }
  output : ∀ {m}, Holds m → ∀ o, Holds { m with output := o }
  started : ∀ {m}, Holds m → Holds { m with started := true }
  finished : ∀ {m}, Holds m → Holds { m with finished := true }
  next : ∀ {m}, Holds m → Holds (m.movedTo (leftBy Cursor.next m.cursor))
  skipLine : ∀ {m}, Holds m → Holds (m.movedTo (leftBy Cursor.skipLine m.cursor))
  reset : ∀ {m}, Holds m → Holds (m.movedTo (leftBy Cursor.reset m.cursor))
  build : ∀ {m}, Holds m → Holds { m with listing := leftBy Listing.build m.listing }
  zero : Value 0
  wrap : ∀ {m}, Holds m → ∀ v, Value (m.size.wrap v)
  read : ∀ {m}, Holds m → ∀ {name v}, m.store.read name = .ok v → Value v
  assign : ∀ {m}, Holds m → ∀ {name v s}, Value v → m.store.assign name v = .ok s →
    Holds { m with store := s }

/-- A result with a machine of the invariant, and with a value of some kind if there is
one. -/
inductive Leaves (I : Invariant) {α : Type} (Q : α → Prop) :
    EStateM.Result Fault Machine α → Prop
  | ok {a : α} {m : Machine} : Q a → I.Holds m → Leaves I Q (.ok a m)
  | error {f : Fault} {m : Machine} : I.Holds m → Leaves I Q (.error f m)

/-- On the machines of an invariant `y` does what `x` does, and this keeps the
invariant. -/
structure Keeps (I : Invariant) {α : Type} (Q : α → Prop) (x y : Run α) : Prop where
  same : ∀ {m}, I.Holds m → y m = x m
  leaves : ∀ {m}, I.Holds m → Leaves I Q (x m)

/-- What is known of a loop after a round. -/
def Round.Meets {α β : Type} (P : α → Prop) (Q : β → Prop) : Round α β → Prop
  | .again a => P a
  | .done b => Q b

/-- Nothing is said of a result. -/
def Whatever {α : Type} (_ : α) : Prop := True

section
variable {I : Invariant} {α β : Type} {P : α → Prop} {Q : β → Prop} {m : Machine}

theorem Leaves.holds_leftBy {x : Run α} (h : Leaves I P (x m)) : I.Holds (leftBy x m) := by
  unfold leftBy
  generalize x m = r at h ⊢
  cases h with
  | ok _ hm => exact hm
  | error hm => exact hm

namespace Keeps

theorem of_leaves {x : Run α} (h : ∀ {m}, I.Holds m → Leaves I P (x m)) : Keeps I P x x :=
  ⟨fun _ => rfl, h⟩

theorem pure {a : α} (h : P a) : Keeps I P (pure a) (pure a) := .of_leaves fun hm => .ok h hm

theorem throw (f : Fault) : Keeps I P (throw f) (throw f) := .of_leaves fun hm => .error hm

theorem bind {x y : Run α} {f g : α → Run β} (h : Keeps I P x y)
    (hf : ∀ a, P a → Keeps I Q (f a) (g a)) : Keeps I Q (x >>= f) (y >>= g) := by
  have hboth : ∀ {m}, I.Holds m →
      (y >>= g) m = (x >>= f) m ∧ Leaves I Q ((x >>= f) m) := by
    intro m hm
    have hleaves := h.leaves hm
    rw [bind_apply, bind_apply, h.same hm]
    generalize x m = r at hleaves ⊢
    cases hleaves with
    | ok ha hm' => exact ⟨(hf _ ha).same hm', (hf _ ha).leaves hm'⟩
    | error hm' => exact ⟨rfl, .error hm'⟩
  exact ⟨fun hm => (hboth hm).1, fun hm => (hboth hm).2⟩

theorem andThen {x y : Run α} {z w : Run β} (h : Keeps I P x y) (hz : Keeps I Q z w) :
    Keeps I Q (x >>= fun _ => z) (y >>= fun _ => w) :=
  h.bind fun _ _ => hz

/-- A loop keeps what its rounds keep. -/
theorem iterate {body body' : α → Run (Round α β)}
    (h : ∀ a, P a → Keeps I (Round.Meets P Q) (body a) (body' a)) (rounds : Nat) {a : α}
    (ha : P a) : Keeps I Q (iterate body rounds a) (LineBasic.iterate body' rounds a) := by
  induction rounds generalizing a with
  | zero => exact throw .stalled
  | succ rounds ih =>
      apply (h a ha).bind
      intro round hround
      cases round with
      | again b => exact ih hround
      | done r => exact pure hround

end Keeps

end

namespace Machine

variable {I : Invariant} {α : Type}

theorem get_keeps : Keeps I I.Holds (get : Run Machine) get := .of_leaves fun hm => .ok hm hm

theorem lexeme_keeps : Keeps I Whatever lexeme lexeme := .of_leaves fun hm => .ok trivial hm

theorem lineNumber?_keeps (atEnd : Bool) :
    Keeps I Whatever (lineNumber? atEnd) (lineNumber? atEnd) :=
  .of_leaves fun hm => .ok trivial hm

theorem moves_keeps : Keeps I Whatever moves moves := .of_leaves fun hm => .ok trivial hm

theorem start_keeps :
    Keeps I Whatever (modify fun m => { m with started := true })
      (modify fun m => { m with started := true }) :=
  .of_leaves fun hm => .ok trivial (I.started hm)

theorem finish_keeps :
    Keeps I Whatever (modify fun m => { m with finished := true })
      (modify fun m => { m with finished := true }) :=
  .of_leaves fun hm => .ok trivial (I.finished hm)

theorem note_keeps (event : Event) : Keeps I Whatever (note event) (note event) := by
  apply Keeps.of_leaves
  intro m hm
  rw [note_apply]
  split
  · exact .error hm
  · exact .ok trivial (I.reports hm _)

theorem warn_keeps (message : String) :
    Keeps I Whatever (onReports (Reports.warn message)) (onReports (Reports.warn message)) := by
  apply Keeps.of_leaves
  intro m hm
  rw [warn_apply]
  exact .ok trivial (I.reports hm _)

theorem failHere_keeps {Q : α → Prop} (cause : Cause) :
    Keeps I Q (failHere cause) (failHere cause) := by
  apply Keeps.of_leaves
  intro m hm
  rw [failHere_apply]
  exact .error (I.reports hm _)

theorem failLine_keeps {Q : α → Prop} (number : Int) (cause : Int → Cause) :
    Keeps I Q (failLine number cause) (failLine number cause) := by
  apply Keeps.of_leaves
  intro m hm
  rw [failLine_apply]
  split
  · exact .error (I.reports hm _)
  · exact .error hm

theorem write_keeps (piece : Text) : Keeps I Whatever (write piece) (write piece) := by
  apply Keeps.of_leaves
  intro m hm
  unfold write
  cases Output.write piece m.output with
  | ok _ output => exact .ok trivial (I.output hm output)
  | error fault output => exact .error (I.output hm output)

theorem register_keeps (name : Text) : Keeps I I.Value (register name) (register name) := by
  apply Keeps.of_leaves
  intro m hm
  unfold register
  rw [get_bind_apply]
  cases hread : m.store.read name with
  | ok value => exact .ok (I.read hm hread) hm
  | error refusal => exact .error hm

theorem assign_keeps (name : Text) {value : Int} (h : I.Value value) :
    Keeps I Whatever (assign name value) (assign name value) := by
  apply Keeps.of_leaves
  intro m hm
  unfold assign
  rw [get_bind_apply]
  cases hassign : m.store.assign name value with
  | ok store => exact .ok trivial (I.assign hm h hassign)
  | error refusal => exact .error hm

/-- A failure of the listing is recorded, and that is all it changes besides. -/
theorem onListing_keeps {action : EStateM Fault Listing Unit}
    (h : ∀ {m}, I.Holds m → I.Holds { m with listing := leftBy action m.listing }) :
    Keeps I Whatever (onListing action) (onListing action) := by
  apply Keeps.of_leaves
  intro m hm
  have hleft := h hm
  unfold onListing
  unfold leftBy at hleft
  cases haction : action m.listing with
  | ok _ listing =>
      rw [haction] at hleft
      exact .ok trivial hleft
  | error fault listing =>
      rw [haction] at hleft
      simp only [bind_apply, onReports, Reports.noteScan_apply]
      exact .error (I.reports hleft _)

theorem onCursor_keeps {action : EStateM Fault Cursor Unit}
    (h : ∀ {m}, I.Holds m → I.Holds (m.movedTo (leftBy action m.cursor))) :
    Keeps I Whatever (onCursor action) (onCursor action) := by
  apply onListing_keeps
  intro m hm
  have hleft := h hm
  have hlisting : leftBy (Listing.onCursor action) m.listing =
      { m.listing with cursor := leftBy action m.cursor } := by
    simp only [leftBy, Listing.onCursor, cursor]
    cases action m.listing.cursor <;> rfl
  rw [hlisting]
  exact hleft

theorem next_keeps : Keeps I Whatever next next := onCursor_keeps I.next

theorem skipLine_keeps : Keeps I Whatever skipLine skipLine := onCursor_keeps I.skipLine

theorem accept_keeps (expected : Kind) : Keeps I Whatever (accept expected) (accept expected) := by
  apply Keeps.of_leaves
  intro m hm
  rw [accept_apply]
  split
  · exact next_keeps.leaves hm
  · exact (failHere_keeps _).leaves hm

theorem buildIndex_keeps : Keeps I Whatever buildIndex buildIndex := by
  apply (note_keeps _).andThen
  apply (onListing_keeps I.build).andThen
  exact get_keeps.bind fun _ _ => note_keeps _

theorem divide_keeps (numerator denominator : Int) :
    Keeps I I.Value (divide numerator denominator) (divide numerator denominator) := by
  unfold divide
  split
  · apply (warn_keeps _).andThen
    apply (note_keeps _).andThen
    exact .pure I.zero
  · apply get_keeps.bind
    intro m hm
    exact .pure (I.wrap hm _)

/-- Operators that give values of the invariant. -/
def Computes (I : Invariant) (operator? : Lexeme → Option (Int → Int → Run Int)) : Prop :=
  ∀ {l operator}, operator? l = some operator →
    ∀ a b, Keeps I I.Value (operator a b) (operator a b)

theorem multiply?_computes : Computes I multiply? := by
  intro l operator hl a b
  unfold multiply? at hl
  split at hl
  · cases hl
    exact get_keeps.bind fun m hm => .pure (I.wrap hm _)
  · cases hl
    exact divide_keeps a b
  · cases hl

theorem add?_computes : Computes I add? := by
  intro l operator hl a b
  unfold add? at hl
  split at hl
  · cases hl
    exact get_keeps.bind fun m hm => .pure (I.wrap hm _)
  · cases hl
    exact get_keeps.bind fun m hm => .pure (I.wrap hm _)
  · cases hl

theorem chain_keeps {operand operand' : Run Int}
    {operator? : Lexeme → Option (Int → Int → Run Int)} (hoperator : Computes I operator?)
    (h : Keeps I I.Value operand operand') {first : Int} (hfirst : I.Value first) :
    Keeps I I.Value (chain operand operator? first) (chain operand' operator? first) := by
  apply moves_keeps.bind
  intro rounds _
  refine Keeps.iterate (P := I.Value) ?_ rounds hfirst
  intro value _
  apply lexeme_keeps.bind
  intro l _
  cases hl : operator? l with
  | none => exact .pure ‹_›
  | some operator =>
      apply next_keeps.andThen
      apply h.bind
      intro other _
      apply (hoperator hl value other).bind
      intro result hresult
      exact .pure hresult

theorem factorWith_keeps {inner inner' : Run Int} (h : Keeps I I.Value inner inner') :
    Keeps I I.Value (factorWith inner) (factorWith inner') := by
  apply lexeme_keeps.bind
  intro l _
  cases l with
  | number value =>
      apply get_keeps.bind
      intro m hm
      apply (note_keeps _).andThen
      apply next_keeps.andThen
      exact .pure (I.wrap hm _)
  | letter letter =>
      apply (register_keeps _).bind
      intro value hvalue
      apply (note_keeps _).andThen
      apply next_keeps.andThen
      exact .pure hvalue
  | symbol sign =>
      cases sign with
      | openParen =>
          apply next_keeps.andThen
          apply h.bind
          intro value hvalue
          apply (accept_keeps _).andThen
          exact .pure hvalue
      | _ => exact failHere_keeps _
  | _ => exact failHere_keeps _

/-- An expression with a guard on what every expression, every term and every factor in
it gives. -/
def guardedWithin (guard : Run Int → Run Int) : Nat → Run Int
  | 0 => throw .stalled
  | depth + 1 =>
      guard (sumOf (guard (termOf (guard (factorWith (guardedWithin guard depth))))))

def guarded (guard : Run Int → Run Int) : Run Int := do guardedWithin guard (← moves)

theorem termOf_keeps {factor factor' : Run Int} (h : Keeps I I.Value factor factor') :
    Keeps I I.Value (termOf factor) (termOf factor') := by
  apply h.bind
  intro first hfirst
  exact chain_keeps multiply?_computes h hfirst

theorem sumOf_keeps {term term' : Run Int} (h : Keeps I I.Value term term') :
    Keeps I I.Value (sumOf term) (sumOf term') := by
  apply h.bind
  intro first hfirst
  apply (lineNumber?_keeps _).bind
  intro number _
  cases number with
  | some number =>
      apply (note_keeps _).andThen
      exact .pure hfirst
  | none => exact chain_keeps add?_computes h hfirst

/-- A guard that lets the values of an invariant pass. -/
def Passes (I : Invariant) (guard : Run Int → Run Int) : Prop :=
  ∀ {x y}, Keeps I I.Value x y → Keeps I I.Value x (guard y)

theorem expressionWithin_keeps {guard : Run Int → Run Int} (h : Passes I guard) (depth : Nat) :
    Keeps I I.Value (expressionWithin depth) (guardedWithin guard depth) := by
  induction depth with
  | zero => exact .throw .stalled
  | succ depth ih => exact h (sumOf_keeps (h (termOf_keeps (h (factorWith_keeps ih)))))

theorem expression_keeps {guard : Run Int → Run Int} (h : Passes I guard) :
    Keeps I I.Value expression (guarded guard) := by
  apply moves_keeps.bind
  intro depth _
  exact expressionWithin_keeps h depth

end Machine

end LineBasic
