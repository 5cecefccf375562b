import LineBasic.Proofs.Arrival
import LineBasic.Proofs.Tiling

/-!
# What is printed

`PRINT` reads elements up to one that it cannot begin, or to a number that begins a line.
A separator is a gap of one space, a string or an expression is an item, and an item is
set off by a space if an item is directly before it; at the end comes a line end.

The elements are those of a machine that reads without writing (`Takes`), since reading
does not depend on what has been written. Against these the text is told: that of all of
them and a line end if the line is completed, and that of the elements before the item and
the space that is due if an item fails. No element has a line end in its text, and so the
line ends that a program has written are as many as the lines that it has completed.
-/
namespace LineBasic

namespace Output

variable {o o' o'' : Output} {piece more : Text}

/-- A piece has been written behind what was there. No alarm has gone off. -/
structure Grew (o : Output) (piece : Text) (o' : Output) : Prop where
  text : o'.text = o.text ++ piece
  alarms : o'.alarms = o.alarms

theorem Grew.refl (o : Output) : o.Grew [] o := ⟨(List.append_nil _).symm, rfl⟩

theorem Grew.trans (h : o.Grew piece o') (h' : o'.Grew more o'') : o.Grew (piece ++ more) o'' :=
  ⟨by rw [h'.text, h.text, List.append_assoc], h'.alarms.trans h.alarms⟩

theorem grew_of_write (h : write piece o = .ok () o') : o.Grew piece o' :=
  ⟨text_write h, alarms_write h⟩

end Output

/-- What an element of a printed line comes to. -/
inductive Piece where
  | gap
  | item (text : Text)
  deriving DecidableEq

namespace Piece

/-- The space that sets an item off from one directly before it. -/
def lead (joined : Bool) : Text := if joined then [' '] else []

/-- What is written for a piece, `joined` if an item is directly before it. -/
def text (joined : Bool) : Piece → Text
  | gap => [' ']
  | item text => lead joined ++ text

/-- Whether an item right behind the piece is set off. -/
def joins : Piece → Bool
  | gap => false
  | item _ => true

def written : Bool → List Piece → Text
  | _, [] => []
  | joined, piece :: rest => piece.text joined ++ written piece.joins rest

/-- Whether an item right behind the pieces is set off. -/
def joinsAll : Bool → List Piece → Bool
  | joined, [] => joined
  | _, piece :: rest => joinsAll piece.joins rest

end Piece

open Piece

/-- Whether an element of a printed line may begin with the lexeme. -/
def Lexeme.beginsElement : Lexeme → Bool
  | .string _ | .separator _ => true
  | l => Machine.beginsFactor l

namespace Cursor

/-- An expression is to be printed here: a factor begins, and not with the number of a line. -/
def onValue (c : Cursor) : Bool :=
  Machine.beginsFactor c.token.lexeme && (c.lineNumber? false).isNone

/-- The printed line ends here: at a number that begins a line, or at a lexeme that begins
no element. -/
def endsPrint (c : Cursor) : Bool :=
  (c.lineNumber? false).isSome || !c.token.lexeme.beginsElement

end Cursor

namespace Machine

variable {sheet : Sheet} {bound : Nat} {g g' e m p q r : Machine} {joined : Bool} {o o' : Output}

/-- The machine reads one element, without writing it. -/
inductive Takes (m : Machine) : Piece → Machine → Prop
  | string {body : Text} {m' : Machine} : m.cursor.token.lexeme = .string body →
      next m = .ok () m' → Takes m (.item body) m'
  | separator {mark : Char} {m' : Machine} : m.cursor.token.lexeme = .separator mark →
      next m = .ok () m' → Takes m .gap m'
  | value {v : Int} {m' : Machine} : m.cursor.onValue = true → expression m = .ok v m' →
      Numeral.writable v = true → Takes m (.item (Numeral.decimal v)) m'

/-- The machine reads elements one by one, without writing them. -/
inductive TakesAll : Machine → List Piece → Machine → Prop
  | nil (m : Machine) : TakesAll m [] m
  | cons {m m' e : Machine} {piece : Piece} {rest : List Piece} : Takes m piece m' →
      TakesAll m' rest e → TakesAll m (piece :: rest) e

/-- The item here cannot be evaluated, or not be written. -/
inductive Spoils (m : Machine) : Fault → Prop
  | evaluating {f : Fault} {m' : Machine} : m.cursor.onValue = true →
      expression m = .error f m' → Spoils m f
  | converting {v : Int} {m' : Machine} : m.cursor.onValue = true → expression m = .ok v m' →
      Numeral.writable v = false → Spoils m .unwritable

theorem onValue_iff {c : Cursor} :
    c.onValue = true ↔ beginsFactor c.token.lexeme = true ∧ c.lineNumber? false = none := by
  simp [Cursor.onValue]

theorem not_onValue {c : Cursor} (h : beginsFactor c.token.lexeme = false) :
    ¬ c.onValue = true := by
  intro hvalue
  exact absurd ((onValue_iff.1 hvalue).1.symm.trans h) (by decide)

/-- At most one element is read from a place. -/
theorem Takes.unique {piece piece' : Piece} (h : Takes m piece g) (h' : Takes m piece' g') :
    piece = piece' ∧ g = g' := by
  cases h with
  | string hl hnext =>
      cases h' with
      | string hl' hnext' =>
          cases hl.symm.trans hl'
          cases hnext.symm.trans hnext'
          exact ⟨rfl, rfl⟩
      | separator hl' _ => cases hl.symm.trans hl'
      | value hvalue _ _ => exact absurd hvalue (not_onValue (by rw [hl]; rfl))
  | separator hl hnext =>
      cases h' with
      | string hl' _ => cases hl.symm.trans hl'
      | separator _ hnext' =>
          cases hnext.symm.trans hnext'
          exact ⟨rfl, rfl⟩
      | value hvalue _ _ => exact absurd hvalue (not_onValue (by rw [hl]; rfl))
  | value hvalue hx _ =>
      cases h' with
      | string hl _ => exact absurd hvalue (not_onValue (by rw [hl]; rfl))
      | separator hl _ => exact absurd hvalue (not_onValue (by rw [hl]; rfl))
      | value _ hx' _ =>
          cases hx.symm.trans hx'
          exact ⟨rfl, rfl⟩

theorem endsPrint_of_onValue {c : Cursor} (h : c.onValue = true) : c.endsPrint = false := by
  obtain ⟨hbegins, hnumber⟩ := onValue_iff.1 h
  have helement : c.token.lexeme.beginsElement = true := by
    unfold Lexeme.beginsElement
    split
    · rfl
    · rfl
    · exact hbegins
  simp [Cursor.endsPrint, hnumber, helement]

/-- Nothing is read where the line ends. -/
theorem Takes.endsPrint {piece : Piece} (h : Takes m piece g) : m.cursor.endsPrint = false := by
  cases h with
  | string hl _ =>
      simp [Cursor.endsPrint, lineNumber?_of_ne (c := m.cursor) (by simp [hl]), hl,
        Lexeme.beginsElement]
  | separator hl _ =>
      simp [Cursor.endsPrint, lineNumber?_of_ne (c := m.cursor) (by simp [hl]), hl,
        Lexeme.beginsElement]
  | value hvalue _ _ => exact endsPrint_of_onValue hvalue

theorem Spoils.onValue {f : Fault} (h : Spoils m f) : m.cursor.onValue = true := by
  cases h with
  | evaluating hvalue _ => exact hvalue
  | converting hvalue _ _ => exact hvalue

/-- An item that spoils the line is not read. -/
theorem Spoils.not_takes {f : Fault} (h : Spoils m f) (piece : Piece) (g : Machine) :
    ¬ Takes m piece g := by
  have hvalue := h.onValue
  intro htakes
  cases htakes with
  | string hl _ => exact absurd hvalue (not_onValue (by rw [hl]; rfl))
  | separator hl _ => exact absurd hvalue (not_onValue (by rw [hl]; rfl))
  | value _ hx hw =>
      cases h with
      | evaluating _ herror => cases hx.symm.trans herror
      | converting _ hx' hnot =>
          cases hx.symm.trans hx'
          exact absurd (hw.symm.trans hnot) (by decide)

/-- Reading comes to one place only at which nothing more is read, by the same elements. -/
theorem TakesAll.unique {pieces pieces' : List Piece} {e' : Machine} (h : TakesAll m pieces e)
    (h' : TakesAll m pieces' e') (he : ∀ piece g, ¬ Takes e piece g)
    (he' : ∀ piece g, ¬ Takes e' piece g) : pieces = pieces' ∧ e = e' := by
  induction h generalizing pieces' with
  | nil =>
      cases h' with
      | nil => exact ⟨rfl, rfl⟩
      | cons hfirst _ => exact absurd hfirst (he _ _)
  | cons hfirst _ ih =>
      cases h' with
      | nil => exact absurd hfirst (he' _ _)
      | cons hfirst' hrest' =>
          obtain ⟨rfl, rfl⟩ := hfirst.unique hfirst'
          obtain ⟨rfl, rfl⟩ := ih hrest' he
          exact ⟨rfl, rfl⟩

/-- Nothing is read at the end of the line. -/
theorem not_takes_of_endsPrint (h : e.cursor.endsPrint = true) (piece : Piece) (g : Machine) :
    ¬ Takes e piece g :=
  fun htakes => absurd (h.symm.trans htakes.endsPrint) (by decide)

theorem exists_next (h : m.Within sheet bound) (hend : m.cursor.token.lexeme ≠ .sourceEnd)
    (hrem : m.cursor.token.lexeme ≠ .keyword .REM) :
    ∃ m', next m = .ok () m' ∧ m'.Within sheet m.toGo ∧ m'.output = m.output ∧
      m'.store = m.store ∧ m'.finished = m.finished := by
  obtain ⟨d, hd, -⟩ := h.steady.next hend hrem
  have hnext : next m = .ok () (m.movedTo d) := onCursor_of_ok hd
  exact ⟨_, hnext, ((next_ends h hend hrem).of_eq hnext).1, rfl, rfl, rfl⟩

theorem Takes.within {piece : Piece} (h : Takes g piece g') (hg : g.Within sheet bound) :
    g'.Within sheet g.toGo := by
  cases h with
  | string hl hnext => exact ((next_ends hg (by simp [hl]) (by simp [hl])).of_eq hnext).1
  | separator hl hnext => exact ((next_ends hg (by simp [hl]) (by simp [hl])).of_eq hnext).1
  | value _ hvalue _ => exact (expression_ends hg).of_eq hvalue

theorem Takes.finished {piece : Piece} (h : Takes g piece g') : g'.finished = g.finished := by
  cases h with
  | string _ hnext => exact next_inward.finished.of_ok hnext
  | separator _ hnext => exact next_inward.finished.of_ok hnext
  | value _ hvalue _ => exact expression_inward.finished.of_ok hvalue

theorem TakesAll.within {pieces : List Piece} (h : TakesAll g pieces e)
    (hg : g.Within sheet bound) : e.Within sheet bound := by
  induction h generalizing bound with
  | nil => exact hg
  | cons hfirst _ ih => exact (ih (hfirst.within hg)).mono (Nat.le_of_lt hg.less)

theorem TakesAll.finished {pieces : List Piece} (h : TakesAll g pieces e) :
    e.finished = g.finished := by
  induction h with
  | nil => rfl
  | cons hfirst _ ih => exact ih.trans hfirst.finished

/-- What comes of writing a piece: it is written, or an interrupt comes in its place. -/
inductive Puts (g : Machine) (o : Output) (piece : Text) (joined : Bool) :
    EStateM.Result Fault Machine PrintLine → Prop
  | ok {line : PrintLine} {o' : Output} : line.joined = joined → o.Grew piece o' →
      Puts g o piece joined (.ok line { g with output := o' })
  | interrupted {o' : Output} : o.alarms ≠ [] → o'.text = o.text →
      Puts g o piece joined (.error .interrupted { g with output := o' })

theorem write_of_ok {piece : Text} (h : Output.write piece m.output = .ok () o) :
    write piece m = .ok () { m with output := o } := by
  simp only [write, h]

theorem write_of_error {piece : Text} {f : Fault} (h : Output.write piece m.output = .error f o) :
    write piece m = .error f { m with output := o } := by
  simp only [write, h]

theorem put_puts (line : PrintLine) (piece : Text) (joined : Bool) (g : Machine) (o : Output) :
    Puts g o piece joined (line.put piece joined { g with output := o }) := by
  unfold PrintLine.put
  cases hw : Output.write piece o with
  | ok _ o' =>
      rw [bind_of_ok (write_of_ok (m := { g with output := o }) hw)]
      exact .ok rfl (Output.grew_of_write hw)
  | error f o' =>
      obtain ⟨rfl, htext, halarmed⟩ := Output.write_error hw
      rw [bind_of_error (write_of_error (m := { g with output := o }) hw)]
      exact .interrupted halarmed htext

theorem setOff_puts (line : PrintLine) (g : Machine) (o : Output) :
    Puts g o (lead line.joined) line.joined (line.setOff { g with output := o }) := by
  unfold PrintLine.setOff lead
  cases hjoined : line.joined with
  | true => exact put_puts line [' '] true g o
  | false => exact .ok hjoined (.refl o)

/-- What comes of a round: an element is read and written, the line ends here, the item
spoils it, or an interrupt comes in place of a piece. -/
inductive Wrote (g : Machine) (joined : Bool) (o : Output) :
    EStateM.Result Fault Machine (Round PrintLine PrintLine) → Prop
  | took {piece : Piece} {g' : Machine} {o' : Output} {line : PrintLine} : Takes g piece g' →
      o.Grew (piece.text joined) o' → line.joined = piece.joins →
      Wrote g joined o (.ok (.again line) { g' with output := o' })
  | ended {line : PrintLine} {r : Reports} : g.cursor.endsPrint = true →
      Wrote g joined o (.ok (.done line) { g with output := o, reports := r })
  | spoilt {f : Fault} {r : Machine} : Spoils g f → r.output.text = o.text ++ lead joined →
      Wrote g joined o (.error f r)
  | interrupted {piece : Text} {r : Machine} : o.alarms ≠ [] →
      piece = [] ∨ piece = lead joined → r.output.text = o.text ++ piece →
      Wrote g joined o (.error .interrupted r)

/-- An item is set off before anything else is done. -/
theorem Puts.bind_wrote {x : Run PrintLine} {f : PrintLine → Run (Round PrintLine PrintLine)}
    (h : Puts g o (lead joined) joined (x { g with output := o }))
    (hf : ∀ line o', o.Grew (lead joined) o' →
      Wrote g joined o (f line { g with output := o' })) :
    Wrote g joined o ((x >>= f) { g with output := o }) := by
  rw [bind_apply]
  generalize x { g with output := o } = result at h ⊢
  cases h with
  | ok _ hgrew => exact hf _ _ hgrew
  | interrupted halarmed htext =>
      exact .interrupted halarmed (.inl rfl) (htext.trans (List.append_nil _).symm)

theorem string_wrote (h : g.Within sheet bound) {body : Text}
    (hl : g.cursor.token.lexeme = .string body) (line : PrintLine) (o : Output) :
    Wrote g line.joined o ((line.setOff >>= fun line => line.put body true >>= fun line =>
      next >>= fun _ => pure (Round.again line)) { g with output := o }) := by
  refine (setOff_puts line g o).bind_wrote ?_
  intro line₁ o₁ hgrew₁
  have hput := put_puts line₁ body true g o₁
  rw [bind_apply]
  generalize line₁.put body true { g with output := o₁ } = result at hput ⊢
  cases hput with
  | interrupted halarmed htext =>
      exact .interrupted (hgrew₁.alarms ▸ halarmed) (.inr rfl) (htext.trans hgrew₁.text)
  | @ok line₂ o₂ hjoined hgrew₂ =>
      obtain ⟨g', hnext, -⟩ := exists_next h (by simp [hl]) (by simp [hl])
      simp only
      rw [bind_of_ok (next_inward.onto hnext o₂)]
      exact .took (.string hl hnext) (hgrew₁.trans hgrew₂) hjoined

theorem separator_wrote (h : g.Within sheet bound) {mark : Char}
    (hl : g.cursor.token.lexeme = .separator mark) (line : PrintLine) (o : Output) :
    Wrote g line.joined o ((line.put [' '] false >>= fun line =>
      next >>= fun _ => pure (Round.again line)) { g with output := o }) := by
  have hput := put_puts line [' '] false g o
  rw [bind_apply]
  generalize line.put [' '] false { g with output := o } = result at hput ⊢
  cases hput with
  | interrupted halarmed htext =>
      exact .interrupted halarmed (.inl rfl) (htext.trans (List.append_nil _).symm)
  | @ok line₁ o₁ hjoined hgrew =>
      obtain ⟨g', hnext, -⟩ := exists_next h (by simp [hl]) (by simp [hl])
      simp only
      rw [bind_of_ok (next_inward.onto hnext o₁)]
      exact .took (.separator hl hnext) hgrew hjoined

theorem value_wrote (hvalue : g.cursor.onValue = true) (line : PrintLine) (o : Output) :
    Wrote g line.joined o (printValue line { g with output := o }) := by
  refine (setOff_puts line g o).bind_wrote ?_
  intro line₁ o₁ hgrew₁
  cases hx : expression g with
  | error f g' =>
      rw [bind_of_error (expression_inward.onto_error hx o₁)]
      exact .spoilt (.evaluating hvalue hx) hgrew₁.text
  | ok v g' =>
      rw [bind_of_ok (expression_inward.onto hx o₁)]
      cases hw : Numeral.writable v with
      | false => exact .spoilt (.converting hvalue hx hw) hgrew₁.text
      | true =>
          have hput := put_puts line₁ (Numeral.decimal v) true g' o₁
          simp only [if_true]
          rw [bind_apply]
          generalize line₁.put (Numeral.decimal v) true { g' with output := o₁ } = result at hput ⊢
          cases hput with
          | interrupted halarmed htext =>
              exact .interrupted (hgrew₁.alarms ▸ halarmed) (.inr rfl) (htext.trans hgrew₁.text)
          | @ok line₂ o₂ hjoined hgrew₂ =>
              exact .took (.value hvalue hx hw) (hgrew₁.trans hgrew₂) hjoined

theorem printElement_wrote (h : g.Within sheet bound) (line : PrintLine) (o : Output) :
    Wrote g line.joined o (printElement line { g with output := o }) := by
  have hcursor : ({ g with output := o } : Machine).cursor = g.cursor := rfl
  rw [printElement_apply, hcursor]
  cases hnumber : g.cursor.lineNumber? false with
  | some number => exact .ended (r := g.reports) (by simp [Cursor.endsPrint, hnumber])
  | none =>
      have hvalue : beginsFactor g.cursor.token.lexeme = true → g.cursor.onValue = true := by
        intro hbegins
        simp [Cursor.onValue, hbegins, hnumber]
      have hends : g.cursor.token.lexeme.beginsElement = false → g.cursor.endsPrint = true := by
        intro hnone
        simp [Cursor.endsPrint, hnone]
      have hstop : ∀ kind, g.cursor.token.lexeme.beginsElement = false → Wrote g line.joined o
          ((note (.printStopped kind) >>= fun _ =>
            pure (Round.done line : Round PrintLine PrintLine)) { g with output := o }) := by
        intro kind hnone
        rw [bind_of_ok (note_of_writable rfl _)]
        exact .ended (hends hnone)
      simp only [Option.isSome_none, Bool.false_eq_true, if_false]
      unfold printItem printItemWith
      rw [lexeme_bind_apply, hcursor]
      cases hl : g.cursor.token.lexeme with
      | string body => exact string_wrote h hl line o
      | separator mark => exact separator_wrote h hl line o
      | letter name => exact value_wrote (hvalue (by rw [hl]; rfl)) line o
      | number value => exact value_wrote (hvalue (by rw [hl]; rfl)) line o
      | symbol sign =>
          cases sign with
          | openParen => exact value_wrote (hvalue (by rw [hl]; rfl)) line o
          | _ => exact hstop _ (by rw [hl]; rfl)
      | keyword word => exact hstop _ (by rw [hl]; rfl)
      | lineEnd => exact .ended (r := g.reports) (hends (by rw [hl]; rfl))
      | sourceEnd => exact .ended (r := g.reports) (hends (by rw [hl]; rfl))

/-- A line has been broken off: an item spoils it, or the output interrupts it. -/
inductive BreaksOff (g : Machine) (joined : Bool) (o : Output) : Fault → Machine → Prop
  | spoilt {pieces : List Piece} {e r : Machine} {f : Fault} : TakesAll g pieces e →
      Spoils e f →
      r.output.text = o.text ++ written joined pieces ++ lead (joinsAll joined pieces) →
      BreaksOff g joined o f r
  | interrupted {pieces : List Piece} {e r : Machine} {piece : Text} : TakesAll g pieces e →
      o.alarms ≠ [] → piece = [] ∨ piece = lead (joinsAll joined pieces) →
      r.output.text = o.text ++ written joined pieces ++ piece →
      BreaksOff g joined o .interrupted r

theorem BreaksOff.cons {piece : Piece} {f : Fault} (htakes : Takes g piece g')
    (hgrew : o.Grew (piece.text joined) o') (h : BreaksOff g' piece.joins o' f r) :
    BreaksOff g joined o f r := by
  cases h with
  | spoilt hrest hspoils htext =>
      refine .spoilt (.cons htakes hrest) hspoils ?_
      rw [htext, hgrew.text]
      simp only [written, joinsAll, List.append_assoc]
  | interrupted hrest halarmed hpiece htext =>
      refine .interrupted (.cons htakes hrest) (hgrew.alarms ▸ halarmed) hpiece ?_
      rw [htext, hgrew.text]
      simp only [written, List.append_assoc]

theorem BreaksOff.still {f : Fault} (h : BreaksOff g joined o f r) (hsame : m.output = r.output) :
    BreaksOff g joined o f m := by
  cases h with
  | spoilt htakes hspoils htext => exact .spoilt htakes hspoils (hsame ▸ htext)
  | interrupted htakes halarmed hpiece htext =>
      exact .interrupted htakes halarmed hpiece (hsame ▸ htext)

/-- What comes of all rounds: the elements up to the end of the line have been written, or
the line has been broken off. -/
inductive WroteAll (g : Machine) (joined : Bool) (o : Output) :
    EStateM.Result Fault Machine PrintLine → Prop
  | ended {pieces : List Piece} {e : Machine} {o' : Output} {line : PrintLine} {r : Reports} :
      TakesAll g pieces e → e.cursor.endsPrint = true → o.Grew (written joined pieces) o' →
      WroteAll g joined o (.ok line { e with output := o', reports := r })
  | broken {f : Fault} {r : Machine} : BreaksOff g joined o f r → WroteAll g joined o (.error f r)

theorem WroteAll.cons {piece : Piece} {result : EStateM.Result Fault Machine PrintLine}
    (htakes : Takes g piece g') (hgrew : o.Grew (piece.text joined) o')
    (h : WroteAll g' piece.joins o' result) : WroteAll g joined o result := by
  cases h with
  | ended hrest hends hmore => exact .ended (.cons htakes hrest) hends (hgrew.trans hmore)
  | broken hbreaks => exact .broken (hbreaks.cons htakes hgrew)

/-- The rounds come to an end, since each element leaves less to go. -/
theorem iterate_wroteAll {fuel : Nat} (h : g.Within sheet bound) (hfuel : g.toGo < fuel)
    (line : PrintLine) (o : Output) :
    WroteAll g line.joined o (iterate printElement fuel line { g with output := o }) := by
  -- The machine that writes differs from `g`, which only reads, in its output at every round.
  induction fuel generalizing g bound line o with
  | zero => exact absurd hfuel (Nat.not_lt_zero _)
  | succ fuel ih =>
      have hround := printElement_wrote h line o
      generalize hresult : printElement line { g with output := o } = result at hround
      cases hround with
      | @took piece g' o' line' htakes hgrew hjoined =>
          rw [iterate_of_again hresult]
          have hwithin := htakes.within h
          have hless := hwithin.less
          have hrest := ih hwithin (by omega) line' o'
          rw [hjoined] at hrest
          exact hrest.cons htakes hgrew
      | ended hends =>
          rw [iterate_of_done hresult]
          exact .ended (.nil g) hends (.refl o)
      | spoilt hspoils htext =>
          rw [iterate_of_error hresult]
          refine .broken (.spoilt (.nil g) hspoils ?_)
          rw [htext, written, joinsAll, List.append_nil]
      | interrupted halarmed hpiece htext =>
          rw [iterate_of_error hresult]
          refine .broken (.interrupted (.nil g) halarmed hpiece ?_)
          rw [htext, written, List.append_nil]

/-- A line has been printed behind what was written before: all elements up to the end of
the line, and a line end. A line end of the text is passed. -/
inductive PrintsLine (q : Machine) (o : Output) (r : Machine) : Prop
  | intro {pieces : List Piece} {e : Machine} : TakesAll q pieces e →
      e.cursor.endsPrint = true → r.output.text = o.text ++ written false pieces ++ ['\n'] →
      (e.cursor.token.lexeme = .lineEnd → Cursor.next e.cursor = .ok () r.cursor) →
      (e.cursor.token.lexeme ≠ .lineEnd → r.cursor = e.cursor) →
      (r.finished = true ↔ e.cursor.token.lexeme = .sourceEnd) → PrintsLine q o r

/-- A line that is printed has no item that spoils it. -/
theorem PrintsLine.unspoilt (h : q.PrintsLine o r) {pieces : List Piece} {f : Fault}
    (htakes : TakesAll q pieces e) : ¬ Spoils e f := by
  intro hspoils
  obtain ⟨htakes', hends, -⟩ := h
  obtain ⟨-, rfl⟩ := htakes.unique htakes' hspoils.not_takes (not_takes_of_endsPrint hends)
  exact absurd (hends.symm.trans (endsPrint_of_onValue hspoils.onValue)) (by decide)

theorem endPrint_passes (h : m.Within sheet bound) (hunfinished : m.finished = false) :
    ∃ r, endPrint m = .ok () r ∧ r.output = m.output ∧
      (m.cursor.token.lexeme = .lineEnd → Cursor.next m.cursor = .ok () r.cursor) ∧
      (m.cursor.token.lexeme ≠ .lineEnd → r.cursor = m.cursor) ∧
      (r.finished = true ↔ m.cursor.token.lexeme = .sourceEnd) := by
  unfold endPrint
  rw [lineNumber?_bind_apply]
  cases hnumber : m.cursor.lineNumber? false with
  | some number =>
      have hl := (Cursor.lineNumber?_eq_some.1 hnumber).1
      exact ⟨m, rfl, rfl, by simp [hl], fun _ => rfl, by simp [hl, hunfinished]⟩
  | none =>
      simp only [Option.isNone_none, if_true]
      rw [lexeme_bind_apply]
      cases hl : m.cursor.token.lexeme with
      | sourceEnd => exact ⟨_, rfl, rfl, by simp, fun _ => rfl, by simp⟩
      | lineEnd =>
          obtain ⟨d, hd, -⟩ := h.steady.next (by simp [hl]) (by simp [hl])
          refine ⟨m.movedTo d, onCursor_of_ok hd, rfl, fun _ => hd, by simp, ?_⟩
          simp [movedTo, hunfinished]
      | _ => exact ⟨m, rfl, rfl, by simp, fun _ => rfl, by simp [hunfinished]⟩

/-- Behind the word `PRINT` a line is printed or broken off. -/
theorem print_cases (h : p.Within sheet bound) (hunfinished : p.finished = false)
    (hprint : p.cursor.token.lexeme = .keyword .PRINT) :
    ∃ q, next p = .ok () q ∧ q.Within sheet p.toGo ∧ q.store = p.store ∧
      ((∃ r, printStatement p = .ok () r ∧ q.PrintsLine p.output r) ∨
        ∃ f r, printStatement p = .error f r ∧ q.BreaksOff false p.output f r) := by
  obtain ⟨q, hnext, hq, houtput, hstore, hfinished⟩ :=
    exists_next h (by simp [hprint]) (by simp [hprint])
  refine ⟨q, hnext, hq, hstore, ?_⟩
  have haccept : accept (.keyword .PRINT) p = .ok () q := by
    rw [accept_apply, if_pos (by rw [hprint]; rfl), hnext]
  unfold printStatement printStatementWith
  rw [bind_of_ok haccept, moves_bind_apply, bind_apply]
  have hall : WroteAll q false p.output
      (iterate (printElementWith expression) (q.cursor.sheet.text.length + 1) ⟨[], false⟩ q) := by
    rw [← houtput]
    exact iterate_wroteAll hq q.toGo_lt_moves ⟨[], false⟩ q.output
  generalize iterate (printElementWith expression) _ _ q = result at hall ⊢
  cases hall with
  | broken hbreaks => exact .inr ⟨_, _, rfl, hbreaks⟩
  | @ended pieces e o line reports htakes hends hgrew =>
      have he := htakes.within hq
      have hunfinished' : e.finished = false := by rw [htakes.finished, hfinished, hunfinished]
      -- From here on only the output can stop the statement, in place of the line end.
      simp only
      cases hw : Output.write ['\n'] o with
      | error f o' =>
          obtain ⟨rfl, htext, halarmed⟩ := Output.write_error hw
          refine .inr ⟨_, _, bind_of_error
              (write_of_error (m := { e with output := o, reports := reports }) hw),
            .interrupted htakes (hgrew.alarms ▸ halarmed) (.inl rfl) ?_⟩
          simp only [htext, hgrew.text, List.append_nil]
      | ok _ o' =>
          rw [bind_of_ok (write_of_ok (m := { e with output := o, reports := reports }) hw),
            bind_of_ok (note_of_writable rfl _)]
          obtain ⟨r, hr, hsame, hline, hother, hend⟩ := endPrint_passes
            (m := { e with output := o', reports := reports.noted (.printed line.written) })
            (he.still rfl rfl) hunfinished'
          refine .inl ⟨r, hr, .intro htakes hends ?_ hline hother hend⟩
          rw [hsame, Output.text_write hw, hgrew.text]

theorem newline_notMem_decimal (v : Int) : '\n' ∉ Numeral.decimal v := by
  have hdigits : ∀ n, '\n' ∉ Nat.toDigits 10 n := by
    intro n hmem
    exact absurd (Numeral.isDecimal_of_mem_toDigits hmem) (by decide)
  unfold Numeral.decimal
  split
  · simp [hdigits]
  · exact hdigits _

theorem newline_notMem_lead (joined : Bool) : '\n' ∉ lead joined := by
  cases joined <;> decide

theorem Takes.newline_notMem {piece : Piece} (h : Takes g piece g') (hg : g.Within sheet bound)
    (joined : Bool) : '\n' ∉ piece.text joined := by
  have hitem : ∀ {text : Text}, '\n' ∉ text → '\n' ∉ (Piece.item text).text joined := by
    intro text htext
    rw [Piece.text, List.mem_append]
    exact not_or_intro (newline_notMem_lead joined) htext
  cases h with
  | string hl _ =>
      have hspells := Lexeme.spells_of_read hg.steady.here
      rw [hl] at hspells
      exact hitem hspells.2.2
  | separator _ _ =>
      rw [Piece.text]
      decide
  | value _ _ _ => exact hitem (newline_notMem_decimal _)

theorem TakesAll.newline_notMem {pieces : List Piece} (h : TakesAll g pieces e)
    (hg : g.Within sheet bound) (joined : Bool) : '\n' ∉ written joined pieces := by
  induction h generalizing bound joined with
  | nil => exact List.not_mem_nil
  | cons hfirst _ ih =>
      rw [written, List.mem_append]
      exact not_or_intro (hfirst.newline_notMem hg joined) (ih (hfirst.within hg) _)

theorem PrintsLine.count_newline (h : q.PrintsLine o r) (hq : q.Within sheet bound) :
    r.output.text.count '\n' = o.text.count '\n' + 1 := by
  obtain ⟨htakes, -, htext, -⟩ := h
  rw [htext, List.count_append, List.count_append,
    List.count_eq_zero_of_not_mem (htakes.newline_notMem hq false)]
  rfl

theorem BreaksOff.count_newline {f : Fault} (h : BreaksOff g joined o f r)
    (hg : g.Within sheet bound) : r.output.text.count '\n' = o.text.count '\n' := by
  have hcount : ∀ {pieces : List Piece} {e : Machine} {piece : Text}, TakesAll g pieces e →
      '\n' ∉ piece → r.output.text = o.text ++ written joined pieces ++ piece →
      r.output.text.count '\n' = o.text.count '\n' := by
    intro pieces e piece htakes hpiece htext
    rw [htext, List.count_append, List.count_append,
      List.count_eq_zero_of_not_mem (htakes.newline_notMem hg joined),
      List.count_eq_zero_of_not_mem hpiece]
    rfl
  cases h with
  | spoilt htakes _ htext => exact hcount htakes (newline_notMem_lead _) htext
  | interrupted htakes _ hpiece htext =>
      refine hcount htakes ?_ htext
      rcases hpiece with rfl | rfl
      · exact List.not_mem_nil
      · exact newline_notMem_lead _

/-- A step that comes to `PRINT` and does not fail. -/
def completesPrint (m : Machine) : Bool :=
  match arrive m, m.outcome with
  | .ok true p, .ok _ => p.cursor.token.lexeme = .keyword .PRINT
  | _, _ => false

theorem completesPrint_iff :
    m.completesPrint = true ↔ ∃ p more, arrive m = .ok true p ∧
      p.cursor.token.lexeme = .keyword .PRINT ∧ m.outcome = .ok more := by
  unfold completesPrint
  constructor
  · intro h
    split at h
    · rename_i p more harrive houtcome
      exact ⟨p, more, harrive, of_decide_eq_true h, houtcome⟩
    · cases h
  · rintro ⟨p, more, harrive, hprint, houtcome⟩
    simp only [harrive, houtcome, hprint, decide_true]

/-- The lines that are completed in a number of calls. -/
def linesPrinted (m : Machine) (count : Nat) : Nat :=
  (List.range count).countP fun i => (m.called i).completesPrint

/-- What a step that comes to `PRINT` prints. -/
theorem Underway.prints (h : m.Underway sheet) (harrive : arrive m = .ok true p)
    (hprint : p.cursor.token.lexeme = .keyword .PRINT) :
    ∃ q, next p = .ok () q ∧ q.Within sheet p.toGo ∧ q.store = m.store ∧
      (∀ more, m.outcome = .ok more → q.PrintsLine m.output m.stepped) ∧
      ∀ f, m.outcome = .error f → q.BreaksOff false m.output f m.stepped := by
  obtain ⟨hp, hunfinished⟩ := h.arrived harrive
  obtain ⟨q, hnext, hq, hstore, hcases⟩ := print_cases hp hunfinished hprint
  refine ⟨q, hnext, hq, hstore.trans (arrive_store.of_ok harrive), ?_⟩
  rw [arrive_output.of_ok harrive] at hcases
  have hstatement := statement_of_print hprint
  have hcourse := stepped_course m
  generalize m.outcome = answer at hcourse ⊢
  generalize m.stepped = after at hcourse ⊢
  cases hcourse with
  | strayed hstray => cases harrive.symm.trans hstray
  | idle hidle => cases harrive.symm.trans hidle
  | executed hthere hdone =>
      cases harrive.symm.trans hthere
      rcases hcases with ⟨r, hr, hline⟩ | ⟨f, r, hr, -⟩
      · cases (hstatement.trans hr).symm.trans hdone
        exact ⟨fun _ _ => hline, fun f hf => by cases hf⟩
      · cases (hstatement.trans hr).symm.trans hdone
  | failed hthere hfail =>
      cases harrive.symm.trans hthere
      rcases hcases with ⟨r, hr, -⟩ | ⟨f, r, hr, hbreaks⟩
      · cases (hstatement.trans hr).symm.trans hfail
      · cases (hstatement.trans hr).symm.trans hfail
        refine ⟨fun more hmore => (by cases hmore), ?_⟩
        intro f hf
        cases hf
        exact hbreaks.still rfl

/-- A step that does not come to `PRINT` writes nothing. -/
theorem output_stepped (h : ∀ p, arrive m = .ok true p → p.cursor.token.lexeme ≠ .keyword .PRINT) :
    m.stepped.output = m.output :=
  stepped_preserves (fun _ _ _ _ _ => rfl) fun p harrive => statement_output (h p harrive)

/-- A step writes a line end exactly if it completes a line. -/
theorem Underway.count_newline (h : m.Underway sheet) :
    m.stepped.output.text.count '\n' =
      m.output.text.count '\n' + if m.completesPrint then 1 else 0 := by
  by_cases hprint : ∃ p, arrive m = .ok true p ∧ p.cursor.token.lexeme = .keyword .PRINT
  · obtain ⟨p, harrive, hlexeme⟩ := hprint
    obtain ⟨q, -, hq, -, hline, hbreaks⟩ := h.prints harrive hlexeme
    cases houtcome : m.outcome with
    | ok more =>
        rw [(hline more houtcome).count_newline hq,
          if_pos (completesPrint_iff.2 ⟨p, more, harrive, hlexeme, houtcome⟩)]
    | error f =>
        have hnot : ¬ m.completesPrint = true := by
          rw [completesPrint_iff]
          rintro ⟨_, more, -, -, hok⟩
          cases houtcome.symm.trans hok
        rw [(hbreaks f houtcome).count_newline hq, if_neg hnot, Nat.add_zero]
  · have hnot : ¬ m.completesPrint = true := by
      rw [completesPrint_iff]
      rintro ⟨p, -, harrive, hlexeme, -⟩
      exact hprint ⟨p, harrive, hlexeme⟩
    rw [output_stepped fun p harrive hlexeme => hprint ⟨p, harrive, hlexeme⟩, if_neg hnot,
      Nat.add_zero]

theorem Underway.count_newline_called (h : m.Underway sheet) (count : Nat) :
    (m.called count).output.text.count '\n' =
      m.output.text.count '\n' + m.linesPrinted count := by
  induction count with
  | zero => rfl
  | succ count ih =>
      have hstep := (h.called count).count_newline
      rw [linesPrinted, List.range_succ, List.countP_append, List.countP_singleton,
        Machine.called, hstep, ih, linesPrinted, Nat.add_assoc]

/-- A run writes what its calls write. -/
theorem run_output (bound : Nat) (m : Machine) :
    ∃ count ≤ bound, (leftBy (run bound) m).output = (m.launched.called count).output := by
  rcases run_calls bound m with
    ⟨-, hstalled⟩ | ⟨count, hlt, -, hends⟩ | ⟨count, hlt, f, -, hfails⟩
  · exact ⟨bound, Nat.le_refl _, by rw [leftBy_of_error hstalled]⟩
  · exact ⟨count + 1, hlt, by rw [leftBy_of_ok hends]; rfl⟩
  · exact ⟨count + 1, hlt, by rw [leftBy_of_error hfails]⟩

/-- Whenever a call comes to `PRINT`, it prints the elements behind the word and a line end
if it answers, which it does only if no item spoils the line, and it breaks the line off
if it fails. A program has written as many line
ends as it has completed lines, after any number of calls and in every run. -/
theorem printing_exact {size : WordSize} {output : Output} {reports : Reports}
    (h : load sheet size output reports = .ok m) :
    (∀ count p, arrive (m.called count) = .ok true p →
      p.cursor.token.lexeme = .keyword .PRINT →
      ∃ q, next p = .ok () q ∧ q.store = (m.called count).store ∧
        (∀ more, m.call count = .ok more →
          q.PrintsLine (m.called count).output (m.called (count + 1)) ∧
            ∀ pieces e f, q.TakesAll pieces e → ¬ e.Spoils f) ∧
        ∀ f, m.call count = .error f →
          q.BreaksOff false (m.called count).output f (m.called (count + 1))) ∧
    (∀ count, (m.called count).output.text.count '\n' =
      output.text.count '\n' + m.linesPrinted count) ∧
    ∀ start bound, ∃ count ≤ bound,
      (leftBy (run bound) (m.called start)).output =
        ((m.called start).launched.called count).output ∧
      (leftBy (run bound) (m.called start)).output.text.count '\n' =
        (m.called start).output.text.count '\n' + (m.called start).launched.linesPrinted count := by
  obtain ⟨c, hc, rfl⟩ := start_of_load h
  obtain rfl := Cursor.sheet_of_start hc
  have hunderway := underway_fresh hc size output reports
  refine ⟨?_, hunderway.count_newline_called, ?_⟩
  · intro count p harrive hprint
    obtain ⟨q, hnext, -, hstore, hline, hbreaks⟩ :=
      (hunderway.called count).prints harrive hprint
    refine ⟨q, hnext, hstore, fun more hmore => ⟨hline more hmore, ?_⟩, hbreaks⟩
    intro pieces e f htakes
    exact (hline more hmore).unspoilt htakes
  · intro start bound
    obtain ⟨count, hle, hrun⟩ := run_output bound ((fresh c size output reports).called start)
    refine ⟨count, hle, hrun, ?_⟩
    rw [hrun]
    exact ((hunderway.called start).noted .runStarted).count_newline_called count

/-- A string, a number, a product and a sum in parentheses; then a line that is broken off
behind the space that is due. -/
theorem printing_exact_items :
    let sheet : Sheet := ⟨"PRINT \"A\" 7;2*3 (4)\nPRINT \"B\" 1+\n".toList, []⟩
    let m := fresh ⟨sheet, .first, ⟨.keyword .PRINT, 1, 1, 0, 5⟩⟩ ⟨16, by decide⟩ {} {}
    load sheet ⟨16, by decide⟩ {} {} = .ok m ∧
      (∃ p q, arrive m = .ok true p ∧ p.cursor.token.lexeme = .keyword .PRINT ∧
        next p = .ok () q ∧ q.PrintsLine m.output (m.called 1)) ∧
      (m.called 1).output.text = "A 7 6 4\n".toList ∧
      (m.called 2).output.text = "A 7 6 4\nB ".toList ∧ m.linesPrinted 2 = 1 := by
  intro sheet m
  have hload : load sheet ⟨16, by decide⟩ {} {} = .ok m := rfl
  obtain ⟨hprints, hcount, -⟩ := printing_exact hload
  have hfirst : m.completesPrint = true := by decide +kernel
  obtain ⟨p, more, harrive, hprint, houtcome⟩ := completesPrint_iff.1 hfirst
  obtain ⟨q, hnext, -, hline, -⟩ := hprints 0 p harrive hprint
  have htext : (m.called 2).output.text = "A 7 6 4\nB ".toList := by decide +kernel
  have hlines := hcount 2
  rw [htext] at hlines
  refine ⟨hload, ⟨p, q, harrive, hprint, hnext, (hline more houtcome).1⟩, by decide +kernel, htext, ?_⟩
  exact (hlines.trans (Nat.zero_add _)).symm

end Machine

end LineBasic
