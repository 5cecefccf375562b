import Mathlib.Data.List.Forall2
import LineBasic.Proofs.Inertness
import LineBasic.Proofs.Printing
import LineBasic.Proofs.Words

/-!
# Sums and products wrap once

Every literal and every result of an operator is wrapped. Without a division one wrap at
the end would do: a sum, a difference and a product are known up to the modulus from
operands that are, so that the value of a formula has the residue of its exact value over
the integers, and it is a word. Formulas that the laws of sums and products turn into one
another therefore have one value.

What `PRINT` writes for them is the same line, as long as it evaluates both. It does not
evaluate a formula that begins with a number it takes for that of a line.
-/
namespace LineBasic

def Operator.exactResult : Operator → Int → Int → Int
  | plus, a, b => a + b
  | minus, a, b => a - b
  | times, a, b => a * b
  | slash, a, b => a.tdiv b

theorem Operator.result_modEq {size : WordSize} {operator : Operator} (h : operator ≠ .slash)
    {a b a' b' : Int} (ha : a ≡ a' [ZMOD size.modulus]) (hb : b ≡ b' [ZMOD size.modulus]) :
    operator.result size a b ≡ operator.exactResult a' b' [ZMOD size.modulus] := by
  cases operator with
  | plus => exact (size.wrap_modEq _).trans (ha.add hb)
  | minus => exact (size.wrap_modEq _).trans (ha.sub hb)
  | times => exact (size.wrap_modEq _).trans (ha.mul hb)
  | slash => exact absurd rfl h

namespace Formula

variable {size : WordSize} {registers : Registers} {formula other : Formula}

/-- The value of a formula over the integers, with its literals as they are. -/
def exactValue (registers : Registers) : Formula → Int
  | literal number => number.value
  | register name => registers name.register
  | operation operator left right =>
      operator.exactResult (left.exactValue registers) (right.exactValue registers)

def Undivided : Formula → Prop
  | literal _ | register _ => True
  | operation operator left right => operator ≠ .slash ∧ left.Undivided ∧ right.Undivided

theorem value_modEq_exactValue (h : formula.Undivided) :
    formula.value size registers ≡ formula.exactValue registers [ZMOD size.modulus] := by
  induction formula with
  | literal number => exact size.wrap_modEq _
  | register name => exact Int.ModEq.refl _
  | operation operator left right ihleft ihright =>
      obtain ⟨hoperator, hleft, hright⟩ := h
      exact Operator.result_modEq hoperator (ihleft hleft) (ihright hright)

/-- One wrap at the end does for all those in between. -/
theorem value_eq_wrap_exactValue (hfits : ∀ register, size.Fits (registers register))
    (h : formula.Undivided) :
    formula.value size registers = size.wrap (formula.exactValue registers) :=
  WordSize.eq_wrap_of_modEq (fits_value hfits formula) (value_modEq_exactValue h)

theorem warnings_of_undivided (h : formula.Undivided) : formula.warnings size registers = 0 := by
  induction formula with
  | literal number => rfl
  | register name => rfl
  | operation operator left right ihleft ihright =>
      obtain ⟨hoperator, hleft, hright⟩ := h
      rw [warnings, ihleft hleft, ihright hright]
      cases operator with
      | slash => exact absurd rfl hoperator
      | _ => rfl

/-- A formula rearranged by the laws of sums and products, anywhere within it. -/
inductive Rearranged : Formula → Formula → Prop
  | refl (formula : Formula) : Rearranged formula formula
  | symm {formula other : Formula} : Rearranged formula other → Rearranged other formula
  | trans {formula other third : Formula} : Rearranged formula other → Rearranged other third →
      Rearranged formula third
  | inside {left left' right right' : Formula} (operator : Operator) : Rearranged left left' →
      Rearranged right right' →
      Rearranged (operation operator left right) (operation operator left' right')
  | commuted {operator : Operator} (left right : Formula) :
      operator = .plus ∨ operator = .times →
      Rearranged (operation operator left right) (operation operator right left)
  | reassociated {operator : Operator} (left middle right : Formula) :
      operator = .plus ∨ operator = .times →
      Rearranged (operation operator (operation operator left middle) right)
        (operation operator left (operation operator middle right))
  | distributed {operator : Operator} (factor left right : Formula) :
      operator = .plus ∨ operator = .minus →
      Rearranged (operation .times factor (operation operator left right))
        (operation operator (operation .times factor left) (operation .times factor right))

theorem Rearranged.exactValue_eq (h : formula.Rearranged other) (registers : Registers) :
    formula.exactValue registers = other.exactValue registers := by
  induction h with
  | refl => rfl
  | symm _ ih => exact ih.symm
  | trans _ _ ih ih' => exact ih.trans ih'
  | inside operator _ _ ihleft ihright => rw [exactValue, exactValue, ihleft, ihright]
  | commuted left right hoperator =>
      rcases hoperator with rfl | rfl
      · exact Int.add_comm _ _
      · exact Int.mul_comm _ _
  | reassociated left middle right hoperator =>
      rcases hoperator with rfl | rfl
      · exact Int.add_assoc _ _ _
      · exact Int.mul_assoc _ _ _
  | distributed factor left right hoperator =>
      rcases hoperator with rfl | rfl
      · exact Int.mul_add _ _ _
      · exact Int.mul_sub _ _ _

/-- Rearranging neither brings a division in nor takes one out. -/
theorem Rearranged.undivided_iff (h : formula.Rearranged other) :
    formula.Undivided ↔ other.Undivided := by
  induction h with
  | refl => rfl
  | symm _ ih => exact ih.symm
  | trans _ _ ih ih' => exact ih.trans ih'
  | inside operator _ _ ihleft ihright => simp only [Undivided, ihleft, ihright]
  | commuted left right _ => simp only [Undivided, and_comm (a := left.Undivided)]
  | reassociated left middle right _ =>
      simp only [Undivided]
      tauto
  | distributed factor left right _ =>
      simp only [Undivided]
      tauto

/-- Formulas that are rearranged have one value. -/
theorem Rearranged.value_eq (h : formula.Rearranged other) (hundivided : formula.Undivided)
    (hfits : ∀ register, size.Fits (registers register)) :
    formula.value size registers = other.value size registers := by
  have hother := h.undivided_iff.1 hundivided
  rw [value_eq_wrap_exactValue hfits hundivided, value_eq_wrap_exactValue hfits hother,
    h.exactValue_eq]

/-- The formula is what a cursor has before it, up to another cursor and no further. -/
structure Stands (formula : Formula) (c d : Cursor) : Prop where
  placed : c.Placed
  passed : ∃ us, formula.Derives 0 us ∧ c.Passes us d
  ended : d.token.lexeme.operates = false

end Formula

namespace Element

variable {size : WordSize} {registers : Registers}

/-- The same element, or a value whose formula is rearranged. -/
inductive Rearranged : Element → Element → Prop
  | same (element : Element) : Rearranged element element
  | value {formula other : Formula} : formula.Undivided → formula.Rearranged other →
      Rearranged (value formula) (value other)

/-- A line of rearranged elements is the same line. -/
theorem written_rearranged (hfits : ∀ register, size.Fits (registers register))
    {elements others : List Element} (h : List.Forall₂ Rearranged elements others) (joined : Bool) :
    written size registers joined elements = written size registers joined others := by
  induction h generalizing joined with
  | nil => rfl
  | cons hfirst _ ih =>
      rw [written, written]
      cases hfirst with
      | same element => rw [ih]
      | value hundivided hformula =>
          rw [piece, piece, hformula.value_eq hundivided hfits]
          exact congrArg _ (ih _)

def toPiece (size : WordSize) (registers : Registers) : Element → Piece
  | string quotation => .item quotation.body
  | value formula => .item (Numeral.decimal (formula.value size registers))
  | comma | semicolon => .gap

theorem written_toPiece (elements : List Element) (joined : Bool) :
    Piece.written joined (elements.map (toPiece size registers)) =
      written size registers joined elements := by
  induction elements generalizing joined with
  | nil => rfl
  | cons element rest ih =>
      rw [List.map_cons, Piece.written, written, ih]
      cases element <;> rfl

/-- The element is what a cursor in a printed line has before it, up to another cursor. A
value must not begin with a number that is taken for that of a line. -/
def Stands : Element → Cursor → Cursor → Prop
  | string quotation, c, d => c.Placed ∧ c.Passes [.string quotation.body] d
  | comma, c, d => c.Placed ∧ c.Passes [.separator ','] d
  | semicolon, c, d => c.Placed ∧ c.Passes [.separator ';'] d
  | value formula, c, d => c.onValue = true ∧ formula.Stands c d

end Element

/-- Elements of a printed line that stand one behind the other. -/
inductive Cursor.Lists : Cursor → List Element → Cursor → Prop
  | nil (c : Cursor) : Lists c [] c
  | cons {c d e : Cursor} {element : Element} {rest : List Element} : element.Stands c d →
      Lists d rest e → Lists c (element :: rest) e

namespace Machine

variable {sheet : Sheet} {m n p : Machine} {registers : Registers} {c d : Cursor}
  {formula other : Formula} {elements others : List Element}

/-- A formula before the cursor is evaluated. -/
theorem Tame.evaluates (htame : Tame m registers) (h : formula.Stands m.cursor d) :
    Delivers expression m (formula.value m.size registers)
      (formula.warnings m.size registers) d := by
  obtain ⟨us, hderives, hpasses⟩ := h.passed
  exact expression_delivers hderives htame h.placed hpasses h.ended

theorem Tame.evaluates_exact (htame : Tame m registers) (hundivided : formula.Undivided)
    (h : formula.Stands m.cursor d) :
    Delivers expression m (m.size.wrap (formula.exactValue registers)) 0 d := by
  have hdelivers := htame.evaluates h
  rwa [formula.value_eq_wrap_exactValue htame.fits hundivided,
    Formula.warnings_of_undivided hundivided] at hdelivers

/-- An element before the cursor is read. -/
theorem Tame.takes (htame : Tame m registers) {element : Element} (h : element.Stands m.cursor d) :
    ∃ m' w, Takes m (element.toPiece m.size registers) m' ∧ Worked m m' [] w ∧ m'.cursor = d := by
  have hnext : ∀ {l : Lexeme}, m.cursor.Placed ∧ m.cursor.Passes [l] d →
      m.cursor.token.lexeme = l ∧ next m = .ok () (m.movedTo d) ∧ Worked m (m.movedTo d) [] 0 := by
    rintro l ⟨hplaced, hpasses⟩
    obtain ⟨hl, -, c, hc, hnil⟩ := Cursor.Passes.cons_iff.1 hpasses
    cases hnil
    exact ⟨hl, next_moves hplaced hc⟩
  cases element with
  | string quotation =>
      obtain ⟨hl, hmoved, hworked⟩ := hnext h
      exact ⟨_, 0, .string hl hmoved, hworked, rfl⟩
  | comma =>
      obtain ⟨hl, hmoved, hworked⟩ := hnext h
      exact ⟨_, 0, .separator hl hmoved, hworked, rfl⟩
  | semicolon =>
      obtain ⟨hl, hmoved, hworked⟩ := hnext h
      exact ⟨_, 0, .separator hl hmoved, hworked, rfl⟩
  | value formula =>
      obtain ⟨hvalue, hstands⟩ := h
      obtain ⟨m', hm', hworked, hcursor⟩ := htame.evaluates hstands
      exact ⟨m', _, .value hvalue hm' (htame.writable _ (Formula.fits_value htame.fits _)), hworked,
        hcursor⟩

theorem Tame.takesAll (htame : Tame m registers) (h : m.cursor.Lists elements d) :
    ∃ e, TakesAll m (elements.map (Element.toPiece m.size registers)) e ∧ e.cursor = d := by
  generalize hc : m.cursor = c at h
  induction h generalizing m with
  | nil => exact ⟨m, .nil m, hc⟩
  | cons hfirst _ ih =>
      subst hc
      obtain ⟨m', w, htakes, hworked, hcursor⟩ := htame.takes hfirst
      obtain ⟨e, hrest, hend⟩ := ih (htame.worked hworked) hcursor
      rw [hworked.size] at hrest
      exact ⟨e, .cons htakes hrest, hend⟩

/-- The next step of a machine comes to a `PRINT` of elements, with nothing more behind them. -/
structure AtPrint (m : Machine) (elements : List Element) : Prop where
  underway : m.Underway m.cursor.sheet
  printed : ∃ p c d, arrive m = .ok true p ∧ p.cursor.Passes [.keyword .PRINT] c ∧
    c.Lists elements d ∧ d.endsPrint = true

/-- A line of elements is printed as it is written. -/
theorem AtPrint.writes (h : m.AtPrint elements) (htame : Tame m registers)
    (hquiet : m.output.alarms = []) :
    (∃ more, m.outcome = .ok more) ∧ m.stepped.output.text =
      m.output.text ++ Element.written m.size registers false elements ++ ['\n'] := by
  obtain ⟨p, c, d, harrive, hprint, hlists, hends⟩ := h.printed
  obtain ⟨hword, -, _, hc, hnil⟩ := Cursor.Passes.cons_iff.1 hprint
  cases hnil
  obtain ⟨q, hnext, hq, hstore, hline, hbroken⟩ := h.underway.prints harrive hword
  cases hnext.symm.trans (onCursor_of_ok hc)
  have hsize : p.size = m.size := (arrive_preserves fun _ _ _ _ _ => rfl).of_ok harrive
  have htame' : Tame (p.movedTo c) registers := by
    have hsame : (p.movedTo c).size = m.size := hsize
    exact ⟨hstore.trans htame.store, hsame ▸ htame.fits, hsame ▸ htame.writable⟩
  obtain ⟨e, htakes, rfl⟩ := htame'.takesAll hlists
  have hstop := not_takes_of_endsPrint hends
  cases houtcome : m.outcome with
  | ok more =>
      refine ⟨⟨more, rfl⟩, ?_⟩
      obtain ⟨htakes', hends', htext, -⟩ := hline more houtcome
      obtain ⟨rfl, -⟩ := htakes.unique htakes' hstop (not_takes_of_endsPrint hends')
      rw [htext, Element.written_toPiece]
      exact congrArg (fun size => _ ++ Element.written size _ _ _ ++ _) hsize
  | error f =>
      cases hbroken f houtcome with
      | spoilt htakes' hspoils _ =>
          obtain ⟨-, rfl⟩ := htakes.unique htakes' hstop hspoils.not_takes
          exact absurd (hends.symm.trans (endsPrint_of_onValue hspoils.onValue)) (by decide)
      | interrupted _ halarmed _ _ => exact absurd hquiet halarmed

/-- A formula without divisions is evaluated to the word of its exact value. Rearranged
formulas are evaluated alike by machines with the same words and registers, and lines that
differ in rearranged formulas are printed alike. -/
theorem wrapping_deferred (htame : Tame m registers) :
    (∀ (formula : Formula) d, formula.Undivided → formula.Stands m.cursor d →
      Delivers expression m (m.size.wrap (formula.exactValue registers)) 0 d) ∧
    ∀ n, Tame n registers → n.size = m.size →
      (∀ (formula other : Formula) d e, formula.Undivided → formula.Rearranged other →
        formula.Stands m.cursor d → other.Stands n.cursor e →
        ∃ value, Delivers expression m value 0 d ∧ Delivers expression n value 0 e) ∧
      ∀ elements others, m.AtPrint elements → n.AtPrint others →
        List.Forall₂ Element.Rearranged elements others →
        m.output.alarms = [] → n.output.alarms = [] →
        (∃ more, m.outcome = .ok more) ∧ (∃ more, n.outcome = .ok more) ∧
          ∃ line, m.stepped.output.text = m.output.text ++ line ∧
            n.stepped.output.text = n.output.text ++ line := by
  refine ⟨fun formula d => htame.evaluates_exact, ?_⟩
  intro n htame' hsize
  refine ⟨?_, ?_⟩
  · intro formula other d e hundivided hrearranged hformula hother
    have hdelivers := htame'.evaluates_exact (hrearranged.undivided_iff.1 hundivided) hother
    rw [hsize, ← hrearranged.exactValue_eq] at hdelivers
    exact ⟨_, htame.evaluates_exact hundivided hformula, hdelivers⟩
  · intro elements others helements hothers hrearranged hquiet hquiet'
    obtain ⟨houtcome, hwritten⟩ := helements.writes htame hquiet
    obtain ⟨houtcome', hwritten'⟩ := hothers.writes htame' hquiet'
    rw [hsize, ← Element.written_rearranged htame.fits hrearranged] at hwritten'
    rw [List.append_assoc] at hwritten hwritten'
    exact ⟨houtcome, houtcome', _, hwritten, hwritten'⟩

/-- The next step of the machine comes to a statement without moving. -/
def arrivesHere (m : Machine) : Bool :=
  match arrive m with
  | .ok true p => decide (p.cursor = m.cursor)
  | _ => false

theorem exists_arrive_of_arrivesHere (h : m.arrivesHere = true) :
    ∃ p, arrive m = .ok true p ∧ p.cursor = m.cursor := by
  unfold arrivesHere at h
  split at h
  · exact ⟨_, ‹_›, of_decide_eq_true h⟩
  · cases h

/-- A `PRINT` of a single formula that begins with no number, up to the end of its line. -/
theorem atPrint_of_upcoming (hunderway : m.Underway m.cursor.sheet)
    (harrives : m.arrivesHere = true) (hdrains : m.cursor.Drains) {l : Lexeme} {u v : List Lexeme}
    (hupcoming : m.cursor.upcoming = [.keyword .PRINT] ++ (l :: u ++ .lineEnd :: v))
    (hderives : formula.Derives 0 (l :: u)) (hbegins : beginsFactor l = true)
    (hnumber : ∀ value, l ≠ .number value) : m.AtPrint [.value formula] := by
  obtain ⟨p, harrive, hcursor⟩ := exists_arrive_of_arrivesHere harrives
  rw [← hcursor] at hdrains hupcoming
  obtain ⟨c, hprint, hc, hbehind⟩ := hdrains.passes hupcoming (by decide)
  obtain ⟨d, hpasses, -, hrest⟩ := hc.passes hbehind hderives.sourceEnd_notMem
  have hfirst : c.token.lexeme = l := (Cursor.Passes.cons_iff.1 hpasses).1
  have hlast : d.token.lexeme = .lineEnd := by
    have hhead := d.head?_upcoming
    rw [hrest] at hhead
    exact (Option.some.inj hhead).symm
  have hvalue : c.onValue = true :=
    onValue_iff.2 ⟨hfirst ▸ hbegins, lineNumber?_of_ne (hfirst ▸ hnumber) false⟩
  have hstands : formula.Stands c d := ⟨hc.toPlaced, ⟨_, hderives, hpasses⟩, by rw [hlast]; rfl⟩
  refine ⟨hunderway, p, c, d, harrive, hprint, .cons ⟨hvalue, hstands⟩ (.nil d), ?_⟩
  rw [Cursor.endsPrint, hlast]
  exact Bool.or_true _

def shortLiteral (value : Nat) (h : value < 10 ^ 4) : Literal where
  value := value
  writable := by
    have hbound : 10 ^ 4 ≤ Numeral.bound := Numeral.pow_le_bound (show 4 ≤ Numeral.limit by decide)
    rw [Numeral.writable_iff]
    omega

/-- `(A + 1) * 300` and `A * 300 + 1 * 300` in words of eight bits, of which 300 is none:
both are evaluated to 44 and printed. -/
theorem wrapping_deferred_products :
    let a : Formula := .register ⟨0, true⟩
    let one : Formula := .literal (shortLiteral 1 (by decide))
    let factor : Formula := .literal (shortLiteral 300 (by decide))
    let product : Formula := .operation .times (.operation .plus a one) factor
    let sum : Formula :=
      .operation .plus (.operation .times a factor) (.operation .times one factor)
    let m := fresh ⟨⟨"PRINT (A+1)*300\n".toList, []⟩, .first, ⟨.keyword .PRINT, 1, 1, 0, 5⟩⟩
      ⟨8, by decide⟩ {} {}
    let n := fresh ⟨⟨"PRINT A*300+1*300\n".toList, []⟩, .first, ⟨.keyword .PRINT, 1, 1, 0, 5⟩⟩
      ⟨8, by decide⟩ {} {}
    Tame m (fun _ => 0) ∧ Tame n (fun _ => 0) ∧ product.Undivided ∧ product.Rearranged sum ∧
      m.AtPrint [.value product] ∧ n.AtPrint [.value sum] ∧
      m.stepped.output.text = "44\n".toList ∧ n.stepped.output.text = "44\n".toList := by
  intro a one factor product sum m n
  have htame : ∀ k : Machine, k.store = .zero → k.size = ⟨8, by decide⟩ → Tame k fun _ => 0 := by
    intro k hstore hsize
    refine ⟨hstore.trans Store.zero_eq, fun _ => k.size.fits_zero, ?_⟩
    rw [hsize]
    exact (WordSize.writable_iff_bits_le _).2 (by decide)
  have hundivided : product.Undivided := ⟨by decide, ⟨by decide, trivial, trivial⟩, trivial⟩
  have hrearranged : product.Rearranged sum :=
    .trans (.commuted _ _ (.inr rfl)) (.trans (.distributed _ _ _ (.inl rfl))
      (.inside .plus (.commuted _ _ (.inr rfl)) (.commuted _ _ (.inr rfl))))
  have hm : m.AtPrint [.value product] :=
    atPrint_of_upcoming (underway_fresh rfl _ _ _) (by decide +kernel)
      ⟨Cursor.placed_of_start rfl, by decide +kernel⟩ (l := .symbol .openParen)
      (v := [.sourceEnd]) (by decide +kernel)
      (product.derives_lexemes (Nat.zero_le 2)) rfl (by simp)
  have hn : n.AtPrint [.value sum] :=
    atPrint_of_upcoming (underway_fresh rfl _ _ _) (by decide +kernel)
      ⟨Cursor.placed_of_start rfl, by decide +kernel⟩ (l := .letter 'A')
      (v := [.sourceEnd]) (by decide +kernel)
      (sum.derives_lexemes (Nat.zero_le 2)) rfl (by simp)
  obtain ⟨-, hprinted⟩ := (wrapping_deferred (htame m rfl rfl)).2 n (htame n rfl rfl) rfl
  obtain ⟨-, -, line, hline, hline'⟩ :=
    hprinted _ _ hm hn (.cons (.value hundivided hrearranged) .nil) rfl rfl
  have htext : m.stepped.output.text = "44\n".toList := by decide +kernel
  refine ⟨htame m rfl rfl, htame n rfl rfl, hundivided, hrearranged, hm, hn, htext, ?_⟩
  rw [hline', ← htext, hline]
  rfl

/-- `PRINT A + 10` prints ten. In `PRINT 10 + A` the ten reads as the number of a line,
before which the printed line ends. -/
theorem commuted_sum_unprinted :
    let ten : Formula := .literal (shortLiteral 10 (by decide))
    let sum : Formula := .operation .plus (.register ⟨0, true⟩) ten
    let commuted : Formula := .operation .plus ten (.register ⟨0, true⟩)
    let printed (formula : Formula) : Option Text :=
      match load ⟨Lexeme.spelled (.keyword .PRINT :: formula.lexemes 0) ++ ['\n'], []⟩
        ⟨32, by decide⟩ {} {} with
      | .ok m => some (m.called 1).output.text
      | .error _ => none
    sum.Undivided ∧ sum.Rearranged commuted ∧
      printed sum = some "10\n".toList ∧ printed commuted = some "\n".toList := by
  intro ten sum commuted printed
  refine ⟨⟨by decide, trivial, trivial⟩, .commuted _ _ (.inl rfl), ?_, ?_⟩
  · decide +kernel
  · decide +kernel

end Machine

end LineBasic
