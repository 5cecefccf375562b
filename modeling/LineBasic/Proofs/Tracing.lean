import LineBasic.Proofs.Evaluation
import LineBasic.Proofs.LetterCase
import LineBasic.Proofs.Moves
import LineBasic.Proofs.Registers

/-!
# With and without a trace

A machine whose trace is taken away does what it did before, except that an event with a
number too long to be written no longer stops it. `Muted` says this of an action taken on
a machine at work, and says besides what the action leaves: the registers hold words, the
cursor is on a token of the text, and the machine has not finished. Of the faults, that of
a number too long to be written is left out if every word can be written, and an interrupt
if the output makes none. A number in the text can always be written, since it has been
read.

Expressions are followed here, statements in the module below this one.
-/
namespace LineBasic

def WordSize.Writable (w : WordSize) : Prop := ∀ v, w.Fits v → Numeral.writable v = true

/-- Where a program is run: in words of a size, on a sheet, and on an output that is known
not to interrupt it or is not. -/
structure Site where
  size : WordSize
  sheet : Sheet
  quiet : Prop

/-- A fault that may occur at a site. No register is ever refused, nothing is too long to
be written if no word is, and a quiet output does not interrupt. -/
def Fault.Occurs (site : Site) : Fault → Prop
  | .refused _ => False
  | .unwritable => ¬ site.size.Writable
  | .interrupted => ¬ site.quiet
  | _ => True

theorem Fault.Lexical.occurs {f : Fault} (h : f.Lexical) (site : Site) : f.Occurs site := by
  cases f with
  | error | numeral => trivial
  | unwritable | refused | interrupted | stalled => exact h.elim

namespace Reports

def hushed (r : Reports) : Reports := { r with tracing := false, trace := #[] }

theorem hushed_noted (r : Reports) (event : Event) : (r.noted event).hushed = r.hushed := by
  unfold noted
  split <;> rfl

theorem hushed_scanNoted (r : Reports) (f : Fault) : (r.scanNoted f).hushed = r.hushed := by
  unfold scanNoted
  split
  · exact hushed_noted r _
  · rfl

theorem scanNoted_hushed (r : Reports) (f : Fault) : r.hushed.scanNoted f = r.hushed := by
  unfold scanNoted
  split <;> rfl

theorem hushed_scanReported (r : Reports) (f : Fault) :
    (r.scanReported f).hushed = r.hushed.scanReported f := by
  unfold scanReported
  split
  · split <;> rfl
  · rfl

end Reports

namespace Lexeme

/-- A letter that is read is one of the fifty-two. -/
theorem isAlpha_of_read {t : Text} {name : Char} {n : Nat} (h : read t = .ok (.letter name, n)) :
    name.isAlpha = true := by
  cases found_of_read h with
  | letter halpha _ => exact halpha

end Lexeme

namespace Cursor

theorem lexical_of_moveTo {c d : Cursor} {origin : Origin} {pos : Nat} {f : Fault}
    (h : moveTo origin pos c = .error f d) : f.Lexical := by
  cases hr : Lexeme.read (Text.pastGap (c.sheet.text.drop pos)) with
  | ok found =>
      rw [moveTo_of_read origin hr] at h
      cases h
  | error fault =>
      rw [moveTo_of_fault origin hr] at h
      cases h
      exact Sheet.lexical_fault ..

theorem lexical_of_next {c d : Cursor} {f : Fault} (h : next c = .error f d) : f.Lexical := by
  by_cases hend : c.token.lexeme = .sourceEnd
  · unfold next at h
    rw [get_bind_apply, hend] at h
    cases h
  · rw [next_eq_moveTo hend] at h
    exact lexical_of_moveTo h

theorem lexical_of_skipLine {c d : Cursor} {f : Fault} (h : skipLine c = .error f d) :
    f.Lexical := by
  by_cases hend : c.token.lexeme = .sourceEnd
  · unfold skipLine at h
    rw [get_bind_apply, hend] at h
    cases h
  · rw [skipLine_eq_moveTo hend] at h
    exact lexical_of_moveTo h

/-- A number under a cursor has been read, and so it can be written. -/
theorem Lies.writable {sheet : Sheet} {c : Cursor} (h : c.Lies sheet) {value : Nat}
    (hl : c.token.lexeme = .number value) : Numeral.writable value = true := by
  have hhere := h.here
  rw [hl] at hhere
  exact Lexeme.writable_of_read hhere

theorem Lies.writable_lineNumber {sheet : Sheet} {c : Cursor} (h : c.Lies sheet) {atEnd : Bool}
    {number : Nat} (hn : c.lineNumber? atEnd = some number) : Numeral.writable number = true :=
  h.writable (lineNumber?_eq_some.1 hn).1

end Cursor

namespace Store

/-- A letter, in whatever case, names a register. -/
theorem lower_mem_names {letter : Char} (h : letter.isAlpha = true) :
    (Text.lower [letter]).lower ∈ names := by
  have hletters : ∀ first ∈ [65, 97], ∀ i < 26,
      (Text.lower [Char.ofNat (first + i)]).lower ∈ names := by
    decide +kernel
  obtain ⟨first, hfirst, i, hi, rfl⟩ := Text.exists_ofNat_of_isAlpha h
  exact hletters first hfirst i hi

theorem exists_get_of_mem_keys {s : Store} {key : Text} (h : key ∈ s.keys) :
    ∃ value, s.get key = .ok value := by
  cases hv : s.get? key with
  | some value => exact ⟨value, by rw [get, hv]⟩
  | none => exact absurd h (get?_eq_none_iff.1 hv)

end Store

namespace Machine

def hushed (m : Machine) : Machine := { m with reports := m.reports.hushed }

theorem hushed_noted (m : Machine) (event : Event) :
    ({ m with reports := m.reports.noted event } : Machine).hushed = m.hushed := by
  simp only [hushed, Reports.hushed_noted]

/-- A machine at a site whose sheet has a first token. -/
structure Standing (site : Site) (m : Machine) : Prop
    extends InRange site.size m where
  lies : m.cursor.Lies site.sheet
  opens : ∃ first, Cursor.start site.sheet = .ok first
  quiet : site.quiet → m.output.alarms = []

structure Working (site : Site) (m : Machine) : Prop
    extends Standing site m where
  unfinished : m.finished = false

/-- A machine that has finished only if it is at the end of its text. -/
structure Settled (site : Site) (m : Machine) : Prop
    extends Standing site m where
  ending : m.finished = true → m.cursor.token.lexeme = .sourceEnd

/-- A word as the value of an action. -/
def Yields (site : Site) (value : Int) (m : Machine) : Prop :=
  site.size.Fits value ∧ m.Working site

theorem working_fresh {c : Cursor} (h : Cursor.start c.sheet = .ok c) (size : WordSize)
    (output : Output) (reports : Reports) :
    (fresh c size output reports).Working ⟨size, c.sheet, output.alarms = []⟩ :=
  ⟨⟨inRange_fresh c size output reports, Cursor.lies_of_start h, ⟨c, h⟩, id⟩, rfl⟩

namespace Working

variable {site : Site} {m : Machine}

theorem settled (h : m.Working site) : m.Settled site :=
  ⟨h.toStanding, fun hfinished => absurd (hfinished.symm.trans h.unfinished) (by decide)⟩

theorem withReports (h : m.Working site) (r : Reports) : Working site { m with reports := r } :=
  ⟨⟨⟨h.sized, h.keys, h.fits⟩, h.lies, h.opens, h.quiet⟩, h.unfinished⟩

theorem withOutput (h : m.Working site) {o : Output} (ho : site.quiet → o.alarms = []) :
    Working site { m with output := o } :=
  ⟨⟨⟨h.sized, h.keys, h.fits⟩, h.lies, h.opens, ho⟩, h.unfinished⟩

theorem withListing (h : m.Working site) {l : Listing} (hl : l.cursor.Lies site.sheet) :
    Working site { m with listing := l } :=
  ⟨⟨⟨h.sized, h.keys, h.fits⟩, hl, h.opens, h.quiet⟩, h.unfinished⟩

theorem withStarted (h : m.Working site) : Working site { m with started := true } :=
  ⟨⟨⟨h.sized, h.keys, h.fits⟩, h.lies, h.opens, h.quiet⟩, h.unfinished⟩

/-- A machine that is set to have finished at the end of its text. -/
theorem withFinished (h : m.Working site) (hend : m.cursor.token.lexeme = .sourceEnd) :
    Settled site { m with finished := true } :=
  ⟨⟨⟨h.sized, h.keys, h.fits⟩, h.lies, h.opens, h.quiet⟩, fun _ => hend⟩

theorem fits_wrap (h : m.Working site) (v : Int) : site.size.Fits (m.size.wrap v) :=
  h.sized ▸ WordSize.fits_wrap _ v

theorem fits_divide (h : m.Working site) (a b : Int) : site.size.Fits (m.size.divide a b) :=
  h.sized ▸ WordSize.fits_wrap _ _

end Working

end Machine

open Machine

/-- A result and what the same action gives without a trace. They differ if an event could
not be written, which stops the one and not the other. -/
inductive Mutes (site : Site) {α : Type} (post : α → Machine → Prop) :
    EStateM.Result Fault Machine α → EStateM.Result Fault Machine α → Prop
  | ok {a : α} {m : Machine} : post a m → Mutes site post (.ok a m) (.ok a m.hushed)
  | error {f : Fault} {m : Machine} : f.Occurs site → m.Working site →
      Mutes site post (.error f m) (.error f m.hushed)
  | unwritten {m : Machine} {r : EStateM.Result Fault Machine α} : ¬ site.size.Writable →
      m.Working site → Mutes site post (.error .unwritable m) r

/-- The action gives on a machine what it gives on the machine without its trace. -/
def Muted (site : Site) {α : Type} (post : α → Machine → Prop) (x : Run α)
    (m : Machine) : Prop :=
  Mutes site post (x m) (x m.hushed)

namespace Muted

variable {site : Site} {α β : Type} {m : Machine}
variable {P P' : α → Machine → Prop} {Q : β → Machine → Prop}

theorem pure {a : α} (h : P a m) : Muted site P (pure a) m := .ok h

theorem throw {f : Fault} (hf : f.Occurs site) (h : m.Working site) :
    Muted site P (throw f) m :=
  .error hf h

theorem mono {x : Run α} (h : Muted site P x m) (hP : ∀ a m, P a m → P' a m) :
    Muted site P' x m := by
  unfold Muted at h ⊢
  generalize x m = r at h ⊢
  generalize x m.hushed = s at h ⊢
  cases h with
  | ok ha => exact .ok (hP _ _ ha)
  | error hf hm => exact .error hf hm
  | unwritten hw hm => exact .unwritten hw hm

theorem bind {x : Run α} {f : α → Run β} (h : Muted site P x m)
    (hf : ∀ a m, P a m → Muted site Q (f a) m) : Muted site Q (x >>= f) m := by
  unfold Muted at h ⊢
  rw [bind_apply, bind_apply]
  generalize x m = r at h ⊢
  generalize x m.hushed = s at h ⊢
  cases h with
  | ok ha => exact hf _ _ ha
  | error hfault hm => exact .error hfault hm
  | unwritten hw hm => exact .unwritten hw hm

/-- What an action leaves of a machine at work. -/
theorem leaves {x : Run α} (h : Muted site P x m) :
    (∃ a m', x m = .ok a m' ∧ P a m') ∨
      ∃ f m', x m = .error f m' ∧ f.Occurs site ∧ m'.Working site := by
  unfold Muted at h
  generalize x m = r at h ⊢
  generalize x m.hushed = s at h
  cases h with
  | ok ha => exact .inl ⟨_, _, rfl, ha⟩
  | error hf hm => exact .inr ⟨_, _, rfl, hf, hm⟩
  | unwritten hw hm => exact .inr ⟨_, _, rfl, hw, hm⟩

/-- An action that looks at no more of the machine than what is left without a trace. -/
theorem get_bind {f : Machine → Run β} (hsame : f m.hushed = f m)
    (h : Muted site Q (f m) m) : Muted site Q (get >>= f) m := by
  unfold Muted at h ⊢
  rw [get_bind_apply, get_bind_apply, hsame]
  exact h

/-- A loop gives without a trace what its rounds give. -/
theorem iterate {body : α → Run (Round α β)}
    (hbody : ∀ a m, P a m →
      Muted site (fun round m' => round.Meets (P · m') (Q · m')) (body a) m)
    (hworking : ∀ a m, P a m → m.Working site) (rounds : Nat) {a : α} (h : P a m) :
    Muted site Q (iterate body rounds a) m := by
  induction rounds generalizing a m with
  | zero => exact throw trivial (hworking a m h)
  | succ rounds ih =>
      apply (hbody a m h).bind
      intro round m' hround
      cases round with
      | again b => exact ih hround
      | done r => exact pure hround

end Muted

namespace Machine

variable {site : Site} {α : Type} {m : Machine} {P : α → Machine → Prop}

theorem note_muted (h : m.Working site) (event : Event)
    (hevent : site.size.Writable → event.writable = true) :
    Muted site (fun _ m' => m'.Working site) (note event) m := by
  have hhushed : note event m.hushed = .ok () m.hushed := by
    rw [note_apply, if_neg (fun hboth => Bool.noConfusion hboth.1)]
    rfl
  unfold Muted
  rw [hhushed, note_apply]
  split
  · -- Only here do the two machines part.
    rename_i hnot
    refine .unwritten (fun hw => ?_) h
    rw [hevent hw] at hnot
    exact absurd hnot.2 (by decide)
  · rw [← hushed_noted m event]
    exact .ok (h.withReports _)

theorem warn_muted (h : m.Working site) (message : String) :
    Muted site (fun _ m' => m'.Working site) (onReports (Reports.warn message)) m := by
  unfold Muted
  rw [warn_apply, warn_apply]
  exact .ok (h.withReports _)

theorem failHere_muted (h : m.Working site) (cause : Cause) :
    Muted site P (failHere cause) m := by
  unfold Muted
  rw [failHere_apply, failHere_apply]
  exact .error trivial (h.withReports _)

theorem failLine_muted (h : m.Working site) {number : Int}
    (hnumber : Numeral.writable number = true) (cause : Int → Cause) :
    Muted site P (failLine number cause) m := by
  unfold Muted
  rw [failLine_apply, failLine_apply, if_pos hnumber, if_pos hnumber]
  exact .error trivial (h.withReports _)

theorem write_muted (h : m.Working site) (piece : Text) :
    Muted site (fun _ m' => m'.Working site) (write piece) m := by
  have houtput : m.hushed.output = m.output := rfl
  unfold Muted write
  rw [houtput]
  cases hw : Output.write piece m.output with
  | ok _ output =>
      exact .ok (h.withOutput fun hp => (Output.alarms_write hw).trans (h.quiet hp))
  | error fault output =>
      obtain ⟨rfl, -, halarmed⟩ := Output.write_error hw
      have hnoisy : ¬ site.quiet := fun hp => halarmed (h.quiet hp)
      exact .error hnoisy (h.withOutput fun hp => absurd hp hnoisy)

theorem register_muted (h : m.Working site) {letter : Char}
    (hl : m.cursor.token.lexeme = .letter letter) :
    Muted site (Yields site) (register (Text.lower [letter])) m := by
  have hhere := h.lies.here
  rw [hl] at hhere
  have hkey := Store.lower_mem_names (Lexeme.isAlpha_of_read hhere)
  rw [← h.keys] at hkey
  obtain ⟨value, hread⟩ := Store.exists_get_of_mem_keys hkey
  have hread : m.store.read (Text.lower [letter]) = .ok value := hread
  obtain ⟨entry, hentry, rfl⟩ := Store.mem_of_read hread
  apply Muted.get_bind rfl
  rw [hread]
  exact .pure ⟨h.fits entry hentry, h⟩

theorem assign_muted (h : m.Working site) {letter : Char} (hletter : letter.isAlpha = true)
    {value : Int} (hvalue : site.size.Fits value) :
    Muted site (fun _ m' => m'.Working site) (assign (Text.lower [letter]) value)
      m := by
  have hkey := Store.lower_mem_names hletter
  rw [← h.keys] at hkey
  obtain ⟨store, hassign⟩ : ∃ store, m.store.assign (Text.lower [letter]) value = .ok store := by
    rw [Store.assign, Store.set, if_pos (Store.has_iff.2 hkey)]
    exact ⟨_, rfl⟩
  apply Muted.get_bind rfl
  rw [hassign]
  have hrange : InRange site.size { m with store := store } :=
    (holdingWords site.size).assign h.toInRange hvalue hassign
  exact .ok ⟨⟨hrange, h.lies, h.opens, h.quiet⟩, h.unfinished⟩

theorem onListing_muted (h : m.Working site) {action : EStateM Fault Listing Unit}
    (hlies : (leftBy action m.listing).cursor.Lies site.sheet)
    (hlexical : ∀ f l, action m.listing = .error f l → f.Lexical) :
    Muted site (fun _ m' => m'.Working site ∧ action m.listing = .ok () m'.listing)
      (onListing action) m := by
  have hlisting : m.hushed.listing = m.listing := rfl
  unfold Muted onListing
  rw [hlisting]
  unfold leftBy at hlies
  cases haction : action m.listing with
  | ok _ l =>
      rw [haction] at hlies
      exact .ok ⟨h.withListing hlies, rfl⟩
  | error f l =>
      rw [haction] at hlies
      have hworking : Working site
          { m with listing := l, reports := m.reports.scanNoted f } :=
        (h.withListing hlies).withReports _
      have hmuted : Mutes site
          (fun (_ : Unit) m' => m'.Working site ∧
            EStateM.Result.error f l = .ok () m'.listing) _ _ :=
        .error ((hlexical f l haction).occurs site) hworking
      simp only [bind_apply, onReports, Reports.noteScan_apply]
      simp only [hushed, Reports.hushed_scanNoted, Reports.scanNoted_hushed] at hmuted ⊢
      exact hmuted

theorem onCursor_muted (h : m.Working site) {action : EStateM Fault Cursor Unit}
    (hlies : (leftBy action m.cursor).Lies site.sheet)
    (hlexical : ∀ f c, action m.cursor = .error f c → f.Lexical) :
    Muted site (fun _ m' => m'.Working site) (onCursor action) m := by
  have hboth : (leftBy (Listing.onCursor action) m.listing).cursor.Lies site.sheet ∧
      ∀ f l, Listing.onCursor action m.listing = .error f l → f.Lexical := by
    unfold leftBy Listing.onCursor
    unfold leftBy cursor at hlies
    unfold cursor at hlexical
    cases haction : action m.listing.cursor with
    | ok _ c =>
        rw [haction] at hlies
        exact ⟨hlies, by simp⟩
    | error f c =>
        rw [haction] at hlies
        refine ⟨hlies, ?_⟩
        intro g l hg
        cases hg
        exact hlexical f c haction
  exact (onListing_muted h hboth.1 hboth.2).mono fun _ _ hm => hm.1

theorem next_muted (h : m.Working site) :
    Muted site (fun _ m' => m'.Working site) next m :=
  onCursor_muted h h.lies.next fun _ _ => Cursor.lexical_of_next

theorem skipLine_muted (h : m.Working site) :
    Muted site (fun _ m' => m'.Working site) skipLine m :=
  onCursor_muted h h.lies.skipLine fun _ _ => Cursor.lexical_of_skipLine

theorem reset_muted (h : m.Working site) :
    Muted site (fun _ m' => m'.Working site) (onCursor Cursor.reset) m :=
  onCursor_muted h h.lies.reset fun _ _ => Cursor.lexical_of_moveTo

theorem accept_muted (h : m.Working site) (expected : Kind) :
    Muted site (fun _ m' => m'.Working site) (accept expected) m := by
  have hcursor : m.hushed.cursor = m.cursor := rfl
  have hnext := next_muted h
  have hfail : Muted site (fun _ m' => m'.Working site)
      (failHere (.unexpectedToken m.cursor.token.lexeme.kind expected) : Run Unit) m :=
    failHere_muted h _
  unfold Muted at hnext hfail ⊢
  rw [accept_apply, accept_apply, hcursor]
  split
  · exact hnext
  · exact hfail

/-- A survey records numbers that have been read. -/
theorem build_muted (h : m.Working site) :
    Muted site (fun _ m' => m'.Working site ∧
      (Event.indexed m'.index.numbers).writable = true) (onListing Listing.build) m := by
  obtain ⟨first, hstart⟩ := h.opens
  have hsheet : m.listing.cursor.sheet = site.sheet := h.lies.sheet_eq
  rw [← hsheet] at hstart
  have hlies : (leftBy Listing.build m.listing).cursor.Lies site.sheet :=
    h.lies.reaches (Listing.build_steers (c := m.cursor) m.listing ⟨0, .none⟩)
  rcases Listing.build_outcome hstart with
    ⟨-, -, hreadable, -⟩ | ⟨f, surveyed, hfail, -, hlexical, -⟩
  · obtain ⟨index, hbuild, -, hwritable⟩ := survey_of_readable hstart hreadable
    refine (onListing_muted h hlies fun f l hfail => ?_).mono fun _ m' hm => ⟨hm.1, ?_⟩
    · cases hbuild.symm.trans hfail
    · have hlisting : m'.listing = ⟨first, index⟩ := by
        have hsame := hbuild.symm.trans hm.2
        simp only [EStateM.Result.ok.injEq, true_and] at hsame
        exact hsame.symm
      rw [Machine.index, hlisting]
      exact hwritable
  · refine (onListing_muted h hlies fun g l hg => ?_).mono fun _ m' hm => ?_
    · cases hfail.symm.trans hg
      exact hlexical
    · cases hfail.symm.trans hm.2

theorem buildIndex_muted (h : m.Working site) :
    Muted site (fun _ m' => m'.Working site) buildIndex m := by
  apply (note_muted h _ fun _ => rfl).bind
  intro _ m₁ h₁
  apply (build_muted h₁).bind
  rintro _ m₂ ⟨h₂, hwritable⟩
  exact .get_bind rfl (note_muted h₂ _ fun _ => hwritable)

theorem divide_muted (h : m.Working site) (numerator denominator : Int) :
    Muted site (Yields site) (divide numerator denominator) m := by
  unfold divide
  split
  · apply (warn_muted h _).bind
    intro _ m₁ h₁
    apply (note_muted h₁ _ fun _ => rfl).bind
    intro _ m₂ h₂
    exact .pure ⟨site.size.fits_zero, h₂⟩
  · exact .get_bind rfl (.pure ⟨h.fits_divide _ _, h⟩)

/-- Operators whose results are words. -/
def Calculates (site : Site)
    (operator? : Lexeme → Option (Int → Int → Run Int)) : Prop :=
  ∀ {l operator}, operator? l = some operator → ∀ a b {m : Machine}, m.Working site →
    Muted site (Yields site) (operator a b) m

theorem multiply?_calculates : Calculates site multiply? := by
  intro l operator hl a b m h
  unfold multiply? at hl
  split at hl
  · cases hl
    exact .get_bind rfl (.pure ⟨h.fits_wrap _, h⟩)
  · cases hl
    exact divide_muted h a b
  · cases hl

theorem add?_calculates : Calculates site add? := by
  intro l operator hl a b m h
  unfold add? at hl
  split at hl
  · cases hl
    exact .get_bind rfl (.pure ⟨h.fits_wrap _, h⟩)
  · cases hl
    exact .get_bind rfl (.pure ⟨h.fits_wrap _, h⟩)
  · cases hl

/-- An action that gives a word wherever the machine is at work. -/
def Evaluates (site : Site) (x : Run Int) : Prop :=
  ∀ {m : Machine}, m.Working site → Muted site (Yields site) x m

theorem chain_muted {operand : Run Int} {operator? : Lexeme → Option (Int → Int → Run Int)}
    (hoperator : Calculates site operator?) (hoperand : Evaluates site operand)
    {first : Int} (h : Yields site first m) :
    Muted site (Yields site) (chain operand operator? first) m := by
  apply Muted.get_bind rfl
  refine Muted.iterate (P := Yields site) ?_ (fun _ _ hm => hm.2) _ h
  rintro value m₁ ⟨hvalue, h₁⟩
  apply Muted.get_bind rfl
  cases hl : operator? m₁.cursor.token.lexeme with
  | none => exact .pure ⟨hvalue, h₁⟩
  | some operator =>
      apply (next_muted h₁).bind
      intro _ m₂ h₂
      apply (hoperand h₂).bind
      rintro other m₃ ⟨-, h₃⟩
      apply (hoperator hl value other h₃).bind
      intro result m₄ h₄
      exact .pure h₄

theorem factorWith_muted {inner : Run Int} (hinner : Evaluates site inner) :
    Evaluates site (factorWith inner) := by
  intro m h
  apply Muted.get_bind rfl
  cases hl : m.cursor.token.lexeme with
  | number value =>
      apply Muted.get_bind rfl
      have hword := h.fits_wrap value
      apply (note_muted h (.literal _) fun hw => hw _ hword).bind
      intro _ m₁ h₁
      apply (next_muted h₁).bind
      intro _ m₂ h₂
      exact .pure ⟨hword, h₂⟩
  | letter letter =>
      apply (register_muted h hl).bind
      rintro value m₁ ⟨hvalue, h₁⟩
      apply (note_muted h₁ (.variableRead _ value) fun hw => hw _ hvalue).bind
      intro _ m₂ h₂
      apply (next_muted h₂).bind
      intro _ m₃ h₃
      exact .pure ⟨hvalue, h₃⟩
  | symbol sign =>
      cases sign with
      | openParen =>
          apply (next_muted h).bind
          intro _ m₁ h₁
          apply (hinner h₁).bind
          rintro value m₂ ⟨hvalue, h₂⟩
          apply (accept_muted h₂ _).bind
          intro _ m₃ h₃
          exact .pure ⟨hvalue, h₃⟩
      | _ => exact failHere_muted h _
  | _ => exact failHere_muted h _

theorem termWith_muted {inner : Run Int} (hinner : Evaluates site inner) :
    Evaluates site (termWith inner) := by
  intro m h
  apply (factorWith_muted hinner h).bind
  intro first m₁ h₁
  exact chain_muted multiply?_calculates (factorWith_muted hinner) h₁

theorem expressionWith_muted {inner : Run Int} (hinner : Evaluates site inner) :
    Evaluates site (expressionWith inner) := by
  intro m h
  apply (termWith_muted hinner h).bind
  rintro first m₁ ⟨hfirst, h₁⟩
  apply Muted.get_bind rfl
  cases hnumber : m₁.cursor.lineNumber? true with
  | some number =>
      apply (note_muted h₁ (.expressionStopped number) fun _ =>
        h₁.lies.writable_lineNumber hnumber).bind
      intro _ m₂ h₂
      exact .pure ⟨hfirst, h₂⟩
  | none => exact chain_muted add?_calculates (termWith_muted hinner) ⟨hfirst, h₁⟩

theorem expressionWithin_muted (depth : Nat) :
    Evaluates site (expressionWithin depth) := by
  induction depth with
  | zero => exact fun h => .throw trivial h
  | succ depth ih => exact expressionWith_muted ih

theorem expression_muted : Evaluates site expression :=
  fun h => .get_bind rfl (expressionWithin_muted _ h)

theorem relation_muted (h : m.Working site) :
    Muted site (fun _ m' => m'.Working site) relation m := by
  apply (expression_muted h).bind
  rintro left m₁ ⟨hleft, h₁⟩
  apply Muted.get_bind rfl
  cases m₁.cursor.token.lexeme with
  | symbol sign =>
      cases hsign : sign.compares? with
      | none =>
          simp only [hsign]
          exact .pure h₁
      | some compares =>
          simp only [hsign]
          apply (next_muted h₁).bind
          intro _ m₂ h₂
          apply (expression_muted h₂).bind
          rintro right m₃ ⟨hright, h₃⟩
          have hevent : site.size.Writable →
              (Event.compared left sign right).writable = true := by
            intro hw
            simp [Event.writable, hw left hleft, hw right hright]
          apply (note_muted h₃ _ hevent).bind
          intro _ m₄ h₄
          exact .pure h₄
  | _ => exact .pure h₁

end Machine

end LineBasic
