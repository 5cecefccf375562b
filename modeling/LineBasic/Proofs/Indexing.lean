import LineBasic.Proofs.Finishing
import LineBasic.Proofs.Moves

/-!
# The index of a text

A survey starts from the beginning of the text, wherever the cursor has been before, so all
surveys of a text come to the same index. If the text can be read to its end, these are the
numbers that stand in it as line numbers outside its remarks, each of them once and in
ascending order. A program is surveyed by its first step and, as long as the index is
empty, by each of its jumps; the index stays the one of the first step.
-/
namespace LineBasic

namespace Text

variable {t u : Text}

/-- A number stands at an offset, outside remarks, and reads as a line number: it is a
multiple of ten from ten on, and behind its last digit there is a space, a line end, a
carriage return or nothing. -/
structure Marks (t : Text) (number pos length : Nat) : Prop where
  visited : t.Visits (t.drop pos)
  reads : Lexeme.read (t.drop pos) = .ok (.number number, length)
  least : 10 ≤ number
  tens : number % 10 = 0
  follower : t[pos + length]? ∈ [some ' ', some '\n', some '\r', none]

theorem isSuffix_pastGap (t : Text) : t.pastGap <:+ t := List.dropWhile_suffix isGap

theorem isSuffix_afterLine (t : Text) : t.afterLine <:+ t :=
  (List.drop_suffix 1 _).trans (List.dropWhile_suffix _)

theorem Visits.isSuffix (h : t.Visits u) : u <:+ t := by
  induction h with
  | first => exact t.isSuffix_pastGap
  | @token u _ n _ _ _ ih => exact ((isSuffix_pastGap _).trans (List.drop_suffix n u)).trans ih
  | @remark u _ _ _ ih => exact ((isSuffix_pastGap _).trans u.isSuffix_afterLine).trans ih

theorem closes_iff : closes true t = true ↔ t.head? ∈ [some ' ', some '\n', some '\r', none] := by
  unfold closes
  cases t.head? with
  | none => simp
  | some follower =>
      simp only [Cursor.mayFollow, Bool.or_eq_true, beq_iff_eq, List.mem_cons, Option.some.injEq,
        reduceCtorEq, List.not_mem_nil, or_false, or_assoc]

/-- What a survey records are the numbers that stand in the text as line numbers. -/
theorem numbers_iff_marks {number : Nat} :
    t.Numbers number ↔ ∃ pos length, t.Marks number pos length := by
  have hfollower (pos length : Nat) : (List.drop length (t.drop pos)).head? = t[pos + length]? := by
    rw [List.drop_drop, List.head?_drop]
  constructor
  · rintro ⟨u, length, hvisits, hread, hnumber, hcloses⟩
    have hdrop := List.suffix_iff_eq_drop.1 hvisits.isSuffix
    rw [hdrop] at hvisits hread hcloses
    rw [closes_iff, hfollower] at hcloses
    simp only [Cursor.isLineNumber, Bool.and_eq_true, decide_eq_true_eq, beq_iff_eq] at hnumber
    exact ⟨_, length, hvisits, hread, hnumber.1, hnumber.2, hcloses⟩
  · rintro ⟨pos, length, h⟩
    refine ⟨t.drop pos, length, h.visited, h.reads, ?_, ?_⟩
    · simp [Cursor.isLineNumber, h.least, h.tens]
    · rw [closes_iff, hfollower]
      exact h.follower

end Text

namespace Cursor

/-- Moves do not change the sheet. -/
theorem Reaches.sheet_eq {c d : Cursor} (h : c.Reaches d) : d.sheet = c.sheet := by
  have hmoveTo (origin : Origin) (pos : Nat) (d : Cursor) :
      (leftBy (moveTo origin pos) d).sheet = d.sheet := by
    unfold leftBy moveTo
    cases d.sheet.tokenAt origin pos <;> rfl
  obtain ⟨n, hn⟩ := h
  induction hn with
  | none => rfl
  | @next n d _ ih =>
      rw [← ih]
      by_cases hend : d.token.lexeme = .sourceEnd
      · unfold leftBy Cursor.next
        rw [get_bind_apply, hend]
        rfl
      · rw [leftBy, next_eq_moveTo hend]
        exact hmoveTo _ _ d
  | @skipLine n d _ ih =>
      rw [← ih]
      by_cases hend : d.token.lexeme = .sourceEnd
      · unfold leftBy Cursor.skipLine
        rw [get_bind_apply, hend]
        rfl
      · rw [leftBy, skipLine_eq_moveTo hend]
        exact hmoveTo _ _ d
  | @reset n d _ ih => exact (hmoveTo _ _ d).trans ih

theorem reaches_self (c : Cursor) : c.Reaches c := ⟨0, .none⟩

end Cursor

/-- The index of a sheet: the numbers that stand in the text as line numbers, in strictly
ascending order. -/
structure Sheet.Indexed (sheet : Sheet) (index : LineIndex) : Prop where
  exact : ∀ number, number ∈ index.numbers ↔
    ∃ pos length, sheet.text.Marks number pos length
  ascending : index.numbers.Pairwise (· < ·)

namespace Listing

variable {l : Listing} {sheet : Sheet} {first : Cursor}

theorem ascending_noted (h : l.index.numbers.Pairwise (· < ·)) :
    l.noted.numbers.Pairwise (· < ·) := by
  unfold noted
  cases l.cursor.lineNumber? true with
  | none => exact h
  | some number => exact LineIndex.pairwise_insertInto h

/-- A token of the survey keeps the index in order. -/
theorem ascending_surveyToken {round : Round Unit Unit} {after : Listing}
    (h : l.index.numbers.Pairwise (· < ·)) (hok : surveyToken () l = .ok round after) :
    after.index.numbers.Pairwise (· < ·) := by
  rw [surveyToken_eq] at hok
  split at hok
  · cases hok
    exact h
  split at hok
  · split at hok
    · cases hok
      exact h
    · cases hok
  · split at hok
    · cases hok
      exact ascending_noted h
    · cases hok

theorem ascending_iterate {fuel : Nat} {after : Listing} (h : l.index.numbers.Pairwise (· < ·))
    (hok : iterate surveyToken fuel () l = .ok () after) :
    after.index.numbers.Pairwise (· < ·) := by
  induction fuel generalizing l with
  | zero => cases hok
  | succ fuel ih =>
      obtain ⟨round, between, htoken, hrest⟩ := bind_eq_ok hok
      have hbetween := ascending_surveyToken h htoken
      cases round with
      | again _ => exact ih hbetween hrest
      | done _ =>
          cases hrest
          exact hbetween

theorem ascending_build {after : Listing} (hstart : Cursor.start l.cursor.sheet = .ok first)
    (hok : build l = .ok () after) : after.index.numbers.Pairwise (· < ·) := by
  rw [build_eq hstart] at hok
  split at hok
  · rename_i surveyed hsurvey
    rw [index_of_onCursor hok]
    exact ascending_iterate List.Pairwise.nil hsurvey
  · cases hok

theorem readable_of_build {after : Listing} (hstart : Cursor.start l.cursor.sheet = .ok first)
    (hok : build l = .ok () after) : l.cursor.sheet.text.Readable := by
  rcases build_outcome hstart with ⟨-, -, hreadable, -⟩ | ⟨f, failed, hfail, -⟩
  · exact hreadable
  · cases hfail.symm.trans hok

/-- All surveys of a text come to the same, whatever index there was. -/
theorem build_eq_build {l' : Listing} (hstart : Cursor.start l.cursor.sheet = .ok first)
    (hsheet : l'.cursor.sheet = l.cursor.sheet) : build l' = build l := by
  rw [build_eq hstart, build_eq (hsheet ▸ hstart)]

/-- A text that can be read has an index, to which every survey comes. -/
theorem exists_indexed (hreadable : sheet.text.Readable) :
    ∃ first index, Cursor.start sheet = .ok first ∧ sheet.Indexed index ∧
      ∀ l : Listing, l.cursor.sheet = sheet → build l = .ok () ⟨first, index⟩ := by
  obtain ⟨first, hstart, -⟩ := Cursor.start_of_readable sheet hreadable
  obtain rfl := Cursor.sheet_of_start hstart
  rcases build_outcome (l := ⟨first, .empty⟩) hstart with
    ⟨index, hbuild, -, hindex⟩ | ⟨-, -, -, -, -, hnot⟩
  · refine ⟨first, index, hstart, ⟨fun number => ?_, ascending_build hstart hbuild⟩, ?_⟩
    · rw [hindex]
      exact Text.numbers_iff_marks
    · intro l hsheet
      rw [← hbuild]
      exact build_eq_build hstart hsheet
  · exact absurd hreadable hnot

end Listing

namespace Machine

variable {m : Machine} {sheet : Sheet} {first : Cursor}

/-- That the index is the one to which a survey comes, as an invariant. -/
def surveyed (first : Cursor) (hstart : Cursor.start first.sheet = .ok first) : Invariant where
  Holds m := m.cursor.sheet = first.sheet ∧
    m.index = (leftBy Listing.build ⟨first, .empty⟩).index
  Value _ := True
  reports h _ := h
  output h _ := h
  started h := h
  finished h := h
  next {m} h := ⟨m.cursor.reaches_self.next.sheet_eq.trans h.1, h.2⟩
  skipLine {m} h := ⟨m.cursor.reaches_self.skipLine.sheet_eq.trans h.1, h.2⟩
  reset {m} h := ⟨m.cursor.reaches_self.reset.sheet_eq.trans h.1, h.2⟩
  build {m} h := by
    refine ⟨?_, ?_⟩
    · exact (Listing.build_steers m.listing m.cursor.reaches_self).sheet_eq.trans h.1
    · have hsame : Listing.build m.listing = Listing.build ⟨first, .empty⟩ :=
        Listing.build_eq_build hstart h.1
      show (leftBy Listing.build m.listing).index = _
      unfold leftBy
      rw [hsame]
  zero := trivial
  wrap _ _ := trivial
  read _ _ _ _ := trivial
  assign h _ _ _ _ _ := h

/-- The first step leaves the index of its survey, even if the survey fails. -/
theorem surveyed_stepped (hstart : Cursor.start first.sheet = .ok first) (size : WordSize)
    (output : Output) (reports : Reports) :
    (surveyed first hstart).Holds (fresh first size output reports).stepped := by
  cases hbuild : Listing.build ⟨first, .empty⟩ with
  | error f failed =>
      have hstep := step_of_failed (m := fresh first size output reports) rfl hbuild
      have hsheet := Listing.sheet_of_failed (l := ⟨first, .empty⟩) hstart hbuild
      rw [stepped_eq_leftBy, leftBy, hstep]
      refine ⟨hsheet, ?_⟩
      rw [leftBy, hbuild]
      rfl
  | ok _ after =>
      have hreadable := Listing.readable_of_build (l := ⟨first, .empty⟩) hstart hbuild
      obtain ⟨index, hindexed, -, hwritable⟩ :=
        survey_of_readable (l := ⟨first, .empty⟩) hstart hreadable
      have hstep : step (fresh first size output reports) = step _ :=
        step_of_survey rfl hindexed hwritable
      have hbegun : (surveyed first hstart).Holds
          ((fresh first size output reports).begun ⟨first, index⟩) := by
        refine ⟨rfl, ?_⟩
        rw [leftBy, hindexed]
        rfl
      have hstepped := holds_stepped hbegun
      rw [stepped_eq_leftBy, leftBy, ← hstep] at hstepped
      rwa [stepped_eq_leftBy, leftBy]

theorem surveyed_called (hstart : Cursor.start first.sheet = .ok first) (size : WordSize)
    (output : Output) (reports : Reports) (count : Nat) :
    (surveyed first hstart).Holds ((fresh first size output reports).called (count + 1)) := by
  rw [← called_stepped]
  exact holds_called (surveyed_stepped hstart size output reports) count

/-- A text that can be read has one index, which holds its line numbers in ascending order.
Every survey of it, from wherever the cursor is and whatever the index was, comes to this
index and goes back to the first token of the first line; so a second survey comes to the
same. The first step leaves this index in the machine. In any text no later call and no jump,
from wherever the cursor is, changes the index that the first step has left. -/
theorem index_exact (sheet : Sheet) :
    (sheet.text.Readable →
      ∃ token index, sheet.tokenAt ⟨1, 0⟩ 0 = .ok token ∧ sheet.Indexed index ∧
        (∀ l : Listing, l.cursor.sheet = sheet →
          Listing.build l = .ok () ⟨⟨sheet, ⟨1, 0⟩, token⟩, index⟩) ∧
        ∀ size output reports, ∃ m, load sheet size output reports = .ok m ∧
          (m.called 1).index = index) ∧
      ∀ size output reports m, load sheet size output reports = .ok m → ∀ count,
        (m.called (count + 1)).index = (m.called 1).index ∧
          ∀ number c, c.sheet = sheet →
            (leftBy (jump number) ((m.called (count + 1)).movedTo c)).index =
              (m.called 1).index := by
  constructor
  · intro hreadable
    obtain ⟨first, index, hstart, hindexed, hbuild⟩ := Listing.exists_indexed hreadable
    have hsheet := Cursor.sheet_of_start hstart
    obtain ⟨l, n, hread, hfirst⟩ := Cursor.start_eq_ok hstart
    refine ⟨_, index, Sheet.tokenAt_of_read .first hread, hindexed, hfirst ▸ hbuild, ?_⟩
    intro size output reports
    refine ⟨_, load_of_start hstart size output reports, ?_⟩
    have hcalled := surveyed_called (hsheet.symm ▸ hstart) size output reports 0
    rw [hcalled.2, leftBy, hbuild _ hsheet]
  · intro size output reports m hload count
    obtain ⟨first, hstart, rfl⟩ := start_of_load hload
    obtain rfl := Cursor.sheet_of_start hstart
    have hfirst := (surveyed_called hstart size output reports 0).2
    have hlater := surveyed_called hstart size output reports count
    refine ⟨hlater.2.trans hfirst.symm, ?_⟩
    intro number c hsheet
    have hmoved : (surveyed first hstart).Holds
        (((fresh first size output reports).called (count + 1)).movedTo c) := ⟨hsheet, hlater.2⟩
    exact ((jump_keeps number).leaves hmoved).holds_leftBy.2.trans hfirst.symm

/-- The number in the remark is not recorded, nor is the one before the plus sign; the last
one is, since nothing follows it. -/
theorem index_exact_remark :
    let sheet : Sheet := ⟨"10 REM 30 \"\n20 GOTO 70\n15 40+050".toList, []⟩
    sheet.text.Readable ∧ sheet.Indexed ⟨[10, 20, 50, 70]⟩ ∧
      ∃ token, ∀ l : Listing, l.cursor.sheet = sheet →
        Listing.build l = .ok () ⟨⟨sheet, ⟨1, 0⟩, token⟩, ⟨[10, 20, 50, 70]⟩⟩ := by
  intro sheet
  let first : Cursor := ⟨sheet, .first, ⟨.number 10, 1, 1, 0, 2⟩⟩
  let m := fresh first ⟨16, by decide⟩ {} {}
  have hstart : Cursor.start m.listing.cursor.sheet = .ok first := rfl
  have hgoes : m.outcome = .ok true := by decide +kernel
  have hreadable : sheet.text.Readable := by
    cases hbuild : Listing.build m.listing with
    | ok _ after => exact Listing.readable_of_build hstart hbuild
    | error f failed =>
        unfold outcome at hgoes
        rw [step_of_failed rfl hbuild] at hgoes
        cases hgoes
  have hnumbers : (leftBy Listing.build m.listing).index = ⟨[10, 20, 50, 70]⟩ := by
    decide +kernel
  obtain ⟨token, index, -, hindexed, hbuild, -⟩ := (index_exact sheet).1 hreadable
  have hbuilt := hbuild m.listing rfl
  unfold leftBy at hnumbers
  rw [hbuilt] at hnumbers
  obtain rfl : index = ⟨[10, 20, 50, 70]⟩ := hnumbers
  exact ⟨hreadable, hindexed, token, hbuild⟩

end Machine

end LineBasic
