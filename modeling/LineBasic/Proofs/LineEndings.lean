import LineBasic.Proofs.CarriageReturns
import LineBasic.Proofs.LexicalSafety

/-!
# Line endings

A text whose line ends are written with a carriage return before them is run in
the same way: call by call there is the same answer or an error of the same text,
with the same output, registers, diagnostics and index, and the current token has
the same kind, value and line. Its column is the same too, but for the token of a
line end, which comes after the carriage return.

The two machines are coupled by matching cursors. A text that cannot be read is
treated first, since its failure quotes the line it is on.
-/
namespace LineBasic

def Coupling.lineEndings : Coupling where
  slack := False
  Rel c d := c.Matches d ∧ c.Sound ∧ d.Sound
  Edge c d := c.Matches d
  left h := h.2.1
  right h := h.2.2
  alike h := .inl h.1.read_eq.1
  line h := h.1.lineNumber?_eq true
  edge h := h.lineNumber?_eq false
  next := by
    rintro c d c' d' ⟨hm, hs, hs'⟩ hend hrem hc hd
    obtain ⟨c₁, hc₁, hsound, -⟩ := hs.next hend hrem
    obtain ⟨d₁, hd₁, hsound', -⟩ := hs'.next (hm.read_eq.1 ▸ hend) (hm.read_eq.1 ▸ hrem)
    cases hc.symm.trans hc₁
    cases hd.symm.trans hd₁
    rcases hm.next hend with ⟨c₂, d₂, hc₂, hd₂, hm₂⟩ | ⟨e, e', he, -, -⟩
    · cases hc.symm.trans hc₂
      cases hd.symm.trans hd₂
      exact ⟨⟨hm₂, hsound, hsound'⟩, fun _ => hm₂⟩
    · cases hc.symm.trans he
  finish := by
    rintro c d d' ⟨hm, -⟩ hend hline
    rw [hm.read_eq.1] at hline
    cases hend.symm.trans hline
  skip := by
    rintro c d c' d' ⟨hm, hs, hs'⟩ hend hc hd
    obtain ⟨c₁, hc₁, hsound, -⟩ := hs.skipLine hend
    obtain ⟨d₁, hd₁, hsound', -⟩ := hs'.skipLine (hm.read_eq.1 ▸ hend)
    cases hc.symm.trans hc₁
    cases hd.symm.trans hd₁
    rcases hm.skipLine hend with ⟨c₂, d₂, hc₂, hd₂, hm₂⟩ | ⟨e, e', he, -, -⟩
    · cases hc.symm.trans hc₂
      cases hd.symm.trans hd₂
      exact ⟨hm₂, hsound, hsound'⟩
    · cases hc.symm.trans he
  start := by
    rintro c d c' d' ⟨hm, hs, hs'⟩ hc hd
    obtain ⟨c₁, hc₁, hsound⟩ := hs.start
    obtain ⟨d₁, hd₁, hsound'⟩ := hs'.start
    cases hc.symm.trans hc₁
    cases hd.symm.trans hd₁
    rw [hm.sheet] at hd
    rcases Cursor.start_crlf c.sheet with ⟨c₂, d₂, hc₂, hd₂, hm₂⟩ | ⟨e, e', he, -, -⟩
    · cases hc.symm.trans hc₂
      cases hd.symm.trans hd₂
      exact ⟨hm₂, hsound, hsound'⟩
    · cases hc.symm.trans he

/-- Tokens as they are shown: of one kind and value and on one line, and in one column
but for line ends. -/
structure Token.Shows (t u : Token) : Prop where
  lexeme : u.lexeme = t.lexeme
  line : u.line = t.line
  column : u.column = t.column + if t.lexeme = .lineEnd then 1 else 0

theorem Cursor.Matches.shows {c d : Cursor} (h : c.Matches d) : c.token.Shows d.token := by
  refine ⟨h.read_eq.1, h.line, ?_⟩
  rw [h.column, h.lineEnds_eq]
  split <;> rfl

/-- The two surveys get through their texts, or fail at the same place. -/
theorem survey_crlf {fuel fuel' : Nat} {l r : Listing} (h : l.cursor.Matches r.cursor)
    (hindex : r.index = l.index) (hfuel : l.cursor.ahead.length < fuel)
    (hfuel' : r.cursor.ahead.length < fuel') :
    (∃ a a', iterate Listing.surveyToken fuel () l = .ok () a ∧
        iterate Listing.surveyToken fuel' () r = .ok () a') ∨
      ∃ e e' a a', iterate Listing.surveyToken fuel () l = .error e a ∧
        iterate Listing.surveyToken fuel' () r = .error e' a' ∧ Misread e e' ∧
        a'.index = a.index ∧ a.cursor.token.Shows a'.cursor.token := by
  induction fuel generalizing fuel' l r with
  | zero => omega
  | succ fuel ih =>
      obtain ⟨fuel', rfl⟩ : ∃ q, fuel' = q + 1 := ⟨fuel' - 1, by omega⟩
      have hlexeme := h.read_eq.1
      have hstep := l.surveyToken_eq
      have hstep' := r.surveyToken_eq
      rw [hlexeme] at hstep'
      by_cases hend : l.cursor.token.lexeme = .sourceEnd
      · rw [if_pos hend] at hstep hstep'
        exact .inl ⟨l, r, iterate_of_done hstep, iterate_of_done hstep'⟩
      · rw [if_neg hend] at hstep hstep'
        have hend' : r.cursor.token.lexeme ≠ .sourceEnd := hlexeme ▸ hend
        by_cases hrem : l.cursor.token.lexeme = .keyword .REM
        · rw [if_pos hrem] at hstep hstep'
          rcases h.skipLine hend with ⟨c, d, hc, hd, hm⟩ | ⟨e, e', hc, hd, hm⟩
          · rw [hc] at hstep
            rw [hd] at hstep'
            have hless := h.left.length_skipLine hend hc
            have hless' := h.right.length_skipLine hend' hd
            rw [iterate_of_again hstep, iterate_of_again hstep']
            exact ih hm hindex (by simp only; omega) (by simp only; omega)
          · rw [hc] at hstep
            rw [hd] at hstep'
            exact .inr ⟨e, e', _, _, iterate_of_error hstep, iterate_of_error hstep', hm, hindex,
              h.shows⟩
        · rw [if_neg hrem] at hstep hstep'
          have hnoted : r.noted = l.noted := by
            unfold Listing.noted
            rw [h.lineNumber?_eq true, hindex]
          rcases h.next hend with ⟨c, d, hc, hd, hm⟩ | ⟨e, e', hc, hd, hm⟩
          · rw [hc] at hstep
            rw [hd] at hstep'
            have hless := h.left.length_next hend hc
            have hless' := h.right.length_next hend' hd
            rw [iterate_of_again hstep, iterate_of_again hstep']
            exact ih hm hnoted (by simp only; omega) (by simp only; omega)
          · rw [hc] at hstep
            rw [hd] at hstep'
            exact .inr ⟨e, e', _, _, iterate_of_error hstep, iterate_of_error hstep', hm, hnoted,
              h.shows⟩

/-- Faults of one kind and text. -/
def Fault.Told (f g : Fault) : Prop :=
  g = f ∨ ∃ e e', f = .error e ∧ g = .error e' ∧ e'.errorClass = e.errorClass ∧ e'.text = e.text

/-- Machines that look the same from outside, but for the columns of line ends. -/
structure Machine.Mirrors (m n : Machine) : Prop where
  output : n.output = m.output
  store : n.store = m.store
  reports : m.reports.Alike n.reports
  index : n.index = m.index
  finished : n.finished = m.finished
  token : m.cursor.token.Shows n.cursor.token

theorem Fault.Alike.told {f g : Fault} (h : f.Alike g) : f.Told g := by
  cases h with
  | error hc => exact .inr ⟨_, _, rfl, rfl, rfl, by simp [Error.text]⟩
  | _ => exact .inl rfl

theorem mirrors_of_paired {m n : Machine} {E : Cursor → Cursor → Prop}
    (h : Paired .lineEndings E m n) : m.Mirrors n :=
  ⟨h.output.symm, h.store.symm, h.reports, h.index.symm, h.finished.symm, h.cursor.1.shows⟩

namespace Misread

variable {e e' : Fault} {r s : Reports}

theorem text_eq (cause : Cause) (line column pos pos' : Int) (quoted : Text) :
    Error.text ⟨cause, some (.place line column pos), some quoted⟩ =
      Error.text ⟨cause, some (.place line column pos'), some quoted⟩ := by
  have hone : ∀ p : Int, p + 1 - p = 1 := by omega
  simp only [Error.text, Mark.place, Mark.pointer, hone]

theorem told (h : Misread e e') : e.Told e' := by
  cases h with
  | numeral f => exact .inl rfl
  | scan cause name line column pos pos' quoted =>
      exact .inr ⟨_, _, rfl, rfl, rfl, text_eq ..⟩

/-- A failed survey is recorded and shown in the same way. -/
theorem reports (h : Misread e e') (hr : r.Alike s) :
    ((r.scanNoted e).scanReported e).Alike ((s.scanNoted e').scanReported e') := by
  cases h with
  | numeral f => exact hr
  | scan cause name line column pos pos' quoted => exact (hr.noted _).reported (text_eq ..)

end Misread

/-- Machines on texts that cannot be read, before anything is executed. -/
structure Stuck (sheet : Sheet) (output : Output) (m n : Machine) : Prop where
  left : m.Untouched sheet output
  right : n.Untouched sheet.crlf output
  mirrors : m.Mirrors n

/-- Both surveys of a text that cannot be read fail at the same place. -/
theorem build_crlf {c d : Cursor} (hc : Cursor.start c.sheet = .ok c)
    (hd : Cursor.start d.sheet = .ok d) (hm : c.Matches d) (hnot : ¬ c.sheet.text.Readable) :
    ∃ e e' a a', Listing.build ⟨c, .empty⟩ = .error e a ∧
      Listing.build ⟨d, .empty⟩ = .error e' a' ∧ Misread e e' ∧ a'.index = a.index ∧
      a.cursor.token.Shows a'.cursor.token := by
  have hshort : ∀ e : Cursor, e.ahead.length < e.sheet.text.length + 1 := by
    intro e
    simp only [Cursor.ahead, List.length_drop]
    omega
  rcases survey_crlf (l := ⟨c, .empty⟩) (r := ⟨d, .empty⟩) hm rfl (hshort c) (hshort d) with
    ⟨a, -, hok, -⟩ | ⟨e, e', a, a', herror, herror', hrest⟩
  · rcases Listing.iterate_surveyToken _ ⟨c, .empty⟩ hm.left (hshort c) with
      ⟨-, -, -, hreadable, -⟩ | ⟨f, b, hfail, -⟩
    · rw [Cursor.ahead_of_start hc, Text.Readable.pastGap_iff] at hreadable
      exact absurd hreadable hnot
    · cases hok.symm.trans hfail
  · refine ⟨e, e', a, a', ?_, ?_, hrest⟩
    · rw [Listing.build_eq hc, herror]
    · rw [Listing.build_eq hd, herror']

theorem Stuck.step {sheet : Sheet} {output : Output} {m n : Machine} {c d : Cursor}
    (h : Stuck sheet output m n) (hc : Cursor.start sheet = .ok c)
    (hd : Cursor.start sheet.crlf = .ok d) (hm : c.Matches d) (hnot : ¬ sheet.text.Readable) :
    SameOutcome Fault.Told m.outcome n.outcome ∧ Stuck sheet output m.stepped n.stepped := by
  have hsheet := Cursor.sheet_of_start hc
  have hsheet' := Cursor.sheet_of_start hd
  obtain ⟨e, e', a, a', hfail, hfail', hmis, hindex, hshows⟩ :=
    build_crlf (hsheet ▸ hc) (hsheet' ▸ hd) hm (hsheet ▸ hnot)
  have hstep := Machine.step_of_failed h.left.started (h.left.build hc hfail)
  have hstep' := Machine.step_of_failed h.right.started (h.right.build hd hfail')
  have hleft : a.cursor.sheet = sheet :=
    (Listing.sheet_of_failed (l := ⟨c, .empty⟩) (hsheet ▸ hc) hfail).trans hsheet
  have hright : a'.cursor.sheet = sheet.crlf :=
    (Listing.sheet_of_failed (l := ⟨d, .empty⟩) (hsheet' ▸ hd) hfail').trans hsheet'
  unfold Machine.outcome Machine.stepped
  rw [hstep, hstep']
  refine ⟨.error hmis.told, { h.left with sheet := hleft }, { h.right with sheet := hright }, ?_⟩
  have hmirrors := h.mirrors
  exact { hmirrors with
    reports := hmis.reports (hmirrors.reports.noted _)
    index := hindex
    token := hshows }

namespace Machine

/-- What comes of loading a text and the same text with carriage returns: both fail in
the same way, or both run in the same way through all calls. -/
inductive RunsAlike : Except (Fault × Reports) Machine → Except (Fault × Reports) Machine → Prop
  | failed {f g : Fault} {r s : Reports} : f.Told g → r.Alike s →
      RunsAlike (.error (f, r)) (.error (g, s))
  | loaded {m n : Machine} :
      (∀ count, SameOutcome Fault.Told (m.call count) (n.call count) ∧
        (m.called count).Mirrors (n.called count)) →
      RunsAlike (.ok m) (.ok n)

/-- Carriage returns before line ends change nothing but the columns of line ends. -/
theorem runsAlike_crlf (sheet : Sheet) (size : WordSize) (output : Output) (reports : Reports) :
    RunsAlike (load sheet size output reports) (load sheet.crlf size output reports) := by
  have hreports : reports.Alike reports := ⟨rfl, rfl, rfl, rfl, rfl⟩
  rcases Cursor.start_crlf sheet with ⟨c, d, hc, hd, hm⟩ | ⟨e, e', he, he', hmis⟩
  · rw [load_of_start hc, load_of_start hd]
    obtain rfl := Cursor.sheet_of_start hc
    by_cases hreadable : c.sheet.text.Readable
    · have hsound' : d.Sound := by
        have hsheet' := Cursor.sheet_of_start hd
        apply Cursor.sound_of_start (hsheet'.symm ▸ hd)
        rw [hsheet']
        exact hreadable.crlf
      obtain ⟨m, n, hm₁, hn₁, hpaired⟩ := begun_agree (k := .lineEndings)
        ⟨hm, Cursor.sound_of_start hc hreadable, hsound'⟩ hc (hm.sheet.symm ▸ hd) size output
        reports
      refine .loaded fun count => ⟨?_, ?_⟩
      · rw [(called_of_step_eq hm₁ count).1, (called_of_step_eq hn₁ count).1]
        have hcall := call_agree id hpaired count
        generalize m.call count = r at hcall ⊢
        generalize n.call count = s at hcall ⊢
        cases hcall with
        | ok more => exact .ok more
        | error hf => exact .error hf.told
      · cases count with
        | zero => exact ⟨rfl, rfl, hreports, rfl, rfl, hm.shows⟩
        | succ count =>
            rw [(called_of_step_eq hm₁ count).2, (called_of_step_eq hn₁ count).2]
            exact mirrors_of_paired (called_agree id hpaired (count + 1))
    · have hstuck : Stuck c.sheet output (fresh c size output reports)
          (fresh d size output reports) :=
        ⟨untouched_fresh, hm.sheet ▸ untouched_fresh, rfl, rfl, hreports, rfl, rfl, hm.shows⟩
      have hcalled : ∀ count, Stuck c.sheet output ((fresh c size output reports).called count)
          ((fresh d size output reports).called count) := by
        intro count
        induction count with
        | zero => exact hstuck
        | succ count ih => exact (ih.step hc hd hm hreadable).2
      exact .loaded fun count =>
        ⟨((hcalled count).step hc hd hm hreadable).1, (hcalled count).mirrors⟩
  · rw [load_of_fault he, load_of_fault he']
    exact .failed hmis.told (hmis.reports hreports)

/-- The columns of line ends do differ: after the assignment both machines are at the
end of the line, in columns thirteen and fourteen. -/
theorem column_crlf_ne :
    ¬ ∀ (sheet : Sheet) (size : WordSize) (output : Output) (reports : Reports) (m n : Machine)
      (count : Nat), '\r' ∉ sheet.text → load sheet size output reports = .ok m →
        load sheet.crlf size output reports = .ok n →
          (n.called count).cursor.token.column = (m.called count).cursor.token.column := by
  intro h
  have hsame := h ⟨['1', '0', ' ', 'L', 'E', 'T', ' ', 'A', ' ', '=', ' ', '1', '\n'], []⟩
    ⟨16, by decide⟩ {} {} _ _ 1 (by decide) rfl rfl
  exact absurd hsame (by decide +kernel)

end Machine

end LineBasic
