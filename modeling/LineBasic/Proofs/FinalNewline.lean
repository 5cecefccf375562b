import LineBasic.Proofs.Breaks
import LineBasic.Proofs.Calls

/-!
# A final newline

A run that comes to its end does so as well when a line end is added to its text,
with the same output and the same registers. There is one exception: a line-like
number at the very end of the text, right after something that a printed line may
have before an item, is printed there, but with a line end behind it it is a line
number and ends the printed line.

The two machines are coupled with slack: at the end of the shorter text the other
one still has the line end ahead of it.
-/
namespace LineBasic

namespace Text

/-- The last token is a line-like number that may be an item of a printed line. -/
def TrailingNumber (t : Text) : Prop :=
  ∃ u l n value, t.Visits u ∧ Lexeme.read u = .ok (l, n) ∧ l.kind.endsItem = true ∧
    Lexeme.read (pastGap (u.drop n)) = .ok (.number value, (pastGap (u.drop n)).length) ∧
    Cursor.isLineNumber value = true

theorem pastGap_newline (t : Text) : pastGap (t ++ ['\n']) = t.pastGap ++ ['\n'] := by
  rw [pastGap_append]
  split
  · rename_i hnil
    rw [hnil]
    rfl
  · rfl

theorem read_newline {t : Text} (h : t ≠ []) : Lexeme.read (t ++ ['\n']) = Lexeme.read t := by
  obtain ⟨line, x, rfl, hline, hx⟩ := t.exists_line
  by_cases hne : line = []
  · subst hne
    rcases hx with rfl | ⟨rest, rfl⟩
    · exact absurd rfl h
    · rfl
  · rcases hx with rfl | ⟨rest, rfl⟩
    · rw [List.append_nil]
      exact (Break.line []).read_append hline hne
    · rw [List.append_assoc, List.cons_append, (Break.line _).read_append hline hne,
        (Break.line _).read_append hline hne]

theorem afterLine_newline (t : Text) :
    ('\n' ∈ t ∧ afterLine (t ++ ['\n']) = t.afterLine ++ ['\n']) ∨
      ('\n' ∉ t ∧ afterLine (t ++ ['\n']) = [] ∧ t.afterLine = []) := by
  obtain ⟨line, x, rfl, hline, hx⟩ := t.exists_line
  rw [List.append_assoc, afterLine_append hline, afterLine_append hline]
  rcases hx with rfl | ⟨rest, rfl⟩
  · refine .inr ⟨by simpa using hline, rfl, rfl⟩
  · refine .inl ⟨by simp, rfl⟩

theorem Readable.newline {t : Text} (h : t.Readable) : Readable (t ++ ['\n']) := by
  have hone : ∀ u : Text, u.pastGap = [] → Readable (u ++ ['\n']) := by
    intro u hu
    refine .token (l := .lineEnd) (n := 1) ?_ (by simp) (by simp) ?_
    · rw [pastGap_newline, hu]
      rfl
    · rw [pastGap_newline, hu]
      exact .done rfl
  induction h with
  | @done t he => exact hone t he
  | @token t l n hr hend hrem _ ih =>
      have hs := Lexeme.read_spans hr
      have hne : t.pastGap ≠ [] := fun he => hend (hs.ending.2 he)
      refine .token (l := l) (n := n) ?_ hend hrem ?_
      · rw [pastGap_newline, read_newline hne, hr]
      · rwa [pastGap_newline, List.drop_append_of_le_length hs.le]
  | @remark t n hr _ ih =>
      have hs := Lexeme.read_spans hr
      have hne : t.pastGap ≠ [] := fun he => by simpa using hs.ending.2 he
      refine .remark (n := n) ?_ ?_
      · rw [pastGap_newline, read_newline hne, hr]
      · rw [pastGap_newline]
        rcases t.pastGap.afterLine_newline with ⟨-, hline⟩ | ⟨-, hline, -⟩
        · rw [hline]
          exact ih
        · rw [hline]
          exact .done rfl

end Text

/-- Cursors on a text and on the text with a final newline: the same is ahead of them
but for the newline, or both are at their ends. -/
structure Cursor.Trails (c d : Cursor) : Prop where
  text : d.sheet.text = c.sheet.text ++ ['\n']
  tidy : ¬ c.sheet.text.TrailingNumber
  left : c.Sound
  right : d.Sound
  visited : c.sheet.text.Visits c.ahead
  ahead : d.ahead = c.ahead ++ ['\n'] ∨ (c.ahead = [] ∧ d.ahead = [])

namespace Cursor.Trails

variable {c d c' d' : Cursor}

theorem ahead_of_ne (h : c.Trails d) (hend : c.token.lexeme ≠ .sourceEnd) :
    d.ahead = c.ahead ++ ['\n'] := by
  rcases h.ahead with hahead | ⟨hnil, -⟩
  · exact hahead
  · exact absurd (h.left.spans.ending.2 hnil) hend

theorem read_eq (h : c.Trails d) (hend : c.token.lexeme ≠ .sourceEnd) :
    d.token.lexeme = c.token.lexeme ∧ d.behind = c.behind ++ ['\n'] := by
  have hahead := h.ahead_of_ne hend
  have hne : c.ahead ≠ [] := fun he => hend (h.left.spans.ending.2 he)
  have hread := h.right.here
  rw [hahead, Text.read_newline hne, h.left.here] at hread
  simp only [Except.ok.injEq, Prod.mk.injEq] at hread
  refine ⟨hread.1.symm, ?_⟩
  rw [h.right.behind_eq, h.left.behind_eq, ← hread.2, hahead,
    List.drop_append_of_le_length h.left.spans.le]

theorem alike (h : c.Trails d) : Lexeme.Alike True c.token.lexeme d.token.lexeme := by
  by_cases hend : c.token.lexeme = .sourceEnd
  · rcases h.ahead with hahead | ⟨-, hnil⟩
    · rw [h.left.spans.ending.1 hend] at hahead
      have hread := h.right.here
      rw [hahead] at hread
      have hl : d.token.lexeme = .lineEnd :=
        (congrArg (fun r => r.1) (Except.ok.inj hread)).symm
      exact .inr (.inr ⟨trivial, hend, hl⟩)
    · exact .inl ((h.right.spans.ending.2 hnil).trans hend.symm)
  · exact .inl (h.read_eq hend).1

/-- Line numbers agree, unless the end of the text matters and is there. -/
theorem lineNumber?_eq (h : c.Trails d) {atEnd : Bool} (hat : atEnd = true ∨ c.behind ≠ []) :
    c.lineNumber? atEnd = d.lineNumber? atEnd := by
  by_cases hend : c.token.lexeme = .sourceEnd
  · have hd : ∀ value, d.token.lexeme ≠ .number value := by
      intro value hl
      rcases h.alike with ha | ⟨a, b, ha, -, -⟩ | ⟨-, -, ha⟩
      · simp [hl, hend] at ha
      · simp [hend] at ha
      · simp [hl] at ha
    unfold Cursor.lineNumber?
    rw [hend]
    generalize d.token.lexeme = l at hd
    cases l with
    | number value => exact absurd rfl (hd value)
    | _ => rfl
  · obtain ⟨hlexeme, hbehind⟩ := h.read_eq hend
    have hcloses : d.closes atEnd = c.closes atEnd := by
      rw [Cursor.closes_eq, Cursor.closes_eq, hbehind]
      cases hb : c.behind with
      | nil =>
          rw [hb] at hat
          rcases hat with rfl | hne
          · rfl
          · exact absurd rfl hne
      | cons follower rest => rfl
    unfold Cursor.lineNumber?
    rw [hlexeme, hcloses]

theorem number_of_right (h : c.Trails d) {value : Nat} (hl : d.token.lexeme = .number value) :
    c.token.lexeme = .number value := by
  rcases h.alike with ha | ⟨a, b, -, ha, -⟩ | ⟨-, -, ha⟩
  · exact ha.symm.trans hl
  · exact absurd (ha.symm.trans hl) (by simp)
  · exact absurd (ha.symm.trans hl) (by simp)

/-- Behind what may come before an item there is no line-like number at the end. -/
theorem edge (h : c.Trails d) (hitem : c.token.kind.endsItem = true) (h' : c'.Trails d')
    (hahead : c'.ahead = c.behind.pastGap) :
    c'.lineNumber? false = d'.lineNumber? false := by
  by_cases hbehind : c'.behind = []
  · have hplain : ∀ value, c'.token.lexeme = .number value →
        Cursor.isLineNumber value = false := by
      intro value hl
      rw [← Bool.not_eq_true]
      intro hline
      refine h.tidy ⟨c.ahead, _, _, value, h.visited, h.left.here, hitem, ?_, hline⟩
      have hlength : c'.token.stop - c'.token.start = c'.ahead.length := by
        have hle := h'.left.spans.le
        rw [h'.left.behind_eq, List.drop_eq_nil_iff] at hbehind
        omega
      rw [← h.left.behind_eq, ← hahead, h'.left.here, hl, hlength]
    have hnone : ∀ e : Cursor, (∀ value, e.token.lexeme = .number value →
        Cursor.isLineNumber value = false) → e.lineNumber? false = none := by
      intro e he
      cases hv : e.lineNumber? false with
      | none => rfl
      | some value =>
          obtain ⟨hl, hline, -⟩ := Cursor.lineNumber?_eq_some.1 hv
          rw [he value hl] at hline
          cases hline
    rw [hnone c' hplain, hnone d' fun value hl => hplain value (h'.number_of_right hl)]
  · exact h'.lineNumber?_eq (.inr hbehind)

theorem next (h : c.Trails d) (hend : c.token.lexeme ≠ .sourceEnd)
    (hrem : c.token.lexeme ≠ .keyword .REM) (hc : Cursor.next c = .ok () c')
    (hd : Cursor.next d = .ok () d') : c'.Trails d' ∧ c'.ahead = c.behind.pastGap := by
  obtain ⟨hlexeme, hbehind⟩ := h.read_eq hend
  obtain ⟨c₁, hc₁, hsound, hsheet, hahead, -⟩ := h.left.next hend hrem
  obtain ⟨d₁, hd₁, hsound', hsheet', hahead', -⟩ :=
    h.right.next (hlexeme ▸ hend) (hlexeme ▸ hrem)
  cases hc.symm.trans hc₁
  cases hd.symm.trans hd₁
  refine ⟨⟨?_, ?_, hsound, hsound', ?_, .inl ?_⟩, hahead⟩
  · rw [hsheet, hsheet', h.text]
  · rw [hsheet]
    exact h.tidy
  · rw [hsheet, hahead, h.left.behind_eq]
    exact h.visited.token h.left.here hrem
  · rw [hahead', hahead, hbehind, Text.pastGap_newline]

theorem skipLine (h : c.Trails d) (hend : c.token.lexeme ≠ .sourceEnd)
    (hc : Cursor.skipLine c = .ok () c') (hd : Cursor.skipLine d = .ok () d') : c'.Trails d' := by
  obtain ⟨hlexeme, -⟩ := h.read_eq hend
  obtain ⟨c₁, hc₁, hsound, hsheet, hahead, -⟩ := h.left.skipLine hend
  obtain ⟨d₁, hd₁, hsound', hsheet', hahead', -⟩ := h.right.skipLine (hlexeme ▸ hend)
  cases hc.symm.trans hc₁
  cases hd.symm.trans hd₁
  refine ⟨?_, ?_, hsound, hsound', ?_, ?_⟩
  · rw [hsheet, hsheet', h.text]
  · rw [hsheet]
    exact h.tidy
  · rw [hsheet, hahead]
    apply Text.Visits.afterLine h.left.onward
    rw [h.left.settled]
    exact h.visited
  · rw [hahead', hahead, h.ahead_of_ne hend]
    rcases c.ahead.afterLine_newline with ⟨-, hline⟩ | ⟨-, hline, hline'⟩
    · rw [hline, Text.pastGap_newline]
      exact .inl rfl
    · rw [hline, hline']
      exact .inr ⟨rfl, rfl⟩

/-- Behind the final newline both cursors are at their ends. -/
theorem finish (h : c.Trails d) (hend : c.token.lexeme = .sourceEnd)
    (hline : d.token.lexeme = .lineEnd) (hd : Cursor.next d = .ok () d') :
    c.Trails d' ∧ d'.token.lexeme = .sourceEnd := by
  obtain ⟨d₁, hd₁, hsound', hsheet', hahead', -⟩ := h.right.next (by simp [hline]) (by simp [hline])
  cases hd.symm.trans hd₁
  have hnil := h.left.spans.ending.1 hend
  have hnil' : d'.ahead = [] := by
    obtain ⟨rest, hrest, hlength⟩ := h.right.spans.lineEnd hline
    rcases h.ahead with hahead | ⟨-, hahead⟩
    · rw [hnil, List.nil_append] at hahead
      rw [hahead', h.right.behind_eq, hlength, hahead]
      rfl
    · exact absurd (hahead.symm.trans hrest) (by simp)
  refine ⟨⟨?_, h.tidy, h.left, hsound', h.visited, .inr ⟨hnil, hnil'⟩⟩,
    hsound'.spans.ending.2 hnil'⟩
  rw [hsheet', h.text]

theorem of_start {first last : Cursor} (htext : d.sheet.text = c.sheet.text ++ ['\n'])
    (htidy : ¬ c.sheet.text.TrailingNumber) (hreadable : c.sheet.text.Readable)
    (hc : Cursor.start c.sheet = .ok first) (hd : Cursor.start d.sheet = .ok last) :
    first.Trails last := by
  have hsheet := Cursor.sheet_of_start hc
  have hsheet' := Cursor.sheet_of_start hd
  rw [← hsheet] at htext htidy hreadable hc
  rw [← hsheet'] at htext hd
  have hahead := Cursor.ahead_of_start hc
  have hahead' := Cursor.ahead_of_start hd
  refine ⟨htext, htidy, Cursor.sound_of_start hc hreadable,
    Cursor.sound_of_start hd (htext ▸ hreadable.newline), ?_, .inl ?_⟩
  · rw [hahead]
    exact .first
  · rw [hahead', hahead, htext, Text.pastGap_newline]

end Cursor.Trails

def Coupling.finalNewline : Coupling where
  slack := True
  Rel c d := c.Trails d
  Edge c d := c.lineNumber? false = d.lineNumber? false
  left h := h.left
  right h := h.right
  alike h := h.alike
  line h := h.lineNumber?_eq (.inl rfl)
  edge h := h
  next := by
    intro c d c' d' h hend hrem hc hd
    obtain ⟨h', hahead⟩ := h.next hend hrem hc hd
    exact ⟨h', fun hitem => h.edge hitem h' hahead⟩
  finish h hend hline hd := h.finish hend hline hd
  skip h hend hc hd := h.skipLine hend hc hd
  start h hc hd := .of_start h.text h.tidy h.left.whole hc hd

namespace Machine

theorem step_of_end {m : Machine} (hstarted : m.started = true) (hfinished : m.finished = false)
    (hend : m.cursor.token.lexeme = .sourceEnd) :
    step m = .ok false { m with finished := true } := by
  rw [step_apply, stepBody_apply, if_pos hstarted, stepStarted_apply,
    if_neg (by simp [hfinished]), bind_of_ok (lineStatement_of_end hend)]
  rfl

theorem steps_of_step_eq {m n : Machine} (h : step m = step n) (bound : Nat) :
    steps (bound + 1) m = steps (bound + 1) n := by
  unfold steps
  rw [bind_apply, bind_apply, h]

theorem steps_of_last {m m' : Machine} (h : step m = .ok false m') (bound : Nat) :
    steps (bound + 1) m = .ok false m' := by
  unfold steps
  rw [bind_of_ok h]
  rfl

theorem steps_of_more {m m' : Machine} (h : step m = .ok true m') (bound : Nat) :
    steps (bound + 1) m = steps bound m' := by
  conv => lhs; unfold steps
  rw [bind_of_ok h]
  rfl

/-- A run that comes to its end takes every coupled machine to its own. -/
theorem steps_agree {k : Coupling} {m n m' : Machine} {bound : Nat}
    (h : Paired k Anywhere m n) (hrun : steps bound m = .ok false m') :
    ∃ bound' n', steps (bound' + 1) n = .ok false n' ∧ n'.output = m'.output ∧
      n'.store = m'.store := by
  induction bound generalizing m n with
  | zero => cases hrun
  | succ bound ih =>
      have hstep := step_agree h
      cases hm : step m with
      | error f m₁ =>
          unfold steps at hrun
          rw [bind_of_error hm] at hrun
          cases hrun
      | ok more m₁ =>
          rw [hm] at hstep
          cases hn : step n with
          | error g n₁ =>
              rw [hn] at hstep
              cases hstep
          | ok more' n₁ =>
              rw [hn] at hstep
              obtain ⟨hmore, hmore', hp | ht⟩ : Stepped k more more' m₁ n₁ := by
                cases hstep with
                | ok hpost => exact hpost
              · have hsame : more' = more := by rw [hmore, hmore', hp.finished]
                subst hsame
                cases more' with
                | true =>
                    rw [steps_of_more hm] at hrun
                    obtain ⟨bound', n', hrun', hrest⟩ := ih hp hrun
                    exact ⟨bound' + 1, n', (steps_of_more hn _).trans hrun', hrest⟩
                | false =>
                    cases (steps_of_last hm bound).symm.trans hrun
                    exact ⟨0, n₁, steps_of_last hn 0, hp.output.symm, hp.store.symm⟩
              · -- The right machine may still have to find that it is at the end.
                have hlast : more = false := by rw [hmore, ht.left]; rfl
                subst hlast
                cases (steps_of_last hm bound).symm.trans hrun
                cases hfinished : n₁.finished with
                | true =>
                    rw [hfinished] at hmore'
                    subst hmore'
                    exact ⟨0, n₁, steps_of_last hn 0, ht.paired.output.symm,
                      ht.paired.store.symm⟩
                | false =>
                    rw [hfinished] at hmore'
                    subst hmore'
                    have hend := step_of_end (m := n₁) ht.paired.started.2 hfinished ht.paired.extra
                    exact ⟨1, _, (steps_of_more hn 1).trans (steps_of_last hend 0),
                      ht.paired.output.symm, ht.paired.store.symm⟩

theorem run_apply (bound : Nat) (m : Machine) :
    run bound m = match steps bound { m with reports := m.reports.noted .runStarted } with
      | .ok true last => .error .stalled last
      | .ok false last => .ok () { last with reports := last.reports.noted .runEnded }
      | .error f last => .error f last := by
  unfold run beginRun
  rw [bind_of_ok (note_of_writable rfl m), bind_apply]
  cases steps bound { m with reports := m.reports.noted .runStarted } with
  | ok more last =>
      cases more with
      | true => rfl
      | false => exact note_of_writable rfl last
  | error f last => rfl

theorem steps_of_run {bound : Nat} {m m' : Machine} (h : run bound m = .ok () m') :
    ∃ last, steps bound { m with reports := m.reports.noted .runStarted } = .ok false last ∧
      m' = { last with reports := last.reports.noted .runEnded } := by
  rw [run_apply] at h
  cases hs : steps bound { m with reports := m.reports.noted .runStarted } with
  | ok more last =>
      rw [hs] at h
      cases more with
      | true => cases h
      | false =>
          cases h
          exact ⟨last, rfl, rfl⟩
  | error f last =>
      rw [hs] at h
      cases h

theorem run_of_steps {bound : Nat} {m last : Machine}
    (h : steps bound { m with reports := m.reports.noted .runStarted } = .ok false last) :
    run bound m = .ok () { last with reports := last.reports.noted .runEnded } := by
  rw [run_apply, h]

/-- A machine that comes to its end has a text that can be read. -/
theorem readable_of_steps {c : Cursor} {size : WordSize} {output : Output} {reports : Reports}
    {bound : Nat} {last : Machine} (hstart : Cursor.start c.sheet = .ok c)
    (h : steps bound (fresh c size output reports) = .ok false last) :
    c.sheet.text.Readable := by
  rcases Listing.build_outcome (l := ⟨c, .empty⟩) hstart with
    ⟨-, -, hreadable, -⟩ | ⟨f, surveyed, hfail, -⟩
  · exact hreadable
  · cases bound with
    | zero => cases h
    | succ bound =>
        have hstep := step_of_failed (m := fresh c size output reports) rfl hfail
        unfold steps at h
        rw [bind_of_error hstep] at h
        cases h

/-- A final newline takes nothing from a run that comes to its end. -/
theorem run_final_newline {text name : Text} {size : WordSize} {output : Output}
    {reports : Reports} {m m' : Machine} {bound : Nat} (htidy : ¬ text.TrailingNumber)
    (hload : load ⟨text, name⟩ size output reports = .ok m) (hrun : run bound m = .ok () m') :
    ∃ n bound' n', load ⟨text ++ ['\n'], name⟩ size output reports = .ok n ∧
      run bound' n = .ok () n' ∧ n'.output = m'.output ∧ n'.store = m'.store := by
  obtain ⟨c, hc, rfl⟩ := start_of_load hload
  obtain ⟨last, hsteps, rfl⟩ := steps_of_run hrun
  have hsheet := Cursor.sheet_of_start hc
  have hself : Cursor.start c.sheet = .ok c := hsheet.symm ▸ hc
  have hreadable : c.sheet.text.Readable := readable_of_steps hself hsteps
  have htext : c.sheet.text = text := by rw [hsheet]
  obtain ⟨d, hd, -⟩ := Cursor.start_of_readable ⟨text ++ ['\n'], name⟩
    (htext ▸ hreadable.newline)
  have hsheet' := Cursor.sheet_of_start hd
  have hself' : Cursor.start d.sheet = .ok d := hsheet'.symm ▸ hd
  have htrails : c.Trails d :=
    .of_start (by rw [hsheet', hsheet]) (htext.symm ▸ htidy) hreadable hself hself'
  obtain ⟨m, n, hm, hn, hpaired⟩ := begun_agree (k := .finalNewline) htrails hself hself' size
    output (reports.noted .runStarted)
  cases bound with
  | zero => cases hsteps
  | succ bound =>
      have hleft := (steps_of_step_eq hm bound).symm.trans hsteps
      obtain ⟨bound', n', hright, houtput, hstore⟩ := steps_agree hpaired hleft
      have hright' := run_of_steps (m := fresh d size output reports)
        ((steps_of_step_eq hn bound').trans hright)
      exact ⟨_, _, _, load_of_start hd size output reports, hright', houtput, hstore⟩

/-- Whether a run ends without an error, in a machine that passes a test. -/
def ends (bound : Nat) (test : Machine → Bool) (m : Machine) : Bool :=
  match run bound m with
  | .ok _ m' => test m'
  | .error _ _ => false

theorem exists_run_of_ends {bound : Nat} {test : Machine → Bool} {m : Machine}
    (h : m.ends bound test = true) : ∃ m', run bound m = .ok () m' ∧ test m' = true := by
  unfold ends at h
  cases hrun : run bound m with
  | ok _ m' =>
      rw [hrun] at h
      exact ⟨m', rfl, h⟩
  | error f m' =>
      rw [hrun] at h
      cases h

/-- The number of this line is no line number, so the newline changes nothing. -/
theorem run_final_newline_five :
    ∃ n bound n', load ⟨['P', 'R', 'I', 'N', 'T', ' ', '5', '\n'], []⟩ ⟨16, by decide⟩ {} {} = .ok n ∧
      run bound n = .ok () n' ∧ n'.output.text = ['5', '\n'] ∧ n'.store = .zero := by
  have htidy : ¬ Text.TrailingNumber ['P', 'R', 'I', 'N', 'T', ' ', '5'] := by
    rintro ⟨u, l, n, value, hvisits, hread, hitem, hnumber, hline⟩
    have hplaces : u = ['P', 'R', 'I', 'N', 'T', ' ', '5'] ∨ u = ['5'] ∨ u = [] := by
      rcases hvisits.first_or_behind (l := .keyword .PRINT) (n := 5) rfl with h | h
      · exact .inl h
      · rcases h.first_or_behind (l := .number 5) (n := 1) rfl with h | h
        · exact .inr (.inl h)
        · exact .inr (.inr (h.eq_nil rfl))
    rcases hplaces with rfl | rfl | rfl
    · cases hread
      cases hnumber
      cases hline
    · cases hread
      cases hnumber
    · cases hread
      cases hnumber
  let m := fresh ⟨⟨['P', 'R', 'I', 'N', 'T', ' ', '5'], []⟩, .first, ⟨.keyword .PRINT, 1, 1, 0, 5⟩⟩
    ⟨16, by decide⟩ {} {}
  have hends : m.ends 1 (fun m' => m'.output.text == ['5', '\n'] && m'.store == .zero) = true := by
    decide +kernel
  obtain ⟨m', hrun, hdone⟩ := exists_run_of_ends hends
  simp only [Bool.and_eq_true, beq_iff_eq] at hdone
  obtain ⟨n, bound, n', hload, hright, houtput, hstore⟩ := run_final_newline htidy rfl hrun
  exact ⟨n, bound, n', hload, hright, by rw [houtput, hdone.1], by rw [hstore, hdone.2]⟩

theorem step_of_answer {m : Machine} {more : Bool} (h : m.outcome.toOption = some more) :
    step m = .ok more m.stepped := by
  unfold outcome at h
  unfold stepped
  cases hs : step m with
  | ok again after =>
      rw [hs] at h
      cases h
      rfl
  | error f after =>
      rw [hs] at h
      cases h

theorem step_of_no_answer {m : Machine} (h : m.outcome.toOption = none) :
    ∃ f, step m = .error f m.stepped := by
  unfold outcome at h
  unfold stepped
  cases hs : step m with
  | ok again after =>
      rw [hs] at h
      cases h
  | error f after => exact ⟨f, rfl⟩

/-- A trailing number is printed, but with a newline behind it it is the number of a
line that has no statement. -/
theorem final_newline_fails :
    ¬ ∀ (text name : Text) (size : WordSize) (output : Output) (reports : Reports)
      (m m' : Machine) (bound : Nat), text.getLast? ≠ some '\n' →
        load ⟨text, name⟩ size output reports = .ok m → run bound m = .ok () m' →
          ∃ n bound' n', load ⟨text ++ ['\n'], name⟩ size output reports = .ok n ∧
            run bound' n = .ok () n' ∧ n'.output = m'.output ∧ n'.store = m'.store := by
  intro h
  let m := fresh ⟨⟨['P', 'R', 'I', 'N', 'T', ' ', '1', '0'], []⟩, .first,
    ⟨.keyword .PRINT, 1, 1, 0, 5⟩⟩ ⟨16, by decide⟩ {} {}
  let n := fresh ⟨⟨['P', 'R', 'I', 'N', 'T', ' ', '1', '0', '\n'], []⟩, .first,
    ⟨.keyword .PRINT, 1, 1, 0, 5⟩⟩ ⟨16, by decide⟩ {} (Reports.noted {} .runStarted)
  have hends : m.ends 1 (fun _ => true) = true := by decide +kernel
  obtain ⟨m', hrun, -⟩ := exists_run_of_ends hends
  have hstuck : ∀ bound last, steps bound n ≠ .ok false last := by
    have hfirst : n.outcome.toOption = some true := by decide +kernel
    have hsecond : n.stepped.outcome.toOption = none := by decide +kernel
    obtain ⟨f, hfault⟩ := step_of_no_answer hsecond
    intro bound last hsteps
    cases bound with
    | zero => cases hsteps
    | succ bound =>
        rw [steps_of_more (step_of_answer hfirst)] at hsteps
        cases bound with
        | zero => cases hsteps
        | succ bound =>
            unfold steps at hsteps
            rw [bind_of_error hfault] at hsteps
            cases hsteps
  obtain ⟨loaded, bound, n', hload, hright, -⟩ :=
    h ['P', 'R', 'I', 'N', 'T', ' ', '1', '0'] _ _ _ _ _ _ _ (by decide) rfl hrun
  cases hload
  obtain ⟨last, hsteps, -⟩ := steps_of_run hright
  exact hstuck bound last hsteps

end Machine

end LineBasic
