import LineBasic.Machine.Fate
import LineBasic.Proofs.ForwardJumps
import LineBasic.Proofs.Inertness
import LineBasic.Proofs.Reporting

/-!
# How programs end

A program that is loaded and run comes to its end or to a fault, unless it goes on for
longer than it is allowed to. Each fault has its reason in what the program was given. An
error is the last thing shown, and only warnings are shown before it. A numeral that cannot
be read stands in the text, at the first place where reading stops, and then nothing is
executed. A number too long to be written needs wide words. No register is ever refused.
A program is interrupted if an interrupt strikes before its end, or at a write for which an
alarm is set, and not otherwise.
-/
namespace LineBasic

namespace Text

/-- Reading comes to a place where no lexeme starts. -/
def Stops (t : Text) (f : Lexeme.Fault) : Prop := ∃ u, t.Visits u ∧ Lexeme.read u = .error f

namespace Visits

variable {t u v : Text} {l : Lexeme} {n : Nat} {f : Lexeme.Fault}

theorem settled (h : t.Visits u) : u.pastGap = u := by
  cases h <;> exact pastGap_pastGap _

theorem eq_of_fault (hr : Lexeme.read t.pastGap = .error f) (h : t.Visits u) :
    u = t.pastGap := by
  induction h with
  | first => rfl
  | token _ hr' _ ih =>
      rw [ih, hr] at hr'
      cases hr'
  | remark _ hr' ih =>
      rw [ih, hr] at hr'
      cases hr'

/-- Where reading stops is ahead of every place that it comes to. -/
theorem ahead (h : t.Visits u) (hr : Lexeme.read u = .error f) (hv : t.Visits v) :
    v.Visits u := by
  have hbehind : ∀ {w : Text} {l : Lexeme} {n : Nat}, t.Visits w →
      Lexeme.read w = .ok (l, n) → w.Visits u →
        Visits (if l = .keyword .REM then w.afterLine else w.drop n) u := by
    intro w l n hw hread hahead
    have hsettled := hw.settled
    rw [← hsettled] at hread
    rcases hahead.first_or_behind hread with rfl | hrest
    · cases hr.symm.trans hread
    · rwa [hsettled] at hrest
  induction hv with
  | first => exact pastGap_iff.2 h
  | token hw hread hrem ih =>
      have hrest := hbehind hw hread ih
      rw [if_neg hrem] at hrest
      exact pastGap_iff.2 hrest
  | remark hw hread ih =>
      have hrest := hbehind hw hread ih
      rw [if_pos rfl] at hrest
      exact pastGap_iff.2 hrest

end Visits

namespace Stops

variable {t : Text} {f g : Lexeme.Fault}

theorem of_rest {l : Lexeme} {n : Nat} (hr : Lexeme.read t.pastGap = .ok (l, n))
    (h : Stops (if l = .keyword .REM then t.pastGap.afterLine else t.pastGap.drop n) f) :
    t.Stops f := by
  obtain ⟨u, hu, hfault⟩ := h
  refine ⟨u, ?_, hfault⟩
  by_cases hrem : l = .keyword .REM
  · subst hrem
    exact .of_remark hr (by simpa using hu)
  · exact .of_token hr hrem (by simpa [hrem] using hu)

/-- Reading stops at one place and for one reason. -/
theorem unique (h : t.Stops f) (h' : t.Stops g) : g = f := by
  obtain ⟨u, hu, hf⟩ := h
  obtain ⟨v, hv, hg⟩ := h'
  have hvisits := hu.ahead hf hv
  rw [← hv.settled] at hg
  have hsame := hvisits.eq_of_fault hg
  rw [← hsame, hf] at hg
  cases hg
  rfl

theorem not_readable (h : t.Stops f) : ¬ t.Readable := by
  obtain ⟨u, hu, hf⟩ := h
  intro hreadable
  induction hreadable with
  | done hend =>
      rw [hu.eq_nil hend] at hf
      cases hf
  | token hr _ hrem _ ih =>
      rcases hu.first_or_behind hr with rfl | hrest
      · cases hr.symm.trans hf
      · rw [if_neg hrem] at hrest
        exact ih hrest
  | remark hr _ ih =>
      rcases hu.first_or_behind hr with rfl | hrest
      · cases hr.symm.trans hf
      · rw [if_pos rfl] at hrest
        exact ih hrest

theorem pastGap_iff : t.pastGap.Stops f ↔ t.Stops f := by
  simp only [Stops, Visits.pastGap_iff]

end Stops

end Text

namespace Sheet

/-- The fault is that of the place where reading the sheet stops. -/
def Stops (sheet : Sheet) (t : Text) (fault : Fault) : Prop :=
  ∃ origin pos f, fault = sheet.fault origin pos f ∧ t.Stops f

theorem Stops.of_numeral {sheet : Sheet} {t : Text} {nf : Numeral.Fault}
    (h : sheet.Stops t (.numeral nf)) : t.Stops (.numeral nf) := by
  obtain ⟨origin, pos, f, hfault, hstops⟩ := h
  cases f with
  | numeral => cases hfault; exact hstops
  | unterminatedString | unexpectedCharacter => cases hfault

theorem Stops.eq_numeral {sheet : Sheet} {t : Text} {fault : Fault} {nf : Numeral.Fault}
    (h : sheet.Stops t fault) (hstops : t.Stops (.numeral nf)) : fault = .numeral nf := by
  obtain ⟨origin, pos, f, rfl, hf⟩ := h
  rw [hstops.unique hf]
  rfl

end Sheet

theorem Cursor.stops_of_start {sheet : Sheet} {fault : Fault}
    (h : Cursor.start sheet = .error fault) : sheet.Stops sheet.text fault := by
  cases hr : Lexeme.read sheet.text.pastGap with
  | ok found =>
      rw [Cursor.start_of_read hr] at h
      cases h
  | error f =>
      have hfirst : sheet.tokenAt .first 0 = .error (sheet.fault .first 0 f) :=
        Sheet.tokenAt_of_fault .first hr
      unfold Cursor.start at h
      rw [hfirst] at h
      cases h
      exact ⟨.first, 0, f, rfl, _, .first, hr⟩

namespace Listing

theorem stops_of_survey (fuel : Nat) (l : Listing) (hp : l.cursor.Placed)
    (hfuel : l.cursor.ahead.length < fuel) {fault : Fault} {after : Listing}
    (h : iterate surveyToken fuel () l = .error fault after) :
    l.cursor.sheet.Stops l.cursor.ahead fault := by
  induction fuel generalizing l with
  | zero => omega
  | succ fuel ih =>
      by_cases hend : l.cursor.token.lexeme = .sourceEnd
      · have hstep := surveyToken_eq l
        rw [if_pos hend] at hstep
        rw [iterate_of_done hstep] at h
        cases h
      obtain ⟨origin, pos, index, hbody, hdrop, -⟩ := surveyToken_eq_moveTo hp hend
      have hshort := hp.length_rest_lt hend
      have hread := hp.here
      rw [← hp.settled] at hread
      have hahead : ∀ {f}, Text.Stops (l.cursor.sheet.text.drop pos) f →
          l.cursor.ahead.Stops f := by
        intro f hstops
        apply Text.Stops.of_rest hread
        rwa [hp.settled, ← hdrop]
      rw [← hdrop] at hshort
      cases hr : Lexeme.read (Text.pastGap (l.cursor.sheet.text.drop pos)) with
      | error f =>
          rw [Cursor.moveTo_of_fault origin hr] at hbody
          rw [iterate_of_error hbody] at h
          cases h
          exact ⟨origin, pos, f, rfl, hahead ⟨_, .first, hr⟩⟩
      | ok found =>
          rw [Cursor.moveTo_of_read origin hr] at hbody
          rw [iterate_of_again hbody] at h
          have hlen := Text.length_pastGap_le (l.cursor.sheet.text.drop pos)
          obtain ⟨origin', pos', f, hfault, hstops⟩ :=
            ih ⟨l.cursor.landed origin pos found.1 found.2, index⟩
              (Cursor.placed_landed origin hr) (by rw [Cursor.ahead_landed]; omega) h
          rw [Cursor.ahead_landed, Text.Stops.pastGap_iff] at hstops
          exact ⟨origin', pos', f, hfault, hahead hstops⟩

/-- A survey that fails has come to where reading stops. -/
theorem stops_of_build {c : Cursor} {fault : Fault} {after : Listing}
    (hstart : Cursor.start c.sheet = .ok c)
    (h : build ⟨c, .empty⟩ = .error fault after) : c.sheet.Stops c.sheet.text fault := by
  have hshort : c.ahead.length < c.sheet.text.length + 1 := by
    rw [Cursor.ahead_of_start hstart]
    exact Nat.lt_succ_of_le (Text.length_pastGap_le _)
  rw [build_eq (l := ⟨c, .empty⟩) hstart] at h
  split at h
  · rename_i surveyed hsurvey
    have hsheet : surveyed.cursor.sheet = c.sheet := by
      rcases iterate_surveyToken _ ⟨c, .empty⟩ (Cursor.placed_of_start hstart) hshort with
        ⟨done, hdone, hsheet, -⟩ | ⟨f, done, hfail, -⟩
      · cases hdone.symm.trans hsurvey
        exact hsheet
      · cases hfail.symm.trans hsurvey
    unfold onCursor at h
    rw [Cursor.reset_of_start (hsheet ▸ hstart)] at h
    cases h
  · rename_i hsurvey
    cases h
    have hstops := stops_of_survey _ ⟨c, .empty⟩ (Cursor.placed_of_start hstart) hshort hsurvey
    obtain ⟨origin, pos, f, hfault, hf⟩ := hstops
    rw [Cursor.ahead_of_start hstart, Text.Stops.pastGap_iff] at hf
    exact ⟨origin, pos, f, hfault, hf⟩

end Listing

/-- A fault that is neither an error, which has been shown, nor an interrupt. -/
def Fault.Unhandled : Fault → Prop
  | .error _ | .interrupted => False
  | _ => True

namespace Fate

/-- The errors that a program ends in: one or none. -/
def raised (fate : Fate) : List Error :=
  match fate.fault with
  | some f => raisedBy (.error f)
  | none => []

/-- What the fault of a program comes from, and what is shown and written before it. -/
structure Explained (bound : Nat) (sheet : Sheet) (size : WordSize) (output : Output)
    (fate : Fate) : Prop where
  shown : ∃ zeros, fate.notices.toList =
    List.replicate zeros .zeroDivision ++ fate.raised.map .error
  numeral : ∀ nf, fate.fault ≠ some .stalled →
    (fate.fault = some (.numeral nf) ↔ sheet.text.Stops (.numeral nf))
  occurs : ∀ f, fate.fault = some f → f.Occurs ⟨size, sheet, output.alarms = []⟩
  quiet : output.alarms = [] → fate.output.alarms = []
  endless : fate.fault = some .stalled →
    ∃ m, Machine.load sheet size output {} = .ok m ∧ ∀ i < bound, m.launched.call i = .ok true

variable {bound : Nat} {sheet : Sheet} {size : WordSize} {output : Output} {fate : Fate}

theorem Explained.wide (h : fate.Explained bound sheet size output)
    (hfault : fate.fault = some .unwritable) : 14285 < size.bits := by
  apply Nat.lt_of_not_le
  intro hbits
  exact h.occurs _ hfault (size.writable_iff_bits_le.2 hbits)

/-- The reasons for which a program may end in a fault that nothing handles. -/
theorem Explained.unhandled_iff (h : fate.Explained bound sheet size output) :
    (∃ f, fate.fault = some f ∧ f.Unhandled) ↔
      (∃ nf, sheet.text.Stops (.numeral nf)) ∨
        (fate.fault = some .unwritable ∧ 14285 < size.bits) ∨ fate.fault = some .stalled := by
  constructor
  · rintro ⟨f, hfault, hunhandled⟩
    cases f with
    | error | interrupted => exact hunhandled.elim
    | numeral nf => exact .inl ⟨nf, (h.numeral nf (by simp [hfault])).1 hfault⟩
    | unwritable => exact .inr (.inl ⟨hfault, h.wide hfault⟩)
    | refused refusal => exact (h.occurs _ hfault).elim
    | stalled => exact .inr (.inr hfault)
  · rintro (⟨nf, hstops⟩ | ⟨hfault, -⟩ | hfault)
    · by_cases hstalled : fate.fault = some .stalled
      · exact ⟨_, hstalled, trivial⟩
      · exact ⟨_, (h.numeral nf hstalled).2 hstops, trivial⟩
    · exact ⟨_, hfault, trivial⟩
    · exact ⟨_, hfault, trivial⟩

end Fate

namespace Machine

variable {m : Machine} {count : Nat} {sheet : Sheet} {size : WordSize} {output : Output}

theorem fate_of_error {fault : Fault} {reports : Reports}
    (h : load sheet size output {} = .error (fault, reports)) (bound : Nat) :
    fate bound sheet size output = ⟨⟨output, reports.notices, reports.trace⟩, some fault⟩ := by
  simp only [fate, progress, launch, h]

theorem progress_of_load (h : load sheet size output {} = .ok m) (count : Nat) :
    progress count sheet size output = advance count m.launched := by
  have hbegin : beginRun m = .ok () m.launched := note_of_writable rfl m
  simp only [progress, launch, h, hbegin]

theorem fate_of_load (h : load sheet size output {} = .ok m) (bound : Nat) :
    fate bound sheet size output = fateOf (run bound m) := by
  have hlaunched : { m with reports := m.reports.noted .runStarted } = m.launched := rfl
  rw [fate, progress_of_load h, advance, run_apply, hlaunched]
  cases steps bound m.launched with
  | error fault last => rfl
  | ok more last =>
      cases more with
      | true => rfl
      | false =>
          simp only
          rw [endRun, note_of_writable rfl last]

/-- Calls that go on show warnings only. -/
theorem warned_called (h : ∀ i < count, m.call i = .ok true) :
    ∃ zeros, Reports.Warned zeros m.reports (m.called count).reports := by
  induction count with
  | zero => exact ⟨0, .refl _⟩
  | succ count ih =>
      obtain ⟨before, hbefore⟩ := ih fun i hi => h i (by omega)
      have hcall : (m.called count).outcome = .ok true := h count (by omega)
      obtain ⟨zeros, r, hwarned, ⟨-, hstepped⟩ | ⟨e, hraised, -⟩⟩ := shown_of_step (m.called count)
      · refine ⟨before + zeros, ?_⟩
        rw [called, hstepped]
        exact hbefore.trans hwarned
      · rw [hcall] at hraised
        cases hraised

/-- After the warnings, the last call shows the error that it raises. -/
theorem Comes.shown {answer : Except Fault Bool} (h : m.Comes count answer) :
    ∃ zeros, (m.called (count + 1)).reports.notices.toList = m.reports.notices.toList ++
      List.replicate zeros .zeroDivision ++ (raisedBy answer).map .error := by
  obtain ⟨before, hbefore⟩ := warned_called h.before
  obtain ⟨zeros, r, hwarned, hstep⟩ := shown_of_step (m.called count)
  have hlast : (m.called count).outcome = answer := h.last
  have hnotices := (hbefore.trans hwarned).notices
  refine ⟨before + zeros, ?_⟩
  rw [← hnotices, called]
  rw [hlast] at hstep
  rcases hstep with ⟨hnone, hstepped⟩ | ⟨e, hraised, hstepped⟩
  · rw [hnone, hstepped]
    simp
  · rw [hraised, hstepped]
    simp [Reports.reported]

/-- The calls of a program fail to read a numeral exactly if reading its text does. -/
theorem call_numeral_iff {c : Cursor} (hstart : Cursor.start c.sheet = .ok c) (size : WordSize)
    (output : Output) (reports : Reports) (count : Nat) (nf : Numeral.Fault) :
    (fresh c size output reports).call count = .error (.numeral nf) ↔
      c.sheet.text.Stops (.numeral nf) := by
  rcases Listing.build_outcome (l := ⟨c, .empty⟩) hstart with
    ⟨-, -, hreadable, -⟩ | ⟨f, surveyed, hfail, hsheet, hlex, -⟩
  · constructor
    · intro hcall
      exact absurd trivial ((accepted_of_readable hstart hreadable).calls count _ hcall)
    · intro hstops
      exact absurd hreadable hstops.not_readable
  · have hrejected : (fresh c size output reports).Rejected :=
      rejected_of_survey hstart hfail hsheet hlex
    obtain ⟨g, l, -, hbuild, hcalls⟩ := hrejected.survey
    have hstops : c.sheet.Stops c.sheet.text g := Listing.stops_of_build hstart hbuild
    rw [hcalls]
    constructor
    · intro hsame
      cases hsame
      exact hstops.of_numeral
    · intro hnumeral
      rw [hstops.eq_numeral hnumeral]

/-- A program whose first token cannot be read. -/
theorem explained_of_fault {sheet : Sheet} {f : Fault} (h : Cursor.start sheet = .error f)
    (bound : Nat) (size : WordSize) (output : Output) :
    (fate bound sheet size output).Explained bound sheet size output := by
  have hstops := Cursor.stops_of_start h
  have haccounts := accounts_of_fault h size output
  rw [load_of_fault h] at haccounts
  rw [fate_of_error (load_of_fault h size output {})]
  have hnumeral : ∀ nf, some f = some (.numeral nf) ↔ sheet.text.Stops (.numeral nf) := by
    intro nf
    constructor
    · intro hsame
      cases hsame
      exact hstops.of_numeral
    · intro hnumeral
      rw [hstops.eq_numeral hnumeral]
  constructor
  case shown =>
    cases haccounts with
    | failed hnotices _ => exact ⟨0, hnotices⟩
  case numeral => exact fun nf _ => hnumeral nf
  case occurs =>
    intro g hg
    cases hg
    obtain ⟨origin, pos, e, rfl, -⟩ := hstops
    exact (sheet.lexical_fault origin pos e).occurs _
  case quiet => exact id
  case endless =>
    intro hstalled
    cases hstalled
    obtain ⟨origin, pos, e, hfault, -⟩ := hstops
    cases e <;> cases hfault

/-- A program that is loaded, by the calls of its run. -/
theorem explained_of_start {c : Cursor} (h : Cursor.start c.sheet = .ok c)
    (bound : Nat) (size : WordSize) (output : Output) :
    (fate bound c.sheet size output).Explained bound c.sheet size output := by
  have hload := load_of_start h size output {}
  have hnotices : (fresh c size output {}).launched.reports.notices.toList = [] := rfl
  have hpoised := poised_fresh h size output (({} : Reports).noted .runStarted)
  have hnumeral : ∀ count nf, (fresh c size output {}).launched.call count = .error (.numeral nf) ↔
      c.sheet.text.Stops (.numeral nf) :=
    fun count nf => call_numeral_iff h size output _ count nf
  have hquiet : ∀ count, output.alarms = [] →
      ((fresh c size output {}).launched.called count).output.alarms = [] :=
    fun count => (hpoised.called count).quiet
  rw [fate_of_load hload]
  -- The calls of the run go on for as long as they may, or the last ends it, or it fails.
  rcases run_calls bound (fresh c size output {}) with
    ⟨hgoes, hrun⟩ | ⟨count, -, hcomes, hrun⟩ | ⟨count, -, f, hcomes, hrun⟩
  · obtain ⟨zeros, hwarned⟩ := warned_called hgoes
    rw [hrun]
    constructor
    case shown =>
      refine ⟨zeros, hwarned.notices.trans ?_⟩
      rw [hnotices]
      exact (List.append_nil _).symm
    case numeral => exact fun nf hgoing => absurd rfl hgoing
    case occurs =>
      intro g hg
      cases hg
      trivial
    case quiet => exact hquiet bound
    case endless => exact fun _ => ⟨_, hload, hgoes⟩
  · obtain ⟨zeros, hshown⟩ := hcomes.shown
    rw [hrun]
    constructor
    case shown =>
      let last := ((fresh c size output {}).launched.called (count + 1)).reports
      have hended : Reports.Warned 0 last (last.noted .runEnded) := .noted last trivial
      refine ⟨zeros, hended.notices.trans ?_⟩
      rw [hshown, hnotices]
      exact List.append_nil _
    case numeral =>
      intro nf _
      rw [← hnumeral count nf, hcomes.last]
      simp [fateOf]
    case occurs =>
      intro g hg
      cases hg
    case quiet => exact hquiet (count + 1)
    case endless =>
      intro hstalled
      cases hstalled
  · obtain ⟨zeros, hshown⟩ := hcomes.shown
    rw [hrun]
    constructor
    case shown =>
      rw [hnotices] at hshown
      exact ⟨zeros, hshown⟩
    case numeral =>
      intro nf _
      rw [← hnumeral count nf, hcomes.last]
      simp [fateOf]
    case occurs =>
      intro g hg
      cases hg
      exact hpoised.occurs hcomes.last
    case quiet => exact hquiet (count + 1)
    case endless =>
      intro hstalled
      cases hstalled
      exact absurd hcomes.last (call_ne_stalled h)

/-- Every fault that a program ends in has its reason. -/
theorem fate_explained (bound : Nat) (sheet : Sheet) (size : WordSize) (output : Output) :
    (fate bound sheet size output).Explained bound sheet size output := by
  cases hstart : Cursor.start sheet with
  | error f => exact explained_of_fault hstart bound size output
  | ok c =>
      obtain rfl := Cursor.sheet_of_start hstart
      exact explained_of_start hstart bound size output

/-- A program comes to a step if it is loaded and all the calls before that step go on. -/
theorem reached_ne_none_iff (step : Nat) :
    reached step sheet size output ≠ none ↔
      step = 0 ∨ ∃ m, load sheet size output {} = .ok m ∧
        ∀ i < step - 1, m.launched.call i = .ok true := by
  cases step with
  | zero => simp [reached]
  | succ count =>
      simp only [reached, Nat.succ_ne_zero, false_or, Nat.add_sub_cancel]
      cases hload : load sheet size output {} with
      | error stopped => simp [progress, launch, hload]
      | ok m =>
          rw [progress_of_load hload, advance]
          rcases steps_calls count m.launched with
            ⟨hgoes, hsteps⟩ | ⟨last, hlt, answer, hne, hcomes, hsteps⟩
          · simpa [hsteps] using hgoes
          · have hstopped : ¬ ∀ i < count, m.launched.call i = .ok true :=
              fun hgoes => hne (hcomes.last.symm.trans (hgoes last hlt))
            rw [hsteps]
            cases answer with
            | error f => simpa [resultOf] using hstopped
            | ok more =>
                cases more with
                | true => exact absurd rfl hne
                | false => simpa [resultOf] using hstopped

/-- An interrupt strikes the program before its end: while it is loaded, or when all the
calls before have gone on. -/
def Struck (strike : Option Strike) (sheet : Sheet) (size : WordSize) (output : Output) : Prop :=
  ∃ s, strike = some s ∧ (s.step = 0 ∨ ∃ m, load sheet size output {} = .ok m ∧
    ∀ i < s.step - 1, m.launched.call i = .ok true)

variable {bound : Nat} {strike : Option Strike}

theorem fateUnder_of_not_struck (h : ¬ Struck strike sheet size output) (bound : Nat) :
    fateUnder bound strike sheet size output = fate bound sheet size output := by
  cases strike with
  | none => rfl
  | some s =>
      have hreached : reached s.step sheet size output = none := by
        apply Classical.byContradiction
        intro hne
        exact h ⟨s, rfl, (reached_ne_none_iff s.step).1 hne⟩
      simp only [fateUnder, hreached]

/-- An interrupt leaves a part of what the step that it strikes puts out. -/
theorem fateUnder_of_struck (h : Struck strike sheet size output) (bound : Nat) :
    ∃ (s : Strike) (before : Remains), reached s.step sheet size output = some before ∧
      fateUnder bound strike sheet size output =
        ⟨s.cut before (fate s.step sheet size output).toRemains, some .interrupted⟩ := by
  obtain ⟨s, rfl, hcalls⟩ := h
  obtain ⟨before, hbefore⟩ :=
    Option.ne_none_iff_exists'.1 ((reached_ne_none_iff s.step).2 hcalls)
  exact ⟨s, before, hbefore, by simp only [fateUnder, hbefore]⟩

theorem fault_of_struck (h : Struck strike sheet size output) (bound : Nat) :
    (fateUnder bound strike sheet size output).fault = some .interrupted := by
  obtain ⟨s, before, -, hfate⟩ := fateUnder_of_struck h bound
  rw [hfate]

/-- What a program ends in, short of an interrupt, it ends in when it is left alone. -/
theorem fault_fateUnder_iff {ending : Option Fault} (h : ending ≠ some .interrupted) :
    (fateUnder bound strike sheet size output).fault = ending ↔
      ¬ Struck strike sheet size output ∧ (fate bound sheet size output).fault = ending := by
  by_cases hstruck : Struck strike sheet size output
  · simp [fault_of_struck hstruck, hstruck, h.symm]
  · simp [fateUnder_of_not_struck hstruck, hstruck]

theorem interrupted_fateUnder_iff :
    (fateUnder bound strike sheet size output).fault = some .interrupted ↔
      Struck strike sheet size output ∨
        (fate bound sheet size output).fault = some .interrupted := by
  by_cases hstruck : Struck strike sheet size output
  · simp [fault_of_struck hstruck, hstruck]
  · simp [fateUnder_of_not_struck hstruck, hstruck]

theorem unhandled_fateUnder_iff :
    (∃ f, (fateUnder bound strike sheet size output).fault = some f ∧ f.Unhandled) ↔
      ¬ Struck strike sheet size output ∧
        ((∃ nf, sheet.text.Stops (.numeral nf)) ∨
          ((fate bound sheet size output).fault = some .unwritable ∧ 14285 < size.bits) ∨
          (fate bound sheet size output).fault = some .stalled) := by
  rw [← (fate_explained bound sheet size output).unhandled_iff]
  by_cases hstruck : Struck strike sheet size output
  · simp [fault_of_struck hstruck, hstruck, Fault.Unhandled]
  · simp [fateUnder_of_not_struck hstruck, hstruck]

/-- A program on an output without alarms leaves it without, wherever it is interrupted. -/
theorem quiet_fateUnder (h : output.alarms = []) (bound : Nat) (strike : Option Strike) :
    (fateUnder bound strike sheet size output).output.alarms = [] := by
  by_cases hstruck : Struck strike sheet size output
  · obtain ⟨s, before, hreached, hfate⟩ := fateUnder_of_struck hstruck bound
    rw [hfate]
    change before.output.alarms = []
    cases hstep : s.step with
    | zero =>
        rw [hstep] at hreached
        cases hreached
        exact h
    | succ count =>
        have hquiet := (fate_explained count sheet size output).quiet h
        rw [hstep, reached] at hreached
        split at hreached
        · rename_i m hm
          cases hreached
          rwa [fate, hm] at hquiet
        · cases hreached
  · rw [fateUnder_of_not_struck hstruck]
    exact (fate_explained bound sheet size output).quiet h

end Machine

end LineBasic
