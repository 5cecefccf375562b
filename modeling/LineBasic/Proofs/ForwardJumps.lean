import LineBasic.Proofs.Moves
import LineBasic.Proofs.Progress

/-!
# Only jumps back can loop

Every step comes to an end, and one that goes on is further on in the text unless it has
jumped. So a run in which no jump leads back ends, within one call for each character of
the text and one more. Whether jumps lead back can be seen from the text: it is enough
that every target is on a line below the words that jump to it. A target is looked for
from the start of the text, so it is the first line that begins with its number; and a
number that the survey has not recorded as a line number is no target at all.
-/
namespace LineBasic

namespace Text

/-- The number of line ends before an offset. -/
def lineOf (t : Text) (pos : Nat) : Nat := (t.take pos).count '\n'

theorem JumpsAt.lt_length {t : Text} {pos number : Nat} (h : t.JumpsAt pos number) :
    pos < t.length := by
  obtain ⟨-, word, length, digits, hread, -, -⟩ := h
  have hspans := Lexeme.read_spans hread
  have hpos := hspans.pos (by simp)
  have hle := hspans.le
  rw [List.length_drop] at hle
  omega

/-- The first line of a text that begins with a number, from that number on. -/
inductive Heads (number : Nat) : Text → Text → Prop
  | here {t : Text} {n : Nat} : Lexeme.read t.pastGap = .ok (.number number, n) →
      Heads number t t.pastGap
  | later {t u : Text} {l : Lexeme} {n : Nat} : Lexeme.read t.pastGap = .ok (l, n) →
      l ≠ .number number → Heads number t.afterLine u → Heads number t u

/-- Every jump whose target is found has it on a line further down. -/
def JumpsForward (t : Text) : Prop :=
  ∀ pos number target, t.JumpsAt pos number → t.Numbers number →
    Heads number t (t.drop target) → t.lineOf pos < t.lineOf target

theorem lineOf_mono (t : Text) {pos more : Nat} (h : pos ≤ more) :
    t.lineOf pos ≤ t.lineOf more := by
  have htake : t.take pos <+: t.take more := List.take_prefix_take_left h
  exact htake.sublist.count_le '\n'

theorem lt_of_lineOf {t : Text} {pos more : Nat} (h : t.lineOf pos < t.lineOf more) :
    pos < more := by
  apply Nat.lt_of_not_le
  intro hle
  exact absurd (t.lineOf_mono hle) (Nat.not_le_of_lt h)

theorem Heads.of_pastGap {number : Nat} {t u : Text} (h : Heads number t.pastGap u) :
    Heads number t u := by
  cases h with
  | here hread =>
      rw [pastGap_pastGap] at hread ⊢
      exact .here hread
  | later hread hne hlater =>
      rw [pastGap_pastGap] at hread
      rw [afterLine_pastGap] at hlater
      exact .later hread hne hlater

end Text

namespace Machine

variable {sheet : Sheet} {bound : Nat} {m m' : Machine}

theorem Within.lt_start (h : m.Within sheet bound) (h' : m'.Within sheet m.toGo) :
    m.cursor.token.start < m'.cursor.token.start :=
  Cursor.lt_start (h'.sheet_eq.trans h.sheet_eq.symm) h'.less

/-- A line that is found is the first one with its number, and the cursor is behind the
number. -/
def Lands (sheet : Sheet) (number : Nat) (m : Machine) : Prop :=
  ∃ target, Text.Heads number sheet.text (sheet.text.drop target) ∧
    target < m.cursor.token.start

/-- Looking for a line from a line on that is not below the one looked for. -/
structure Seeks (sheet : Sheet) (bound number : Nat) (m : Machine) : Prop
    extends Within sheet bound m where
  heads : ∀ u, Text.Heads number m.cursor.ahead u → Text.Heads number sheet.text u

theorem seekLine_ends {number : Nat} (h : m.Seeks sheet bound number) :
    Ends (fun round m' => round.Meets (fun _ => m'.Seeks sheet bound number)
      (fun found => found = true → m'.Lands sheet number)) (seekLine number () m) := by
  have hhere := h.steady.here
  rw [← h.steady.settled] at hhere
  have hskip : m.cursor.token.lexeme ≠ .sourceEnd → m.cursor.token.lexeme ≠ .number number →
      Ends (fun round m' => round.Meets (fun _ => m'.Seeks sheet bound number)
        (fun found => found = true → m'.Lands sheet number))
        ((skipLine >>= fun _ => pure (Round.again () : Round Unit Bool)) m) := by
    intro hend hne
    apply (skipLine_ends h.toWithin hend).bind
    rintro _ m₁ ⟨h₁, hahead⟩
    refine .ok ⟨h₁.mono (Nat.le_of_lt h.less), ?_⟩
    intro u hu
    rw [hahead] at hu
    exact h.heads u (.later hhere hne hu.of_pastGap)
  unfold seekLine
  rw [lexeme_bind_apply]
  cases hl : m.cursor.token.lexeme with
  | sourceEnd =>
      refine .ok ?_
      intro hfound
      cases hfound
  | number value =>
      simp only
      split
      · rename_i hvalue
        have hvalue : value = number := Int.ofNat_inj.1 hvalue
        subst hvalue
        apply (next_ends h.toWithin (by simp [hl]) (by simp [hl])).bind
        rintro _ m₁ ⟨h₁, -⟩
        refine .ok fun _ => ⟨m.cursor.token.start, ?_, h.lt_start h₁⟩
        rw [hl] at hhere
        have hheads := h.heads _ (.here hhere)
        rwa [h.steady.settled, Cursor.ahead, h.sheet_eq] at hheads
      · rename_i hvalue
        exact hskip (by simp [hl]) (by rw [hl]; intro he; cases he; exact hvalue rfl)
  | _ => exact hskip (by simp [hl]) (by simp [hl])

theorem findLine_ends {number : Nat} (h : m.Seeks sheet bound number) :
    Ends (fun found m' => found = true → m'.Lands sheet number) (findLine number m) :=
  Ends.iterate (P := fun _ m' => m'.Seeks sheet bound number) (fun _ _ h' => seekLine_ends h') _ h

theorem reset_ends (h : m.Within sheet bound) (number : Nat) :
    Ends (fun _ m' => m'.Seeks sheet (m'.toGo + 1) number) (onCursor Cursor.reset m) := by
  obtain ⟨first, hstart, hsteady, hsheet, hahead⟩ := Cursor.Steady.start _ h.steady.whole
  rw [onCursor_of_ok (Cursor.reset_of_start hstart)]
  refine .ok ⟨⟨hsteady, hsheet.trans h.sheet_eq, h.started, Nat.lt_succ_self _⟩, ?_⟩
  intro u hu
  have hahead : (m.movedTo first).cursor.ahead = sheet.text.pastGap := by
    rw [← h.sheet_eq]
    exact hahead
  rw [hahead] at hu
  exact hu.of_pastGap

/-- The line numbers of a text that can be read, as an invariant of the index. -/
def indexing (sheet : Sheet) (hreadable : sheet.text.Readable) : Invariant where
  Holds m := m.cursor.Lies sheet ∧ ∀ k ∈ m.index.numbers, sheet.text.Numbers k
  Value _ := True
  reports h _ := h
  output h _ := h
  started h := h
  finished h := h
  next h := ⟨h.1.next, h.2⟩
  skipLine h := ⟨h.1.skipLine, h.2⟩
  reset h := ⟨h.1.reset, h.2⟩
  build := by
    rintro m ⟨hlies, -⟩
    obtain rfl := hlies.sheet_eq
    obtain ⟨first, hstart, -⟩ := Cursor.start_of_readable _ hreadable
    obtain ⟨index, hbuild, hnumbers, -⟩ := survey_of_readable hstart hreadable
    rw [leftBy, hbuild]
    exact ⟨Cursor.lies_of_start hstart, fun k hk => (hnumbers k).1 hk⟩
  zero := trivial
  wrap _ _ := trivial
  read _ _ _ _ := trivial
  assign h _ _ _ _ _ := h

section
variable {hreadable : sheet.text.Readable}

theorem jumpIndexed_ends (h : m.Within sheet bound) (hindex : (indexing sheet hreadable).Holds m)
    (number : Nat) :
    Ends (fun _ m' => sheet.text.Numbers number ∧ m'.Lands sheet number)
      (jumpIndexed number m) := by
  unfold jumpIndexed
  split
  · rename_i hhas
    have hnumbers := hindex.2 number ((LineIndex.has_iff _ _).1 hhas)
    apply (reset_ends h number).bind
    intro _ m₁ h₁
    apply (findLine_ends h₁).bind
    intro found m₂ hfound
    cases found with
    | true => exact .ok ⟨hnumbers, hfound rfl⟩
    | false =>
        simp only [Bool.not_false, if_true]
        rw [failLine_apply]
        split <;> exact .error
  · rw [failLine_apply]
    split <;> exact .error

theorem buildIndex_ends (h : m.Within sheet bound)
    (hindex : (indexing sheet hreadable).Holds m) :
    Ends (fun _ m' => m'.Within sheet (m'.toGo + 1) ∧ (indexing sheet hreadable).Holds m')
      (buildIndex m) := by
  have hpaired := Ends.of_agree (buildIndex_agree h.paired)
  have hleaves := buildIndex_keeps.leaves hindex
  generalize buildIndex m = r at hpaired hleaves ⊢
  cases hleaves with
  | @ok _ m₁ _ hm₁ => exact .ok ⟨.of_paired (hpaired.of_eq rfl) (Nat.lt_succ_self _), hm₁⟩
  | error _ => exact .error

/-- A jump lands behind a number that the survey has recorded, on the first line that
begins with it. -/
theorem jump_ends (h : m.Within sheet bound) (hindex : (indexing sheet hreadable).Holds m)
    (number : Nat) :
    Ends (fun _ m' => sheet.text.Numbers number ∧ m'.Lands sheet number) (jump number m) := by
  rw [jump_apply]
  split
  · apply (buildIndex_ends h hindex).bind
    rintro _ m₁ ⟨h₁, hindex₁⟩
    exact jumpIndexed_ends h₁ hindex₁ number
  · exact jumpIndexed_ends h hindex number

end

section
variable {I : Invariant}

theorem gotoTarget_keeps : Keeps I Whatever gotoTarget gotoTarget := by
  apply (accept_keeps _).andThen
  apply lexeme_keeps.bind
  intro target _
  apply (accept_keeps _).andThen
  apply (accept_keeps _).andThen
  cases target <;> exact .pure trivial

theorem ifTarget_keeps : Keeps I Whatever ifTarget ifTarget := by
  have hrelation : Keeps I Whatever relation relation :=
    .of_leaves (relation_keeps (expression_keeps passes_id)).leaves
  apply (accept_keeps _).andThen
  apply hrelation.bind
  intro condition _
  apply (accept_keeps _).andThen
  apply lexeme_keeps.bind
  intro l _
  cases l with
  | number number =>
      apply next_keeps.andThen
      split
      · exact (note_keeps _).andThen (.pure trivial)
      · exact passLineEnd_keeps.andThen (.pure trivial)
  | _ => exact failHere_keeps _

theorem target_keeps : Keeps I Whatever target target := by
  have hstatement : Keeps I Whatever statement statement :=
    .of_leaves (statement_keeps (expression_keeps passes_id)).leaves
  apply lexeme_keeps.bind
  intro l _
  split
  · exact ifTarget_keeps
  · exact gotoTarget_keeps
  · exact hstatement.andThen (.pure trivial)

theorem lineTarget_keeps : Keeps I Whatever lineTarget lineTarget := by
  apply skipEmptyLines_keeps.andThen
  apply lexeme_keeps.bind
  intro l _
  cases l with
  | sourceEnd => exact finish_keeps.andThen (.pure trivial)
  | number value =>
      apply (note_keeps _).andThen
      apply next_keeps.andThen
      exact target_keeps
  | _ => exact target_keeps

theorem approach_keeps : Keeps I Whatever approach approach := by
  have hstarted : Keeps I Whatever approachStarted approachStarted := by
    apply Keeps.of_leaves
    intro m hm
    unfold approachStarted
    split
    · exact .ok trivial hm
    · exact lineTarget_keeps.leaves hm
  apply Keeps.of_leaves
  intro m hm
  rw [approach_apply]
  split
  · exact hstarted.leaves hm
  · exact (buildIndex_keeps.andThen (start_keeps.andThen hstarted)).leaves hm

end

/-- In a text whose jumps lead down, a step that jumps is further on as well. -/
theorem lt_start_of_jumps {hreadable : sheet.text.Readable} (hforward : sheet.text.JumpsForward)
    (h : m.Within sheet bound) (hindex : (indexing sheet hreadable).Holds m)
    (hjumps : m.Jumps m') : m.cursor.token.start < m'.cursor.token.start := by
  obtain ⟨number, before, happroach, hjump⟩ := hjumps
  obtain ⟨hbefore, pos, hpos, hat⟩ := (approach_ends h).of_eq happroach
  have hindex' : (indexing sheet hreadable).Holds before := by
    have hleaves := approach_keeps.leaves hindex
    rw [happroach] at hleaves
    cases hleaves with
    | ok _ hheld => exact hheld
  obtain ⟨hnumbers, target, hheads, hlanded⟩ := (jump_ends hbefore hindex' number).of_eq hjump
  have hbelow := Text.lt_of_lineOf (hforward pos number target hat hnumbers hheads)
  have hwithin := hat.lt_length
  rw [toGo, Cursor.ahead, List.length_drop, List.length_drop, h.sheet_eq] at hpos
  omega

/-- A call that goes on leaves the machine of its step. -/
theorem step_of_call {count : Nat} (h : m.call count = .ok true) :
    step (m.called count) = .ok true (m.called (count + 1)) := by
  change (m.called count).outcome = .ok true at h
  change step (m.called count) = .ok true (m.called count).stepped
  generalize m.called count = n at h ⊢
  unfold outcome at h
  unfold stepped
  cases hstep : step n with
  | ok more after =>
      rw [hstep] at h
      cases h
      rfl
  | error f after =>
      rw [hstep] at h
      cases h

/-- Some call up to a number finishes or faults. -/
def Halts (m : Machine) (bound : Nat) : Prop :=
  ∃ count, count ≤ bound ∧ (m.call count = .ok false ∨ ∃ f, m.call count = .error f)

/-- A run that gets on with every call ends. -/
theorem halts_of_lt_start (hlies : ∀ count, (m.called count).cursor.Lies sheet)
    (hlt : ∀ count after, step (m.called count) = .ok true after →
      (m.called count).cursor.token.start < after.cursor.token.start) :
    m.Halts sheet.text.length := by
  apply Classical.byContradiction
  intro hnot
  have hgoes : ∀ count, count ≤ sheet.text.length → m.call count = .ok true := by
    intro count hcount
    cases hcall : m.call count with
    | error f => exact absurd ⟨count, hcount, .inr ⟨f, hcall⟩⟩ hnot
    | ok more =>
        cases more with
        | true => rfl
        | false => exact absurd ⟨count, hcount, .inl hcall⟩ hnot
  -- Each call takes the start of the token up by one at least.
  have hstart : ∀ count, count ≤ sheet.text.length + 1 →
      count ≤ (m.called count).cursor.token.start := by
    intro count
    induction count with
    | zero => exact fun _ => Nat.zero_le _
    | succ count ih =>
        intro hcount
        have hbefore := ih (by omega)
        have hstep := hlt count _ (step_of_call (hgoes count (by omega)))
        omega
  have hlast := hstart (sheet.text.length + 1) (Nat.le_refl _)
  have hle := (hlies (sheet.text.length + 1)).start_le
  omega

theorem approach_of_survey {l : Listing} (h : m.started = false)
    (hbuild : Listing.build m.listing = .ok () l)
    (hwritable : (Event.indexed l.index.numbers).writable = true) :
    approach m = approach (m.begun l) := by
  have hstarted : (m.begun l).started = true := rfl
  rw [approach_apply, if_neg (by simp [h]), bind_of_ok (buildIndex_of_build hbuild hwritable),
    approach_apply, if_pos hstarted]
  rfl

section
variable {c : Cursor} {size : WordSize} {output : Output} {reports : Reports} {count : Nat}

/-- At every call a machine that is loaded with a text that can be read steps like one
that has an index and a steady cursor. -/
theorem exists_within (size : WordSize) (output : Output) (reports : Reports)
    (hstart : Cursor.start c.sheet = .ok c) (hreadable : c.sheet.text.Readable) (count : Nat) :
    ∃ n : Machine, n.Within c.sheet (n.toGo + 1) ∧ (indexing c.sheet hreadable).Holds n ∧
      n.cursor = ((fresh c size output reports).called count).cursor ∧
      step n = step ((fresh c size output reports).called count) ∧
      approach n = approach ((fresh c size output reports).called count) := by
  obtain ⟨index, hbuild, hnumbers, hwritable⟩ :=
    survey_of_readable (l := ⟨c, .empty⟩) hstart hreadable
  obtain ⟨first, hfirst, hsteady, -, -⟩ := Cursor.Steady.start c.sheet hreadable
  cases hstart.symm.trans hfirst
  have hlies := Cursor.lies_of_start hstart
  let begin := (fresh c size output reports).begun ⟨c, index⟩
  have hbegin : begin.Within c.sheet (begin.toGo + 1) :=
    ⟨hsteady, rfl, rfl, Nat.lt_succ_self _⟩
  have hstep : step (fresh c size output reports) = step begin :=
    step_of_survey rfl hbuild hwritable
  cases count with
  | zero =>
      refine ⟨begin, hbegin, ⟨hlies, fun k hk => (hnumbers k).1 hk⟩, rfl, hstep.symm, ?_⟩
      exact (approach_of_survey rfl hbuild hwritable).symm
  | succ count =>
      have hcalled := (called_of_step_eq hstep count).2
      have hpaired := called_agree id hbegin.paired (count + 1)
      have hindexed : (indexing c.sheet hreadable).Holds
          ((fresh c size output reports).called (count + 1)) := by
        apply holds_called
        refine ⟨hlies, ?_⟩
        intro k hk
        cases hk
      rw [← hcalled] at hpaired
      exact ⟨_, .of_paired hpaired (Nat.lt_succ_self _), hindexed, rfl, rfl, rfl⟩

/-- In a text that cannot be read every call fails to read a token. -/
theorem call_of_unreadable (size : WordSize) (output : Output) (reports : Reports)
    (hstart : Cursor.start c.sheet = .ok c) (hnot : ¬ c.sheet.text.Readable) (count : Nat) :
    ∃ f : Fault, f.Lexical ∧ (fresh c size output reports).call count = .error f := by
  rcases Listing.build_outcome (l := ⟨c, .empty⟩) hstart with
    ⟨-, -, hreadable, -⟩ | ⟨f, surveyed, hfail, hsheet, hlex, -⟩
  · exact absurd hreadable hnot
  · obtain ⟨g, l, hlexical, -, hcalls⟩ := (rejected_of_survey hstart hfail hsheet hlex).survey
    exact ⟨g, hlexical, hcalls count⟩

theorem readable_of_step (hstart : Cursor.start c.sheet = .ok c)
    (hstep : step ((fresh c size output reports).called count) = .ok true m') :
    c.sheet.text.Readable := by
  apply Classical.byContradiction
  intro hnot
  obtain ⟨f, -, hcall⟩ := call_of_unreadable size output reports hstart hnot count
  unfold call outcome at hcall
  rw [hstep] at hcall
  cases hcall

/-- No loop of a call runs out of rounds. -/
theorem call_ne_stalled (hstart : Cursor.start c.sheet = .ok c) :
    (fresh c size output reports).call count ≠ .error .stalled := by
  intro hcall
  by_cases hreadable : c.sheet.text.Readable
  · obtain ⟨n, hn, -, -, hstep, -⟩ := exists_within size output reports hstart hreadable count
    have hsame := (stepped_agree id hn.paired).1
    unfold call outcome at hcall
    unfold outcome at hsame
    rw [hstep, hcall] at hsame
    cases hsame with
    | error hfault => cases hfault
  · obtain ⟨f, hlexical, hfault⟩ := call_of_unreadable size output reports hstart hreadable count
    rw [hfault] at hcall
    cases hcall
    exact hlexical

theorem jumps_or_lt_start (hstart : Cursor.start c.sheet = .ok c)
    (hstep : step ((fresh c size output reports).called count) = .ok true m') :
    ((fresh c size output reports).called count).Jumps m' ∨
      ((fresh c size output reports).called count).cursor.token.start <
        m'.cursor.token.start := by
  have hreadable := readable_of_step hstart hstep
  obtain ⟨n, hn, -, hcursor, hsame, happroach⟩ :=
    exists_within size output reports hstart hreadable count
  rw [← hsame] at hstep
  rw [Jumps, ← hcursor, ← happroach]
  rcases step_jumps_or_within hn hstep with hjumps | hwithin
  · exact .inl hjumps
  · exact .inr (hn.lt_start hwithin)

theorem lt_start_of_forward (hstart : Cursor.start c.sheet = .ok c)
    (hforward : c.sheet.text.JumpsForward)
    (hstep : step ((fresh c size output reports).called count) = .ok true m')
    (hjumps : ((fresh c size output reports).called count).Jumps m') :
    ((fresh c size output reports).called count).cursor.token.start < m'.cursor.token.start := by
  have hreadable := readable_of_step hstart hstep
  obtain ⟨n, hn, hindex, hcursor, -, happroach⟩ :=
    exists_within size output reports hstart hreadable count
  rw [Jumps, ← happroach] at hjumps
  rw [← hcursor]
  exact lt_start_of_jumps hforward hn hindex hjumps

end

/-- Every call comes to an end; the moves of its cursor lead on in the text; a call that
goes on has jumped or is further on; and so a run in which no jump leads back, be it that
none can in this text, ends within one call more than there are characters. -/
theorem loops_only_by_jumps_back {size : WordSize} {output : Output} {reports : Reports}
    (h : load sheet size output reports = .ok m) :
    (∀ count, m.call count ≠ .error .stalled ∧
      (m.called count).cursor.Reaches (m.called (count + 1)).cursor) ∧
    (∀ count c d, (m.called count).cursor.Reaches c → c.token.lexeme ≠ .sourceEnd →
      Cursor.next c = .ok () d ∨ Cursor.skipLine c = .ok () d →
        c.token.start < d.token.start ∧ d.token.start ≤ sheet.text.length) ∧
    (∀ count after, step (m.called count) = .ok true after → (m.called count).Jumps after ∨
      (m.called count).cursor.token.start < after.cursor.token.start) ∧
    ((∀ count after, (m.called count).Jumps after →
        (m.called count).cursor.token.start < after.cursor.token.start) ∨
      sheet.text.JumpsForward → m.Halts sheet.text.length) := by
  obtain ⟨c, hc, rfl⟩ := start_of_load h
  obtain rfl := Cursor.sheet_of_start hc
  have hlies := Cursor.lies_of_start hc
  have hcalled : ∀ count, ((fresh c size output reports).called count).cursor.Lies c.sheet :=
    fun count => hlies.reaches (reaches_called (fresh c size output reports) count)
  refine ⟨fun count => ⟨call_ne_stalled hc, reaches_stepped _⟩, ?_,
    fun count after => jumps_or_lt_start hc, ?_⟩
  · intro count d e hd hend he
    have hd := (hcalled count).reaches hd
    rcases he with hnext | hskip
    · exact hd.lt_next hend hnext
    · exact hd.lt_skipLine hend hskip
  · intro hforward
    apply halts_of_lt_start hcalled
    intro count after hstep
    rcases jumps_or_lt_start hc hstep with hjumps | hlt
    · rcases hforward with hrun | htext
      · exact hrun count after hjumps
      · exact lt_start_of_forward hc htext hstep hjumps
    · exact hlt

theorem visits_jump_down {u : Text} (h : Text.Visits "GOTO 10\n10".toList u) :
    u ∈ ["GOTO 10\n10".toList, "10\n10".toList, "\n10".toList, "10".toList, []] := by
  induction h with
  | first => decide
  | token _ hread _ ih =>
      simp only [List.mem_cons, List.not_mem_nil, or_false] at ih
      rcases ih with rfl | rfl | rfl | rfl | rfl <;> cases hread <;> decide
  | remark _ hread ih =>
      simp only [List.mem_cons, List.not_mem_nil, or_false] at ih
      rcases ih with rfl | rfl | rfl | rfl | rfl <;> cases hread

theorem jumpsForward_jump_down : Text.JumpsForward "GOTO 10\n10".toList := by
  rintro pos number target ⟨hvisits, word, length, digits, hread, hword, hnumber⟩ - hheads
  have hlength : List.length "GOTO 10\n10".toList = 10 := by decide
  have hgoto : Lexeme.read "GOTO 10\n10".toList = .ok (.keyword .GOTO, 4) := rfl
  have hten : Lexeme.read "10\n10".toList = .ok (.number 10, 2) := rfl
  have hbelow : Lexeme.read "10".toList = .ok (.number 10, 2) := rfl
  -- Of the places that are read only the first has a word that jumps.
  have hfirst : List.drop pos "GOTO 10\n10".toList = "GOTO 10\n10".toList := by
    have hmem := visits_jump_down hvisits
    simp only [List.mem_cons, List.not_mem_nil, or_false] at hmem
    rcases hmem with hdrop | hdrop | hdrop | hdrop | hdrop
    · exact hdrop
    all_goals
      rw [hdrop] at hread
      cases hread
  have hpos : pos = 0 := by
    have hlen := congrArg List.length hfirst
    rw [List.length_drop] at hlen
    omega
  rw [hfirst] at hread hnumber
  cases hgoto.symm.trans hread
  cases hten.symm.trans hnumber
  generalize hu : List.drop target "GOTO 10\n10".toList = u at hheads
  cases hheads with
  | here hhead => cases hgoto.symm.trans hhead
  | later _ _ hlater =>
      cases hlater with
      | here _ =>
          have hrest : Text.pastGap (Text.afterLine "GOTO 10\n10".toList) = "10".toList := rfl
          have hlen := congrArg List.length (hu.trans hrest)
          rw [List.length_drop, hlength, show List.length "10".toList = 2 from rfl] at hlen
          have htarget : target = 8 := by omega
          rw [hpos, htarget]
          decide
      | later hhead hne _ =>
          cases hbelow.symm.trans hhead
          exact absurd rfl hne

/-- A jump to the line below is taken, and the run ends. -/
theorem halts_jump_down :
    ∃ m, load ⟨"GOTO 10\n10".toList, []⟩ ⟨16, by decide⟩ {} {} = .ok m ∧
      Text.JumpsForward "GOTO 10\n10".toList ∧ (m.called 1).cursor.token.start = 10 ∧
      m.Halts 10 := by
  let m := fresh ⟨⟨"GOTO 10\n10".toList, []⟩, .first, ⟨.keyword .GOTO, 1, 1, 0, 4⟩⟩
    ⟨16, by decide⟩ {} {}
  have hload : load ⟨"GOTO 10\n10".toList, []⟩ ⟨16, by decide⟩ {} {} = .ok m := rfl
  have hlanded : (m.called 1).cursor.token.start = 10 := by decide +kernel
  obtain ⟨-, -, -, hhalts⟩ := loops_only_by_jumps_back hload
  exact ⟨m, hload, jumpsForward_jump_down, hlanded, hhalts (.inr jumpsForward_jump_down)⟩

end Machine

end LineBasic
