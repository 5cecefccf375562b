import LineBasic.Proofs.Finishing
import LineBasic.Proofs.ForwardJumps
import LineBasic.Proofs.Inward

/-!
# Where jumps land

A jump compares two readings of the text. The survey has visited every token outside
remarks and has recorded the numbers that read as line numbers; the search hops from
line to line and looks at the first token of each, whatever it reads as. So a number is
missing if the survey has not recorded it, and of those that it has recorded the ones
that begin no line cannot be reached. All others lead to the first line that begins with
them, on the token behind the number.

Lines are told by their offsets here: a line starts at the beginning of the text and
behind every line end.
-/
namespace LineBasic

namespace Text

variable {t : Text} {s pos stop : Nat}

/-- A line of the text starts at an offset. -/
def StartsLine (t : Text) (s : Nat) : Prop := s = 0 ∨ ∃ q, t[q]? = some '\n' ∧ s = q + 1

/-- No line ends from an offset on and before another. -/
def Unbroken (t : Text) (pos stop : Nat) : Prop := ∀ q, pos ≤ q → q < stop → t[q]? ≠ some '\n'

/-- The line that starts at an offset begins with a number that takes a number of digits. -/
structure Heading (t : Text) (number : Int) (s length : Nat) : Prop where
  starts : t.StartsLine s
  header : ∃ value : Nat, (value : Int) = number ∧
    Lexeme.read (pastGap (t.drop s)) = .ok (.number value, length)

/-- No line above begins with the same number. -/
structure FirstHeading (t : Text) (number : Int) (s length : Nat) : Prop
    extends Heading t number s length where
  first : ∀ s' length', t.Heading number s' length' → s ≤ s'

/-- A number that stands outside remarks and reads as a line number. -/
def Listed (t : Text) (number : Int) : Prop := ∃ value : Nat, (value : Int) = number ∧ t.Numbers value

theorem Unbroken.trans {more : Nat} (h : t.Unbroken pos stop) (h' : t.Unbroken stop more) :
    t.Unbroken pos more := by
  intro q hpos hmore
  by_cases hstop : q < stop
  · exact h q hpos hstop
  · exact h' q (Nat.not_lt.1 hstop) hmore

theorem unbroken_of_take {n : Nat} (h : '\n' ∉ (t.drop s).take n) : t.Unbroken s (s + n) := by
  intro q hs hq hnewline
  apply h
  apply List.mem_of_getElem? (i := q - s)
  rw [List.getElem?_take_of_lt (by omega), List.getElem?_drop, Nat.add_sub_cancel' hs, hnewline]

theorem newline_notMem_line (t : Text) : '\n' ∉ t.takeWhile (· != '\n') := by
  intro hmem
  have hnot := List.all_eq_true.1 (List.all_takeWhile (p := (· != '\n')) (l := t)) _ hmem
  exact absurd hnot (by decide)

theorem lineOf_succ (t : Text) (q : Nat) :
    t.lineOf (q + 1) = t.lineOf q + if t[q]? = some '\n' then 1 else 0 := by
  unfold lineOf
  rw [List.take_add_one, List.count_append]
  cases t[q]? with
  | none => simp
  | some c => by_cases hc : c = '\n' <;> simp [hc]

theorem Unbroken.lineOf_eq (h : t.Unbroken pos stop) (hle : pos ≤ stop) :
    t.lineOf stop = t.lineOf pos := by
  induction hle with
  | refl => rfl
  | @step stop hle ih =>
      rw [lineOf_succ, if_neg (h stop hle (Nat.lt_succ_self _)), Nat.add_zero]
      exact ih fun q hpos hq => h q hpos (Nat.lt_succ_of_lt hq)

/-- Before every offset there is the start of its line. -/
theorem exists_startsLine (t : Text) (pos : Nat) :
    ∃ s ≤ pos, t.StartsLine s ∧ t.Unbroken s pos := by
  induction pos with
  | zero => exact ⟨0, Nat.le_refl _, .inl rfl, fun q _ hq => absurd hq (Nat.not_lt_zero q)⟩
  | succ pos ih =>
      by_cases hpos : t[pos]? = some '\n'
      · exact ⟨pos + 1, Nat.le_refl _, .inr ⟨pos, hpos, rfl⟩, fun q hle hlt => by omega⟩
      · obtain ⟨s, hs, hstarts, hunbroken⟩ := ih
        refine ⟨s, Nat.le_succ_of_le hs, hstarts, ?_⟩
        intro q hle hlt
        rcases Nat.lt_succ_iff_lt_or_eq.1 hlt with hlt | rfl
        · exact hunbroken q hle hlt
        · exact hpos

end Text

namespace Sheet

variable {sheet : Sheet} {pos stop : Nat}

theorem unbroken_entry (sheet : Sheet) (pos : Nat) :
    sheet.text.Unbroken pos (sheet.entry pos) := by
  apply Text.unbroken_of_take
  rw [Text.take_takeWhile]
  exact Text.newline_notMem_gap _

/-- The line end that is found is the first one. -/
theorem lineEnd?_eq_some (h : sheet.lineEnd? pos = some stop) :
    pos ≤ stop ∧ sheet.text[stop]? = some '\n' ∧ sheet.text.Unbroken pos stop := by
  unfold lineEnd? at h
  generalize hrest : sheet.text.drop pos = rest at h
  have hsplit : rest.takeWhile (· != '\n') ++ rest.dropWhile (· != '\n') = rest :=
    List.takeWhile_append_dropWhile
  simp only at h
  split at h
  · cases h
  · rename_i c more hdrop
    cases h
    have hc : c = '\n' := by
      have hhead := List.head?_dropWhile_not (· != '\n') rest
      rw [hdrop] at hhead
      simpa using hhead
    refine ⟨Nat.le_add_right _ _, ?_, ?_⟩
    · rw [← List.getElem?_drop, hrest]
      conv => lhs; arg 1; rw [← hsplit]
      rw [List.getElem?_append_right (Nat.le_refl _), hdrop, Nat.sub_self, hc]
      rfl
    · apply Text.unbroken_of_take
      rw [hrest, Text.take_takeWhile]
      exact Text.newline_notMem_line _

theorem unbroken_of_lineEnd?_none (h : sheet.lineEnd? pos = none) (stop : Nat) :
    sheet.text.Unbroken pos stop := by
  have hnone : '\n' ∉ sheet.text.drop pos := by
    unfold lineEnd? at h
    simp only at h
    split at h
    · rename_i hnil
      rw [← List.takeWhile_append_dropWhile (p := (· != '\n')) (l := sheet.text.drop pos), hnil,
        List.append_nil]
      exact Text.newline_notMem_line _
    · cases h
  intro q hpos _ hnewline
  apply hnone
  apply List.mem_of_getElem? (i := q - pos)
  rw [List.getElem?_drop, Nat.add_sub_cancel' hpos, hnewline]

/-- A line end that no other is before is found. -/
theorem lineEnd?_of_unbroken (hle : pos ≤ stop) (hnewline : sheet.text[stop]? = some '\n')
    (hunbroken : sheet.text.Unbroken pos stop) : sheet.lineEnd? pos = some stop := by
  cases h : sheet.lineEnd? pos with
  | none => exact absurd hnewline (unbroken_of_lineEnd?_none h (stop + 1) stop hle (by omega))
  | some found =>
      obtain ⟨hpos, hfound, hbefore⟩ := lineEnd?_eq_some h
      rcases Nat.lt_trichotomy found stop with hlt | rfl | hlt
      · exact absurd hfound (hunbroken found hpos hlt)
      · rfl
      · exact absurd hnewline (hbefore stop hle hlt)

end Sheet

/-- Reading a text comes to every line of it. -/
theorem Text.StartsLine.visits {t : Text} (hreadable : t.Readable) {s : Nat}
    (h : t.StartsLine s) : t.Visits (pastGap (t.drop s)) ∧ Text.Readable (t.drop s) := by
  induction s using Nat.strongRecOn with
  | _ s ih =>
  rcases h with rfl | ⟨q, hnewline, rfl⟩
  · exact ⟨.first, hreadable⟩
  -- The line above has been come to, and its rest is this line.
  obtain ⟨above, hle, hstarts, hunbroken⟩ := t.exists_startsLine q
  obtain ⟨hvisits, honward⟩ := ih above (Nat.lt_succ_of_le hle) hstarts
  have hend : Sheet.lineEnd? ⟨t, []⟩ above = some q :=
    Sheet.lineEnd?_of_unbroken hle hnewline hunbroken
  have hbelow : t.drop (q + 1) = afterLine (t.drop above) := by
    rcases Sheet.lineEnd?_eq ⟨t, []⟩ above with ⟨hnone, -⟩ | ⟨stop, hsome, hdrop⟩
    · cases hnone.symm.trans hend
    · cases hsome.symm.trans hend
      exact hdrop
  rw [hbelow]
  exact ⟨hvisits.afterLine honward, honward.afterLine⟩

/-- A number at the start of a line is recorded if it reads as a line number. -/
theorem Text.Heading.listed {t : Text} (hreadable : t.Readable) {value s length : Nat}
    (h : t.Heading value s length) (hnumber : Cursor.isLineNumber value = true)
    (hcloses : Text.closes true ((pastGap (t.drop s)).drop length) = true) : t.Listed value := by
  obtain ⟨known, hsame, hread⟩ := h.header
  obtain rfl := Int.ofNat_inj.1 hsame
  exact ⟨_, rfl, _, length, (h.starts.visits hreadable).1, hread, hnumber, hcloses⟩

namespace Cursor

variable {c d : Cursor} {s : Nat}

/-- The cursor is on the first token of the line that starts at an offset. -/
structure Leads (c : Cursor) (s : Nat) : Prop extends Steady c where
  starts : c.sheet.text.StartsLine s
  origin : c.origin = ⟨c.sheet.text.lineOf s + 1, s⟩
  start : c.token.start = c.sheet.entry s

/-- The cursor is on the token behind the number at the beginning of a line, and takes
this line to be the current one. -/
structure Follows (c : Cursor) (s length : Nat) : Prop where
  origin : c.origin = ⟨c.sheet.text.lineOf s + 1, s⟩
  token : c.sheet.tokenAt c.origin (c.sheet.entry s + length) = .ok c.token
  line : c.sheet.text.lineOf c.token.start = c.sheet.text.lineOf s
  visited : c.sheet.text.Visits c.ahead

theorem leads_of_start {sheet : Sheet} (hreadable : sheet.text.Readable) :
    ∃ first : Cursor, Cursor.start sheet = .ok first ∧ first.Leads 0 ∧ first.sheet = sheet := by
  obtain ⟨first, hstart, hsteady, hsheet, -⟩ := Steady.start sheet hreadable
  refine ⟨first, hstart, ⟨hsteady, .inl rfl, ?_, ?_⟩, hsheet⟩
  · obtain ⟨l, n, -, rfl⟩ := start_eq_ok hstart
    simp [Origin.first, Text.lineOf]
  · obtain ⟨l, n, -, rfl⟩ := start_eq_ok hstart
    rfl

namespace Leads

theorem ahead_eq (h : c.Leads s) : c.ahead = Text.pastGap (c.sheet.text.drop s) := by
  rw [ahead, h.start, Sheet.drop_entry]

/-- The first token of the line. -/
theorem read (h : c.Leads s) :
    Lexeme.read (Text.pastGap (c.sheet.text.drop s)) =
      .ok (c.token.lexeme, c.token.stop - c.token.start) := by
  rw [← h.ahead_eq]
  exact h.here

/-- Past its rest comes the next line, or there is none. -/
theorem skipLine (h : c.Leads s) (hend : c.token.lexeme ≠ .sourceEnd) :
    ∃ d, Cursor.skipLine c = .ok () d ∧ d.sheet = c.sheet ∧ d.ahead.length < c.ahead.length ∧
      ((∃ below, d.Leads below ∧ ∀ s', c.sheet.text.StartsLine s' → s' ≤ s ∨ below ≤ s') ∨
        d.token.lexeme = .sourceEnd ∧ ∀ s', c.sheet.text.StartsLine s' → s' ≤ s) := by
  obtain ⟨d, hd, hsteady, hsheet, hahead, hless⟩ := h.toSteady.skipLine hend
  refine ⟨d, hd, hsheet, hless, ?_⟩
  rw [skipLine_eq_moveTo hend] at hd
  obtain ⟨l, n, hread, hlanded⟩ := landed_of_moveTo hd
  have hgap := c.sheet.unbroken_entry s
  rw [← h.start] at hgap
  have hstart : s ≤ c.token.start := by
    rw [h.start]
    exact Nat.le_add_right _ _
  cases hline : c.sheet.lineEnd? c.token.start with
  | none =>
      right
      have hnone := Sheet.unbroken_of_lineEnd?_none hline
      refine ⟨?_, ?_⟩
      · simp only [skipOffset, hline, List.drop_length] at hread
        cases hread
        rw [hlanded]
        rfl
      · rintro s' (rfl | ⟨q, hnewline, rfl⟩)
        · exact Nat.zero_le _
        · apply Nat.le_of_not_lt
          intro hlt
          exact hgap.trans (hnone (q + 1)) q (Nat.le_of_lt_succ hlt) (Nat.lt_succ_self q) hnewline
  | some stop =>
      left
      obtain ⟨hle, hnewline, hunbroken⟩ := Sheet.lineEnd?_eq_some hline
      have hwhole := hgap.trans hunbroken
      refine ⟨stop + 1, ⟨hsteady, ?_, ?_, ?_⟩, ?_⟩
      · rw [hsheet]
        exact .inr ⟨stop, hnewline, rfl⟩
      · rw [hlanded]
        simp only [landed, skipOrigin, hline, Text.lineOf_succ, hnewline, if_true,
          hwhole.lineOf_eq (Nat.le_trans hstart hle), h.origin]
      · rw [hlanded]
        simp only [landed, Sheet.found, skipOffset, hline]
      · rintro s' (rfl | ⟨q, hq, rfl⟩)
        · exact .inl (Nat.zero_le _)
        · apply Classical.byContradiction
          intro hnot
          exact hwhole q (by omega) (by omega) hq

/-- Nothing but the end of the source behind: no line starts there. -/
theorem startsLine_le (h : c.Leads s) (hend : c.token.lexeme = .sourceEnd) {s' : Nat}
    (hstarts : c.sheet.text.StartsLine s') : s' ≤ s := by
  rcases hstarts with rfl | ⟨q, hnewline, rfl⟩
  · exact Nat.zero_le _
  · apply Nat.le_of_not_lt
    intro hlt
    have hnil : c.ahead = [] := h.spans.ending.1 hend
    have hlength : c.sheet.text.length ≤ c.sheet.entry s := by
      rw [← h.start]
      exact List.drop_eq_nil_iff.1 hnil
    have hq : q < c.sheet.text.length := (List.getElem?_eq_some_iff.1 hnewline).1
    exact c.sheet.unbroken_entry s q (Nat.le_of_lt_succ hlt) (Nat.lt_of_lt_of_le hq hlength) hnewline

/-- Behind a number the line goes on. -/
theorem next (h : c.Leads s) {value : Nat} (hnumber : c.token.lexeme = .number value) :
    ∃ d, Cursor.next c = .ok () d ∧ d.sheet = c.sheet ∧
      d.Follows s (c.token.stop - c.token.start) := by
  have hend : c.token.lexeme ≠ .sourceEnd := by simp [hnumber]
  obtain ⟨d, hd, hsteady, hsheet, -⟩ := h.toSteady.next hend (by simp [hnumber])
  refine ⟨d, hd, hsheet, ?_⟩
  have hstop : c.sheet.entry s + (c.token.stop - c.token.start) = c.token.stop := by
    rw [← h.start, Nat.add_sub_cancel' h.le]
  have horigin : c.nextOrigin = c.origin := by simp [nextOrigin, hnumber]
  rw [next_eq_moveTo hend, horigin] at hd
  obtain ⟨l, n, hread, rfl⟩ := landed_of_moveTo hd
  refine ⟨h.origin, ?_, ?_, hsteady.visited⟩
  · show c.sheet.tokenAt c.origin (c.sheet.entry s + _) = _
    rw [hstop]
    exact Sheet.tokenAt_of_read _ hread
  · -- A gap, the digits of the number and again a gap are between.
    show c.sheet.text.lineOf (c.sheet.entry c.token.stop) = _
    have hdigits : c.sheet.text.Unbroken c.token.start c.token.stop := by
      have hinLine := h.spans.inLine (by simp [hnumber])
      have hbetween := Text.unbroken_of_take hinLine
      rwa [Nat.add_sub_cancel' h.le] at hbetween
    have hgap := c.sheet.unbroken_entry s
    rw [← h.start] at hgap
    have hall := (hgap.trans hdigits).trans (c.sheet.unbroken_entry c.token.stop)
    apply hall.lineOf_eq
    have hfirst : s ≤ c.token.start := by
      rw [h.start]
      exact Nat.le_add_right _ _
    exact Nat.le_trans (Nat.le_trans hfirst h.le) (Nat.le_add_right _ _)

end Leads

end Cursor

namespace Machine

variable {m p : Machine} {number : Int} {sheet : Sheet} {s : Nat}

theorem seekLine_of_end (h : m.cursor.token.lexeme = .sourceEnd) :
    seekLine number () m = .ok (.done false) m := by
  unfold seekLine
  rw [lexeme_bind_apply, h]
  rfl

theorem seekLine_of_number {value : Nat} {d : Cursor} (h : m.cursor.token.lexeme = .number value)
    (hvalue : (value : Int) = number) (hd : Cursor.next m.cursor = .ok () d) :
    seekLine number () m = .ok (.done true) (m.movedTo d) := by
  unfold seekLine
  rw [lexeme_bind_apply, h]
  simp only [hvalue, if_true]
  exact bind_of_ok (onCursor_of_ok hd)

theorem seekLine_of_other {d : Cursor} (hend : m.cursor.token.lexeme ≠ .sourceEnd)
    (hother : ∀ value : Nat, m.cursor.token.lexeme = .number value → (value : Int) ≠ number)
    (hd : Cursor.skipLine m.cursor = .ok () d) :
    seekLine number () m = .ok (.again ()) (m.movedTo d) := by
  have hskip : (skipLine >>= fun _ => pure (Round.again () : Round Unit Bool)) m =
      .ok (.again ()) (m.movedTo d) := bind_of_ok (onCursor_of_ok hd)
  unfold seekLine
  rw [lexeme_bind_apply]
  generalize m.cursor.token.lexeme = l at hend hother ⊢
  cases l with
  | sourceEnd => exact absurd rfl hend
  | number value =>
      simp only [hother value rfl, if_false]
      exact hskip
  | _ => exact hskip

/-- What a search comes to: behind the number of the first line that begins with it, or
to the end of the source if there is none. -/
inductive Searches (sheet : Sheet) (number : Int) (m : Machine) :
    EStateM.Result Fault Machine Bool → Prop
  | found {d : Cursor} {s length : Nat} : sheet.text.FirstHeading number s length → d.sheet = sheet →
      d.Follows s length → Searches sheet number m (.ok true (m.movedTo d))
  | none {d : Cursor} : (¬ ∃ s length, sheet.text.Heading number s length) → d.token.lexeme = .sourceEnd →
      Searches sheet number m (.ok false (m.movedTo d))

/-- The search from a line on, if none above it begins with the number. -/
theorem iterate_seekLine {fuel : Nat} (h : m.cursor.Leads s) (hsheet : m.cursor.sheet = sheet)
    (hfuel : m.toGo < fuel) (habove : ∀ s' length, sheet.text.Heading number s' length → s ≤ s') :
    Searches sheet number m (iterate (seekLine number) fuel () m) := by
  induction fuel generalizing m s with
  | zero => exact absurd hfuel (Nat.not_lt_zero _)
  | succ fuel ih =>
  obtain rfl := hsheet
  by_cases hend : m.cursor.token.lexeme = .sourceEnd
  · rw [iterate_of_done (seekLine_of_end hend)]
    refine Searches.none (d := m.cursor) ?_ hend
    rintro ⟨s', length, hheading⟩
    obtain rfl := Nat.le_antisymm (habove s' length hheading) (h.startsLine_le hend hheading.starts)
    obtain ⟨value, -, hread⟩ := hheading.header
    rw [h.read, hend] at hread
    cases hread
  by_cases hhere : ∃ value : Nat, m.cursor.token.lexeme = .number value ∧ (value : Int) = number
  · obtain ⟨value, hlexeme, hvalue⟩ := hhere
    obtain ⟨d, hd, hsheet, hfollows⟩ := h.next hlexeme
    rw [iterate_of_done (seekLine_of_number hlexeme hvalue hd)]
    exact .found ⟨⟨h.starts, value, hvalue, hlexeme ▸ h.read⟩, habove⟩ hsheet hfollows
  · have hother : ∀ value : Nat, m.cursor.token.lexeme = .number value → (value : Int) ≠ number :=
      fun value hlexeme hvalue => hhere ⟨value, hlexeme, hvalue⟩
    have hnot : ∀ length, ¬ m.cursor.sheet.text.Heading number s length := by
      rintro length ⟨-, value, hvalue, hread⟩
      rw [h.read] at hread
      exact hother value (congrArg Prod.fst (Except.ok.inj hread)) hvalue
    obtain ⟨d, hd, hsheet, hless, hnext⟩ := h.skipLine hend
    rw [iterate_of_again (seekLine_of_other hend hother hd)]
    have htoGo : (m.movedTo d).toGo < fuel := Nat.lt_of_lt_of_le hless (Nat.le_of_lt_succ hfuel)
    rcases hnext with ⟨below, hleads, hbetween⟩ | ⟨hlast, hnone⟩
    · have hbelow : ∀ s' length, m.cursor.sheet.text.Heading number s' length → below ≤ s' := by
        intro s' length hheading
        rcases hbetween s' hheading.starts with hle | hle
        · obtain rfl := Nat.le_antisymm (habove s' length hheading) hle
          exact absurd hheading (hnot length)
        · exact hle
      have hrest := ih (m := m.movedTo d) hleads hsheet htoGo hbelow
      generalize iterate (seekLine number) fuel () (m.movedTo d) = r at hrest ⊢
      cases hrest with
      | found hfirst hd hfollows => exact .found hfirst hd hfollows
      | none hnone hlast => exact .none hnone hlast
    · obtain ⟨fewer, rfl⟩ : ∃ fewer, fuel = fewer + 1 := ⟨fuel - 1, by omega⟩
      rw [iterate_of_done (seekLine_of_end (m := m.movedTo d) hlast)]
      refine .none ?_ hlast
      rintro ⟨s', length, hheading⟩
      obtain rfl := Nat.le_antisymm (habove s' length hheading) (hnone s' hheading.starts)
      exact hnot length hheading

/-- A machine on a sheet whose index holds exactly the line numbers of the text. -/
structure Charted (sheet : Sheet) (m : Machine) : Prop where
  sheet_eq : m.cursor.sheet = sheet
  index : ∀ k, k ∈ m.index.numbers ↔ sheet.text.Numbers k

theorem Charted.has_iff (h : m.Charted sheet) :
    m.index.has number = true ↔ sheet.text.Listed number := by
  simp only [LineIndex.has, List.any_eq_true, beq_iff_eq, h.index, Text.Listed]
  constructor
  · rintro ⟨k, hk, hsame⟩
    exact ⟨k, hsame, hk⟩
  · rintro ⟨k, hsame, hk⟩
    exact ⟨k, hk, hsame⟩

/-- The three ends of a jump. In each of them nothing but the listing and the reports has
changed. -/
inductive Jumped (sheet : Sheet) (number : Int) (m : Machine) :
    EStateM.Result Fault Machine Unit → Prop
  | missing {l : Listing} {r : Reports} : ¬ sheet.text.Listed number →
      Jumped sheet number m
        (.error (.error ⟨.missingLine number, none, none⟩) (m.turned l r m.output))
  | landed {l : Listing} {r : Reports} {s length : Nat} : sheet.text.Listed number →
      sheet.text.FirstHeading number s length → l.cursor.sheet = sheet →
      l.cursor.Follows s length → Jumped sheet number m (.ok () (m.turned l r m.output))
  | unreachable {l : Listing} {r : Reports} : sheet.text.Listed number →
      (¬ ∃ s length, sheet.text.Heading number s length) → l.cursor.token.lexeme = .sourceEnd →
      Jumped sheet number m
        (.error (.error ⟨.unreachableLine number, none, none⟩) (m.turned l r m.output))

theorem jumpIndexed_jumped (h : m.Charted sheet) (hreadable : sheet.text.Readable)
    (hwritable : Numeral.writable number = true) :
    Jumped sheet number m (jumpIndexed number m) := by
  unfold jumpIndexed
  by_cases hhas : m.index.has number = true
  · rw [if_pos hhas]
    obtain rfl := h.sheet_eq
    have hlisted := h.has_iff.1 hhas
    obtain ⟨first, hstart, hleads, hsheet⟩ := Cursor.leads_of_start hreadable
    rw [bind_of_ok (onCursor_of_ok (Cursor.reset_of_start hstart))]
    have hsearch : Searches m.cursor.sheet number (m.movedTo first)
        (findLine number (m.movedTo first)) :=
      iterate_seekLine hleads hsheet (m.movedTo first).toGo_lt_moves fun _ _ _ => Nat.zero_le _
    unfold land
    rw [bind_apply]
    generalize findLine number (m.movedTo first) = r at hsearch ⊢
    cases hsearch with
    | found hfirst hsame hfollows =>
        exact .landed (l := ⟨_, m.index⟩) (r := m.reports) hlisted hfirst hsame hfollows
    | @none d hnone hend =>
        simp only [Bool.not_false, if_true]
        rw [failLine_apply, if_pos hwritable]
        exact .unreachable (l := ⟨d, m.index⟩) hlisted hnone hend
  · rw [if_neg hhas, failLine_apply, if_pos hwritable]
    exact .missing (l := m.listing) (mt h.has_iff.2 hhas)

/-- An index that is built anew holds the same numbers. -/
theorem buildIndex_charted (h : m.Charted sheet) (hreadable : sheet.text.Readable) :
    ∃ l r, buildIndex m = .ok () (m.turned l r m.output) ∧
      (m.turned l r m.output).Charted sheet := by
  obtain rfl := h.sheet_eq
  obtain ⟨first, hstart, -⟩ := Cursor.start_of_readable _ hreadable
  obtain ⟨index, hbuild, hindex, hwritten⟩ := survey_of_readable hstart hreadable
  exact ⟨_, _, buildIndex_of_build hbuild hwritten, Cursor.sheet_of_start hstart, hindex⟩

theorem jump_jumped (h : m.Charted sheet) (hreadable : sheet.text.Readable)
    (hwritable : Numeral.writable number = true) : Jumped sheet number m (jump number m) := by
  rw [jump_apply]
  split
  · obtain ⟨l, r, hbuilt, hcharted⟩ := buildIndex_charted h hreadable
    rw [bind_of_ok hbuilt]
    have hjumped := jumpIndexed_jumped hcharted hreadable hwritable
    generalize jumpIndexed number (m.turned l r m.output) = result at hjumped ⊢
    cases hjumped with
    | missing hnot => exact .missing hnot
    | landed hlisted hfirst hsame hfollows => exact .landed hlisted hfirst hsame hfollows
    | unreachable hlisted hnone hend => exact .unreachable hlisted hnone hend
  · exact jumpIndexed_jumped h hreadable hwritable

/-- That the index holds exactly the line numbers of a text, as an invariant. -/
def charting (sheet : Sheet) (hreadable : sheet.text.Readable) : Invariant where
  Holds m := m.cursor.Lies sheet ∧ m.Charted sheet
  Value _ := True
  reports h _ := ⟨h.1, h.2.1, h.2.2⟩
  output h _ := ⟨h.1, h.2.1, h.2.2⟩
  started h := ⟨h.1, h.2.1, h.2.2⟩
  finished h := ⟨h.1, h.2.1, h.2.2⟩
  next h := ⟨h.1.next, h.1.next.sheet_eq, h.2.index⟩
  skipLine h := ⟨h.1.skipLine, h.1.skipLine.sheet_eq, h.2.index⟩
  reset h := ⟨h.1.reset, h.1.reset.sheet_eq, h.2.index⟩
  build := by
    rintro m ⟨hlies, -⟩
    obtain rfl := hlies.sheet_eq
    obtain ⟨first, hstart, -⟩ := Cursor.start_of_readable _ hreadable
    obtain ⟨index, hbuild, hindex, -⟩ := survey_of_readable hstart hreadable
    rw [leftBy, hbuild]
    exact ⟨Cursor.lies_of_start hstart, Cursor.sheet_of_start hstart, hindex⟩
  zero := trivial
  wrap _ _ := trivial
  read _ _ _ _ := trivial
  assign h _ _ _ _ _ := ⟨h.1, h.2.1, h.2.2⟩

/-- From its first step on a machine has the index of its text. -/
theorem charted_called (size : WordSize) (output : Output) (reports : Reports) {first : Cursor}
    (hstart : Cursor.start sheet = .ok first) (hreadable : sheet.text.Readable) (count : Nat) :
    ((fresh first size output reports).called (count + 1)).Charted sheet := by
  obtain rfl := Cursor.sheet_of_start hstart
  obtain ⟨index, hbuild, hindex, hwritten⟩ :=
    survey_of_readable (l := ⟨first, .empty⟩) hstart hreadable
  have hstep : step (fresh first size output reports) = step _ :=
    step_of_survey rfl hbuild hwritten
  have hholds : (charting first.sheet hreadable).Holds
      ((fresh first size output reports).begun ⟨first, index⟩) :=
    ⟨Cursor.lies_of_start hstart, rfl, hindex⟩
  rw [(called_of_step_eq hstep count).2]
  exact (holds_called hholds (count + 1)).2

/-- In a text that the survey has read, from wherever the cursor is after the first step,
a jump ends in one of its three ways; and a number at the beginning of a line can be
jumped to if it reads as a line number. -/
theorem jumps_land {size : WordSize} {output : Output} {reports : Reports} {surveyed : Listing}
    (h : load sheet size output reports = .ok m)
    (hsurvey : Listing.build m.listing = .ok () surveyed) (count : Nat) {c : Cursor}
    (hc : c.sheet = sheet) {number : Int} (hwritable : Numeral.writable number = true) :
    Jumped sheet number ((m.called (count + 1)).movedTo c)
        (jump number ((m.called (count + 1)).movedTo c)) ∧
      ∀ value s length : Nat, (value : Int) = number → sheet.text.Heading number s length →
        Cursor.isLineNumber value = true →
        Text.closes true (sheet.text.drop (sheet.entry s + length)) = true →
        ∃ landing, jump number ((m.called (count + 1)).movedTo c) = .ok () landing := by
  obtain ⟨first, hstart, rfl⟩ := start_of_load h
  have hreadable : sheet.text.Readable := by
    have hsheet := Cursor.sheet_of_start hstart
    rcases Listing.build_outcome (l := ⟨first, .empty⟩) (hsheet.symm ▸ hstart) with
      ⟨-, -, hreadable, -⟩ | ⟨f, after, hfail, -⟩
    · exact hsheet ▸ hreadable
    · cases hfail.symm.trans hsurvey
  have hat : (((fresh first size output reports).called (count + 1)).movedTo c).Charted sheet :=
    ⟨hc, (charted_called size output reports hstart hreadable count).index⟩
  have hjumped := jump_jumped hat hreadable hwritable
  refine ⟨hjumped, ?_⟩
  rintro value s length rfl hheading hnumber hcloses
  rw [← List.drop_drop, Sheet.drop_entry] at hcloses
  have hlisted := hheading.listed hreadable hnumber hcloses
  generalize jump value _ = result at hjumped ⊢
  cases hjumped with
  | missing hnot => exact absurd hlisted hnot
  | landed => exact ⟨_, rfl⟩
  | unreachable _ hnone _ => exact absurd ⟨s, length, hheading⟩ hnone

/-- A number that begins two lines and stands in a string besides. -/
theorem jumps_land_above :
    let sheet : Sheet := ⟨"10 PRINT \"20\"\n20 REM 30\n020 GOTO 20\n".toList, []⟩
    let m := fresh ⟨sheet, .first, ⟨.number 10, 1, 1, 0, 2⟩⟩ ⟨16, by decide⟩ {} {}
    load sheet ⟨16, by decide⟩ {} {} = .ok m ∧
      (∃ surveyed, Listing.build m.listing = .ok () surveyed) ∧ Numeral.writable 20 = true ∧
      sheet.text.Heading 20 24 3 ∧
      Jumped sheet 20 ((m.called 1).movedTo m.cursor) (jump 20 ((m.called 1).movedTo m.cursor)) ∧
      ∃ landing, jump 20 ((m.called 1).movedTo m.cursor) = .ok () landing := by
  intro sheet m
  have hstart : Cursor.start m.cursor.sheet = .ok m.cursor := rfl
  have hload : load sheet ⟨16, by decide⟩ {} {} = .ok m := load_of_start hstart _ _ _
  have hgoes : m.call 0 = .ok true := by decide +kernel
  have hsurvey : ∃ surveyed, Listing.build m.listing = .ok () surveyed := by
    have hreadable := readable_of_step hstart (step_of_call hgoes)
    obtain ⟨index, hbuild, -⟩ := survey_of_readable (l := m.listing) hstart hreadable
    exact ⟨_, hbuild⟩
  have hwritable : Numeral.writable 20 = true := by decide +kernel
  have hheading : sheet.text.Heading 20 24 3 := ⟨.inr ⟨23, rfl, rfl⟩, 20, rfl, rfl⟩
  obtain ⟨surveyed, hbuild⟩ := id hsurvey
  obtain ⟨hjumped, hreaches⟩ := jumps_land hload hbuild 0 (c := m.cursor) rfl hwritable
  exact ⟨hload, hsurvey, hwritable, hheading, hjumped,
    hreaches 20 24 3 rfl hheading (by decide) (by decide)⟩

end Machine

end LineBasic
