import LineBasic.LineIndex
import LineBasic.Proofs.Action
import LineBasic.Proofs.Reading

/-!
# Where a cursor stands

A cursor is `Placed` when its token is the lexeme that stands at the token's own
start, and `Sound` when, besides, the whole text and what lies ahead can be read
to the end. From a sound cursor every move but one succeeds and is sound again:
the cursor must not step over the word of a remark.

`Cursor.ahead` is the text from the current token on. Every move shortens it,
which bounds the loops.
-/
namespace LineBasic

/-- A failure to read a lexeme. -/
def Fault.Lexical : Fault → Prop
  | .error e => e.errorClass = .lexical
  | .numeral _ => True
  | _ => False

namespace Sheet

/-- Where the token found from an offset on starts. -/
def entry (sheet : Sheet) (pos : Nat) : Nat :=
  pos + ((sheet.text.drop pos).takeWhile Text.isGap).length

theorem drop_entry (sheet : Sheet) (pos : Nat) :
    sheet.text.drop (sheet.entry pos) = Text.pastGap (sheet.text.drop pos) := by
  rw [entry, ← List.drop_drop, Text.pastGap_eq_drop]

theorem entry_le {sheet : Sheet} {pos : Nat} (h : pos ≤ sheet.text.length) :
    sheet.entry pos ≤ sheet.text.length := by
  have hgap := (List.takeWhile_prefix (l := sheet.text.drop pos) Text.isGap).length_le
  rw [List.length_drop] at hgap
  unfold entry
  omega

/-- The token of a lexeme found from an offset on. -/
def found (sheet : Sheet) (origin : Origin) (pos : Nat) (l : Lexeme) (n : Nat) : Token :=
  ⟨l, origin.line, column origin (sheet.entry pos), sheet.entry pos, sheet.entry pos + n⟩

theorem tokenAt_of_read {sheet : Sheet} (origin : Origin) {pos : Nat} {l : Lexeme} {n : Nat}
    (h : Lexeme.read (Text.pastGap (sheet.text.drop pos)) = .ok (l, n)) :
    sheet.tokenAt origin pos = .ok (sheet.found origin pos l n) := by
  unfold Text.pastGap at h
  simp only [tokenAt, h, found, entry]

/-- The fault of a lexeme that cannot be read at an offset. -/
def fault (sheet : Sheet) (origin : Origin) (pos : Nat) : Lexeme.Fault → Fault
  | .unterminatedString =>
      .error (sheet.errorAtOffset origin (sheet.entry pos) .unterminatedString)
  | .unexpectedCharacter c =>
      .error (sheet.errorAtOffset origin (sheet.entry pos) (.unexpectedCharacter c))
  | .numeral f => .numeral f

theorem tokenAt_of_fault {sheet : Sheet} (origin : Origin) {pos : Nat} {f : Lexeme.Fault}
    (h : Lexeme.read (Text.pastGap (sheet.text.drop pos)) = .error f) :
    sheet.tokenAt origin pos = .error (sheet.fault origin pos f) := by
  unfold Text.pastGap at h
  cases f <;> simp only [tokenAt, h, fault, entry]

theorem lexical_fault (sheet : Sheet) (origin : Origin) (pos : Nat) (f : Lexeme.Fault) :
    (sheet.fault origin pos f).Lexical := by
  cases f <;> trivial

theorem lineEnd?_eq (sheet : Sheet) (pos : Nat) :
    (sheet.lineEnd? pos = none ∧ Text.afterLine (sheet.text.drop pos) = []) ∨
      ∃ stop, sheet.lineEnd? pos = some stop ∧
        sheet.text.drop (stop + 1) = Text.afterLine (sheet.text.drop pos) := by
  generalize hrest : sheet.text.drop pos = rest
  cases hd : rest.dropWhile (· != '\n') with
  | nil => exact .inl ⟨by simp [lineEnd?, hrest, hd], by simp [Text.afterLine, hd]⟩
  | cons c more =>
      refine .inr ⟨pos + (rest.takeWhile (· != '\n')).length, by simp [lineEnd?, hrest, hd], ?_⟩
      have hsplit : rest.takeWhile (· != '\n') ++ rest.dropWhile (· != '\n') = rest :=
        List.takeWhile_append_dropWhile
      rw [Nat.add_assoc, ← List.drop_drop, hrest, Text.afterLine, ← List.drop_drop]
      conv => lhs; arg 2; arg 2; rw [← hsplit]
      rw [List.drop_left]

theorem lt_of_lineEnd? {sheet : Sheet} {pos stop : Nat} (h : sheet.lineEnd? pos = some stop) :
    stop < sheet.text.length := by
  unfold lineEnd? at h
  have hsplit : (sheet.text.drop pos).takeWhile (· != '\n') ++
      (sheet.text.drop pos).dropWhile (· != '\n') = sheet.text.drop pos :=
    List.takeWhile_append_dropWhile
  have hlen := congrArg List.length hsplit
  rw [List.length_append, List.length_drop] at hlen
  simp only at h
  split at h
  · cases h
  · rename_i hrest
    cases h
    rw [hrest, List.length_cons] at hlen
    omega

end Sheet

namespace Cursor

def ahead (c : Cursor) : Text := c.sheet.text.drop c.token.start

def behind (c : Cursor) : Text := c.sheet.text.drop c.token.stop

theorem finished_iff {c : Cursor} : c.finished = true ↔ c.token.lexeme = .sourceEnd := by
  rw [finished, beq_iff_eq]
  exact Lexeme.kind_eq_sourceEnd

def landed (c : Cursor) (origin : Origin) (pos : Nat) (l : Lexeme) (n : Nat) : Cursor :=
  ⟨c.sheet, origin, c.sheet.found origin pos l n⟩

theorem moveTo_of_read {c : Cursor} (origin : Origin) {pos : Nat} {l : Lexeme} {n : Nat}
    (h : Lexeme.read (Text.pastGap (c.sheet.text.drop pos)) = .ok (l, n)) :
    moveTo origin pos c = .ok () (c.landed origin pos l n) := by
  simp only [moveTo, Sheet.tokenAt_of_read origin h]
  rfl

theorem moveTo_of_fault {c : Cursor} (origin : Origin) {pos : Nat} {f : Lexeme.Fault}
    (h : Lexeme.read (Text.pastGap (c.sheet.text.drop pos)) = .error f) :
    moveTo origin pos c = .error (c.sheet.fault origin pos f) { c with origin := origin } := by
  simp only [moveTo, Sheet.tokenAt_of_fault origin h]

/-- The line a cursor is on behind its token. -/
def nextOrigin (c : Cursor) : Origin :=
  if c.token.lexeme = .lineEnd then ⟨c.origin.line + 1, c.token.stop⟩ else c.origin

theorem next_eq_moveTo {c : Cursor} (h : c.token.lexeme ≠ .sourceEnd) :
    next c = moveTo c.nextOrigin c.token.stop c := by
  unfold next nextOrigin
  rw [get_bind_apply]
  generalize c.token.lexeme = l at h ⊢
  cases l with
  | sourceEnd => contradiction
  | lineEnd => simp
  | _ => simp

/-- The line a cursor is on behind the next line end. -/
def skipOrigin (c : Cursor) : Origin :=
  match c.sheet.lineEnd? c.token.start with
  | some stop => ⟨c.origin.line + 1, stop + 1⟩
  | none => c.origin

/-- The offset behind the next line end. -/
def skipOffset (c : Cursor) : Nat :=
  match c.sheet.lineEnd? c.token.start with
  | some stop => stop + 1
  | none => c.sheet.text.length

theorem skipLine_eq_moveTo {c : Cursor} (h : c.token.lexeme ≠ .sourceEnd) :
    skipLine c = moveTo c.skipOrigin c.skipOffset c := by
  unfold skipLine skipOrigin skipOffset
  rw [get_bind_apply]
  generalize c.token.lexeme = l at h ⊢
  cases l with
  | sourceEnd => contradiction
  | _ => cases c.sheet.lineEnd? c.token.start <;> rfl

theorem drop_skipOffset (c : Cursor) :
    c.sheet.text.drop c.skipOffset = c.ahead.afterLine := by
  unfold skipOffset
  rcases c.sheet.lineEnd?_eq c.token.start with ⟨hnone, hempty⟩ | ⟨stop, hsome, hdrop⟩
  · rw [hnone, List.drop_length]
    exact hempty.symm
  · rw [hsome]
    exact hdrop

/-- The token of the cursor is the lexeme at its start. -/
structure Placed (c : Cursor) : Prop where
  le : c.token.start ≤ c.token.stop
  settled : c.ahead.pastGap = c.ahead
  here : Lexeme.read c.ahead = .ok (c.token.lexeme, c.token.stop - c.token.start)

/-- A placed cursor from which, and from whose start, reading comes to the end. -/
structure Sound (c : Cursor) : Prop extends Placed c where
  whole : c.sheet.text.Readable
  onward : c.ahead.Readable

theorem ahead_landed (c : Cursor) (origin : Origin) (pos : Nat) (l : Lexeme) (n : Nat) :
    (c.landed origin pos l n).ahead = Text.pastGap (c.sheet.text.drop pos) :=
  c.sheet.drop_entry pos

theorem placed_landed {c : Cursor} (origin : Origin) {pos : Nat} {l : Lexeme} {n : Nat}
    (h : Lexeme.read (Text.pastGap (c.sheet.text.drop pos)) = .ok (l, n)) :
    (c.landed origin pos l n).Placed := by
  refine ⟨Nat.le_add_right _ _, ?_, ?_⟩
  · rw [ahead_landed, Text.pastGap_pastGap]
  · rw [ahead_landed, h]
    simp [landed, Sheet.found]

namespace Placed

variable {c : Cursor}

theorem spans (h : c.Placed) :
    Lexeme.Spans c.ahead c.token.lexeme (c.token.stop - c.token.start) :=
  Lexeme.read_spans h.here

theorem stop_le (h : c.Placed) (hstart : c.token.start ≤ c.sheet.text.length) :
    c.token.stop ≤ c.sheet.text.length := by
  have hlen := h.spans.le
  have hle := h.le
  rw [ahead, List.length_drop] at hlen
  omega

theorem behind_eq (h : c.Placed) : c.behind = c.ahead.drop (c.token.stop - c.token.start) := by
  rw [ahead, List.drop_drop, Nat.add_sub_cancel' h.le]
  rfl

theorem length_behind (h : c.Placed) (hend : c.token.lexeme ≠ .sourceEnd) :
    c.behind.length < c.ahead.length := by
  have hpos := h.spans.pos hend
  have hne : c.ahead ≠ [] := fun he => hend (h.spans.ending.2 he)
  have hlen := List.length_pos_iff.2 hne
  rw [h.behind_eq, List.length_drop]
  omega

/-- What is read after the token: the rest of the text, or of the lines below a remark. -/
theorem readable_rest_iff (h : c.Placed) (hend : c.token.lexeme ≠ .sourceEnd) :
    Text.Readable (if c.token.lexeme = .keyword .REM then c.ahead.afterLine
      else c.ahead.drop (c.token.stop - c.token.start)) ↔ c.ahead.Readable := by
  have hr := h.here
  rw [← h.settled] at hr
  have hrest := Text.Readable.rest_iff hr hend
  rwa [h.settled] at hrest

theorem length_rest_lt (h : c.Placed) (hend : c.token.lexeme ≠ .sourceEnd) :
    List.length (if c.token.lexeme = .keyword .REM then c.ahead.afterLine
      else c.ahead.drop (c.token.stop - c.token.start)) < c.ahead.length := by
  split
  · have hne : c.ahead ≠ [] := fun he => hend (h.spans.ending.2 he)
    have hlen := List.length_pos_iff.2 hne
    have hline := Text.length_afterLine_le c.ahead
    omega
  · rw [← h.behind_eq]
    exact h.length_behind hend

end Placed

theorem landed_of_moveTo {c d : Cursor} {origin : Origin} {pos : Nat}
    (h : moveTo origin pos c = .ok () d) :
    ∃ l n, Lexeme.read (Text.pastGap (c.sheet.text.drop pos)) = .ok (l, n) ∧
      d = c.landed origin pos l n := by
  cases hr : Lexeme.read (Text.pastGap (c.sheet.text.drop pos)) with
  | ok found =>
      rw [moveTo_of_read origin hr] at h
      cases h
      exact ⟨_, _, rfl, rfl⟩
  | error f =>
      rw [moveTo_of_fault origin hr] at h
      cases h

theorem ahead_of_moveTo {c d : Cursor} {origin : Origin} {pos : Nat}
    (h : moveTo origin pos c = .ok () d) : d.ahead = Text.pastGap (c.sheet.text.drop pos) := by
  obtain ⟨l, n, -, rfl⟩ := landed_of_moveTo h
  exact ahead_landed ..

/-- Every move that succeeds leaves less ahead. -/
theorem Placed.length_next {c d : Cursor} (h : c.Placed) (hend : c.token.lexeme ≠ .sourceEnd)
    (hd : next c = .ok () d) : d.ahead.length < c.ahead.length := by
  rw [next_eq_moveTo hend] at hd
  rw [ahead_of_moveTo hd]
  exact Nat.lt_of_le_of_lt (Text.length_pastGap_le _) (h.length_behind hend)

theorem Placed.length_skipLine {c d : Cursor} (h : c.Placed)
    (hend : c.token.lexeme ≠ .sourceEnd) (hd : skipLine c = .ok () d) :
    d.ahead.length < c.ahead.length := by
  rw [skipLine_eq_moveTo hend] at hd
  rw [ahead_of_moveTo hd, c.drop_skipOffset]
  have hne : c.ahead ≠ [] := fun he => hend (h.spans.ending.2 he)
  have hlen := List.length_pos_iff.2 hne
  have hgap := Text.length_pastGap_le c.ahead.afterLine
  have hline := Text.length_afterLine_le c.ahead
  omega

/-- At the end of a line its rest is the line end. -/
theorem skipLine_of_lineEnd {c : Cursor} (h : c.Placed) (hl : c.token.lexeme = .lineEnd) :
    skipLine c = next c := by
  obtain ⟨rest, hrest, hlen⟩ := h.spans.lineEnd hl
  have hle := h.le
  have hstop : c.sheet.lineEnd? c.token.start = some c.token.start := by
    unfold ahead at hrest
    simp [Sheet.lineEnd?, hrest]
  have hend : c.token.lexeme ≠ .sourceEnd := by simp [hl]
  have hnext : c.token.start + 1 = c.token.stop := by omega
  rw [skipLine_eq_moveTo hend, next_eq_moveTo hend]
  simp only [skipOrigin, skipOffset, nextOrigin, hstop, hl, if_true, hnext]

/-- A move to an offset from which the text can be read. -/
theorem Sound.moveTo {c : Cursor} (h : c.Sound) (origin : Origin) {pos : Nat}
    (hpos : Text.Readable (c.sheet.text.drop pos)) :
    ∃ l n, Lexeme.read (Text.pastGap (c.sheet.text.drop pos)) = .ok (l, n) ∧
      Cursor.moveTo origin pos c = .ok () (c.landed origin pos l n) ∧
      (c.landed origin pos l n).Sound := by
  obtain ⟨l, n, hr⟩ := hpos.read
  refine ⟨l, n, hr, moveTo_of_read origin hr, placed_landed origin hr, h.whole, ?_⟩
  rw [ahead_landed]
  exact Text.Readable.pastGap_iff.2 hpos

namespace Sound

variable {c : Cursor}

theorem readable_behind (h : c.Sound) (hend : c.token.lexeme ≠ .sourceEnd)
    (hrem : c.token.lexeme ≠ .keyword .REM) : c.behind.Readable := by
  have hrest := (h.readable_rest_iff hend).2 h.onward
  rwa [if_neg hrem, ← h.behind_eq] at hrest

theorem next (h : c.Sound) (hend : c.token.lexeme ≠ .sourceEnd)
    (hrem : c.token.lexeme ≠ .keyword .REM) :
    ∃ d : Cursor, Cursor.next c = .ok () d ∧ d.Sound ∧ d.sheet = c.sheet ∧
      d.ahead = c.behind.pastGap ∧ d.ahead.length < c.ahead.length := by
  obtain ⟨l, n, -, hm, hs⟩ := h.moveTo c.nextOrigin (h.readable_behind hend hrem)
  have hd := (next_eq_moveTo hend).trans hm
  exact ⟨_, hd, hs, rfl, ahead_landed .., h.length_next hend hd⟩

theorem skipLine (h : c.Sound) (hend : c.token.lexeme ≠ .sourceEnd) :
    ∃ d : Cursor, Cursor.skipLine c = .ok () d ∧ d.Sound ∧ d.sheet = c.sheet ∧
      d.ahead = c.ahead.afterLine.pastGap ∧ d.ahead.length < c.ahead.length := by
  have hpos : Text.Readable (c.sheet.text.drop c.skipOffset) := by
    rw [c.drop_skipOffset]
    exact h.onward.afterLine
  obtain ⟨l, n, -, hm, hs⟩ := h.moveTo c.skipOrigin hpos
  have hd := (skipLine_eq_moveTo hend).trans hm
  refine ⟨_, hd, hs, rfl, ?_, h.length_skipLine hend hd⟩
  rw [ahead_landed, c.drop_skipOffset]

end Sound

/-- What a cursor at the start of a text stands on. -/
theorem start_eq_ok {sheet : Sheet} {c : Cursor} (h : start sheet = .ok c) :
    ∃ l n, Lexeme.read sheet.text.pastGap = .ok (l, n) ∧
      c = ⟨sheet, .first, sheet.found .first 0 l n⟩ := by
  unfold start at h
  cases hr : Lexeme.read (Text.pastGap (sheet.text.drop 0)) with
  | ok found =>
      rw [Sheet.tokenAt_of_read _ hr] at h
      cases h
      exact ⟨_, _, hr, rfl⟩
  | error f =>
      rw [Sheet.tokenAt_of_fault _ hr] at h
      cases h

theorem sheet_of_start {sheet : Sheet} {c : Cursor} (h : start sheet = .ok c) :
    c.sheet = sheet := by
  obtain ⟨l, n, -, rfl⟩ := start_eq_ok h
  rfl

theorem ahead_of_start {c : Cursor} (h : start c.sheet = .ok c) :
    c.ahead = c.sheet.text.pastGap := by
  obtain ⟨l, n, -, hc⟩ := start_eq_ok h
  rw [hc]
  exact ahead_landed c .first 0 l n

theorem placed_of_start {c : Cursor} (h : start c.sheet = .ok c) : c.Placed := by
  obtain ⟨l, n, hr, hc⟩ := start_eq_ok h
  rw [hc]
  exact placed_landed (c := c) .first hr

theorem sound_of_start {c : Cursor} (h : start c.sheet = .ok c)
    (hwhole : c.sheet.text.Readable) : c.Sound := by
  refine ⟨placed_of_start h, hwhole, ?_⟩
  rw [ahead_of_start h]
  exact Text.Readable.pastGap_iff.2 hwhole

theorem start_of_read {sheet : Sheet} {l : Lexeme} {n : Nat}
    (h : Lexeme.read sheet.text.pastGap = .ok (l, n)) :
    start sheet = .ok ⟨sheet, .first, sheet.found .first 0 l n⟩ := by
  have hfirst : sheet.tokenAt .first 0 = .ok (sheet.found .first 0 l n) :=
    Sheet.tokenAt_of_read .first h
  unfold start
  rw [hfirst]
  rfl

theorem start_of_readable (sheet : Sheet) (h : sheet.text.Readable) :
    ∃ first, start sheet = .ok first ∧ first.Sound := by
  obtain ⟨l, n, hr⟩ := h.read
  exact ⟨_, start_of_read hr, sound_of_start (start_of_read hr) h⟩

theorem Sound.start {c : Cursor} (h : c.Sound) :
    ∃ first : Cursor, Cursor.start c.sheet = .ok first ∧ first.Sound :=
  start_of_readable c.sheet h.whole

/-- Going back to the start depends on the text only. -/
theorem reset_of_start {c first : Cursor} (h : start c.sheet = .ok first) :
    reset c = .ok () first := by
  obtain ⟨l, n, hr, rfl⟩ := start_eq_ok h
  exact moveTo_of_read .first hr

end Cursor

end LineBasic
