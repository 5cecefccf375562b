import LineBasic.Proofs.Landing
import LineBasic.Proofs.Moves

/-!
# Exact positions

A cursor does not look for the line it is on. It counts the line ends that it leaves, be it
on their token or over the rest of a line, and keeps the offset behind the last of them.
The count and the offset are those of the text as long as no call fails, so that every
token has the line and the column at which it starts. They are also those of the first
character that no token begins with. An error at this character quotes the line that holds
it, and points at it.
-/
namespace LineBasic

namespace Text

variable {t : Text} {s pos stop : Nat}

/-- Where the line of an offset starts: behind the last line end before it. -/
def lineStart (t : Text) : Nat → Nat
  | 0 => 0
  | pos + 1 => if t[pos]? = some '\n' then pos + 1 else t.lineStart pos

/-- The number and the start of the line of an offset. -/
def originAt (t : Text) (pos : Nat) : Origin := ⟨t.lineOf pos + 1, t.lineStart pos⟩

theorem Unbroken.lineStart_eq (h : t.Unbroken pos stop) (hle : pos ≤ stop) :
    t.lineStart stop = t.lineStart pos := by
  induction hle with
  | refl => rfl
  | @step stop hle ih =>
      rw [lineStart, if_neg (h stop hle (Nat.lt_succ_self _))]
      exact ih fun q hpos hq => h q hpos (Nat.lt_succ_of_lt hq)

theorem Unbroken.originAt_eq (h : t.Unbroken pos stop) (hle : pos ≤ stop) :
    t.originAt stop = t.originAt pos := by
  rw [originAt, originAt, h.lineOf_eq hle, h.lineStart_eq hle]

theorem originAt_newline (h : t[pos]? = some '\n') :
    t.originAt (pos + 1) = ⟨(t.originAt pos).line + 1, pos + 1⟩ := by
  simp [originAt, lineOf_succ, lineStart, h]

theorem lineStart_of_startsLine (h : t.StartsLine s) : t.lineStart s = s := by
  rcases h with rfl | ⟨q, hq, rfl⟩
  · rfl
  · rw [lineStart, if_pos hq]

/-- From the start of its line to an offset no line ends. -/
theorem lineStart_unbroken (t : Text) (pos : Nat) :
    t.lineStart pos ≤ pos ∧ t.Unbroken (t.lineStart pos) pos := by
  obtain ⟨s, hle, hstarts, hunbroken⟩ := t.exists_startsLine pos
  rw [hunbroken.lineStart_eq hle, lineStart_of_startsLine hstarts]
  exact ⟨hle, hunbroken⟩

theorem Unbroken.newline_notMem {n : Nat} (h : t.Unbroken s (s + n)) :
    '\n' ∉ (t.drop s).take n := by
  intro hmem
  obtain ⟨i, hi⟩ := List.mem_iff_getElem?.1 hmem
  rw [List.getElem?_take] at hi
  split at hi
  · rw [List.getElem?_drop] at hi
    exact h (s + i) (Nat.le_add_right _ _) (by omega) hi
  · cases hi

/-- A character that does not end its line is in it, as far behind its start. -/
theorem getElem?_line {c : Char} (hpos : t[pos]? = some c) (hc : c ≠ '\n') :
    ((t.drop (t.lineStart pos)).takeWhile (· != '\n'))[pos - t.lineStart pos]? = some c := by
  obtain ⟨hle, hunbroken⟩ := t.lineStart_unbroken pos
  generalize t.lineStart pos = s at hle hunbroken ⊢
  have hclear : t.Unbroken s (s + (pos - s + 1)) := by
    intro q hs hq
    by_cases hlast : q = pos
    · rw [hlast, hpos]
      exact fun hnewline => hc (Option.some.inj hnewline)
    · exact hunbroken q hs (by omega)
  rw [← List.take_append_drop (pos - s + 1) (t.drop s),
    List.takeWhile_append_of_pos (inLine_of_notMem hclear.newline_notMem)]
  have hchar : ((t.drop s).take (pos - s + 1))[pos - s]? = some c := by
    rw [List.getElem?_take_of_lt (Nat.lt_succ_self _), List.getElem?_drop, Nat.add_sub_cancel' hle,
      hpos]
  rw [List.getElem?_append_left (List.getElem?_eq_some_iff.1 hchar).1, hchar]

/-- What is cut off at the end of a line is carriage returns, and none is left there. -/
theorem trimEnd_returns (t : Text) :
    (∃ returns, t = trimEnd (· == '\r') t ++ List.replicate returns '\r') ∧
      (trimEnd (· == '\r') t).getLast? ≠ some '\r' := by
  have hreturns : ∀ c ∈ (t.reverse.takeWhile (· == '\r')).reverse, c = '\r' := by
    intro c hc
    have hall := List.all_eq_true.1 (List.all_takeWhile (p := (· == '\r')) (l := t.reverse))
    exact beq_iff_eq.1 (hall c (List.mem_reverse.1 hc))
  refine ⟨⟨(t.reverse.takeWhile (· == '\r')).reverse.length, ?_⟩, ?_⟩
  · rw [← List.eq_replicate_of_mem hreturns, trimEnd, ← List.reverse_append,
      List.takeWhile_append_dropWhile, List.reverse_reverse]
  · rw [trimEnd, List.getLast?_reverse]
    intro hlast
    have hhead := List.head?_dropWhile_not (· == '\r') t.reverse
    rw [hlast] at hhead
    exact absurd hhead (by decide)

end Text

/-- A text that no lexeme begins begins with the character that is reported: a quote that
is not closed, or a character that begins none. A numeral may also be refused. -/
theorem Lexeme.exists_cons_of_read_error {t : Text} {f : Lexeme.Fault}
    (h : Lexeme.read t = .error f) :
    (∃ g, f = .numeral g) ∨ ∃ c rest, t = c :: rest ∧ c ≠ '\n' ∧
      (f = .unexpectedCharacter c ∨ c = '"' ∧ f = .unterminatedString) := by
  cases found_of_read h with
  | numeral => exact .inl ⟨_, rfl⟩
  | unterminated => exact .inr ⟨_, _, rfl, by decide, .inr ⟨rfl, rfl⟩⟩
  | unexpected hnewline => exact .inr ⟨_, _, rfl, hnewline, .inl rfl⟩

namespace Sheet

variable {sheet : Sheet} {pos : Nat}

/-- An error at a character of the text, with the line that it quotes: the physical line of
the character without the carriage returns at its end. The character is in it, and the
caret is under the character. -/
structure Locates (sheet : Sheet) (e : Error) (pos : Nat) (char : Char) (quoted : Text) : Prop where
  stands : sheet.text[pos]? = some char
  cause : e.cause = .scan (.unexpectedCharacter char) sheet.name ∨
    char = '"' ∧ e.cause = .scan .unterminatedString sheet.name
  mark : e.mark = some
    (.place (sheet.text.lineOf pos + 1) (pos - sheet.text.lineStart pos + 1) pos)
  quotes : e.line = some quoted
  whole : ∃ returns, (sheet.text.drop (sheet.text.lineStart pos)).takeWhile (· != '\n') =
    quoted ++ List.replicate returns '\r'
  trimmed : quoted.getLast? ≠ some '\r'
  inside : quoted[pos - sheet.text.lineStart pos]? = some char
  text : e.text = "Line " ++ String.ofList (Numeral.decimal (sheet.text.lineOf pos + 1)) ++ ": " ++
    e.cause.message ++ "\n" ++ String.ofList quoted ++ "\n" ++
      String.ofList (List.replicate (pos - sheet.text.lineStart pos) ' ' ++ ['^'])

/-- The pointer at a place is as far to the right as the place is behind the start of its line. -/
theorem pointer_place (line : Int) (origin : Origin) (pos : Nat) :
    (Mark.place line (column origin pos) pos).pointer =
      List.replicate (pos - origin.start) ' ' ++ ['^'] := by
  have hspaces : (column origin pos - 1).toNat = pos - origin.start := by
    unfold column
    omega
  have hcaret : (max ((pos : Int) + 1 - pos) 1).toNat = 1 := by omega
  rw [Mark.pointer, Mark.place, hspaces, hcaret]
  rfl

/-- A character that is no carriage return is not cut off with them. -/
theorem getElem?_lineAt {c : Char} (hpos : sheet.text[pos]? = some c) (hc : c ≠ '\n')
    (hreturn : c ≠ '\r') :
    (sheet.lineAt (sheet.text.lineStart pos))[pos - sheet.text.lineStart pos]? = some c := by
  have hline := Text.getElem?_line hpos hc
  obtain ⟨⟨returns, hsplit⟩, -⟩ :=
    Text.trimEnd_returns ((sheet.text.drop (sheet.text.lineStart pos)).takeWhile (· != '\n'))
  rw [hsplit, List.getElem?_append] at hline
  split at hline
  · exact hline
  · exact absurd (List.eq_of_mem_replicate (List.mem_of_getElem? hline)) hreturn

theorem locates_errorAtOffset {c : Char} {cause : ScanCause} (hpos : sheet.text[pos]? = some c)
    (hc : c ≠ '\n') (hgap : Text.isGap c = false)
    (hcause : cause = .unexpectedCharacter c ∨ c = '"' ∧ cause = .unterminatedString) :
    sheet.Locates (sheet.errorAtOffset (sheet.text.originAt pos) pos cause) pos c
      (sheet.lineAt (sheet.text.lineStart pos)) := by
  have hreturn : c ≠ '\r' := by
    rintro rfl
    cases hgap
  obtain ⟨hwhole, htrimmed⟩ :=
    Text.trimEnd_returns ((sheet.text.drop (sheet.text.lineStart pos)).takeWhile (· != '\n'))
  refine ⟨hpos, ?_, rfl, rfl, hwhole, htrimmed, getElem?_lineAt hpos hc hreturn, ?_⟩
  · rcases hcause with rfl | ⟨hquote, rfl⟩
    · exact .inl rfl
    · exact .inr ⟨hquote, rfl⟩
  · exact congrArg (fun pointer => _ ++ String.ofList pointer)
      (pointer_place _ (sheet.text.originAt pos) pos)

/-- A gap is passed over within a line. -/
theorem originAt_entry (sheet : Sheet) (pos : Nat) :
    sheet.text.originAt (sheet.entry pos) = sheet.text.originAt pos :=
  (sheet.unbroken_entry pos).originAt_eq (Nat.le_add_right _ _)

/-- No token where the line is known: the error is at the first character behind the gap. -/
theorem locates_fault {f : Lexeme.Fault} {e : Error}
    (hread : Lexeme.read (Text.pastGap (sheet.text.drop pos)) = .error f)
    (he : sheet.fault (sheet.text.originAt pos) pos f = .error e) :
    ∃ char quoted, sheet.Locates e (sheet.entry pos) char quoted := by
  rcases Lexeme.exists_cons_of_read_error hread with ⟨g, rfl⟩ | ⟨c, rest, hcons, hc, hcause⟩
  · cases he
  have hstands : sheet.text[sheet.entry pos]? = some c := by
    have hdrop := sheet.drop_entry pos
    rw [hcons] at hdrop
    rw [← List.head?_drop, hdrop]
    rfl
  have hgap : Text.isGap c = false := by
    have hhead := List.head?_dropWhile_not Text.isGap (sheet.text.drop pos)
    rw [← Text.pastGap, hcons] at hhead
    exact hhead
  refine ⟨c, sheet.lineAt (sheet.text.lineStart (sheet.entry pos)), ?_⟩
  rw [← sheet.originAt_entry] at he
  rcases hcause with rfl | ⟨hquote, rfl⟩
  · cases he
    exact locates_errorAtOffset hstands hc hgap (.inl rfl)
  · cases he
    exact locates_errorAtOffset hstands hc hgap (.inr ⟨hquote, rfl⟩)

end Sheet

inductive Move where
  | next | skipLine | reset
  deriving DecidableEq

namespace Move

variable {move : Move} {c d : Cursor} {f : Fault}

def run : Move → EStateM Fault Cursor Unit
  | next => Cursor.next
  | skipLine => Cursor.skipLine
  | reset => Cursor.reset

/-- Calls in a row, up to the first that fails. -/
def runAll : List Move → EStateM Fault Cursor Unit
  | [] => pure ()
  | move :: moves => do
      move.run
      runAll moves

theorem runAll_cons (h : move.run c = .ok () d) (moves : List Move) :
    runAll (move :: moves) c = runAll moves d :=
  bind_of_ok h

/-- The line that a call takes to be the current one. -/
def origin : Move → Cursor → Origin
  | next, c => c.nextOrigin
  | skipLine, c => c.skipOrigin
  | reset, _ => .first

/-- The offset from which on a call reads. -/
def offset : Move → Cursor → Nat
  | next, c => c.token.stop
  | skipLine, c => c.skipOffset
  | reset, _ => 0

theorem run_of_sourceEnd (hend : c.token.lexeme = .sourceEnd) (hmove : move ≠ .reset) :
    move.run c = .ok () c := by
  cases move with
  | next =>
      rw [run, Cursor.next, get_bind_apply, hend]
      rfl
  | skipLine =>
      rw [run, Cursor.skipLine, get_bind_apply, hend]
      rfl
  | reset => exact absurd rfl hmove

theorem run_of_ne_sourceEnd (hend : c.token.lexeme ≠ .sourceEnd) :
    move.run c = Cursor.moveTo (move.origin c) (move.offset c) c := by
  cases move with
  | next => exact Cursor.next_eq_moveTo hend
  | skipLine => exact Cursor.skipLine_eq_moveTo hend
  | reset => rfl

theorem run_eq (move : Move) (c : Cursor) :
    move.run c = .ok () c ∨ move.run c = Cursor.moveTo (move.origin c) (move.offset c) c := by
  by_cases hmove : move = .reset
  · subst hmove
    exact .inr rfl
  by_cases hend : c.token.lexeme = .sourceEnd
  · exact .inl (run_of_sourceEnd hend hmove)
  · exact .inr (run_of_ne_sourceEnd hend)

/-- A call that succeeds has read a token, or there is none to come. -/
theorem eq_of_run_ok (h : move.run c = .ok () d) :
    d = c ∨ ∃ l n, Lexeme.read (Text.pastGap (c.sheet.text.drop (move.offset c))) = .ok (l, n) ∧
      d = c.landed (move.origin c) (move.offset c) l n := by
  rcases move.run_eq c with hstays | hmoves
  · rw [hstays] at h
    cases h
    exact .inl rfl
  · exact .inr (Cursor.landed_of_moveTo (hmoves.symm.trans h))

/-- A call that fails has found no token. It leaves the line it has come to. -/
theorem eq_of_run_error (h : move.run c = .error f d) :
    ∃ g, Lexeme.read (Text.pastGap (c.sheet.text.drop (move.offset c))) = .error g ∧
      f = c.sheet.fault (move.origin c) (move.offset c) g ∧
      d = { c with origin := move.origin c } := by
  rcases move.run_eq c with hstays | hmoves
  · rw [hstays] at h
    cases h
  · rw [hmoves] at h
    cases hr : Lexeme.read (Text.pastGap (c.sheet.text.drop (move.offset c))) with
    | ok found =>
        rw [Cursor.moveTo_of_read _ hr] at h
        cases h
    | error g =>
        rw [Cursor.moveTo_of_fault _ hr] at h
        cases h
        exact ⟨g, rfl, rfl, rfl⟩

end Move

namespace Cursor

variable {sheet : Sheet} {c d first : Cursor} {move : Move}

/-- The cursor knows the line of its token, and the token its line and column. -/
structure Oriented (c : Cursor) : Prop where
  origin : c.origin = ⟨c.sheet.text.lineOf c.token.start + 1, c.sheet.text.lineStart c.token.start⟩
  line : c.token.line = c.sheet.text.lineOf c.token.start + 1
  column : c.token.column = c.token.start - c.sheet.text.lineStart c.token.start + 1

/-- The token of a line end is the line end. -/
theorem Placed.newline (h : c.Placed) (hl : c.token.lexeme = .lineEnd) :
    c.sheet.text[c.token.start]? = some '\n' ∧ c.token.stop = c.token.start + 1 := by
  obtain ⟨rest, hrest, hlength⟩ := h.spans.lineEnd hl
  have hle := h.le
  refine ⟨?_, by omega⟩
  rw [← List.head?_drop, ← ahead, hrest]
  rfl

theorem oriented_landed (c : Cursor) (pos : Nat) (l : Lexeme) (n : Nat) :
    (c.landed (c.sheet.text.originAt pos) pos l n).Oriented := by
  rw [← c.sheet.originAt_entry]
  exact ⟨rfl, rfl, rfl⟩

theorem oriented_of_start (h : start sheet = .ok first) : first.Oriented := by
  obtain ⟨l, n, -, rfl⟩ := start_eq_ok h
  exact oriented_landed ⟨sheet, .first, sheet.found .first 0 l n⟩ 0 l n

namespace Oriented

theorem nextOrigin_eq (h : c.Oriented) (hplaced : c.Placed) :
    c.nextOrigin = c.sheet.text.originAt c.token.stop := by
  have horigin : c.origin = c.sheet.text.originAt c.token.start := h.origin
  unfold nextOrigin
  split
  · rename_i hl
    obtain ⟨hnewline, hstop⟩ := hplaced.newline hl
    rw [hstop, Text.originAt_newline hnewline, horigin]
  · rename_i hl
    have hunbroken := Text.unbroken_of_take (hplaced.spans.inLine hl)
    rw [Nat.add_sub_cancel' hplaced.le] at hunbroken
    rw [hunbroken.originAt_eq hplaced.le, horigin]

theorem skipOrigin_eq (h : c.Oriented) (hstart : c.token.start ≤ c.sheet.text.length) :
    c.skipOrigin = c.sheet.text.originAt c.skipOffset := by
  have horigin : c.origin = c.sheet.text.originAt c.token.start := h.origin
  unfold skipOrigin skipOffset
  cases hline : c.sheet.lineEnd? c.token.start with
  | none => rw [(Sheet.unbroken_of_lineEnd?_none hline _).originAt_eq hstart, horigin]
  | some stop =>
      obtain ⟨hle, hnewline, hunbroken⟩ := Sheet.lineEnd?_eq_some hline
      rw [Text.originAt_newline hnewline, hunbroken.originAt_eq hle, horigin]

/-- Where the line of the token is known, so is the line that a call comes to. -/
theorem origin_eq (h : c.Oriented) (hlies : c.Lies sheet) (move : Move) :
    move.origin c = c.sheet.text.originAt (move.offset c) := by
  cases move with
  | next => exact h.nextOrigin_eq hlies.toPlaced
  | skipLine =>
      apply h.skipOrigin_eq
      rw [hlies.sheet_eq]
      exact hlies.start_le
  | reset => rfl

/-- A call that succeeds leads to a cursor that knows its line again. -/
theorem run (h : c.Oriented) (hlies : c.Lies sheet) (hd : move.run c = .ok () d) : d.Oriented := by
  rcases Move.eq_of_run_ok hd with rfl | ⟨l, n, -, rfl⟩
  · exact h
  · rw [h.origin_eq hlies]
    exact c.oriented_landed _ l n

/-- An error of a call from a cursor that knows its line is at its character. -/
theorem locates (h : c.Oriented) (hlies : c.Lies sheet) {e : Error}
    (hd : move.run c = .error (.error e) d) :
    ∃ pos char quoted, sheet.Locates e pos char quoted := by
  obtain ⟨g, hread, he, -⟩ := Move.eq_of_run_error hd
  rw [h.origin_eq hlies, hlies.sheet_eq] at he
  rw [hlies.sheet_eq] at hread
  exact ⟨_, Sheet.locates_fault hread he.symm⟩

end Oriented

theorem Lies.run (h : c.Lies sheet) (hd : move.run c = .ok () d) : d.Lies sheet := by
  have hleft : (leftBy move.run c).Lies sheet := by
    cases move with
    | next => exact h.next
    | skipLine => exact h.skipLine
    | reset => exact h.reset
  rwa [leftBy, hd] at hleft

/-- Calls that all succeed keep what the cursor knows of its line. -/
theorem Oriented.runAll (h : c.Oriented) (hlies : c.Lies sheet) {moves : List Move}
    (hd : Move.runAll moves c = .ok () d) : d.Oriented ∧ d.Lies sheet := by
  induction moves generalizing c with
  | nil =>
      cases hd
      exact ⟨h, hlies⟩
  | cons move moves ih =>
      obtain ⟨_, u, hu, hrest⟩ := bind_eq_ok hd
      exact ih (h.run hlies hu) (hlies.run hu) hrest

/-- If there is no first token, the error is at the first character behind the gap. -/
theorem locates_of_start_error {e : Error} (h : start sheet = .error (.error e)) :
    ∃ pos char quoted, sheet.Locates e pos char quoted := by
  unfold start at h
  cases hr : Lexeme.read (Text.pastGap (sheet.text.drop 0)) with
  | ok found =>
      rw [Sheet.tokenAt_of_read _ hr] at h
      cases h
  | error g =>
      rw [Sheet.tokenAt_of_fault _ hr] at h
      exact ⟨_, Sheet.locates_fault hr (Except.error.inj h)⟩

/-- After calls that have all succeeded, the cursor and its token have the line and the
column at which the token starts. An error of the next call, or of a start, is at its
character and shows it. -/
theorem positions_exact (sheet : Sheet) :
    (∀ first, start sheet = .ok first → ∀ moves c, Move.runAll moves first = .ok () c →
      c.sheet = sheet ∧ c.Oriented ∧ ∀ (move : Move) e d, move.run c = .error (.error e) d →
        ∃ pos char quoted, sheet.Locates e pos char quoted) ∧
    ∀ e, start sheet = .error (.error e) → ∃ pos char quoted, sheet.Locates e pos char quoted := by
  refine ⟨?_, fun e => locates_of_start_error⟩
  intro first hstart moves c hc
  obtain ⟨horiented, hlies⟩ := (oriented_of_start hstart).runAll (lies_of_start hstart) hc
  exact ⟨hlies.sheet_eq, horiented, fun move e d => horiented.locates hlies⟩

/-- Past a remark and over a blank line, up to a dollar sign on the third line; and a text
that begins with a quote behind a tab and has no other. -/
theorem positions_exact_dollar :
    let sheet : Sheet := ⟨"LET REM $\r\n\n A $\r\n".toList, "<input>".toList⟩
    let first : Cursor := ⟨sheet, .first, ⟨.keyword .LET, 1, 1, 0, 3⟩⟩
    let c : Cursor := ⟨sheet, ⟨3, 12⟩, ⟨.letter 'A', 3, 2, 13, 14⟩⟩
    let e := sheet.errorAtOffset ⟨3, 12⟩ 15 (.unexpectedCharacter '$')
    let quote : Sheet := ⟨"\t\"A\r\n".toList, "<input>".toList⟩
    let e' := quote.errorAtOffset .first 1 .unterminatedString
    start sheet = .ok first ∧ Move.runAll [.next, .skipLine, .next] first = .ok () c ∧
      c.Oriented ∧ Move.next.run c = .error (.error e) c ∧
      (∃ pos char quoted, sheet.Locates e pos char quoted) ∧
      e.text = "Line 3: Unexpected character: '$' in <input>\n A $\n   ^" ∧
      start quote = .error (.error e') ∧ (∃ pos char quoted, quote.Locates e' pos char quoted) ∧
      e'.text = "Line 1: Unterminated string in <input>\n\t\"A\n ^" := by
  intro sheet first c e quote e'
  have hstart : start sheet = .ok first := rfl
  let remark : Cursor := ⟨sheet, .first, ⟨.keyword .REM, 1, 5, 4, 7⟩⟩
  let blank : Cursor := ⟨sheet, ⟨2, 11⟩, ⟨.lineEnd, 2, 1, 11, 12⟩⟩
  have hremark : Move.next.run first = .ok () remark := rfl
  have hblank : Move.skipLine.run remark = .ok () blank := rfl
  have hletter : Move.next.run blank = .ok () c := rfl
  have hc : Move.runAll [.next, .skipLine, .next] first = .ok () c := by
    rw [Move.runAll_cons hremark, Move.runAll_cons hblank, Move.runAll_cons hletter]
    rfl
  have herror : Move.next.run c = .error (.error e) c := rfl
  have hquote : start quote = .error (.error e') := rfl
  obtain ⟨-, horiented, hlocates⟩ := (positions_exact sheet).1 first hstart _ c hc
  exact ⟨hstart, hc, horiented, herror, hlocates .next e c herror, by decide +kernel, hquote,
    (positions_exact quote).2 e' hquote, by decide +kernel⟩

end Cursor

end LineBasic
