import LineBasic.Proofs.Breaks
import LineBasic.Proofs.Survey

/-!
# Carriage returns

Reading a text whose line ends are written with a carriage return before them. A
carriage return is a gap, so the same lexemes are read, and a place is described by the
line it is on: cursors match when they are equally far from the starts of lines that
differ in their ends only. Offsets differ, and so does the column of a line end, which
comes after the carriage return.
-/
namespace LineBasic

namespace Text

/-- The text with a carriage return before every line end. -/
def crlf (t : Text) : Text := t.flatMap fun c => if c = '\n' then ['\r', '\n'] else [c]

theorem crlf_append (t u : Text) : (t ++ u).crlf = t.crlf ++ u.crlf := List.flatMap_append

theorem crlf_line (t : Text) : crlf ('\n' :: t) = '\r' :: '\n' :: t.crlf := rfl

theorem crlf_cons {c : Char} (hc : c ≠ '\n') (t : Text) : crlf (c :: t) = c :: t.crlf := by
  simp [crlf, hc]

theorem crlf_of_notMem {t : Text} (h : '\n' ∉ t) : t.crlf = t := by
  induction t with
  | nil => rfl
  | cons c rest ih =>
      rw [crlf_cons fun hc => h (by simp [hc]), ih fun hm => h (by simp [hm])]

/-- The first token of a text and what is behind it, from the end of its line on. -/
theorem read_crlf (t : Text) : Lexeme.read t.crlf.pastGap = Lexeme.read t.pastGap := by
  obtain ⟨h, x, rfl, hh, hx⟩ := t.exists_line
  rw [crlf_append, crlf_of_notMem hh, pastGap_append, pastGap_append]
  have hline : '\n' ∉ h.pastGap := fun hm => hh ((List.dropWhile_suffix isGap).subset hm)
  split
  · rcases hx with rfl | ⟨rest, rfl⟩
    · rfl
    · rfl
  · rename_i hne
    rcases hx with rfl | ⟨rest, rfl⟩
    · rfl
    · rw [crlf_line, (Break.returned _).read_append hline hne,
        (Break.line _).read_append hline hne]

theorem drop_crlf {t : Text} {l : Lexeme} {n : Nat} (hr : Lexeme.read t.pastGap = .ok (l, n)) :
    t.crlf.pastGap.drop n = crlf (t.pastGap.drop n) := by
  obtain ⟨h, x, rfl, hh, hx⟩ := t.exists_line
  rw [pastGap_append] at hr
  rw [crlf_append, crlf_of_notMem hh, pastGap_append, pastGap_append]
  have hline : '\n' ∉ h.pastGap := fun hm => hh ((List.dropWhile_suffix isGap).subset hm)
  by_cases hne : h.pastGap = []
  · rw [if_pos hne] at hr
    rw [if_pos hne, if_pos hne]
    rcases hx with rfl | ⟨rest, rfl⟩
    · cases hr
      rfl
    · cases hr
      rfl
  · rw [if_neg hne] at hr
    rw [if_neg hne, if_neg hne]
    have hread : Lexeme.read h.pastGap = .ok (l, n) := by
      rcases hx with rfl | ⟨rest, rfl⟩
      · rwa [List.append_nil] at hr
      · rwa [(Break.line _).read_append hline hne] at hr
    have hle := (Lexeme.read_spans hread).le
    have hrest : '\n' ∉ h.pastGap.drop n := fun hm => hline ((List.drop_suffix _ _).subset hm)
    rw [List.drop_append_of_le_length hle, List.drop_append_of_le_length hle, crlf_append,
      crlf_of_notMem hrest]

/-- One for a text whose first token is a line end. -/
def lineEnds (t : Text) : Nat := if t.pastGap.head? = some '\n' then 1 else 0

/-- A carriage return is one gap more before the line end. -/
theorem length_gap_crlf (t : Text) :
    (t.crlf.takeWhile isGap).length = (t.takeWhile isGap).length + t.lineEnds := by
  induction t with
  | nil => rfl
  | cons c rest ih =>
      by_cases hc : c = '\n'
      · subst hc
        rfl
      · rw [crlf_cons hc]
        by_cases hg : isGap c = true
        · have hends : lineEnds (c :: rest) = lineEnds rest := by
            unfold lineEnds pastGap
            rw [List.dropWhile_cons_of_pos hg]
          rw [List.takeWhile_cons_of_pos hg, List.takeWhile_cons_of_pos hg, List.length_cons,
            List.length_cons, ih, hends]
          omega
        · have hends : lineEnds (c :: rest) = 0 := by simp [lineEnds, pastGap, hg, hc]
          rw [List.takeWhile_cons_of_neg hg, List.takeWhile_cons_of_neg hg, hends]
          rfl

theorem afterLine_crlf (t : Text) : t.crlf.afterLine = t.afterLine.crlf := by
  obtain ⟨h, x, rfl, hh, hx⟩ := t.exists_line
  rw [crlf_append, crlf_of_notMem hh, afterLine_append hh, afterLine_append hh]
  rcases hx with rfl | ⟨rest, rfl⟩
  · rfl
  · rfl

theorem closes_crlf (atEnd : Bool) (t : Text) : closes atEnd t.crlf = closes atEnd t := by
  cases t with
  | nil => rfl
  | cons c rest =>
      by_cases hc : c = '\n'
      · subst hc
        rfl
      · rw [crlf_cons hc]
        rfl

/-- What an error quotes of a line is without its end. -/
theorem quoted_crlf (t : Text) :
    trimEnd (· == '\r') (t.crlf.takeWhile (· != '\n')) =
      trimEnd (· == '\r') (t.takeWhile (· != '\n')) := by
  obtain ⟨h, x, rfl, hh, hx⟩ := t.exists_line
  rw [crlf_append, crlf_of_notMem hh, List.takeWhile_append_of_pos (inLine_of_notMem hh),
    List.takeWhile_append_of_pos (inLine_of_notMem hh)]
  rcases hx with rfl | ⟨rest, rfl⟩
  · rfl
  · simp [crlf_line, trimEnd]

theorem Readable.crlf {t : Text} (h : t.Readable) : t.crlf.Readable := by
  induction h with
  | @done t he =>
      refine .done ?_
      have hr := t.read_crlf
      rw [he] at hr
      exact (Lexeme.read_spans hr).ending.1 rfl
  | @token t l n hr hend hrem _ ih =>
      rw [← drop_crlf hr] at ih
      exact .token (t.read_crlf.trans hr) hend hrem ih
  | @remark t n hr _ ih =>
      refine .remark (t.read_crlf.trans hr) ?_
      rwa [afterLine_pastGap, afterLine_crlf, ← afterLine_pastGap]

end Text

def Sheet.crlf (sheet : Sheet) : Sheet := ⟨sheet.text.crlf, sheet.name⟩

/-- The same place of a text and of the text with carriage returns: `g` is what lies
between the start of the line and the place, and `rest` what lies behind it. -/
structure Beside (t : Text) (o o' : Origin) (g rest : Text) : Prop where
  line : o'.line = o.line
  plain : '\n' ∉ g
  left : t.drop o.start = g ++ rest
  right : t.crlf.drop o'.start = Text.crlf (g ++ rest)

/-- Faults that tell of the same place: their lines and columns are the same, and so is
the line they quote. -/
inductive Misread : Fault → Fault → Prop
  | numeral (f : Numeral.Fault) : Misread (.numeral f) (.numeral f)
  | scan (cause : ScanCause) (name : Text) (line column pos pos' : Int) (quoted : Text) :
      Misread (.error ⟨.scan cause name, some (.place line column pos), some quoted⟩)
        (.error ⟨.scan cause name, some (.place line column pos'), some quoted⟩)

/-- Cursors on the same token of a text and of the text with carriage returns. -/
structure Cursor.Matches (c d : Cursor) : Prop where
  sheet : d.sheet = c.sheet.crlf
  left : c.Placed
  right : d.Placed
  line : d.token.line = c.token.line
  column : d.token.column = c.token.column + c.ahead.lineEnds
  beside : ∃ g, Beside c.sheet.text c.origin d.origin g c.ahead ∧
    c.token.start = c.origin.start + g.length ∧
    d.token.start = d.origin.start + g.length + c.ahead.lineEnds

namespace Beside

variable {t g rest : Text} {o o' : Origin}

theorem drop_left (h : Beside t o o' g rest) : t.drop (o.start + g.length) = rest := by
  rw [← List.drop_drop, h.left, List.drop_left]

theorem drop_right (h : Beside t o o' g rest) : t.crlf.drop (o'.start + g.length) = rest.crlf := by
  rw [← List.drop_drop, h.right, Text.crlf_append, Text.crlf_of_notMem h.plain, List.drop_left]

theorem first (t : Text) : Beside t .first .first [] t where
  line := rfl
  plain := by simp
  left := rfl
  right := rfl

/-- Both machines read the same token from a place, at matching places. -/
theorem moveTo {c d : Cursor} (h : Beside c.sheet.text o o' g rest)
    (hsheet : d.sheet = c.sheet.crlf) {l : Lexeme} {n : Nat}
    (hr : Lexeme.read rest.pastGap = .ok (l, n)) :
    ∃ c' d', Cursor.moveTo o (o.start + g.length) c = .ok () c' ∧
      Cursor.moveTo o' (o'.start + g.length) d = .ok () d' ∧ c'.Matches d' := by
  have hd : d.sheet.text = c.sheet.text.crlf := by rw [hsheet]; rfl
  have hleft : Lexeme.read (Text.pastGap (c.sheet.text.drop (o.start + g.length))) = .ok (l, n) := by
    rw [h.drop_left, hr]
  have hright :
      Lexeme.read (Text.pastGap (d.sheet.text.drop (o'.start + g.length))) = .ok (l, n) := by
    rw [hd, h.drop_right, Text.read_crlf, hr]
  have hentry : c.sheet.entry (o.start + g.length) =
      o.start + (g ++ rest.takeWhile Text.isGap).length := by
    rw [Sheet.entry, h.drop_left, List.length_append]
    omega
  have hentry' : d.sheet.entry (o'.start + g.length) =
      o'.start + (g ++ rest.takeWhile Text.isGap).length + rest.lineEnds := by
    rw [Sheet.entry, hd, h.drop_right, Text.length_gap_crlf, List.length_append]
    omega
  have hahead : (c.landed o (o.start + g.length) l n).ahead = rest.pastGap := by
    rw [Cursor.ahead_landed, h.drop_left]
  have hends : rest.pastGap.lineEnds = rest.lineEnds := by
    rw [Text.lineEnds, Text.pastGap_pastGap]
    rfl
  refine ⟨_, _, Cursor.moveTo_of_read o hleft, Cursor.moveTo_of_read o' hright, ?_⟩
  refine ⟨hsheet, Cursor.placed_landed o hleft, Cursor.placed_landed o' hright, h.line, ?_, ?_⟩
  · rw [hahead, hends]
    simp only [Cursor.landed, Sheet.found, Sheet.column, hentry, hentry']
    omega
  · refine ⟨g ++ rest.takeWhile Text.isGap, ?_, hentry, ?_⟩
    · rw [hahead]
      have hsplit : rest.takeWhile Text.isGap ++ rest.pastGap = rest :=
        List.takeWhile_append_dropWhile
      refine ⟨h.line, ?_, ?_, ?_⟩
      · simp only [List.mem_append, not_or]
        exact ⟨h.plain, Text.newline_notMem_gap rest⟩
      · rw [List.append_assoc, hsplit]
        exact h.left
      · rw [List.append_assoc, hsplit]
        exact h.right
    · rw [hahead, hends]
      exact hentry'

/-- Both fail to read a token, and tell of it in the same way. -/
theorem misread {sheet : Sheet} (h : Beside sheet.text o o' g rest) {f : Lexeme.Fault}
    (hr : Lexeme.read rest.pastGap = .error f) :
    Misread (sheet.fault o (o.start + g.length) f)
      (sheet.crlf.fault o' (o'.start + g.length) f) := by
  have hends : rest.lineEnds = 0 := by
    unfold Text.lineEnds
    rw [if_neg]
    intro hhead
    obtain ⟨more, hmore⟩ := List.head?_eq_some_iff.1 hhead
    rw [hmore] at hr
    cases hr
  have hcolumn : Sheet.column o' (sheet.crlf.entry (o'.start + g.length)) =
      Sheet.column o (sheet.entry (o.start + g.length)) := by
    simp only [Sheet.column, Sheet.entry, Sheet.crlf, h.drop_left, h.drop_right,
      Text.length_gap_crlf, hends]
    omega
  have hquoted : sheet.crlf.lineAt o'.start = sheet.lineAt o.start := by
    simp only [Sheet.lineAt, Sheet.crlf, h.right, h.left, Text.quoted_crlf]
  have hscan : ∀ cause, Misread
      (.error (sheet.errorAtOffset o (sheet.entry (o.start + g.length)) cause))
      (.error (sheet.crlf.errorAtOffset o' (sheet.crlf.entry (o'.start + g.length)) cause)) := by
    intro cause
    simp only [Sheet.errorAtOffset, Sheet.errorAt, hcolumn, hquoted, h.line]
    exact .scan ..
  cases f with
  | unterminatedString => exact hscan _
  | unexpectedCharacter c => exact hscan _
  | numeral f => exact .numeral f

/-- From a place both cursors come to the same token, or both fail. -/
theorem move {c d : Cursor} (h : Beside c.sheet.text o o' g rest)
    (hsheet : d.sheet = c.sheet.crlf) :
    (∃ c' d', Cursor.moveTo o (o.start + g.length) c = .ok () c' ∧
        Cursor.moveTo o' (o'.start + g.length) d = .ok () d' ∧ c'.Matches d') ∨
      ∃ e e', Cursor.moveTo o (o.start + g.length) c = .error e { c with origin := o } ∧
        Cursor.moveTo o' (o'.start + g.length) d = .error e' { d with origin := o' } ∧
        Misread e e' := by
  cases hr : Lexeme.read rest.pastGap with
  | ok found => exact .inl (h.moveTo hsheet hr)
  | error f =>
      have hleft : Lexeme.read (Text.pastGap (c.sheet.text.drop (o.start + g.length))) =
          .error f := by
        rw [h.drop_left, hr]
      have hright : Lexeme.read (Text.pastGap (d.sheet.text.drop (o'.start + g.length))) =
          .error f := by
        rw [hsheet, Sheet.crlf, h.drop_right, Text.read_crlf, hr]
      refine .inr ⟨_, _, Cursor.moveTo_of_fault o hleft, Cursor.moveTo_of_fault o' hright, ?_⟩
      rw [hsheet]
      exact h.misread hr

end Beside

theorem Text.drop_lineEnds {t : Text} (h : t.pastGap = t) :
    t.crlf.drop t.lineEnds = t.crlf.pastGap := by
  have hgap : (t.takeWhile isGap).length = 0 := by
    have hlen := congrArg List.length (List.takeWhile_append_dropWhile (p := isGap) (l := t))
    rw [List.length_append] at hlen
    have hdrop : (t.dropWhile isGap).length = t.length := congrArg List.length h
    omega
  rw [pastGap_eq_drop, length_gap_crlf, hgap, Nat.zero_add]

theorem Text.newline_mem_crlf {t : Text} : '\n' ∈ t.crlf ↔ '\n' ∈ t := by
  constructor
  · intro hm
    by_cases h : '\n' ∈ t
    · exact h
    · rwa [crlf_of_notMem h] at hm
  · intro hm
    exact List.mem_flatMap.2 ⟨'\n', hm, by decide⟩

theorem Sheet.lineEnd?_eq_none {sheet : Sheet} {pos : Nat} :
    sheet.lineEnd? pos = none ↔ '\n' ∉ sheet.text.drop pos := by
  obtain ⟨h, x, hsplit, hh, hx⟩ := Text.exists_line (sheet.text.drop pos)
  simp only [lineEnd?, hsplit, List.dropWhile_append_of_pos (Text.inLine_of_notMem hh)]
  rcases hx with rfl | ⟨rest, rfl⟩
  · simpa using hh
  · simp

namespace Cursor.Matches

variable {c d : Cursor}

theorem ahead_eq (h : c.Matches d) : d.ahead = c.ahead.crlf.pastGap := by
  obtain ⟨g, hb, -, hstart⟩ := h.beside
  rw [Cursor.ahead, h.sheet, hstart, ← List.drop_drop, Sheet.crlf, hb.drop_right,
    Text.drop_lineEnds h.left.settled]

/-- The tokens are the same, and of the same length. -/
theorem read_eq (h : c.Matches d) :
    d.token.lexeme = c.token.lexeme ∧
      d.token.stop - d.token.start = c.token.stop - c.token.start := by
  have hread := h.right.here
  rw [h.ahead_eq, Text.read_crlf, h.left.settled, h.left.here] at hread
  simp only [Except.ok.injEq, Prod.mk.injEq] at hread
  exact ⟨hread.1.symm, hread.2.symm⟩

theorem behind_eq (h : c.Matches d) : d.behind = c.behind.crlf := by
  have hread := h.left.here
  rw [← h.left.settled] at hread
  rw [h.right.behind_eq, h.left.behind_eq, h.read_eq.2, h.ahead_eq, Text.drop_crlf hread,
    h.left.settled]

theorem lineEnds_eq (h : c.Matches d) :
    c.ahead.lineEnds = if c.token.lexeme = .lineEnd then 1 else 0 := by
  unfold Text.lineEnds
  rw [h.left.settled]
  have hread := h.left.here
  by_cases hl : c.token.lexeme = .lineEnd
  · obtain ⟨rest, hrest, -⟩ := h.left.spans.lineEnd hl
    rw [hrest, if_pos hl]
    rfl
  · rw [if_neg hl, if_neg]
    intro hhead
    obtain ⟨rest, hrest⟩ := List.head?_eq_some_iff.1 hhead
    rw [hrest] at hread
    exact hl (congrArg (fun r => r.1) (Except.ok.inj hread)).symm

theorem lineNumber?_eq (h : c.Matches d) (atEnd : Bool) :
    c.lineNumber? atEnd = d.lineNumber? atEnd := by
  unfold Cursor.lineNumber?
  rw [h.read_eq.1, Cursor.closes_eq, Cursor.closes_eq, h.behind_eq, Text.closes_crlf]

/-- Behind matching tokens the cursors are beside each other again. -/
theorem next_beside (h : c.Matches d) :
    ∃ g rest, Beside c.sheet.text c.nextOrigin d.nextOrigin g rest ∧
      c.token.stop = c.nextOrigin.start + g.length ∧
      d.token.stop = d.nextOrigin.start + g.length := by
  obtain ⟨hlexeme, hlength⟩ := h.read_eq
  obtain ⟨g, hb, hstart, hstart'⟩ := h.beside
  have hbehind := h.behind_eq
  unfold Cursor.behind at hbehind
  rw [h.sheet] at hbehind
  unfold Cursor.nextOrigin
  rw [hlexeme]
  by_cases hl : c.token.lexeme = .lineEnd
  · rw [if_pos hl, if_pos hl]
    refine ⟨[], c.behind, ⟨?_, by simp, rfl, hbehind⟩, rfl, rfl⟩
    simp only [hb.line]
  · rw [if_neg hl, if_neg hl]
    have hends := h.lineEnds_eq
    rw [if_neg hl] at hends
    have hle := h.left.spans.le
    have htake : (c.ahead.take (c.token.stop - c.token.start)).length =
        c.token.stop - c.token.start := by
      rw [List.length_take]
      omega
    have hle₁ := h.left.le
    have hle₂ := h.right.le
    refine ⟨g ++ c.ahead.take (c.token.stop - c.token.start), c.behind, ⟨hb.line, ?_, ?_, ?_⟩,
      ?_, ?_⟩
    · simp only [List.mem_append, not_or]
      exact ⟨hb.plain, h.left.spans.inLine hl⟩
    · rw [h.left.behind_eq, List.append_assoc, List.take_append_drop]
      exact hb.left
    · rw [h.left.behind_eq, List.append_assoc, List.take_append_drop]
      exact hb.right
    · rw [List.length_append, htake]
      omega
    · rw [List.length_append, htake]
      omega

/-- So they are behind their lines. -/
theorem skip_beside (h : c.Matches d) (hend : c.token.lexeme ≠ .sourceEnd) :
    ∃ g rest, Beside c.sheet.text c.skipOrigin d.skipOrigin g rest ∧
      c.skipOffset = c.skipOrigin.start + g.length ∧
      d.skipOffset = d.skipOrigin.start + g.length := by
  obtain ⟨g, hb, hstart, -⟩ := h.beside
  have hnone : c.sheet.lineEnd? c.token.start = none ↔ d.sheet.lineEnd? d.token.start = none := by
    have hmem : '\n' ∈ d.ahead ↔ '\n' ∈ c.ahead := by
      rw [h.ahead_eq, Text.newline_mem_pastGap, Text.newline_mem_crlf]
    unfold Cursor.ahead at hmem
    rw [Sheet.lineEnd?_eq_none, Sheet.lineEnd?_eq_none, hmem]
  have hafter : d.ahead.afterLine = c.ahead.afterLine.crlf := by
    rw [h.ahead_eq, Text.afterLine_pastGap, Text.afterLine_crlf]
  have hoffset := c.drop_skipOffset
  have hoffset' := d.drop_skipOffset
  unfold Cursor.skipOrigin Cursor.skipOffset at *
  cases hc : c.sheet.lineEnd? c.token.start with
  | none =>
      -- The last line: both cursors go to the ends of their texts.
      rw [hnone.1 hc]
      have hplain : '\n' ∉ g ++ c.ahead := by
        simp only [List.mem_append, not_or]
        exact ⟨hb.plain, Sheet.lineEnd?_eq_none.1 hc⟩
      have hright := hb.right
      rw [Text.crlf_of_notMem hplain] at hright
      have hahead : c.ahead.length ≠ 0 := by
        intro he
        exact hend (h.left.spans.ending.2 (List.length_eq_zero_iff.1 he))
      have hlen := congrArg List.length hb.left
      have hlen' := congrArg List.length hright
      rw [List.length_drop, List.length_append] at hlen hlen'
      refine ⟨g ++ c.ahead, [], ⟨hb.line, hplain, ?_, ?_⟩, ?_, ?_⟩
      · rw [List.append_nil]
        exact hb.left
      · rw [List.append_nil]
        exact hb.right
      · simp only [List.length_append]
        omega
      · simp only [h.sheet, Sheet.crlf, List.length_append]
        omega
  | some stop =>
      cases hd : d.sheet.lineEnd? d.token.start with
      | none => simp [hnone.2 hd] at hc
      | some stop' =>
          simp only [hc, hd] at hoffset hoffset' ⊢
          refine ⟨[], c.ahead.afterLine, ⟨?_, by simp, hoffset, ?_⟩, rfl, rfl⟩
          · simp only [hb.line]
          · rw [h.sheet, hafter] at hoffset'
            exact hoffset'

theorem next (h : c.Matches d) (hend : c.token.lexeme ≠ .sourceEnd) :
    (∃ c' d', Cursor.next c = .ok () c' ∧ Cursor.next d = .ok () d' ∧ c'.Matches d') ∨
      ∃ e e', Cursor.next c = .error e { c with origin := c.nextOrigin } ∧
        Cursor.next d = .error e' { d with origin := d.nextOrigin } ∧ Misread e e' := by
  obtain ⟨g, rest, hb, hstop, hstop'⟩ := h.next_beside
  rw [Cursor.next_eq_moveTo hend, Cursor.next_eq_moveTo (h.read_eq.1 ▸ hend), hstop, hstop']
  exact hb.move h.sheet

theorem skipLine (h : c.Matches d) (hend : c.token.lexeme ≠ .sourceEnd) :
    (∃ c' d', Cursor.skipLine c = .ok () c' ∧ Cursor.skipLine d = .ok () d' ∧ c'.Matches d') ∨
      ∃ e e', Cursor.skipLine c = .error e { c with origin := c.skipOrigin } ∧
        Cursor.skipLine d = .error e' { d with origin := d.skipOrigin } ∧ Misread e e' := by
  obtain ⟨g, rest, hb, hstop, hstop'⟩ := h.skip_beside hend
  rw [Cursor.skipLine_eq_moveTo hend, Cursor.skipLine_eq_moveTo (h.read_eq.1 ▸ hend), hstop,
    hstop']
  exact hb.move h.sheet

end Cursor.Matches

/-- A start is a way back to the start, from wherever. -/
theorem Cursor.start_eq_reset (c : Cursor) :
    start c.sheet = match reset c with
      | .ok _ first => .ok first
      | .error e _ => .error e := by
  unfold start reset moveTo
  cases c.sheet.tokenAt .first 0 <;> rfl

/-- The first tokens of the two texts match, or neither can be read. -/
theorem Cursor.start_crlf (sheet : Sheet) :
    (∃ c d, start sheet = .ok c ∧ start sheet.crlf = .ok d ∧ c.Matches d) ∨
      ∃ e e', start sheet = .error e ∧ start sheet.crlf = .error e' ∧ Misread e e' := by
  let nowhere (sheet : Sheet) : Cursor := ⟨sheet, .first, ⟨.sourceEnd, 1, 1, 0, 0⟩⟩
  have hstart := start_eq_reset (nowhere sheet)
  have hstart' := start_eq_reset (nowhere sheet.crlf)
  have hb : Beside (nowhere sheet).sheet.text .first .first [] sheet.text := Beside.first sheet.text
  rcases hb.move (d := nowhere sheet.crlf) rfl with ⟨c, d, hc, hd, hm⟩ | ⟨e, e', hc, hd, hm⟩
  · have hreset : reset (nowhere sheet) = .ok () c := hc
    have hreset' : reset (nowhere sheet.crlf) = .ok () d := hd
    rw [hreset] at hstart
    rw [hreset'] at hstart'
    exact .inl ⟨c, d, hstart, hstart', hm⟩
  · have hreset : reset (nowhere sheet) = .error e _ := hc
    have hreset' : reset (nowhere sheet.crlf) = .error e' _ := hd
    rw [hreset] at hstart
    rw [hreset'] at hstart'
    exact .inr ⟨e, e', hstart, hstart', hm⟩

end LineBasic
