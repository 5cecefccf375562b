import LineBasic.Proofs.Code
import LineBasic.Proofs.Walk

/-!
# Where a cursor stands in a program

The text of a program is the text of its lines, and what is left of it before a line
is the text of the lines from there on. Between two instructions a cursor is before
the next line in one of three ways: on the line's number, on the line end above it, or
behind the number, where jumps lead.
-/
namespace LineBasic

theorem Name.isAlpha_letter (name : Name) : name.letter.isAlpha = true := by
  obtain ⟨register, capital⟩ := name
  revert register capital
  decide +kernel

theorem proper_enclosed {ls : List Lexeme} (h : ∀ l ∈ ls, l.Proper) :
    ∀ l ∈ enclosed ls, l.Proper := by
  intro l hl
  simp only [enclosed, List.mem_cons, List.mem_append, List.not_mem_nil, or_false] at hl
  rcases hl with rfl | hl | rfl
  · trivial
  · exact h l hl
  · trivial

theorem Formula.proper_lexemes (formula : Formula) (level : Nat) :
    ∀ l ∈ formula.lexemes level, l.Proper := by
  induction formula generalizing level with
  | literal number => simp [lexemes, Lexeme.Proper, number.writable]
  | register name => simp [lexemes, Lexeme.Proper, name.isAlpha_letter]
  | operation operator left right ihleft ihright =>
      have hplain : ∀ l ∈ left.lexemes operator.level ++
          .symbol operator.sign :: right.lexemes (operator.level + 1), l.Proper := by
        intro l hl
        simp only [List.mem_append, List.mem_cons] at hl
        rcases hl with hl | rfl | hl
        · exact ihleft _ l hl
        · trivial
        · exact ihright _ l hl
      simp only [lexemes]
      split
      · exact proper_enclosed hplain
      · exact hplain

theorem Condition.proper_lexemes (condition : Condition) :
    ∀ l ∈ condition.lexemes, l.Proper := by
  cases condition with
  | nonzero formula => exact formula.proper_lexemes 0
  | compared left comparison right =>
      intro l hl
      simp only [lexemes, List.mem_append, List.mem_cons] at hl
      rcases hl with hl | rfl | hl
      · exact left.proper_lexemes 0 l hl
      · trivial
      · exact right.proper_lexemes 0 l hl

theorem Element.proper_lexemes (element : Element) : ∀ l ∈ element.lexemes, l.Proper := by
  cases element with
  | string quotation =>
      intro l hl
      obtain rfl := List.mem_singleton.1 hl
      intro c hc
      have hquote : c ≠ '"' := fun he => quotation.quoteless (he ▸ hc)
      have hline : c ≠ '\n' := fun he => quotation.inLine (he ▸ hc)
      simp [Lexeme.inString, hquote, hline]
  | comma => simp [lexemes, Lexeme.Proper]
  | semicolon => simp [lexemes, Lexeme.Proper]
  | value formula => exact proper_enclosed (formula.proper_lexemes 0)

namespace Instruction

theorem proper_lexemes {instruction : Instruction} (h : ∀ r, instruction ≠ .remark r) :
    ∀ l ∈ instruction.lexemes, l.Proper := by
  intro l hl
  cases instruction with
  | remark r => exact absurd rfl (h r)
  | assign name formula =>
      simp only [lexemes, List.mem_cons] at hl
      rcases hl with rfl | rfl | rfl | hl
      · simp [Lexeme.Proper]
      · exact name.isAlpha_letter
      · trivial
      · exact formula.proper_lexemes 0 l hl
  | branch condition target =>
      simp only [lexemes, List.mem_cons, List.mem_append, List.not_mem_nil, or_false] at hl
      rcases hl with rfl | hl | rfl | rfl
      · simp [Lexeme.Proper]
      · exact condition.proper_lexemes l hl
      · simp [Lexeme.Proper]
      · exact target.writable
  | goto target =>
      simp only [lexemes, List.mem_cons, List.not_mem_nil, or_false] at hl
      rcases hl with rfl | rfl
      · simp [Lexeme.Proper]
      · exact target.writable
  | print elements =>
      simp only [lexemes, List.mem_cons, List.mem_flatMap] at hl
      rcases hl with rfl | ⟨element, -, hl⟩
      · simp [Lexeme.Proper]
      · exact element.proper_lexemes l hl

theorem text_of_ne {instruction : Instruction} (h : ∀ r, instruction ≠ .remark r) :
    instruction.text = Lexeme.spelled instruction.lexemes := by
  cases instruction with
  | remark r => exact absurd rfl (h r)
  | _ => rfl

theorem text_remark (r : Remark) :
    (Instruction.remark r).text = Keyword.REM.spelling ++ ' ' :: r.body := by
  simp [text, Lexeme.spelled, Lexeme.spelling]

/-- An instruction starts with its keyword. -/
theorem text_eq (instruction : Instruction) :
    ∃ (word : Keyword) (rest : Text), instruction.text = word.spelling ++ rest := by
  have hspelled : ∀ (word : Keyword) (ls : List Lexeme),
      ∃ rest, Lexeme.spelled (.keyword word :: ls) = word.spelling ++ rest := by
    intro word ls
    cases ls with
    | nil => exact ⟨[], by simp [Lexeme.spelled, Lexeme.spelling]⟩
    | cons second others =>
        refine ⟨' ' :: Lexeme.spelled (second :: others), ?_⟩
        simp [Lexeme.spelled, List.intercalate_cons_cons, Lexeme.spelling]
  cases instruction with
  | remark r => exact ⟨.REM, ' ' :: r.body, text_remark r⟩
  | assign name formula => exact ⟨.LET, hspelled _ _⟩
  | branch condition target => exact ⟨.IF, hspelled _ _⟩
  | goto target => exact ⟨.GOTO, hspelled _ _⟩
  | print elements => exact ⟨.PRINT, hspelled _ _⟩

theorem pastGap_text (instruction : Instruction) (x : Text) :
    Text.pastGap (instruction.text ++ x) = instruction.text ++ x := by
  obtain ⟨word, rest, hword⟩ := instruction.text_eq
  rw [hword]
  cases word <;> rfl

theorem newline_notMem_text (instruction : Instruction) : '\n' ∉ instruction.text := by
  by_cases hremark : ∃ r, instruction = .remark r
  · obtain ⟨r, rfl⟩ := hremark
    have hbody := r.inLine
    simp [text_remark, Keyword.spelling, hbody]
  · have hne : ∀ r, instruction ≠ .remark r := fun r hr => hremark ⟨r, hr⟩
    rw [text_of_ne hne]
    exact Lexeme.newline_notMem_spelled (proper_lexemes hne)

theorem readable_text (instruction : Instruction) {below : Text} (h : below.Readable) :
    Text.Readable (instruction.text ++ '\n' :: below) := by
  by_cases hremark : ∃ r, instruction = .remark r
  · obtain ⟨r, rfl⟩ := hremark
    have hgap := pastGap_text (.remark r) ('\n' :: below)
    refine .remark (n := 3) ?_ ?_
    · rw [hgap, text_remark, List.append_assoc]
      exact Lexeme.read_keyword .REM _
    · rw [hgap, Text.afterLine_append (newline_notMem_text _)]
      exact h
  · have hne : ∀ r, instruction ≠ .remark r := fun r hr => hremark ⟨r, hr⟩
    rw [text_of_ne hne]
    exact Lexeme.readable_spelled (proper_lexemes hne) h

end Instruction

abbrev Line := Literal × Instruction

def Line.tail (line : Line) (below : Text) : Text := ' ' :: (line.2.text ++ '\n' :: below)

def linesText : List Line → Text
  | [] => []
  | line :: rest => Nat.toDigits 10 line.1.value ++ Line.tail line (linesText rest)

theorem Code.source_eq (code : Code) : code.source = linesText code.lines := by
  have hlines : ∀ lines : List Line,
      Program.source ⟨lines.map fun line => ((line.1.value : Int), line.2.text)⟩ =
        linesText lines := by
    intro lines
    induction lines with
    | nil => rfl
    | cons line rest ih =>
        have hdecimal : Numeral.decimal (line.1.value : Int) = Nat.toDigits 10 line.1.value := by
          have hsign : ¬ (line.1.value : Int) < 0 := by omega
          simp [Numeral.decimal, hsign]
        simp only [Program.source, List.map_cons, List.flatMap_cons] at ih ⊢
        rw [ih]
        simp [Program.listed, hdecimal, linesText, Line.tail]
  exact hlines code.lines

theorem pastGap_linesText (lines : List Line) : Text.pastGap (linesText lines) = linesText lines := by
  cases lines with
  | nil => rfl
  | cons line rest => exact Lexeme.pastGap_spelling (l := .number line.1.value) line.1.writable _

theorem readable_linesText (lines : List Line) : (linesText lines).Readable := by
  induction lines with
  | nil => exact .done rfl
  | cons line rest ih =>
      have hproper : (Lexeme.number line.1.value).Proper := line.1.writable
      have hread := Lexeme.read_spelling hproper (x := Line.tail line (linesText rest)) (.inl rfl)
      have hgap := pastGap_linesText (line :: rest)
      refine .token (l := .number line.1.value) (n := (Nat.toDigits 10 line.1.value).length)
        ?_ (by simp) (by simp) ?_
      · rw [hgap]
        exact hread
      · rw [hgap, linesText, List.drop_left, ← Text.Readable.pastGap_iff]
        show Text.Readable (Text.pastGap (line.2.text ++ '\n' :: linesText rest))
        rw [Text.Readable.pastGap_iff]
        exact line.2.readable_text ih

theorem Code.readable_source (code : Code) : code.source.Readable := by
  rw [code.source_eq]
  exact readable_linesText code.lines

theorem afterLine_linesText (line : Line) (rest : List Line) :
    Text.afterLine (linesText (line :: rest)) = linesText rest := by
  have hnumber : '\n' ∉ (Lexeme.number line.1.value).spelling :=
    Lexeme.newline_notMem_spelling line.1.writable
  have hsplit : linesText (line :: rest) =
      (Lexeme.number line.1.value).spelling ++ (' ' :: line.2.text) ++ '\n' :: linesText rest := by
    simp [linesText, Line.tail, Lexeme.spelling]
  have hline : '\n' ∉ (Lexeme.number line.1.value).spelling ++ (' ' :: line.2.text) := by
    simp [hnumber, line.2.newline_notMem_text]
  rw [hsplit, Text.afterLine_append hline]
  rfl

namespace Cursor

/-- The cursor is on the first of some lines, or at the end of the text. -/
structure OnLine (c : Cursor) (lines : List Line) : Prop extends Steady c where
  lines : c.ahead = linesText lines

/-- The cursor is on an instruction, with other lines below. -/
structure OnInstruction (c : Cursor) (instruction : Instruction) (rest : List Line) :
    Prop extends Steady c where
  line : c.ahead = instruction.text ++ '\n' :: linesText rest

/-- The cursor is before the first of some lines. -/
inductive Before (c : Cursor) : List Line → Prop
  | line {lines : List Line} : c.OnLine lines → Before c lines
  | lineEnd {lines : List Line} : c.Sees [] (linesText lines) → Before c lines
  | instruction {line : Line} {rest : List Line} : c.OnInstruction line.2 rest →
      Before c (line :: rest)

variable {c d : Cursor} {line : Line} {rest lines : List Line} {instruction : Instruction}

theorem OnLine.number (h : c.OnLine (line :: rest)) :
    c.token.lexeme = .number line.1.value ∧ c.behind = line.tail (linesText rest) :=
  h.of_spelling (l := .number line.1.value) line.1.writable (.inl rfl) h.lines

theorem OnLine.next (h : c.OnLine (line :: rest)) :
    ∃ d, Cursor.next c = .ok () d ∧ d.OnInstruction line.2 rest ∧ d.sheet = c.sheet := by
  obtain ⟨hlexeme, hbehind⟩ := h.number
  obtain ⟨d, hd, hsteady, hsheet, hahead⟩ :=
    h.toSteady.next (by simp [hlexeme]) (by simp [hlexeme])
  refine ⟨d, hd, ⟨hsteady, ?_⟩, hsheet⟩
  rw [hahead, hbehind]
  exact line.2.pastGap_text _

theorem OnLine.skipLine (h : c.OnLine (line :: rest)) :
    ∃ d, Cursor.skipLine c = .ok () d ∧ d.OnLine rest ∧ d.sheet = c.sheet ∧
      d.ahead.length < c.ahead.length := by
  obtain ⟨d, hd, hsteady, hsheet, hahead, hlength⟩ :=
    h.toSteady.skipLine (by simp [h.number.1])
  refine ⟨d, hd, ⟨hsteady, ?_⟩, hsheet, hlength⟩
  rw [hahead, h.lines, afterLine_linesText, pastGap_linesText]

theorem OnLine.lexeme_nil (h : c.OnLine []) : c.token.lexeme = .sourceEnd :=
  h.spans.ending.2 h.lines

/-- Behind the end of a line is the line below. -/
theorem Sees.onLine (h : c.Sees [] (linesText lines)) :
    ∃ d, Cursor.next c = .ok () d ∧ d.OnLine lines ∧ d.sheet = c.sheet := by
  obtain ⟨hlexeme, hbehind⟩ := h.here_nil
  obtain ⟨d, hd, hsteady, hsheet, hahead⟩ :=
    h.toSteady.next (by simp [hlexeme]) (by simp [hlexeme])
  refine ⟨d, hd, ⟨hsteady, ?_⟩, hsheet⟩
  rw [hahead, hbehind, pastGap_linesText]

theorem OnInstruction.keyword (h : c.OnInstruction instruction rest) :
    ∃ word, c.token.lexeme = .keyword word := by
  obtain ⟨word, tail, hword⟩ := instruction.text_eq
  have hread := h.here
  rw [h.line, hword, List.append_assoc, Lexeme.read_keyword] at hread
  simp only [Except.ok.injEq, Prod.mk.injEq] at hread
  exact ⟨word, hread.1.symm⟩

theorem OnInstruction.sees (h : c.OnInstruction instruction rest)
    (hremark : ∀ r, instruction ≠ .remark r) :
    c.Sees instruction.lexemes (linesText rest) := by
  refine ⟨h.toSteady, Instruction.proper_lexemes hremark, ?_⟩
  rw [h.line, Instruction.text_of_ne hremark]

end Cursor

end LineBasic
