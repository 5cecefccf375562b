import LineBasic.Proofs.Tiling
import LineBasic.Proofs.Twins

/-!
# Remarks

What a remark says is of no consequence. `Text.Reworded` takes a text apart the way it is
read, and replaces what follows the word of a remark on its line. The new words may be
anything but a line end: quotes, characters that no token starts with, numbers that read
as line numbers.

Reading looks ahead of a lexeme, but never as far as into a remark: the texts are the same
up to the word of the first remark and including it, and no keyword has that word inside.
-/
namespace LineBasic

namespace Text

/-- Texts that are read through the same lexemes, with other words in their remarks. -/
inductive Reworded : Text → Text → Prop
  | done (gap : Text) : (∀ c ∈ gap, isGap c = true) → Reworded gap gap
  | token (gap word : Text) (l : Lexeme) {t u : Text} : (∀ c ∈ gap, isGap c = true) →
      Lexeme.read (word ++ t) = .ok (l, word.length) → l ≠ .sourceEnd → l ≠ .keyword .REM →
      Reworded t u → Reworded (gap ++ (word ++ t)) (gap ++ (word ++ u))
  | remark (gap word old new : Text) {t u : Text} : (∀ c ∈ gap, isGap c = true) →
      Lexeme.read (word ++ (old ++ t)) = .ok (.keyword .REM, word.length) →
      '\n' ∉ old → '\n' ∉ new → (t = [] ∨ t.head? = some '\n') →
      Reworded t u → Reworded (gap ++ (word ++ (old ++ t))) (gap ++ (word ++ (new ++ u)))

/-- Texts that are the same, or the same up to the word of a remark and including it. -/
def SameToRemark (t u : Text) : Prop :=
  u = t ∨ ∃ before word x y, t = before ++ (word ++ x) ∧ u = before ++ (word ++ y) ∧
    upper word = Keyword.REM.spelling

theorem pastGap_gap {gap : Text} (h : ∀ c ∈ gap, isGap c = true) (t : Text) :
    (gap ++ t).pastGap = t.pastGap :=
  List.dropWhile_append_of_pos h

theorem pastGap_eq_nil {gap : Text} (h : ∀ c ∈ gap, isGap c = true) : gap.pastGap = [] := by
  have hall := pastGap_gap h []
  rwa [List.append_nil] at hall

theorem newline_notMem_of_isGap {gap : Text} (h : ∀ c ∈ gap, isGap c = true) : '\n' ∉ gap :=
  fun hm => absurd (h _ hm) (by decide)

theorem SameToRemark.head? {t u : Text} (h : SameToRemark t u) : u.head? = t.head? := by
  obtain rfl | ⟨before, word, x, y, rfl, rfl, hword⟩ := h
  · rfl
  · have hlen := Keyword.length_of_upper hword
    cases before with
    | cons c rest => rfl
    | nil =>
        cases word with
        | cons c rest => rfl
        | nil => cases hlen

end Text

namespace Keyword

/-- No keyword has the word of a remark behind its first letter. -/
theorem remark_notInfix : ∀ word ∈ all, ¬ REM.spelling <:+: word.spelling.drop 1 := by
  decide

/-- A letter starts no keyword that needs the words of a remark. -/
theorem starts_sameToRemark {word : Keyword} {c : Char} (hc : c.isAlpha = true) {t u : Text}
    (h : t.SameToRemark u) (hstarts : word.starts (c :: u) = true) :
    word.starts (c :: t) = true := by
  obtain rfl | ⟨before, remark, x, y, rfl, rfl, hremark⟩ := h
  · exact hstarts
  have hupper : Text.upper ((c :: (before ++ (remark ++ y))).take word.spelling.length) =
      word.spelling := beq_iff_eq.1 hstarts
  by_cases hlen : word.spelling.length ≤ (c :: (before ++ remark)).length
  · have hshort : ∀ z : Text, (c :: (before ++ (remark ++ z))).take word.spelling.length =
        (c :: (before ++ remark)).take word.spelling.length := by
      intro z
      have hassoc : c :: (before ++ (remark ++ z)) = c :: (before ++ remark) ++ z := by simp
      rw [hassoc, List.take_append_of_le_length hlen]
    rw [starts, hshort, ← hshort y, hupper, beq_self_eq_true]
  · -- The keyword would reach past the word of the remark and so hold it.
    refine absurd ?_ (remark_notInfix word (mem_all word))
    have hsplit : (c :: (before ++ (remark ++ y))).take word.spelling.length =
        [c] ++ before ++ remark ++
          y.take (word.spelling.length - (c :: (before ++ remark)).length) := by
      have hassoc : c :: (before ++ (remark ++ y)) = c :: (before ++ remark) ++ y := by simp
      rw [hassoc, List.take_append, List.take_of_length_le (by omega)]
      simp
    rw [hsplit] at hupper
    simp only [Text.upper, List.flatMap_append, List.flatMap_cons, List.flatMap_nil,
      List.append_nil, Text.upperChar_of_isAlpha hc] at hupper
    rw [← hupper, ← hremark]
    exact ⟨Text.upper before, _, by simp [Text.upper]; rfl⟩

end Keyword

namespace Symbol

/-- A symbol is read from its first character and the one behind it. -/
theorem read?_of_head? {t u : Text} (h : u.head? = t.head?) (c : Char) :
    read? (c :: u) = read? (c :: t) := by
  cases t with
  | nil => rw [List.head?_eq_none_iff.1 h]
  | cons d rest =>
      obtain ⟨more, rfl⟩ := List.head?_eq_some_iff.1 h
      rw [read?_two, read?_two c d rest]

end Symbol

namespace Lexeme

/-- No gap starts a lexeme, so the gap before one ends where it starts. -/
theorem pastGap_of_read {gap t : Text} (hgap : ∀ c ∈ gap, Text.isGap c = true) {l : Lexeme}
    {n : Nat} (h : read t = .ok (l, n)) : (gap ++ t).pastGap = t := by
  rw [Text.pastGap_gap hgap]
  cases t with
  | nil => rfl
  | cons c rest =>
      cases hc : Text.isGap c with
      | false => simp [Text.pastGap, hc]
      | true =>
          simp only [Text.isGap, Bool.or_eq_true, beq_iff_eq] at hc
          rcases hc with (rfl | rfl) | rfl <;> cases h

/-- Anything may follow a keyword. -/
theorem read_keyword_append {keyword : Keyword} {word t : Text}
    (h : read (word ++ t) = .ok (.keyword keyword, word.length)) (u : Text) :
    read (word ++ u) = .ok (.keyword keyword, word.length) := by
  have hpos := (read_spans h).pos (by simp)
  obtain ⟨hupper, first, hfirst, halpha⟩ := spells_of_read h
  rw [List.take_left] at hupper
  obtain ⟨c, rest, rfl⟩ := List.exists_cons_of_length_pos hpos
  cases hfirst
  exact read_of_upper halpha hupper u

/-- The lexeme at the start of a text is read without looking into a remark. -/
theorem read_sameToRemark {word t u : Text} {l : Lexeme}
    (h : read (word ++ t) = .ok (l, word.length)) (hend : l ≠ .sourceEnd)
    (hsame : t.SameToRemark u) : read (word ++ u) = .ok (l, word.length) := by
  have hspells := spells_of_read h
  have hpos := (read_spans h).pos hend
  have hhead := hsame.head?
  obtain ⟨c, rest, rfl⟩ := List.exists_cons_of_length_pos hpos
  cases l with
  | keyword keyword => exact read_keyword_append h u
  | letter name =>
      obtain ⟨hname, halpha, hnone⟩ := hspells
      rw [List.take_left] at hname
      obtain ⟨rfl, rfl⟩ := List.cons.inj hname
      have hkeyword : Keyword.read? (c :: u) = none := by
        apply List.find?_eq_none.2
        intro keyword _ hstarts
        have hstarts' := Keyword.starts_sameToRemark halpha hsame hstarts
        exact hnone keyword _ (beq_iff_eq.1 hstarts')
      rw [List.singleton_append, read_alpha halpha, readWord, hkeyword]
      rfl
  | number value =>
      obtain ⟨hdigit, hstop, hvalue⟩ := hspells
      rw [List.take_left] at hdigit hvalue
      have hnone : u.takeWhile Text.isDigit = [] := by
        cases u with
        | nil => rfl
        | cons d more =>
            have hd : Text.isDigit d = false := by
              apply hstop
              rw [List.getElem?_append_right (Nat.le_refl _), Nat.sub_self,
                ← List.head?_eq_getElem?, ← hhead]
              rfl
            simp [hd]
      have hnumber : readNumber (c :: rest ++ u) = .ok (.number value, (c :: rest).length) := by
        simp only [readNumber, List.takeWhile_append_of_pos hdigit, hnone, List.append_nil, hvalue]
      have hfirst := hdigit c (by simp)
      have hline : c ≠ '\n' := by
        rintro rfl
        exact absurd hfirst (by decide)
      rw [List.cons_append] at hnumber ⊢
      rw [read, if_neg hline, if_pos hfirst, hnumber]
  | string body =>
      obtain ⟨hbody, hquote, hline⟩ := hspells
      rw [List.take_left] at hbody
      have hin : ∀ d ∈ body, inString d = true := by
        intro d hd
        simp only [inString, Bool.and_eq_true, bne_iff_ne]
        exact ⟨fun he => hquote (he ▸ hd), fun he => hline (he ▸ hd)⟩
      obtain ⟨rfl, rfl⟩ := List.cons.inj hbody
      rw [List.cons_append, List.append_assoc, List.singleton_append, List.length_cons,
        List.length_append]
      exact readString_closed hin u
  | lineEnd =>
      have hword : (c :: rest ++ t).take (c :: rest).length = ['\n'] := hspells
      rw [List.take_left] at hword
      cases hword
      rfl
  | symbol sign =>
      obtain ⟨hword, -⟩ := hspells
      rw [List.take_left] at hword
      have hsymbol := Symbol.read?_of_head? hhead c
      cases sign with
      | less =>
          cases hword
          simpa [read, hsymbol, show Text.isDigit '<' = false from rfl] using h
      | greater =>
          cases hword
          simpa [read, hsymbol, show Text.isDigit '>' = false from rfl] using h
      | _ =>
          cases hword
          rfl
  | separator mark =>
      obtain ⟨hword, hmark⟩ := hspells
      rw [List.take_left] at hword
      cases hword
      rcases hmark with rfl | rfl <;> rfl
  | sourceEnd => contradiction

end Lexeme

namespace Text.Reworded

variable {t u : Text}

theorem sameToRemark (h : Reworded t u) : t.SameToRemark u := by
  induction h with
  | done => exact .inl rfl
  | @token gap word l t u hgap hread _ _ _ ih =>
      obtain rfl | ⟨before, remark, x, y, rfl, rfl, hremark⟩ := ih
      · exact .inl rfl
      · exact .inr ⟨gap ++ (word ++ before), remark, x, y, by simp, by simp, hremark⟩
  | @remark gap word old new t u hgap hread _ _ _ _ _ =>
      obtain ⟨hupper, -⟩ := Lexeme.spells_of_read hread
      rw [List.take_left] at hupper
      exact .inr ⟨gap, word, old ++ t, new ++ u, rfl, rfl, hupper⟩

/-- Reworded texts start with the same lexeme, and what is behind it is reworded unless it
is the word of a remark. -/
theorem read (h : Reworded t u) :
    Reworded t.pastGap u.pastGap ∧
      ∃ l n, Lexeme.read t.pastGap = .ok (l, n) ∧ Lexeme.read u.pastGap = .ok (l, n) ∧
        (l ≠ .sourceEnd → l ≠ .keyword .REM →
          Reworded (t.pastGap.drop n) (u.pastGap.drop n)) := by
  cases h with
  | done _ hgap =>
      have hend : t.pastGap = [] := pastGap_eq_nil hgap
      rw [hend]
      exact ⟨.done [] (by simp), .sourceEnd, 0, rfl, rfl, fun hne => absurd rfl hne⟩
  | @token gap word l t u hgap hread hend hrem hrest =>
      have hread' := Lexeme.read_sameToRemark hread hend hrest.sameToRemark
      rw [Lexeme.pastGap_of_read hgap hread, Lexeme.pastGap_of_read hgap hread']
      refine ⟨.token [] word l (by simp) hread hend hrem hrest, l, word.length, hread, hread',
        fun _ _ => ?_⟩
      rwa [List.drop_left, List.drop_left]
  | @remark gap word old new t u hgap hread hold hnew hline hrest =>
      have hread' := Lexeme.read_keyword_append hread (new ++ u)
      rw [Lexeme.pastGap_of_read hgap hread, Lexeme.pastGap_of_read hgap hread']
      exact ⟨.remark [] word old new (by simp) hread hold hnew hline hrest, .keyword .REM,
        word.length, hread, hread', fun _ hne => absurd rfl hne⟩

/-- Below the line the texts are reworded again. -/
theorem afterLine (h : Reworded t u) : Reworded t.afterLine u.afterLine := by
  induction h with
  | done gap hgap =>
      rw [← afterLine_pastGap, pastGap_eq_nil hgap]
      exact .done [] (by simp)
  | @token gap word l t u hgap hread _ _ hrest ih =>
      have hspans := Lexeme.read_spans hread
      have hnone := newline_notMem_of_isGap hgap
      rw [afterLine_append hnone, afterLine_append hnone]
      by_cases hl : l = .lineEnd
      · obtain ⟨rest, hline, hlen⟩ := hspans.lineEnd hl
        obtain ⟨c, rfl⟩ := List.length_eq_one_iff.1 hlen
        cases hline
        exact hrest
      · have hword := hspans.inLine hl
        rw [List.take_left] at hword
        rwa [afterLine_append hword, afterLine_append hword]
  | @remark gap word old new t u hgap hread hold hnew _ _ ih =>
      have hword := (Lexeme.read_spans hread).inLine (by simp)
      have hnone := newline_notMem_of_isGap hgap
      rw [List.take_left] at hword
      rwa [afterLine_append hnone, afterLine_append hnone, afterLine_append hword,
        afterLine_append hword, afterLine_append hold, afterLine_append hnew]

theorem readable (h : Reworded t u) : u.Readable := by
  induction h with
  | done gap hgap => exact .done (pastGap_eq_nil hgap)
  | @token gap word l t u hgap hread hend hrem hrest ih =>
      have hread' := Lexeme.read_sameToRemark hread hend hrest.sameToRemark
      have hpast := Lexeme.pastGap_of_read hgap hread'
      rw [← hpast] at hread'
      refine .token hread' hend hrem ?_
      rwa [hpast, List.drop_left]
  | @remark gap word old new t u hgap hread _ hnew _ _ ih =>
      have hread' := Lexeme.read_keyword_append hread (new ++ u)
      have hpast := Lexeme.pastGap_of_read hgap hread'
      have hword := (Lexeme.read_spans hread').inLine (by simp)
      rw [List.take_left] at hword
      rw [← hpast] at hread'
      refine .remark hread' ?_
      rw [hpast, afterLine_append hword, afterLine_append hnew]
      exact ih.afterLine

end Text.Reworded

namespace Cursor

/-- Cursors on the same lexeme of reworded texts. -/
structure Parallel (c d : Cursor) : Prop where
  left : c.Sound
  right : d.Sound
  text : c.sheet.text.Reworded d.sheet.text
  ahead : c.ahead.Reworded d.ahead

namespace Parallel

variable {c d c' d' : Cursor}

theorem here (h : c.Parallel d) :
    d.token.lexeme = c.token.lexeme ∧
      (c.token.lexeme ≠ .sourceEnd → c.token.lexeme ≠ .keyword .REM →
        c.behind.Reworded d.behind) := by
  obtain ⟨-, l, n, hread, hread', hrest⟩ := h.ahead.read
  rw [h.left.settled] at hread hrest
  rw [h.right.settled] at hread' hrest
  have hfound := h.left.here.symm.trans hread
  have hfound' := h.right.here.symm.trans hread'
  simp only [Except.ok.injEq, Prod.mk.injEq] at hfound hfound'
  rw [hfound.1, hfound'.1, h.left.behind_eq, h.right.behind_eq, hfound.2, hfound'.2]
  exact ⟨rfl, hrest⟩

theorem lineNumber? (h : c.Parallel d) (atEnd : Bool) :
    c.lineNumber? atEnd = d.lineNumber? atEnd := by
  obtain ⟨hlexeme, hbehind⟩ := h.here
  unfold Cursor.lineNumber?
  rw [hlexeme, closes_eq, closes_eq]
  generalize c.token.lexeme = l at hbehind ⊢
  cases l with
  | number value =>
      have hhead := (hbehind (by simp) (by simp)).sameToRemark.head?
      have hcloses : Text.closes atEnd d.behind = Text.closes atEnd c.behind := by
        unfold Text.closes
        rw [hhead]
      rw [hcloses]
  | _ => rfl

theorem next (h : c.Parallel d) (hend : c.token.lexeme ≠ .sourceEnd)
    (hrem : c.token.lexeme ≠ .keyword .REM) (hc : Cursor.next c = .ok () c')
    (hd : Cursor.next d = .ok () d') : c'.Parallel d' := by
  obtain ⟨hlexeme, hbehind⟩ := h.here
  obtain ⟨c₁, hc₁, hsound, hsheet, hahead, -⟩ := h.left.next hend hrem
  obtain ⟨d₁, hd₁, hsound', hsheet', hahead', -⟩ :=
    h.right.next (hlexeme ▸ hend) (hlexeme ▸ hrem)
  cases hc.symm.trans hc₁
  cases hd.symm.trans hd₁
  refine ⟨hsound, hsound', ?_, ?_⟩
  · rw [hsheet, hsheet']
    exact h.text
  · rw [hahead, hahead']
    exact (hbehind hend hrem).read.1

theorem skipLine (h : c.Parallel d) (hend : c.token.lexeme ≠ .sourceEnd)
    (hc : Cursor.skipLine c = .ok () c') (hd : Cursor.skipLine d = .ok () d') :
    c'.Parallel d' := by
  obtain ⟨c₁, hc₁, hsound, hsheet, hahead, -⟩ := h.left.skipLine hend
  obtain ⟨d₁, hd₁, hsound', hsheet', hahead', -⟩ := h.right.skipLine (h.here.1 ▸ hend)
  cases hc.symm.trans hc₁
  cases hd.symm.trans hd₁
  refine ⟨hsound, hsound', ?_, ?_⟩
  · rw [hsheet, hsheet']
    exact h.text
  · rw [hahead, hahead']
    exact h.ahead.afterLine.read.1

end Parallel

theorem parallel_of_start {c d : Cursor} (h : c.sheet.text.Reworded d.sheet.text)
    (hc : start c.sheet = .ok c) (hd : start d.sheet = .ok d)
    (hreadable : c.sheet.text.Readable) : c.Parallel d := by
  refine ⟨sound_of_start hc hreadable, sound_of_start hd h.readable, h, ?_⟩
  rw [ahead_of_start hc, ahead_of_start hd]
  exact h.read.1

end Cursor

def Coupling.remarks : Coupling where
  slack := False
  Rel c d := c.Parallel d
  Edge c d := c.Parallel d
  left h := h.left
  right h := h.right
  alike h := .inl h.here.1
  line h := h.lineNumber? true
  edge h := h.lineNumber? false
  next h hend hrem hc hd := ⟨h.next hend hrem hc hd, fun _ => h.next hend hrem hc hd⟩
  finish h hend hline := by
    rw [h.here.1, hend] at hline
    cases hline
  skip h hend hc hd := h.skipLine hend hc hd
  start := by
    intro c d c' d' h hc hd
    have hsheet := Cursor.sheet_of_start hc
    have hsheet' := Cursor.sheet_of_start hd
    refine Cursor.parallel_of_start ?_ (hsheet.symm ▸ hc) (hsheet'.symm ▸ hd) ?_
    · rw [hsheet, hsheet']
      exact h.text
    · rw [hsheet]
      exact h.left.whole

namespace Machine

/-- The words of remarks may be replaced: the survey records the same numbers and calls come
out the same. -/
theorem echoes_of_reworded {sheet : Sheet} {size : WordSize} {output : Output}
    {reports : Reports} {m : Machine} (hload : load sheet size output reports = .ok m)
    (hsurvey : m.Surveyed) {text : Text} (hwords : sheet.text.Reworded text) :
    ∃ n, load { sheet with text := text } size output reports = .ok n ∧ m.Echoes n := by
  obtain ⟨hreadable, c, hc, rfl, rfl⟩ := start_of_surveyed hload hsurvey
  obtain ⟨d, hd, -⟩ := Cursor.start_of_readable { c.sheet with text := text } hwords.readable
  have hsheet := Cursor.sheet_of_start hd
  have hstart : Cursor.start d.sheet = .ok d := hsheet.symm ▸ hd
  have hparallel : Coupling.remarks.Rel c d := by
    refine Cursor.parallel_of_start ?_ hc hstart hreadable
    rw [hsheet]
    exact hwords
  exact ⟨_, load_of_start hd size output reports,
    Coupling.echoes id hparallel hc hstart size output reports⟩

/-- New words that hold a quote, a stray character, a line number and a jump. -/
theorem echoes_of_reworded_jump :
    ∃ m n, load ⟨"A=1 REM\nREM x\n".toList, []⟩ ⟨16, by decide⟩ {} {} = .ok m ∧
      load ⟨"A=1 REM\"?20 GOTO20\nREM\n".toList, []⟩ ⟨16, by decide⟩ {} {} = .ok n ∧
      m.Echoes n := by
  have hgap : ∀ c ∈ [' '], Text.isGap c = true := by simp [Text.isGap]
  have hnone : ∀ c ∈ ([] : Text), Text.isGap c = true := by simp
  have hwords : Text.Reworded "A=1 REM\nREM x\n".toList "A=1 REM\"?20 GOTO20\nREM\n".toList := by
    refine .token [] ['A'] (.letter 'A') hnone rfl (by simp) (by simp) ?_
    refine .token [] ['='] (.symbol .equal) hnone rfl (by simp) (by simp) ?_
    refine .token [] ['1'] (.number 1) hnone rfl (by simp) (by simp) ?_
    refine .remark [' '] "REM".toList [] "\"?20 GOTO20".toList hgap rfl (by decide) (by decide)
      (.inr rfl) ?_
    refine .token [] ['\n'] .lineEnd hnone rfl (by simp) (by simp) ?_
    refine .remark [] "REM".toList " x".toList [] hnone rfl (by decide) (by decide) (.inr rfl) ?_
    refine .token [] ['\n'] .lineEnd hnone rfl (by simp) (by simp) ?_
    exact .done [] hnone
  have hload : load ⟨"A=1 REM\nREM x\n".toList, []⟩ ⟨16, by decide⟩ {} {} =
      .ok (fresh ⟨⟨"A=1 REM\nREM x\n".toList, []⟩, .first, ⟨.letter 'A', 1, 1, 0, 1⟩⟩
        ⟨16, by decide⟩ {} {}) := rfl
  obtain ⟨n, hn, hechoes⟩ := echoes_of_reworded hload (by decide +kernel) hwords
  exact ⟨_, n, hload, hn, hechoes⟩

end Machine

end LineBasic
