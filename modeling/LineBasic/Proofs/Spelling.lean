import LineBasic.Proofs.Breaks
import LineBasic.Proofs.Numeral

/-!
# Lexemes as they are written

Every lexeme but the end of the source can be written down, a keyword in any mix of
case, and reading what is written gives the lexeme back as long as a gap, a line end or
nothing at all follows.

Of the ways to write a lexeme one is its spelling. A line is spelled with one space
between its lexemes. The word of a remark is left out there: what follows it is no
lexeme.
-/
namespace LineBasic

namespace Text

/-- A text that starts with a space or a line end. -/
def Apart (x : Text) : Prop := x.head? = some ' ' ∨ x.head? = some '\n'

theorem Apart.cases {x : Text} (h : x.Apart) : ∃ rest, x = ' ' :: rest ∨ x = '\n' :: rest := by
  cases x with
  | nil => rcases h with h | h <;> cases h
  | cons c rest =>
      refine ⟨rest, ?_⟩
      rcases h with h | h
      · cases h
        exact .inl rfl
      · cases h
        exact .inr rfl

/-- A text that is empty or starts with a gap or a line end. -/
def Clear (x : Text) : Prop := ∀ c, x.head? = some c → isGap c = true ∨ c = '\n'

theorem clear_nil : Clear [] := by
  intro c hc
  cases hc

theorem Apart.clear {x : Text} (h : x.Apart) : x.Clear := by
  intro c hc
  obtain ⟨rest, rfl | rfl⟩ := h.cases
  · cases hc
    exact .inl rfl
  · cases hc
    exact .inr rfl

theorem Clear.cases {x : Text} (h : x.Clear) :
    x = [] ∨ ∃ c rest, x = c :: rest ∧ (((c = ' ' ∨ c = '\t') ∨ c = '\r') ∨ c = '\n') := by
  cases x with
  | nil => exact .inl rfl
  | cons c rest =>
      have hc := h c rfl
      simp only [isGap, Bool.or_eq_true, beq_iff_eq] at hc
      exact .inr ⟨c, rest, rfl, hc⟩

/-- Nothing that stops at gaps and line ends goes on behind one. -/
theorem Clear.takeWhile_append {t x : Text} (hx : x.Clear) {p : Char → Bool}
    (ht : ∀ c ∈ t, p c = true) (hp : p ' ' = false ∧ p '\t' = false ∧ p '\r' = false ∧
      p '\n' = false) : (t ++ x).takeWhile p = t := by
  rw [List.takeWhile_append_of_pos ht]
  obtain ⟨hspace, htab, hreturn, hline⟩ := hp
  rcases hx.cases with rfl | ⟨c, rest, rfl, ((rfl | rfl) | rfl) | rfl⟩
  · simp
  · simp [hspace]
  · simp [htab]
  · simp [hreturn]
  · simp [hline]

theorem toNat_of_isAlpha {c : Char} (h : c.isAlpha = true) :
    (65 ≤ c.toNat ∧ c.toNat ≤ 90) ∨ (97 ≤ c.toNat ∧ c.toNat ≤ 122) := by
  rcases (Bool.or_eq_true _ _).mp h with hupper | hlower
  · left
    obtain ⟨hlow, hhigh⟩ := of_decide_eq_true hupper
    exact ⟨UInt32.le_iff_toNat_le.1 hlow, UInt32.le_iff_toNat_le.1 hhigh⟩
  · right
    obtain ⟨hlow, hhigh⟩ := (Bool.and_eq_true _ _).mp hlower
    exact ⟨UInt32.le_iff_toNat_le.1 (of_decide_eq_true hlow),
      UInt32.le_iff_toNat_le.1 (of_decide_eq_true hhigh)⟩

theorem isAlpha_of_lower {c : Char} (h : 'a'.val ≤ c.val ∧ c.val ≤ 'z'.val) :
    c.isAlpha = true := by
  have hlower : c.isLower = true :=
    (Bool.and_eq_true _ _).mpr ⟨decide_eq_true h.1, decide_eq_true h.2⟩
  exact (Bool.or_eq_true _ _).mpr (.inr hlower)

theorem isAlpha_of_toUpper {c : Char} (h : c.toUpper.isAlpha = true) : c.isAlpha = true := by
  unfold Char.toUpper at h
  split at h
  · rename_i hc
    exact isAlpha_of_lower hc
  · exact h

theorem upperChar_of_isAlpha {c : Char} (h : c.isAlpha = true) : upperChar c = [c.toUpper] := by
  have hletter := toNat_of_isAlpha h
  have hascii : c.toNat < 128 := by omega
  simp [upperChar, hascii]

theorem isGap_of_isAlpha {c : Char} (h : c.isAlpha = true) : isGap c = false := by
  rw [Bool.eq_false_iff]
  intro hgap
  simp only [isGap, Bool.or_eq_true, beq_iff_eq] at hgap
  rcases hgap with (rfl | rfl) | rfl <;> exact absurd h (by decide)

theorem isDigit_of_isAlpha {c : Char} (h : c.isAlpha = true) : isDigit c = false := by
  have hletter := toNat_of_isAlpha h
  have hascii : c.toNat < 128 := by omega
  have hdigit : c.isDigit = false := by
    simp only [Bool.eq_false_iff, ne_eq, Char.isDigit_iff_toNat, Char.reduceToNat]
    omega
  have hbare : bareDigits.has c = false := by
    simp only [Ranges.has, bareDigits, List.any_cons, List.any_nil, Bool.or_false,
      Bool.or_eq_false_iff, Bool.and_eq_false_iff, decide_eq_false_iff_not]
    omega
  simp [isDigit, isDecimal, decimalValue?, hascii, hdigit, hbare]

end Text

namespace Keyword

/-- No keyword starts another. -/
theorem eq_of_isPrefix : ∀ word ∈ all, ∀ other ∈ all,
    word.spelling <+: other.spelling → word = other := by
  decide

theorem isPrefix_of_starts {word : Keyword} {t : Text} (h : word.starts t = true) :
    word.spelling <+: Text.upper t := by
  refine ⟨Text.upper (t.drop word.spelling.length), ?_⟩
  calc
    word.spelling ++ Text.upper (t.drop word.spelling.length)
    _ = Text.upper (t.take word.spelling.length) ++ Text.upper (t.drop word.spelling.length) := by
        rw [beq_iff_eq.1 h]
    _ = Text.upper (t.take word.spelling.length ++ t.drop word.spelling.length) :=
        List.flatMap_append.symm
    _ = Text.upper t := by rw [List.take_append_drop]

/-- A text starts with one keyword at most. -/
theorem read?_of_starts {word : Keyword} {t : Text} (h : word.starts t = true) :
    read? t = some word := by
  have hfound : (read? t).isSome = true := by
    rw [read?, List.find?_isSome]
    exact ⟨word, mem_all word, h⟩
  obtain ⟨other, hother⟩ := Option.isSome_iff_exists.1 hfound
  have hstarts : other.starts t = true := by simpa using List.find?_some hother
  have heq : other = word := by
    rcases List.prefix_or_prefix_of_prefix (isPrefix_of_starts hstarts) (isPrefix_of_starts h)
      with hle | hle
    · exact eq_of_isPrefix other (mem_all other) word (mem_all word) hle
    · exact (eq_of_isPrefix word (mem_all word) other (mem_all other) hle).symm
  rw [hother, heq]

theorem read?_of_upper {word : Keyword} {t : Text} (h : Text.upper t = word.spelling) (x : Text) :
    read? (t ++ x) = some word := by
  apply read?_of_starts
  rw [starts, List.take_left' (length_of_upper h), h, beq_self_eq_true]

theorem isAlpha_of_mem {word : Keyword} {c : Char} (h : c ∈ word.spelling) : c.isAlpha = true := by
  have hall : word.spelling.all Char.isAlpha = true := by cases word <;> rfl
  exact List.all_eq_true.1 hall c h

/-- A letter that stands alone starts no keyword. -/
theorem read?_letter {c : Char} (hc : c.isAlpha = true) {x : Text} (hx : x.Clear) :
    read? (c :: x) = none := by
  have hupper := Text.upperChar_of_isAlpha hc
  have hspace : Text.upperChar ' ' = [' '] := rfl
  have htab : Text.upperChar '\t' = ['\t'] := rfl
  have hreturn : Text.upperChar '\r' = ['\r'] := rfl
  have hline : Text.upperChar '\n' = ['\n'] := rfl
  have hstarts : ∀ word : Keyword, word.starts (c :: x) = false := by
    intro word
    rcases hx.cases with rfl | ⟨d, rest, rfl, ((rfl | rfl) | rfl) | rfl⟩
    · cases word <;> simp [starts, spelling, Text.upper, hupper]
    · cases word <;> simp [starts, spelling, Text.upper, hupper, hspace]
    · cases word <;> simp [starts, spelling, Text.upper, hupper, htab]
    · cases word <;> simp [starts, spelling, Text.upper, hupper, hreturn]
    · cases word <;> simp [starts, spelling, Text.upper, hupper, hline]
  simp [read?, hstarts]

end Keyword

namespace Lexeme

def spelling : Lexeme → Text
  | keyword word => word.spelling
  | symbol sign => sign.spelling
  | separator mark => [mark]
  | number value => Nat.toDigits 10 value
  | letter name => [name]
  | string body => '"' :: body ++ ['"']
  | lineEnd => ['\n']
  | sourceEnd => []

/-- A lexeme within a line that reading may go on behind. -/
def Proper : Lexeme → Prop
  | keyword word => word ≠ .REM
  | symbol _ => True
  | separator mark => mark = ',' ∨ mark = ';'
  | number value => Numeral.writable value = true
  | letter name => name.isAlpha = true
  | string body => ∀ c ∈ body, inString c = true
  | lineEnd | sourceEnd => False

/-- A text that a lexeme may be written as. -/
def Writes : Lexeme → Text → Prop
  | keyword word, t => t.map Char.toUpper = word.spelling
  | symbol sign, t => t = sign.spelling
  | separator mark, t => (mark = ',' ∨ mark = ';') ∧ t = [mark]
  | number value, t => Numeral.writable value = true ∧ t = Nat.toDigits 10 value
  | letter name, t => name.isAlpha = true ∧ t = [name]
  | string body, t => (∀ c ∈ body, inString c = true) ∧ t = '"' :: body ++ ['"']
  | lineEnd, t => t = ['\n']
  | sourceEnd, _ => False

theorem Proper.writes {l : Lexeme} (h : l.Proper) : l.Writes l.spelling := by
  cases l with
  | keyword word => cases word <;> rfl
  | symbol sign => exact rfl
  | separator mark => exact ⟨h, rfl⟩
  | number value => exact ⟨h, rfl⟩
  | letter name => exact ⟨h, rfl⟩
  | string body => exact ⟨h, rfl⟩
  | lineEnd => exact h.elim
  | sourceEnd => exact h.elim

/-- Writing a keyword takes ASCII letters only, and so its two upper cases agree. -/
theorem Writes.keyword {word : Keyword} {t : Text} (h : (Lexeme.keyword word).Writes t) :
    ∃ c rest, t = c :: rest ∧ c.isAlpha = true ∧ Text.upper t = word.spelling := by
  have halpha : ∀ c ∈ t, c.isAlpha = true := by
    intro c hc
    have hmem : c.toUpper ∈ word.spelling := by
      rw [← show t.map Char.toUpper = word.spelling from h]
      exact List.mem_map_of_mem hc
    exact Text.isAlpha_of_toUpper (Keyword.isAlpha_of_mem hmem)
  have hupper : Text.upper t = word.spelling := by
    rw [← show t.map Char.toUpper = word.spelling from h, Text.upper, List.map_eq_flatMap,
      List.flatMap_def, List.flatMap_def]
    congr 1
    exact List.map_congr_left fun c hc => Text.upperChar_of_isAlpha (halpha c hc)
  cases t with
  | nil => cases word <;> cases h
  | cons c rest => exact ⟨c, rest, rfl, halpha c (by simp), hupper⟩

theorem read_alpha {c : Char} (h : c.isAlpha = true) (rest : Text) :
    read (c :: rest) = .ok (readWord c (c :: rest)) := by
  have hne : ∀ d : Char, d.isAlpha = false → c ≠ d := by
    rintro d hd rfl
    exact absurd (h.symm.trans hd) (by decide)
  have hsymbol : Symbol.read? (c :: rest) = none := by
    unfold Symbol.read?
    split <;> simp_all
  simp [read, hne '\n' rfl, hne '"' rfl, hne ',' rfl, hne ';' rfl, Text.isDigit_of_isAlpha h,
    hsymbol, h]

/-- A keyword in any case that starts with an ASCII letter. -/
theorem read_of_upper {word : Keyword} {c : Char} {rest : Text} (hc : c.isAlpha = true)
    (h : Text.upper (c :: rest) = word.spelling) (x : Text) :
    read (c :: rest ++ x) = .ok (.keyword word, (c :: rest).length) := by
  have hword := Keyword.read?_of_upper h x
  rw [List.cons_append] at hword ⊢
  rw [read_alpha hc, readWord, hword, Keyword.length_of_upper h]

theorem read_keyword (word : Keyword) (x : Text) :
    read (word.spelling ++ x) = .ok (.keyword word, word.spelling.length) := by
  cases word <;> exact read_of_upper rfl rfl x

theorem read_symbol (sign : Symbol) {x : Text} (hx : x.Clear) :
    read (sign.spelling ++ x) = .ok (.symbol sign, sign.spelling.length) := by
  rcases hx.cases with rfl | ⟨c, rest, rfl, ((rfl | rfl) | rfl) | rfl⟩ <;> cases sign <;> rfl

theorem read_digits {t : Text} (ht : ∀ c ∈ t, Text.isDigit c = true) (hne : t ≠ []) {value : Nat}
    (hvalue : Numeral.natural t = .ok value) {x : Text} (hx : x.Clear) :
    read (t ++ x) = .ok (.number value, t.length) := by
  have hnumber : readNumber (t ++ x) = .ok (.number value, t.length) := by
    simp only [readNumber, hx.takeWhile_append ht (by decide), hvalue]
  obtain ⟨c, rest, rfl⟩ := List.exists_cons_of_ne_nil hne
  have hfirst := ht c (by simp)
  have hline : c ≠ '\n' := by
    rintro rfl
    exact absurd hfirst (by decide)
  rw [List.cons_append] at hnumber ⊢
  rw [read, if_neg hline, if_pos hfirst, hnumber]

theorem read_number {value : Nat} (h : Numeral.writable value = true) {x : Text}
    (hx : x.Clear) :
    read (Nat.toDigits 10 value ++ x) = .ok (.number value, (Nat.toDigits 10 value).length) := by
  have hdigit : ∀ c ∈ Nat.toDigits 10 value, Text.isDigit c = true :=
    fun c hc => Text.isDigit_of_isDecimal (Numeral.isDecimal_of_mem_toDigits hc)
  exact read_digits hdigit Nat.toDigits_ne_nil (Numeral.natural_toDigits h) hx

theorem read_letter {name : Char} (h : name.isAlpha = true) {x : Text} (hx : x.Clear) :
    read (name :: x) = .ok (.letter name, 1) := by
  rw [read_alpha h, readWord, Keyword.read?_letter h hx]

/-- Reading a lexeme as it is written gives the lexeme. -/
theorem read_of_writes {l : Lexeme} {t : Text} (h : l.Writes t) {x : Text} (hx : x.Clear) :
    read (t ++ x) = .ok (l, t.length) := by
  cases l with
  | keyword word =>
      obtain ⟨c, rest, rfl, hc, hupper⟩ := h.keyword
      exact read_of_upper hc hupper x
  | symbol sign =>
      cases h
      exact read_symbol sign hx
  | separator mark =>
      obtain ⟨rfl | rfl, rfl⟩ := h <;> rfl
  | number value =>
      obtain ⟨hvalue, rfl⟩ := h
      exact read_number hvalue hx
  | letter name =>
      obtain ⟨hname, rfl⟩ := h
      exact read_letter hname hx
  | string body =>
      obtain ⟨hbody, rfl⟩ := h
      have hlen : ('"' :: body ++ ['"']).length = body.length + 2 := by simp
      rw [hlen, List.cons_append, List.cons_append, List.append_assoc, List.singleton_append]
      exact readString_closed hbody x
  | lineEnd =>
      cases h
      rfl
  | sourceEnd => exact h.elim

/-- What is written of a lexeme starts with something that is no gap. -/
theorem pastGap_of_writes {l : Lexeme} {t : Text} (h : l.Writes t) (x : Text) :
    Text.pastGap (t ++ x) = t ++ x := by
  suffices hfirst : ∃ c rest, t = c :: rest ∧ Text.isGap c = false by
    obtain ⟨c, rest, hc, hgap⟩ := hfirst
    simp [hc, Text.pastGap, hgap]
  cases l with
  | keyword word =>
      obtain ⟨c, rest, rfl, hc, -⟩ := h.keyword
      exact ⟨c, rest, rfl, Text.isGap_of_isAlpha hc⟩
  | symbol sign =>
      cases h
      cases sign <;> exact ⟨_, _, rfl, rfl⟩
  | separator mark => obtain ⟨rfl | rfl, rfl⟩ := h <;> exact ⟨_, _, rfl, rfl⟩
  | number value =>
      obtain ⟨-, rfl⟩ := h
      obtain ⟨c, rest, hc⟩ :=
        List.exists_cons_of_ne_nil (Nat.toDigits_ne_nil (n := value) (b := 10))
      refine ⟨c, rest, hc, ?_⟩
      have hdecimal : Text.isDecimal c = true :=
        Numeral.isDecimal_of_mem_toDigits (n := value) (by simp [hc])
      rw [Bool.eq_false_iff]
      intro hgap
      simp only [Text.isGap, Bool.or_eq_true, beq_iff_eq] at hgap
      rcases hgap with (rfl | rfl) | rfl <;> exact absurd hdecimal (by decide)
  | letter name =>
      obtain ⟨hname, rfl⟩ := h
      exact ⟨name, [], rfl, Text.isGap_of_isAlpha hname⟩
  | string body =>
      obtain ⟨-, rfl⟩ := h
      exact ⟨_, _, rfl, rfl⟩
  | lineEnd =>
      cases h
      exact ⟨_, _, rfl, rfl⟩
  | sourceEnd => exact h.elim

/-- Reading the spelling of a lexeme gives the lexeme. -/
theorem read_spelling {l : Lexeme} (h : l.Proper) {x : Text} (hx : x.Apart) :
    read (l.spelling ++ x) = .ok (l, l.spelling.length) :=
  read_of_writes h.writes hx.clear

theorem newline_notMem_spelling {l : Lexeme} (h : l.Proper) : '\n' ∉ l.spelling := by
  have hread := read_spelling h (x := ['\n']) (.inr rfl)
  have hne : l ≠ .lineEnd := by
    rintro rfl
    exact h
  have hline := (read_spans hread).inLine hne
  rwa [List.take_left] at hline

theorem pastGap_spelling {l : Lexeme} (h : l.Proper) (x : Text) :
    Text.pastGap (l.spelling ++ x) = l.spelling ++ x :=
  pastGap_of_writes h.writes x

/-- Lexemes with one space between them. -/
def spelled (ls : List Lexeme) : Text := [' '].intercalate (ls.map spelling)

/-- What stands behind a lexeme of a line. -/
theorem spelled_cons (l : Lexeme) (ls : List Lexeme) (rest : Text) :
    ∃ x : Text, spelled (l :: ls) ++ '\n' :: rest = l.spelling ++ x ∧ x.Apart ∧
      x.pastGap = Text.pastGap (spelled ls ++ '\n' :: rest) := by
  cases ls with
  | nil => exact ⟨'\n' :: rest, by simp [spelled], .inr rfl, rfl⟩
  | cons second others =>
      refine ⟨' ' :: (spelled (second :: others) ++ '\n' :: rest), ?_, .inl rfl, rfl⟩
      simp [spelled, List.intercalate_cons_cons]

theorem pastGap_spelled {ls : List Lexeme} (h : ∀ l ∈ ls, l.Proper) (rest : Text) :
    Text.pastGap (spelled ls ++ '\n' :: rest) = spelled ls ++ '\n' :: rest := by
  cases ls with
  | nil => rfl
  | cons l ls =>
      obtain ⟨x, hx, -, -⟩ := spelled_cons l ls rest
      rw [hx]
      exact pastGap_spelling (h l (by simp)) x

theorem newline_notMem_spelled {ls : List Lexeme} (h : ∀ l ∈ ls, l.Proper) :
    '\n' ∉ spelled ls := by
  induction ls with
  | nil => simp [spelled]
  | cons l ls ih =>
      obtain ⟨hl, hls⟩ := List.forall_mem_cons.1 h
      cases ls with
      | nil => simpa [spelled] using newline_notMem_spelling hl
      | cons second others =>
          have hrest := ih hls
          simp only [spelled, List.map_cons, List.intercalate_cons_cons, List.mem_append,
            not_or] at hrest ⊢
          exact ⟨⟨newline_notMem_spelling hl, by simp⟩, hrest⟩

/-- A line that is spelled out can be read if the lines below it can. -/
theorem readable_spelled {ls : List Lexeme} (h : ∀ l ∈ ls, l.Proper) {rest : Text}
    (hrest : rest.Readable) : Text.Readable (spelled ls ++ '\n' :: rest) := by
  induction ls with
  | nil => exact .token (l := .lineEnd) (n := 1) rfl (by simp) (by simp) hrest
  | cons l ls ih =>
      obtain ⟨hl, hls⟩ := List.forall_mem_cons.1 h
      obtain ⟨x, hx, hapart, hbehind⟩ := spelled_cons l ls rest
      have hread := read_spelling hl hapart
      have hend : l ≠ .sourceEnd := by
        rintro rfl
        exact hl
      have hrem : l ≠ .keyword .REM := by
        rintro rfl
        exact hl rfl
      rw [← pastGap_spelling hl x] at hread
      rw [hx]
      apply Text.Readable.token hread hend hrem
      rw [pastGap_spelling hl, List.drop_left]
      rw [← Text.Readable.pastGap_iff, hbehind, Text.Readable.pastGap_iff]
      exact ih hls

end Lexeme

end LineBasic
