import LineBasic.Proofs.Tiling
import LineBasic.Proofs.Twins
import LineBasic.Proofs.Walk

/-!
# Letter case

A text whose letters are written in another case, outside its strings, is run in the
same way, token by token at the same places.

Only the ASCII letters are meant. `Text.raised` writes all of them as capitals, and
reading commutes with it: the lexeme at the start of a text and the one at the start of
the raised text have the same length and differ at most in the case of a letter or of
a string. Two texts that are raised to the same one are therefore read side by side,
at the same offsets.
-/
namespace LineBasic

namespace Text

/-- The text with its ASCII letters as capitals. -/
def raised (t : Text) : Text := t.map Char.toUpper

theorem toUpper_of_isAlpha_eq_false {c : Char} (h : c.isAlpha = false) : c.toUpper = c := by
  unfold Char.toUpper
  split
  · rename_i hlower
    exact absurd (h.symm.trans (isAlpha_of_lower hlower)) (by decide)
  · rfl

/-- The fifty-two letters. -/
theorem exists_ofNat_of_isAlpha {c : Char} (h : c.isAlpha = true) :
    ∃ first ∈ [65, 97], ∃ i < 26, Char.ofNat (first + i) = c := by
  rcases toNat_of_isAlpha h with ⟨hlow, hhigh⟩ | ⟨hlow, hhigh⟩
  · refine ⟨65, by simp, c.toNat - 65, by omega, ?_⟩
    rw [Nat.add_sub_cancel' hlow, Char.ofNat_toNat]
  · refine ⟨97, by simp, c.toNat - 97, by omega, ?_⟩
    rw [Nat.add_sub_cancel' hlow, Char.ofNat_toNat]

/-- What capitals have in common with the letters they come from. -/
theorem toUpper_of_isAlpha {c : Char} (h : c.isAlpha = true) :
    c.toUpper.isAlpha = true ∧ lower [c.toUpper] = lower [c] ∧
      c.toUpper.toUpper = c.toUpper := by
  have hletters : ∀ first ∈ [65, 97], ∀ i < 26,
      (Char.ofNat (first + i)).toUpper.isAlpha = true ∧
        lower [(Char.ofNat (first + i)).toUpper] = lower [Char.ofNat (first + i)] ∧
        (Char.ofNat (first + i)).toUpper.toUpper = (Char.ofNat (first + i)).toUpper := by
    decide
  obtain ⟨first, hfirst, i, hi, rfl⟩ := exists_ofNat_of_isAlpha h
  exact hletters first hfirst i hi

/-- A class that takes all letters, or none, takes a letter in either case. -/
theorem toUpper_class {p : Char → Bool} {b : Bool} (hp : ∀ c, c.isAlpha = true → p c = b)
    (c : Char) : p c.toUpper = p c := by
  cases h : c.isAlpha with
  | true => rw [hp c h, hp _ (toUpper_of_isAlpha h).1]
  | false => rw [toUpper_of_isAlpha_eq_false h]

theorem isGap_toUpper (c : Char) : isGap c.toUpper = isGap c :=
  toUpper_class (fun _ => isGap_of_isAlpha) c

theorem isDigit_toUpper (c : Char) : isDigit c.toUpper = isDigit c :=
  toUpper_class (fun _ => isDigit_of_isAlpha) c

theorem ne_of_isAlpha {c d : Char} (hd : d.isAlpha = false) (h : c.isAlpha = true) : c ≠ d := by
  rintro rfl
  exact absurd (h.symm.trans hd) (by decide)

theorem toUpper_eq_iff {d : Char} (hd : d.isAlpha = false) (c : Char) : c.toUpper = d ↔ c = d := by
  have hsame := toUpper_class (p := (· == d)) (b := false)
    (fun c h => beq_eq_false_iff_ne.2 (ne_of_isAlpha hd h)) c
  constructor
  · intro h
    exact beq_iff_eq.1 (hsame.symm.trans (beq_iff_eq.2 h))
  · intro h
    exact beq_iff_eq.1 (hsame.trans (beq_iff_eq.2 h))

theorem upperChar_toUpper (c : Char) : upperChar c.toUpper = upperChar c := by
  cases h : c.isAlpha with
  | true =>
      obtain ⟨halpha, -, htwice⟩ := toUpper_of_isAlpha h
      rw [upperChar_of_isAlpha h, upperChar_of_isAlpha halpha, htwice]
  | false => rw [toUpper_of_isAlpha_eq_false h]

theorem upper_raised (t : Text) : upper t.raised = upper t := by
  simp only [upper, raised, List.flatMap_map, upperChar_toUpper]

theorem takeWhile_raised {p : Char → Bool} (hp : ∀ c : Char, p c.toUpper = p c) (t : Text) :
    t.raised.takeWhile p = raised (t.takeWhile p) := by
  have hcomp : p ∘ Char.toUpper = p := funext hp
  rw [raised, List.takeWhile_map, hcomp]
  rfl

theorem dropWhile_raised {p : Char → Bool} (hp : ∀ c : Char, p c.toUpper = p c) (t : Text) :
    t.raised.dropWhile p = raised (t.dropWhile p) := by
  have hcomp : p ∘ Char.toUpper = p := funext hp
  rw [raised, List.dropWhile_map, hcomp]
  rfl

theorem length_raised (t : Text) : t.raised.length = t.length := List.length_map _

theorem drop_raised (t : Text) (n : Nat) : t.raised.drop n = raised (t.drop n) := List.map_drop.symm

theorem pastGap_raised (t : Text) : t.raised.pastGap = t.pastGap.raised :=
  dropWhile_raised isGap_toUpper t

theorem bne_toUpper (c : Char) : (c.toUpper != '\n') = (c != '\n') :=
  toUpper_class (p := (· != '\n')) (fun _ h => bne_iff_ne.2 (ne_of_isAlpha (by decide) h)) c

theorem afterLine_raised (t : Text) : t.raised.afterLine = t.afterLine.raised := by
  rw [afterLine, dropWhile_raised bne_toUpper, drop_raised]
  rfl

theorem raised_of_isDigit {t : Text} (h : ∀ c ∈ t, isDigit c = true) : t.raised = t := by
  have hsame : ∀ c ∈ t, c.toUpper = id c := by
    intro c hc
    apply toUpper_of_isAlpha_eq_false
    rw [Bool.eq_false_iff]
    intro halpha
    exact absurd ((h c hc).symm.trans (isDigit_of_isAlpha halpha)) (by decide)
  rw [raised, List.map_congr_left hsame, List.map_id]

end Text

namespace Keyword

theorem read?_raised (t : Text) : read? t.raised = read? t := by
  have hstarts : ∀ word : Keyword, word.starts t.raised = word.starts t := by
    intro word
    have htake : t.raised.take word.spelling.length = Text.raised (t.take word.spelling.length) :=
      List.map_take.symm
    rw [starts, htake, Text.upper_raised]
    rfl
  simp only [read?, hstarts]

end Keyword

namespace Symbol

theorem read?_of_isAlpha {c : Char} (h : c.isAlpha = true) (rest : Text) :
    read? (c :: rest) = none := by
  unfold read?
  split <;> simp_all

/-- Letters are no part of a symbol. -/
theorem read?_raised (t : Text) : read? t.raised = read? t := by
  cases t with
  | nil => rfl
  | cons c rest =>
      change read? (c.toUpper :: Text.raised rest) = read? (c :: rest)
      cases hc : c.isAlpha with
      | true => rw [read?_of_isAlpha hc, read?_of_isAlpha (Text.toUpper_of_isAlpha hc).1]
      | false =>
          rw [Text.toUpper_of_isAlpha_eq_false hc]
          cases rest with
          | nil => rfl
          | cons d rest =>
              change read? (c :: d.toUpper :: Text.raised rest) = read? (c :: d :: rest)
              cases hd : d.isAlpha with
              | true =>
                  have hd' := (Text.toUpper_of_isAlpha hd).1
                  have hne : ∀ e : Char, e.isAlpha = true → e ≠ '=' ∧ e ≠ '>' := fun e he =>
                    ⟨Text.ne_of_isAlpha (by decide) he, Text.ne_of_isAlpha (by decide) he⟩
                  rw [read?_second (hne d hd).1 (hne d hd).2,
                    read?_second (hne _ hd').1 (hne _ hd').2]
              | false =>
                  rw [Text.toUpper_of_isAlpha_eq_false hd, read?_two, read?_two c d rest]

end Symbol

namespace Lexeme

/-- The lexeme of the raised text. -/
def raised : Lexeme → Lexeme
  | letter name => letter name.toUpper
  | string body => string (Text.raised body)
  | other => other

theorem inString_toUpper (c : Char) : inString c.toUpper = inString c := by
  refine Text.toUpper_class (b := true) (fun c h => ?_) c
  simp only [inString, Bool.and_eq_true, bne_iff_ne]
  exact ⟨Text.ne_of_isAlpha (by decide) h, Text.ne_of_isAlpha (by decide) h⟩

theorem readString_eq (t : Text) :
    readString t = if (t.dropWhile inString).head? = some '"' then
      .ok (.string (t.takeWhile inString), (t.takeWhile inString).length + 2)
    else .error .unterminatedString := by
  rw [readString, Text.dropWhile_eq_drop]
  cases t.drop (t.takeWhile inString).length with
  | nil => rfl
  | cons c rest =>
      simp only [List.head?_cons, Option.some.injEq]
      split
      · rename_i hquote
        cases hquote
        rw [if_pos rfl]
      · rename_i hother
        rw [if_neg fun hc => hother rest (by rw [hc])]

theorem readString_raised (t : Text) :
    readString t.raised = (readString t).map fun found => (found.1.raised, found.2) := by
  have hhead : (Text.raised (t.dropWhile inString)).head? = some '"' ↔
      (t.dropWhile inString).head? = some '"' := by
    rw [Text.raised, List.head?_map]
    cases (t.dropWhile inString).head? with
    | none => simp
    | some c => simp [Text.toUpper_eq_iff (d := '"') rfl c]
  simp only [readString_eq, Text.takeWhile_raised inString_toUpper, Text.length_raised,
    Text.dropWhile_raised inString_toUpper, hhead]
  split <;> rfl

theorem readNumber_raised (t : Text) : readNumber t.raised = readNumber t := by
  have hdigits : Text.raised (t.takeWhile Text.isDigit) = t.takeWhile Text.isDigit :=
    Text.raised_of_isDigit (List.all_eq_true.1 List.all_takeWhile)
  simp only [readNumber, Text.takeWhile_raised Text.isDigit_toUpper, hdigits]

/-- Reading commutes with raising. -/
theorem read_raised (t : Text) :
    read t.raised = (read t).map fun found => (found.1.raised, found.2) := by
  cases t with
  | nil => rfl
  | cons c rest =>
      have hraised : Text.raised (c :: rest) = c.toUpper :: Text.raised rest := rfl
      have hnumber := readNumber_raised (c :: rest)
      have hsymbol := Symbol.read?_raised (c :: rest)
      have hkeyword := Keyword.read?_raised (c :: rest)
      cases hc : c.isAlpha with
      | true =>
          rw [hraised] at hkeyword ⊢
          rw [read_alpha hc, read_alpha (Text.toUpper_of_isAlpha hc).1, readWord, readWord,
            hkeyword]
          cases Keyword.read? (c :: rest) <;> rfl
      | false =>
          rw [hraised, Text.toUpper_of_isAlpha_eq_false hc] at hnumber hsymbol
          rw [hraised, Text.toUpper_of_isAlpha_eq_false hc]
          simp only [read, hnumber, hsymbol, readString_raised, hc]
          split
          · rfl
          split
          · simp only [readNumber]
            split <;> rfl
          split
          · rfl
          split
          · rfl
          · split
            · rfl
            · rfl

/-- Lexemes of texts that are raised to the same one. -/
theorem read_of_raised {t t' : Text} (h : t'.raised = t.raised) {l : Lexeme} {n : Nat}
    (hr : read t = .ok (l, n)) : ∃ l', read t' = .ok (l', n) ∧ l'.raised = l.raised := by
  have hboth := read_raised t'
  rw [h, read_raised t, hr] at hboth
  cases hr' : read t' with
  | ok found =>
      rw [hr'] at hboth
      simp only [Except.map, Except.ok.injEq, Prod.mk.injEq] at hboth
      exact ⟨found.1, by rw [hboth.2], hboth.1.symm⟩
  | error f =>
      rw [hr'] at hboth
      cases hboth

theorem kind_raised (l : Lexeme) : l.raised.kind = l.kind := by
  cases l <;> rfl

theorem kind_of_raised {l l' : Lexeme} (h : l'.raised = l.raised) : l'.kind = l.kind := by
  rw [← kind_raised l', h, kind_raised]

/-- Such lexemes are treated alike, but for strings that differ in case. -/
theorem alike_of_raised {t t' : Text} {l l' : Lexeme} {n : Nat} (hr : read t = .ok (l, n))
    (hr' : read t' = .ok (l', n)) (h : l'.raised = l.raised)
    (hstring : ∀ body, l = .string body → t'.take n = t.take n) : Alike False l l' := by
  cases l with
  | letter name =>
      cases l' with
      | letter name' =>
          refine .inr (.inl ⟨name, name', rfl, rfl, ?_⟩)
          obtain ⟨-, halpha, -⟩ := spells_of_read hr
          obtain ⟨-, halpha', -⟩ := spells_of_read hr'
          calc
            Text.lower [name']
            _ = Text.lower [name'.toUpper] := (Text.toUpper_of_isAlpha halpha').2.1.symm
            _ = Text.lower [name.toUpper] := by rw [letter.inj h]
            _ = Text.lower [name] := (Text.toUpper_of_isAlpha halpha).2.1
      | _ => cases h
  | string body =>
      have htake := read_take hr'
      rw [hstring body rfl, read_take hr] at htake
      cases htake
      exact .inl rfl
  | _ => cases l' <;> first | exact .inl h | cases h

end Lexeme

namespace Text

/-- Texts that differ only in the case of ASCII letters, and not in the strings that
reading the first one comes to. -/
structure Recased (t t' : Text) : Prop where
  letters : t'.raised = t.raised
  strings : ∀ pos body n, t.Visits (t.drop pos) →
    Lexeme.read (t.drop pos) = .ok (.string body, n) → (t'.drop pos).take n = (t.drop pos).take n

/-- Whether a string that is read at an offset stands there in the other text as well. -/
def keepsString (t t' : Text) (pos : Nat) : Bool :=
  match Lexeme.read (t.drop pos) with
  | .ok (.string _, n) => (t'.drop pos).take n == (t.drop pos).take n
  | _ => true

theorem Recased.of_keepsString {t t' : Text} (hletters : t'.raised = t.raised)
    (h : ∀ pos < t.length, t.keepsString t' pos = true) : t.Recased t' := by
  refine ⟨hletters, fun pos body n _ hread => ?_⟩
  by_cases hpos : pos < t.length
  · have hkeeps := h pos hpos
    rw [keepsString, hread] at hkeeps
    exact beq_iff_eq.1 hkeeps
  · rw [List.drop_eq_nil_of_le (Nat.le_of_not_lt hpos)] at hread
    cases hread

section
variable {t t' : Text} (h : t'.raised = t.raised)
include h

theorem length_of_raised : t'.length = t.length := by
  rw [← length_raised, h, length_raised]

theorem drop_of_raised (n : Nat) : raised (t'.drop n) = raised (t.drop n) := by
  rw [← drop_raised, h, drop_raised]

theorem pastGap_of_raised : t'.pastGap.raised = t.pastGap.raised := by
  rw [← pastGap_raised, h, pastGap_raised]

theorem takeWhile_of_raised {p : Char → Bool} (hp : ∀ c : Char, p c.toUpper = p c) :
    (t'.takeWhile p).length = (t.takeWhile p).length := by
  rw [← length_raised, ← takeWhile_raised hp, h, takeWhile_raised hp, length_raised]

theorem closes_of_raised (atEnd : Bool) : closes atEnd t' = closes atEnd t := by
  have hfollow : ∀ c : Char, Cursor.mayFollow c.toUpper = Cursor.mayFollow c := by
    refine toUpper_class (b := false) fun c hc => ?_
    simp only [Cursor.mayFollow, Bool.or_eq_false_iff, beq_eq_false_iff_ne]
    exact ⟨⟨ne_of_isAlpha rfl hc, ne_of_isAlpha rfl hc⟩, ne_of_isAlpha rfl hc⟩
  have hcloses : ∀ u : Text, closes atEnd u.raised = closes atEnd u := by
    intro u
    cases u with
    | nil => rfl
    | cons c rest => exact hfollow c
  rw [← hcloses, h, hcloses]

end

/-- Whether a text can be read does not depend on case. -/
theorem Readable.of_raised {t t' : Text} (hr : t.Readable) (h : t'.raised = t.raised) :
    t'.Readable := by
  induction hr generalizing t' with
  | @done t he =>
      have hlen := length_of_raised (pastGap_of_raised h)
      rw [he] at hlen
      exact .done (List.length_eq_zero_iff.1 hlen)
  | @token t l n hread hend hrem _ ih =>
      obtain ⟨l', hread', hl⟩ := Lexeme.read_of_raised (pastGap_of_raised h) hread
      have hkind := Lexeme.kind_of_raised hl
      refine .token hread' ?_ ?_ (ih (drop_of_raised (pastGap_of_raised h) n))
      · rwa [ne_eq, ← Lexeme.kind_eq_sourceEnd, hkind, Lexeme.kind_eq_sourceEnd]
      · rwa [ne_eq, ← Lexeme.kind_eq_keyword, hkind, Lexeme.kind_eq_keyword]
  | @remark t n hread _ ih =>
      obtain ⟨l', hread', hl⟩ := Lexeme.read_of_raised (pastGap_of_raised h) hread
      have hrem : l' = .keyword .REM := Lexeme.kind_eq_keyword.1 (Lexeme.kind_of_raised hl)
      subst hrem
      refine .remark hread' (ih ?_)
      rw [← afterLine_raised, pastGap_of_raised h, afterLine_raised]

end Text

namespace Sheet

variable {s s' : Sheet} (h : s'.text.raised = s.text.raised)
include h

theorem entry_of_raised (pos : Nat) : s'.entry pos = s.entry pos := by
  rw [entry, entry, Text.takeWhile_of_raised (Text.drop_of_raised h pos) Text.isGap_toUpper]

theorem lineEnd?_of_raised (pos : Nat) : s'.lineEnd? pos = s.lineEnd? pos := by
  have hline := Text.drop_of_raised h pos
  have hrest : Text.raised ((s'.text.drop pos).dropWhile (· != '\n')) =
      Text.raised ((s.text.drop pos).dropWhile (· != '\n')) := by
    rw [← Text.dropWhile_raised Text.bne_toUpper, hline, Text.dropWhile_raised Text.bne_toUpper]
  have hlen := Text.length_of_raised hrest
  have hstop := Text.takeWhile_of_raised hline (p := (· != '\n')) Text.bne_toUpper
  simp only [lineEnd?, hstop]
  generalize (s'.text.drop pos).dropWhile (· != '\n') = rest' at hlen ⊢
  generalize (s.text.drop pos).dropWhile (· != '\n') = rest at hlen ⊢
  cases rest with
  | nil => rw [List.length_eq_zero_iff.1 hlen]
  | cons c more =>
      cases rest' with
      | nil => cases hlen
      | cons c' more' => rfl

end Sheet

/-- Tokens of one kind that take the same place. -/
structure Token.Overlies (t u : Token) : Prop where
  kind : u.kind = t.kind
  line : u.line = t.line
  column : u.column = t.column
  start : u.start = t.start
  stop : u.stop = t.stop

namespace Cursor

/-- Cursors at the same place of texts that differ in case. -/
structure Abreast (c d : Cursor) : Prop where
  left : c.Steady
  right : d.Sound
  text : c.sheet.text.Recased d.sheet.text
  origin : d.origin = c.origin
  token : c.token.Overlies d.token

namespace Abreast

variable {c d : Cursor}

theorem ahead (h : c.Abreast d) : d.ahead.raised = c.ahead.raised := by
  rw [Cursor.ahead, h.token.start]
  exact Text.drop_of_raised h.text.letters _

theorem behind (h : c.Abreast d) : d.behind.raised = c.behind.raised := by
  rw [Cursor.behind, h.token.stop]
  exact Text.drop_of_raised h.text.letters _

theorem alike (h : c.Abreast d) : Lexeme.Alike False c.token.lexeme d.token.lexeme := by
  have hread := h.left.here
  have hread' := h.right.here
  rw [h.token.start, h.token.stop] at hread'
  obtain ⟨l', hl', hraised⟩ := Lexeme.read_of_raised h.ahead hread
  cases hl'.symm.trans hread'
  refine Lexeme.alike_of_raised hread hread' hraised fun body hbody => ?_
  rw [hbody] at hread
  have htake := h.text.strings c.token.start body _ h.left.visited hread
  simpa only [Cursor.ahead, h.token.start] using htake

theorem lineNumber? (h : c.Abreast d) (atEnd : Bool) :
    c.lineNumber? atEnd = d.lineNumber? atEnd := by
  have hcloses : d.closes atEnd = c.closes atEnd := by
    rw [closes_eq, closes_eq, Text.closes_of_raised h.behind]
  unfold Cursor.lineNumber?
  rw [hcloses]
  rcases h.alike with hl | ⟨a, b, hl, hl', -⟩ | ⟨hslack, -⟩
  · rw [hl]
  · rw [hl, hl']
  · exact hslack.elim

end Abreast

/-- Moves to the same offset bring cursors to the same place. -/
theorem abreast_of_moveTo {c d c' d' : Cursor} (h : c.sheet.text.Recased d.sheet.text)
    {origin : Origin} {pos : Nat} (hc : moveTo origin pos c = .ok () c')
    (hd : moveTo origin pos d = .ok () d') (hleft : c'.Steady) (hright : d'.Sound) :
    c'.Abreast d' := by
  obtain ⟨l, n, hread, rfl⟩ := landed_of_moveTo hc
  obtain ⟨l', n', hread', rfl⟩ := landed_of_moveTo hd
  have hraised := Text.pastGap_of_raised (Text.drop_of_raised h.letters pos)
  obtain ⟨found, hfound, hl⟩ := Lexeme.read_of_raised hraised hread
  cases hfound.symm.trans hread'
  have hentry := Sheet.entry_of_raised h.letters pos
  refine ⟨hleft, hright, h, rfl, Lexeme.kind_of_raised hl, rfl, ?_, hentry, ?_⟩
  · simp only [landed, Sheet.found, hentry]
  · simp only [landed, Sheet.found, hentry]

theorem abreast_of_start {c d : Cursor} (h : c.sheet.text.Recased d.sheet.text)
    (hc : start c.sheet = .ok c) (hd : start d.sheet = .ok d)
    (hreadable : c.sheet.text.Readable) : c.Abreast d := by
  obtain ⟨first, hfirst, hsteady, -⟩ := Steady.start c.sheet hreadable
  cases hc.symm.trans hfirst
  exact abreast_of_moveTo h (reset_of_start hc) (reset_of_start hd) hsteady
    (sound_of_start hd (hreadable.of_raised h.letters))

namespace Abreast

variable {c d c' d' : Cursor}

theorem lineEnd_iff (h : c.Abreast d) : d.token.lexeme = .lineEnd ↔ c.token.lexeme = .lineEnd := by
  rcases h.alike with heq | ⟨a, b, ha, hb, -⟩ | ⟨hslack, -⟩
  · rw [heq]
  · simp [ha, hb]
  · exact hslack.elim

theorem next (h : c.Abreast d) (hend : c.token.lexeme ≠ .sourceEnd)
    (hrem : c.token.lexeme ≠ .keyword .REM) (hc : Cursor.next c = .ok () c')
    (hd : Cursor.next d = .ok () d') : c'.Abreast d' := by
  have hend' := h.alike.ne_sourceEnd hend
  obtain ⟨c₁, hc₁, hsteady, -⟩ := h.left.next hend hrem
  obtain ⟨d₁, hd₁, hsound, -⟩ := h.right.next hend' (h.alike.ne_remark hrem)
  cases hc.symm.trans hc₁
  cases hd.symm.trans hd₁
  have horigin : d.nextOrigin = c.nextOrigin := by
    simp only [nextOrigin, h.lineEnd_iff, h.origin, h.token.stop]
  rw [next_eq_moveTo hend] at hc
  rw [next_eq_moveTo hend', horigin, h.token.stop] at hd
  exact abreast_of_moveTo h.text hc hd hsteady hsound

theorem skipLine (h : c.Abreast d) (hend : c.token.lexeme ≠ .sourceEnd)
    (hc : Cursor.skipLine c = .ok () c') (hd : Cursor.skipLine d = .ok () d') :
    c'.Abreast d' := by
  have hend' := h.alike.ne_sourceEnd hend
  obtain ⟨c₁, hc₁, hsteady, -⟩ := h.left.skipLine hend
  obtain ⟨d₁, hd₁, hsound, -⟩ := h.right.skipLine hend'
  cases hc.symm.trans hc₁
  cases hd.symm.trans hd₁
  have hline := Sheet.lineEnd?_of_raised h.text.letters c.token.start
  have horigin : d.skipOrigin = c.skipOrigin := by
    simp only [skipOrigin, h.token.start, hline, h.origin]
  have hoffset : d.skipOffset = c.skipOffset := by
    simp only [skipOffset, h.token.start, hline, Text.length_of_raised h.text.letters]
  rw [skipLine_eq_moveTo hend] at hc
  rw [skipLine_eq_moveTo hend', horigin, hoffset] at hd
  exact abreast_of_moveTo h.text hc hd hsteady hsound

end Abreast

end Cursor

def Coupling.letterCase : Coupling where
  slack := False
  Rel c d := c.Abreast d
  Edge c d := c.Abreast d
  left h := h.left.toSound
  right h := h.right
  alike h := h.alike
  line h := h.lineNumber? true
  edge h := h.lineNumber? false
  next h hend hrem hc hd := ⟨h.next hend hrem hc hd, fun _ => h.next hend hrem hc hd⟩
  finish h hend hline := by
    rw [h.lineEnd_iff, hend] at hline
    cases hline
  skip h hend hc hd := h.skipLine hend hc hd
  start := by
    intro c d c' d' h hc hd
    have hsheet := Cursor.sheet_of_start hc
    have hsheet' := Cursor.sheet_of_start hd
    refine Cursor.abreast_of_start ?_ (hsheet.symm ▸ hc) (hsheet'.symm ▸ hd) ?_
    · rw [hsheet, hsheet']
      exact h.text
    · rw [hsheet]
      exact h.left.whole

namespace Machine

/-- Letters outside strings may be written in either case: calls come out the same, and
the current tokens are of one kind and at one place. -/
theorem echoes_of_recased {sheet : Sheet} {size : WordSize} {output : Output}
    {reports : Reports} {m : Machine} (hload : load sheet size output reports = .ok m)
    (hsurvey : m.Surveyed) {text : Text} (hcase : sheet.text.Recased text) :
    ∃ n, load { sheet with text := text } size output reports = .ok n ∧ m.Echoes n ∧
      ∀ count, (m.called count).cursor.token.Overlies (n.called count).cursor.token := by
  obtain ⟨hreadable, c, hc, rfl, rfl⟩ := start_of_surveyed hload hsurvey
  obtain ⟨d, hd, -⟩ := Cursor.start_of_readable { c.sheet with text := text }
    (hreadable.of_raised hcase.letters)
  have hsheet := Cursor.sheet_of_start hd
  have hstart : Cursor.start d.sheet = .ok d := hsheet.symm ▸ hd
  have habreast : Coupling.letterCase.Rel c d := by
    refine Cursor.abreast_of_start ?_ hc hstart hreadable
    rw [hsheet]
    exact hcase
  refine ⟨_, load_of_start hd size output reports,
    Coupling.echoes id habreast hc hstart size output reports, fun count => ?_⟩
  exact (Coupling.called_twins id habreast hc hstart size output reports count).2.2.token

/-- A keyword, a register and a remark in the other case; the string is left as it is. -/
theorem echoes_of_recased_print :
    ∃ m n, load ⟨"10 b=7 Print \"Ab\"b rem".toList, []⟩ ⟨16, by decide⟩ {} {} = .ok m ∧
      load ⟨"10 B=7 pRINT \"Ab\"B Rem".toList, []⟩ ⟨16, by decide⟩ {} {} = .ok n ∧ m.Echoes n ∧
      ∀ count, (m.called count).cursor.token.Overlies (n.called count).cursor.token := by
  have hcase : Text.Recased "10 b=7 Print \"Ab\"b rem".toList
      "10 B=7 pRINT \"Ab\"B Rem".toList :=
    .of_keepsString (by decide +kernel) (by decide +kernel)
  have hload : load ⟨"10 b=7 Print \"Ab\"b rem".toList, []⟩ ⟨16, by decide⟩ {} {} =
      .ok (fresh ⟨⟨"10 b=7 Print \"Ab\"b rem".toList, []⟩, .first, ⟨.number 10, 1, 1, 0, 2⟩⟩
        ⟨16, by decide⟩ {} {}) := rfl
  obtain ⟨n, hn, hechoes⟩ := echoes_of_recased hload (by decide +kernel) hcase
  exact ⟨_, n, hload, hn, hechoes⟩

end Machine

end LineBasic
