import LineBasic.Proofs.Footing
import LineBasic.Proofs.Spelling

/-!
# Tokens tile the text

Reading a text token by token, remarks not skipped, loses nothing: between two tokens
there are only gaps, the last token is the end of the source, and gaps and tokens put
together are the text. The characters of a token say what it is, and it could not have
been any longer.

`Lexeme.Spells` says what a lexeme asks of the text it stands in. All but one of its
clauses look at the lexeme and at what follows. A number must not have a digit before
it either; that no lexeme of another kind ends with a digit is due to the case
mappings, which take no digit to a letter.
-/
namespace LineBasic

namespace Text

/-- The characters from one offset up to another. -/
def slice (t : Text) (start stop : Nat) : Text := (t.drop start).take (stop - start)

theorem slice_append_drop (t : Text) {start stop : Nat} (h : start ≤ stop) :
    t.slice start stop ++ t.drop stop = t.drop start := by
  have hdrop : t.drop stop = (t.drop start).drop (stop - start) := by
    rw [List.drop_drop, Nat.add_sub_cancel' h]
  rw [slice, hdrop, List.take_append_drop]

/-- Only gaps stand from one offset up to another. -/
structure Blank (t : Text) (start stop : Nat) : Prop where
  le : start ≤ stop
  gap : ∀ c ∈ t.slice start stop, isGap c = true

/-- No run of digits goes on across an offset. -/
def Cut (t : Text) (pos : Nat) : Prop :=
  ∀ k a b, k + 1 = pos → t[k]? = some a → t[pos]? = some b → isDigit a = true → isDigit b = false

theorem toNat_ofNat (n : Nat) : (Char.ofNat n).toNat = n ∨ (Char.ofNat n).toNat = 0 := by
  by_cases h : n.isValidChar
  · left
    have hofNat : Char.ofNat n = Char.ofNatAux n h := dif_pos h
    rw [hofNat]
    rfl
  · right
    have hofNat : Char.ofNat n = Char.ofNat 0 := dif_neg h
    rw [hofNat]
    rfl

/-- The shifts of case that lead into ASCII move a dotless i and a long s. -/
theorem low_upperOne : ∀ shift ∈ upperOne,
    (shift.first = shift.last ∧ (shift.first = 0x131 ∨ shift.first = 0x17F)) ∨
      128 ≤ (shift.first : Int) + shift.delta := by
  decide +kernel

theorem length_upperMany : ∀ entry ∈ upperMany, 2 ≤ entry.2.length := by
  decide +kernel

theorem shifted_upperOne {n : Nat} (hhigh : 128 ≤ n) (h : shifted upperOne n < 128) :
    n = 0x131 ∨ n = 0x17F := by
  unfold shifted at h
  split at h
  · rename_i shift hfind
    have hmoves := List.find?_some hfind
    simp only [Shift.moves, Bool.and_eq_true, decide_eq_true_eq] at hmoves
    rcases low_upperOne shift (List.mem_of_find?_eq_some hfind) with ⟨hone, hlow⟩ | hfar
    · omega
    · omega
  · omega

/-- No digit becomes a letter in upper case. -/
theorem isDigit_of_upperChar {c x : Char} (hx : x.isAlpha = true) (h : upperChar c = [x]) :
    isDigit c = false := by
  unfold upperChar at h
  split at h
  · cases h
    exact isDigit_of_isAlpha (isAlpha_of_toUpper hx)
  · rename_i hhigh
    have hletter := toNat_of_isAlpha hx
    split at h
    · rename_i images hlookup
      obtain ⟨before, after, htable, -⟩ := List.lookup_eq_some_iff.1 hlookup
      have hlength : 2 ≤ images.length := length_upperMany (c.toNat, images) (by simp [htable])
      have hone := congrArg List.length h
      simp only [List.length_map, List.length_singleton] at hone
      omega
    · cases h
      have hlow : shifted upperOne c.toNat < 128 := by
        rcases toNat_ofNat (shifted upperOne c.toNat) with heq | heq <;> omega
      rcases shifted_upperOne (by omega) hlow with hc | hc
      · rw [← Char.ofNat_toNat c, hc]
        decide
      · rw [← Char.ofNat_toNat c, hc]
        decide

end Text

namespace Keyword

theorem isDigit_of_upper {word : Keyword} {t : Text} (h : Text.upper t = word.spelling) :
    ∀ c ∈ t, Text.isDigit c = false := by
  intro c hc
  have hwithin := upperChar_within h hc
  obtain ⟨x, hx⟩ := List.length_eq_one_iff.1 (length_upperChar hwithin)
  have hmem : x ∈ word.spelling := hwithin.subset (by simp [hx])
  exact Text.isDigit_of_upperChar (isAlpha_of_mem hmem) hx

end Keyword

namespace Symbol

/-- No longer symbol stands where one is read. -/
theorem longest_of_read? {t : Text} {sign : Symbol} (h : read? t = some sign) (other : Symbol)
    (hother : other.spelling <+: t) : other.spelling.length ≤ sign.spelling.length := by
  obtain ⟨rest, rfl⟩ := hother
  by_cases hone : other.spelling.length ≤ 1
  · have hsign : 1 ≤ sign.spelling.length := by cases sign <;> decide
    exact Nat.le_trans hone hsign
  · have hread : read? (other.spelling ++ rest) = some other := by
      cases other with
      | atMost => rfl
      | atLeast => rfl
      | unequal => rfl
      | _ => exact absurd (by decide) hone
    rw [hread] at h
    cases h
    exact Nat.le_refl _

end Symbol

namespace Lexeme

/-- What a lexeme of `n` characters asks of the text from there on. -/
def Spells (t : Text) (n : Nat) : Lexeme → Prop
  | number value => (∀ c ∈ t.take n, Text.isDigit c = true) ∧
      (∀ c, t[n]? = some c → Text.isDigit c = false) ∧ Numeral.natural (t.take n) = .ok value
  | string body => t.take n = '"' :: (body ++ ['"']) ∧ '"' ∉ body ∧ '\n' ∉ body
  | lineEnd => t.take n = ['\n']
  | symbol sign => t.take n = sign.spelling ∧
      ∀ other : Symbol, other.spelling <+: t → other.spelling.length ≤ sign.spelling.length
  | separator mark => t.take n = [mark] ∧ (mark = ',' ∨ mark = ';')
  | keyword word => Text.upper (t.take n) = word.spelling ∧
      ∃ first, t.head? = some first ∧ first.isAlpha = true
  | letter name => t.take n = [name] ∧ name.isAlpha = true ∧
      ∀ (word : Keyword) (k : Nat), Text.upper (t.take k) ≠ word.spelling
  | sourceEnd => t = []

theorem spells_of_read {t : Text} {l : Lexeme} {n : Nat} (h : read t = .ok (l, n)) :
    l.Spells t n := by
  cases found_of_read h with
  | sourceEnd => rfl
  | lineEnd => rfl
  | @number c rest value _ hvalue =>
      refine ⟨?_, ?_, ?_⟩
      · rw [take_readNumber]
        exact List.all_eq_true.1 List.all_takeWhile
      · intro d hd
        have hbehind := List.head?_dropWhile_not Text.isDigit (c :: rest)
        rw [Text.dropWhile_eq_drop, List.head?_drop, hd] at hbehind
        exact hbehind
      · rw [take_readNumber]
        exact hvalue
  | @string rest after hclosed =>
      have hbody := List.all_eq_true.1 (List.all_takeWhile (p := inString) (l := rest))
      refine ⟨take_readString hclosed, ?_, newline_notMem_string⟩
      intro hm
      exact absurd (hbody _ hm) (by decide)
  | symbol hsign => exact ⟨Symbol.take_of_read? hsign, Symbol.longest_of_read? hsign⟩
  | separator hmark => exact ⟨rfl, hmark⟩
  | @keyword c rest word halpha hword => exact ⟨upper_of_keyword hword, c, rfl, halpha⟩
  | @letter c rest halpha hnone =>
      refine ⟨rfl, halpha, ?_⟩
      intro word k hword
      have hlen := Keyword.length_of_upper hword
      rw [List.length_take] at hlen
      have htake : (c :: rest).take word.spelling.length = (c :: rest).take k :=
        List.take_eq_take_iff.2 (by omega)
      have hstarts := List.find?_eq_none.1 hnone word (Keyword.mem_all word)
      rw [Keyword.starts, htake, hword, beq_self_eq_true] at hstarts
      exact hstarts rfl

/-- A lexeme that is no number does not end with a digit. -/
theorem Spells.last {t : Text} {n : Nat} {l : Lexeme} (h : l.Spells t n)
    (hnumber : ∀ value, l ≠ .number value) {c : Char} (hc : (t.take n).getLast? = some c) :
    Text.isDigit c = false := by
  cases l with
  | keyword word => exact Keyword.isDigit_of_upper h.1 c (List.mem_of_getLast? hc)
  | symbol sign =>
      rw [h.1] at hc
      revert hc
      cases sign <;> (rintro ⟨⟩; decide)
  | separator mark =>
      rw [h.1] at hc
      cases hc
      rcases h.2 with rfl | rfl <;> decide
  | number value => exact absurd rfl (hnumber value)
  | letter name =>
      rw [h.1] at hc
      cases hc
      exact Text.isDigit_of_isAlpha h.2.1
  | string body =>
      rw [h.1, ← List.cons_append, List.getLast?_concat] at hc
      cases hc
      decide
  | lineEnd =>
      rw [show t.take n = ['\n'] from h] at hc
      cases hc
      decide
  | sourceEnd =>
      rw [show t = [] from h, List.take_nil] at hc
      cases hc

/-- A lexeme is read from its own characters. -/
theorem read_take {t : Text} {l : Lexeme} {n : Nat} (h : read t = .ok (l, n)) :
    read (t.take n) = .ok (l, n) := by
  have hspells := spells_of_read h
  have hspans := read_spans h
  have hlen : (t.take n).length = n := List.length_take_of_le hspans.le
  have hread : read (t.take n ++ []) = .ok (l, (t.take n).length) := by
    cases l with
    | keyword word =>
        obtain ⟨hupper, first, hfirst, halpha⟩ := hspells
        have hpos := hspans.pos (by simp)
        obtain ⟨rest, htake⟩ : ∃ rest, t.take n = first :: rest := by
          apply List.head?_eq_some_iff.1
          rw [List.head?_take, if_neg (by omega), hfirst]
        rw [htake] at hupper ⊢
        exact read_of_upper halpha hupper []
    | symbol sign => exact read_of_writes (l := .symbol sign) hspells.1 Text.clear_nil
    | separator mark =>
        exact read_of_writes (l := .separator mark) ⟨hspells.2, hspells.1⟩ Text.clear_nil
    | number value =>
        have hne : t.take n ≠ [] := List.length_pos_iff.1 (hlen.symm ▸ hspans.pos (by simp))
        exact read_digits hspells.1 hne hspells.2.2 Text.clear_nil
    | letter name =>
        exact read_of_writes (l := .letter name) ⟨hspells.2.1, hspells.1⟩ Text.clear_nil
    | string body =>
        obtain ⟨htake, hquote, hline⟩ := hspells
        refine read_of_writes (l := .string body) ⟨?_, htake⟩ Text.clear_nil
        intro c hc
        simp only [inString, Bool.and_eq_true, bne_iff_ne]
        exact ⟨fun he => hquote (he ▸ hc), fun he => hline (he ▸ hc)⟩
    | lineEnd => exact read_of_writes (l := .lineEnd) hspells Text.clear_nil
    | sourceEnd =>
        rw [show t = [] from hspells, List.take_nil]
        rfl
  rwa [List.append_nil, hlen] at hread

end Lexeme

namespace Text

/-- No run of digits goes on across the end of a lexeme. -/
theorem cut_of_read {t : Text} {start : Nat} {l : Lexeme} {n : Nat}
    (h : Lexeme.read (t.drop start) = .ok (l, n)) (hend : l ≠ .sourceEnd) : t.Cut (start + n) := by
  intro k a b hk ha hb hdigit
  have hspells := Lexeme.spells_of_read h
  have hspans := Lexeme.read_spans h
  have hpos := hspans.pos hend
  by_cases hnumber : ∃ value, l = .number value
  · obtain ⟨value, rfl⟩ := hnumber
    exact hspells.2.1 b (by rwa [List.getElem?_drop])
  · have hlast : ((t.drop start).take n).getLast? = some a := by
      rw [List.getLast?_eq_getElem?, List.length_take_of_le hspans.le,
        List.getElem?_take_of_lt (by omega), List.getElem?_drop]
      rwa [show start + (n - 1) = k by omega]
    have hnot := hspells.last (fun value he => hnumber ⟨value, he⟩) hlast
    exact absurd (hdigit.symm.trans hnot) (by decide)

end Text

namespace Sheet

/-- Only gaps are passed over on the way to a token. -/
theorem blank_entry (sheet : Sheet) (pos : Nat) : sheet.text.Blank pos (sheet.entry pos) := by
  refine ⟨Nat.le_add_right _ _, ?_⟩
  rw [Text.slice, entry, Nat.add_sub_cancel_left, Text.take_takeWhile]
  exact List.all_eq_true.1 List.all_takeWhile

theorem cut_entry {sheet : Sheet} {pos : Nat} (h : sheet.text.Cut pos) :
    sheet.text.Cut (sheet.entry pos) := by
  have hblank := sheet.blank_entry pos
  by_cases hsame : sheet.entry pos = pos
  · rwa [hsame]
  · intro k a b hk ha hb hdigit
    have hle := hblank.le
    have hmem : a ∈ sheet.text.slice pos (sheet.entry pos) := by
      apply List.mem_of_getElem? (i := k - pos)
      rw [Text.slice, List.getElem?_take_of_lt (by omega), List.getElem?_drop]
      rwa [show pos + (k - pos) = k by omega]
    have hgap := hblank.gap a hmem
    simp only [Text.isGap, Bool.or_eq_true, beq_iff_eq] at hgap
    rcases hgap with (rfl | rfl) | rfl <;> exact absurd hdigit (by decide)

end Sheet

/-- A token that stands in a text with the characters its lexeme asks for. -/
structure Token.Stands (text : Text) (token : Token) : Prop where
  lexeme : token.lexeme ≠ .sourceEnd
  pos : token.start < token.stop
  le : token.stop ≤ text.length
  /-- The characters of the token alone say what it is. -/
  reads : Lexeme.read (text.slice token.start token.stop) =
    .ok (token.lexeme, token.stop - token.start)
  spells : token.lexeme.Spells (text.drop token.start) (token.stop - token.start)
  /-- A number is a whole run of digits. -/
  whole : ∀ value, token.lexeme = .number value →
    ∀ k c, k + 1 = token.start → text[k]? = some c → Text.isDigit c = false

/-- Tokens that lie one behind the other from an offset on, up to the end of the source,
with only gaps between them. -/
inductive Tiles (text : Text) : Nat → List Token → Prop
  | last {pos : Nat} {token : Token} : text.Blank pos token.start → token.lexeme = .sourceEnd →
      token.start = text.length → token.stop = text.length → Tiles text pos [token]
  | token {pos : Nat} {token : Token} {rest : List Token} : text.Blank pos token.start →
      token.Stands text → Tiles text token.stop rest → Tiles text pos (token :: rest)

/-- The gaps before tokens and the characters of the tokens, put together. -/
def woven (text : Text) : Nat → List Token → Text
  | _, [] => []
  | pos, token :: rest => text.slice pos token.start ++ text.slice token.start token.stop ++
      woven text token.stop rest

theorem Tiles.woven_eq {text : Text} {pos : Nat} {tokens : List Token}
    (h : Tiles text pos tokens) : woven text pos tokens = text.drop pos := by
  induction h with
  | last hblank _ hstart hstop =>
      have hgap := text.slice_append_drop hblank.le
      have hnone : ∀ n, text.slice text.length n = [] := by
        intro n
        simp [Text.slice]
      rw [woven, woven, List.append_nil, hstop, hstart, hnone, List.append_nil, ← hgap, hstart,
        List.drop_length, List.append_nil]
  | @token pos token rest hblank hstands _ ih =>
      rw [woven, ih, List.append_assoc, text.slice_append_drop (Nat.le_of_lt hstands.pos),
        text.slice_append_drop hblank.le]

namespace Cursor

/-- A cursor on the token that is found from an offset on. -/
structure Entered (c : Cursor) (pos : Nat) : Prop extends Placed c where
  start_eq : c.token.start = c.sheet.entry pos
  within : pos ≤ c.sheet.text.length
  cut : c.sheet.text.Cut pos

namespace Entered

variable {c : Cursor} {pos : Nat}

theorem start_le (h : c.Entered pos) : c.token.start ≤ c.sheet.text.length := by
  rw [h.start_eq]
  exact Sheet.entry_le h.within

theorem blank (h : c.Entered pos) : c.sheet.text.Blank pos c.token.start := by
  rw [h.start_eq]
  exact c.sheet.blank_entry pos

theorem stop_le (h : c.Entered pos) : c.token.stop ≤ c.sheet.text.length :=
  h.toPlaced.stop_le h.start_le

theorem stands (h : c.Entered pos) (hend : c.token.lexeme ≠ .sourceEnd) :
    c.token.Stands c.sheet.text := by
  have hpos := h.spans.pos hend
  have hspells := Lexeme.spells_of_read h.here
  refine ⟨hend, by omega, h.stop_le, Lexeme.read_take h.here, hspells, ?_⟩
  intro value hvalue k a hk ha
  rw [hvalue] at hspells
  obtain ⟨b, hb⟩ : ∃ b, c.sheet.text[c.token.start]? = some b :=
    ⟨_, List.getElem?_eq_getElem (by have hle := h.stop_le; omega)⟩
  have hfirst : Text.isDigit b = true := by
    apply hspells.1 b
    apply List.mem_of_getElem? (i := 0)
    rw [List.getElem?_take_of_lt hpos, ahead, List.getElem?_drop]
    exact hb
  have hcut := Sheet.cut_entry h.cut
  rw [← h.start_eq] at hcut
  rw [Bool.eq_false_iff]
  intro hdigit
  exact absurd ((hcut k a b hk ha hb hdigit).symm.trans hfirst) (by decide)

/-- At the end of the source. -/
theorem ends (h : c.Entered pos) (hend : c.token.lexeme = .sourceEnd) :
    c.token.start = c.sheet.text.length ∧ c.token.stop = c.sheet.text.length := by
  have hahead := h.spans.ending.1 hend
  have hlen := congrArg List.length hahead
  rw [ahead, List.length_drop, List.length_nil] at hlen
  have hstart := h.start_le
  have hle := h.le
  have hstop := h.stop_le
  omega

theorem next (h : c.Entered pos) (hend : c.token.lexeme ≠ .sourceEnd) {d : Cursor}
    (hd : Cursor.next c = .ok () d) : d.sheet = c.sheet ∧ d.Entered c.token.stop := by
  rw [next_eq_moveTo hend] at hd
  obtain ⟨l, n, hr, rfl⟩ := landed_of_moveTo hd
  refine ⟨rfl, placed_landed _ hr, rfl, h.stop_le, ?_⟩
  have hcut := Text.cut_of_read h.here hend
  rwa [Nat.add_sub_cancel' h.le] at hcut

end Entered

/-- The tokens from a cursor on tile the text from where it was entered, if no fault
stops the cursor short. -/
theorem tiles_placesWithin {moves : Nat} {c : Cursor} {pos : Nat} (h : c.Entered pos)
    (hmoves : c.ahead.length ≤ moves) (hend : (placesWithin moves c).2 = none) :
    Tiles c.sheet.text pos ((placesWithin moves c).1.map token) := by
  induction moves generalizing c pos with
  | zero =>
      have hahead : c.ahead = [] := List.length_eq_zero_iff.1 (by omega)
      have hsource := h.spans.ending.2 hahead
      obtain ⟨hstart, hstop⟩ := h.ends hsource
      exact .last h.blank hsource hstart hstop
  | succ moves ih =>
      by_cases hsource : c.token.lexeme = .sourceEnd
      · obtain ⟨hstart, hstop⟩ := h.ends hsource
        rw [placesWithin, if_pos (finished_iff.2 hsource)]
        exact .last h.blank hsource hstart hstop
      · rw [placesWithin, if_neg (mt finished_iff.1 hsource)] at hend ⊢
        cases hnext : Cursor.next c with
        | error fault after =>
            rw [hnext] at hend
            cases hend
        | ok _ d =>
            rw [hnext] at hend
            obtain ⟨hsheet, hd⟩ := h.next hsource hnext
            have hless := h.length_next hsource hnext
            have hrest := ih hd (by omega) hend
            rw [hsheet] at hrest
            exact .token h.blank (h.stands hsource) hrest

theorem entered_of_start {c : Cursor} (h : start c.sheet = .ok c) : c.Entered 0 := by
  refine ⟨placed_of_start h, ?_, Nat.zero_le _, ?_⟩
  · obtain ⟨l, n, -, hc⟩ := start_eq_ok h
    rw [hc]
    rfl
  · intro k a b hk
    omega

/-- Tokens that can be read to the end of the source tile the text, and nothing of it is
lost. -/
theorem places_tile {sheet : Sheet} {c : Cursor} (hstart : start sheet = .ok c)
    (hend : c.places.2 = none) :
    Tiles sheet.text 0 (c.places.1.map token) ∧
      woven sheet.text 0 (c.places.1.map token) = sheet.text := by
  obtain rfl := sheet_of_start hstart
  have hahead : c.ahead.length ≤ c.sheet.text.length := by
    rw [ahead, List.length_drop]
    omega
  have htiles := tiles_placesWithin (entered_of_start hstart) hahead hend
  exact ⟨htiles, htiles.woven_eq⟩

/-- A keyword with a letter above ASCII, right between two numbers. -/
theorem places_tile_word : ∃ c : Cursor, c.sheet.text = "10prınt 5<=\"A\"\r\n".toList ∧
    start c.sheet = .ok c ∧ c.places.2 = none ∧ c.places.1.length = 7 ∧
      Tiles c.sheet.text 0 (c.places.1.map token) ∧
      woven c.sheet.text 0 (c.places.1.map token) = c.sheet.text := by
  let c : Cursor :=
    ⟨⟨"10prınt 5<=\"A\"\r\n".toList, []⟩, .first, ⟨.number 10, 1, 1, 0, 2⟩⟩
  have hstart : start c.sheet = .ok c := rfl
  have hend : c.places.2 = none := by decide +kernel
  exact ⟨c, rfl, hstart, hend, by decide +kernel, places_tile hstart hend⟩

end Cursor

end LineBasic
