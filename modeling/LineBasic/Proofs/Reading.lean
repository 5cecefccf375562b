import LineBasic.Cursor

/-!
# Texts that can be read to their end

A text is read lexeme by lexeme: gaps are passed over, a lexeme is read, and
reading goes on behind it, except that a remark takes the rest of its line.
`Readable` says that this comes to the end of the text, and `Visits` which
places it comes to. Both speak of the text that is left and not of offsets.

The two facts that jumps rest on are at the end: only the lexeme of a line end
holds a line end, so that reading may also go on at the next line from any
place it has come to.
-/
namespace LineBasic

namespace Text

/-- The text from the first token on. -/
def pastGap (t : Text) : Text := t.dropWhile isGap

def afterLine (t : Text) : Text := (t.dropWhile (· != '\n')).drop 1

theorem pastGap_pastGap (t : Text) : t.pastGap.pastGap = t.pastGap := by
  induction t with
  | nil => rfl
  | cons c rest ih =>
      by_cases hc : isGap c = true
      · simpa [pastGap, hc] using ih
      · simp [pastGap, hc]

theorem length_pastGap_le (t : Text) : t.pastGap.length ≤ t.length :=
  (List.dropWhile_suffix isGap).length_le

theorem length_afterLine_le (t : Text) : t.afterLine.length ≤ t.length - 1 := by
  have h := (List.dropWhile_suffix (l := t) (· != '\n')).length_le
  simp only [afterLine, List.length_drop]
  omega

theorem dropWhile_eq_drop (p : Char → Bool) (t : Text) :
    t.dropWhile p = t.drop (t.takeWhile p).length := by
  have h : t.takeWhile p ++ t.dropWhile p = t := List.takeWhile_append_dropWhile
  conv => rhs; arg 2; rw [← h]
  rw [List.drop_left]

theorem take_takeWhile (p : Char → Bool) (t : Text) :
    t.take (t.takeWhile p).length = t.takeWhile p :=
  (List.prefix_iff_eq_take.1 (List.takeWhile_prefix _)).symm

theorem pastGap_eq_drop (t : Text) : t.pastGap = t.drop (t.takeWhile isGap).length :=
  dropWhile_eq_drop isGap t

theorem inLine_of_notMem {t : Text} (h : '\n' ∉ t) : ∀ c ∈ t, (c != '\n') = true := by
  intro c hc
  simp only [bne_iff_ne, ne_eq]
  rintro rfl
  exact h hc

theorem afterLine_append {t u : Text} (h : '\n' ∉ t) : (t ++ u).afterLine = u.afterLine := by
  simp only [afterLine, List.dropWhile_append_of_pos (inLine_of_notMem h)]

theorem afterLine_drop {t : Text} {n : Nat} (h : '\n' ∉ t.take n) :
    afterLine (t.drop n) = t.afterLine := by
  conv => rhs; rw [← List.take_append_drop n t]
  exact (afterLine_append h).symm

theorem newline_notMem_gap (t : Text) : '\n' ∉ t.takeWhile isGap := by
  intro h
  have hg := List.all_eq_true.1 (List.all_takeWhile (p := isGap) (l := t)) _ h
  exact absurd hg (by decide)

theorem afterLine_pastGap (t : Text) : t.pastGap.afterLine = t.afterLine := by
  have h : t.takeWhile isGap ++ t.pastGap = t := List.takeWhile_append_dropWhile
  conv => rhs; rw [← h]
  exact (afterLine_append (newline_notMem_gap t)).symm

theorem newline_mem_pastGap {t : Text} : '\n' ∈ t.pastGap ↔ '\n' ∈ t := by
  have hsplit : t.takeWhile isGap ++ t.pastGap = t := List.takeWhile_append_dropWhile
  constructor
  · exact fun hm => (List.dropWhile_suffix isGap).subset hm
  · intro hm
    rw [← hsplit] at hm
    rcases List.mem_append.1 hm with hm | hm
    · exact absurd hm (newline_notMem_gap t)
    · exact hm

theorem newline_mem_upper {t : Text} (h : '\n' ∈ t) : '\n' ∈ upper t := by
  simp only [upper, List.mem_flatMap]
  exact ⟨'\n', h, by decide⟩

end Text

namespace Keyword

/-- The image of a character that becomes several is no part of a keyword. -/
theorem several_notInfix :
    ∀ entry ∈ Text.upperMany, ∀ word ∈ all,
      ¬ entry.2.map Char.ofNat <:+: word.spelling := by
  decide +kernel

theorem mem_all (word : Keyword) : word ∈ all := by
  cases word <;> decide

/-- A character whose upper case stands in a keyword becomes a single one. -/
theorem length_upperChar {word : Keyword} {c : Char}
    (h : Text.upperChar c <:+: word.spelling) : (Text.upperChar c).length = 1 := by
  by_cases hc : c.toNat < 128
  · simp [Text.upperChar, hc]
  · cases hi : Text.upperMany.lookup c.toNat with
    | none => simp [Text.upperChar, hc, hi]
    | some images =>
        simp only [Text.upperChar, hc, hi, if_false] at h
        obtain ⟨before, after, hb, -⟩ := List.lookup_eq_some_iff.1 hi
        have hm : (c.toNat, images) ∈ Text.upperMany := by simp [hb]
        exact absurd h (several_notInfix _ hm word (mem_all word))

theorem upperChar_within {word : Keyword} {t : Text} (h : Text.upper t = word.spelling) {c : Char}
    (hc : c ∈ t) : Text.upperChar c <:+: word.spelling := by
  obtain ⟨before, after, rfl⟩ := List.append_of_mem hc
  exact ⟨Text.upper before, Text.upper after, by simpa [Text.upper] using h⟩

theorem length_of_upper {word : Keyword} {t : Text} (h : Text.upper t = word.spelling) :
    t.length = word.spelling.length := by
  have hone : ∀ c ∈ t, (Text.upperChar c).length = 1 :=
    fun c hc => length_upperChar (upperChar_within h hc)
  have hsum : t.map (fun c => (Text.upperChar c).length) = List.replicate t.length 1 := by
    rw [List.map_congr_left hone, List.map_const']
  rw [← h, Text.upper, List.length_flatMap, hsum, List.sum_replicate_nat, Nat.mul_one]

end Keyword

namespace Symbol

/-- A symbol is read where its spelling stands. -/
theorem take_of_read? {t : Text} {sign : Symbol} (h : read? t = some sign) :
    t.take sign.spelling.length = sign.spelling := by
  unfold read? at h
  split at h <;> cases h <;> rfl

end Symbol

namespace Lexeme

theorem kind_eq_sourceEnd {l : Lexeme} : l.kind = .sourceEnd ↔ l = .sourceEnd := by
  cases l <;> simp [kind]

theorem kind_eq_keyword {l : Lexeme} {word : Keyword} :
    l.kind = .keyword word ↔ l = .keyword word := by
  cases l <;> simp [kind]

/-- The extent of a lexeme: none at the end, some elsewhere, and without a line
end unless it is one. -/
structure Spans (t : Text) (l : Lexeme) (n : Nat) : Prop where
  le : n ≤ t.length
  ending : l = .sourceEnd ↔ t = []
  pos : l ≠ .sourceEnd → 0 < n
  lineEnd : l = .lineEnd → ∃ rest, t = '\n' :: rest ∧ n = 1
  inLine : l ≠ .lineEnd → '\n' ∉ t.take n

theorem newline_notMem_number {t : Text} : '\n' ∉ t.takeWhile Text.isDigit := by
  intro h
  have hd := List.all_eq_true.1 (List.all_takeWhile (p := Text.isDigit) (l := t)) _ h
  exact absurd hd (by decide)

theorem take_readNumber {t : Text} :
    t.take (t.takeWhile Text.isDigit).length = t.takeWhile Text.isDigit :=
  Text.take_takeWhile Text.isDigit t

theorem newline_notMem_string {rest : Text} : '\n' ∉ rest.takeWhile inString := by
  intro h
  have hs := List.all_eq_true.1 (List.all_takeWhile (p := inString) (l := rest)) _ h
  exact absurd hs (by decide)

/-- The text of a string lexeme, with both its quotes. -/
theorem take_readString {rest after : Text}
    (h : rest.drop (rest.takeWhile inString).length = '"' :: after) :
    ('"' :: rest).take ((rest.takeWhile inString).length + 2) =
      '"' :: (rest.takeWhile inString ++ ['"']) := by
  have hsplit : rest = rest.takeWhile inString ++ '"' :: after := by
    conv => lhs; rw [← List.take_append_drop (rest.takeWhile inString).length rest]
    rw [h, (List.prefix_iff_eq_take.1 (List.takeWhile_prefix inString)).symm]
  generalize rest.takeWhile inString = body at hsplit ⊢
  have hwhole : '"' :: rest = ('"' :: (body ++ ['"'])) ++ after := by simp [hsplit]
  rw [hwhole, List.take_left' (by simp)]

theorem upper_of_keyword {t : Text} {word : Keyword} (h : Keyword.read? t = some word) :
    Text.upper (t.take word.spelling.length) = word.spelling := by
  unfold Keyword.read? at h
  have hs : word.starts t = true := by simpa using List.find?_some h
  exact beq_iff_eq.1 hs

theorem newline_notMem_keyword {t : Text} {word : Keyword}
    (h : Keyword.read? t = some word) : '\n' ∉ t.take word.spelling.length := by
  intro hn
  have hm := Text.newline_mem_upper hn
  rw [upper_of_keyword h] at hm
  revert hm
  cases word <;> decide

theorem read_spans {t : Text} {l : Lexeme} {n : Nat} (h : read t = .ok (l, n)) :
    Spans t l n := by
  have hlen := read_length h
  cases found_of_read h with
  | sourceEnd => constructor <;> simp
  | lineEnd => constructor <;> simp
  | number hdigit _ =>
      refine ⟨(List.takeWhile_prefix _).length_le, by simp, by simp [hdigit], by simp, fun _ => ?_⟩
      rw [take_readNumber]
      exact newline_notMem_number
  | string hclosed =>
      have htake := take_readString hclosed
      have hle := congrArg List.length htake
      simp only [List.length_take, List.length_cons, List.length_append] at hle
      refine ⟨by simp only [List.length_cons]; omega, by simp, by simp, by simp, fun _ => ?_⟩
      rw [htake]
      simp [newline_notMem_string]
  | @symbol c rest sign hsign =>
      have htake := Symbol.take_of_read? hsign
      have hle := congrArg List.length htake
      rw [List.length_take] at hle
      refine ⟨by omega, by simp, by simpa using hlen, by simp, fun _ => ?_⟩
      rw [htake]
      cases sign <;> decide
  | separator hmark =>
      refine ⟨by simp, by simp, by simp, by simp, fun _ => ?_⟩
      rcases hmark with rfl | rfl <;> simp
  | keyword _ hword =>
      have hle := Keyword.length_of_upper (upper_of_keyword hword)
      rw [List.length_take] at hle
      exact ⟨by omega, by simp, by simpa using hlen, by simp, fun _ => newline_notMem_keyword hword⟩
  | @letter c rest halpha _ =>
      refine ⟨by simp, by simp, by simp, by simp, fun _ => ?_⟩
      have hnewline : c ≠ '\n' := by
        rintro rfl
        exact absurd halpha (by decide)
      simpa using Ne.symm hnewline

end Lexeme

namespace Text

/-- Reading comes to the end of the text. -/
inductive Readable : Text → Prop
  | done {t : Text} : t.pastGap = [] → Readable t
  | token {t : Text} {l : Lexeme} {n : Nat} : Lexeme.read t.pastGap = .ok (l, n) →
      l ≠ .sourceEnd → l ≠ .keyword .REM → Readable (t.pastGap.drop n) → Readable t
  | remark {t : Text} {n : Nat} : Lexeme.read t.pastGap = .ok (.keyword .REM, n) →
      Readable t.pastGap.afterLine → Readable t

/-- The places, each given by the text from there on, that reading a text comes to. -/
inductive Visits (t : Text) : Text → Prop
  | first : Visits t t.pastGap
  | token {u : Text} {l : Lexeme} {n : Nat} : Visits t u → Lexeme.read u = .ok (l, n) →
      l ≠ .keyword .REM → Visits t (pastGap (u.drop n))
  | remark {u : Text} {n : Nat} : Visits t u → Lexeme.read u = .ok (.keyword .REM, n) →
      Visits t u.afterLine.pastGap

namespace Readable

theorem pastGap_iff {t : Text} : Readable t.pastGap ↔ Readable t := by
  constructor
  · intro h
    cases h with
    | done he => exact .done (by rwa [pastGap_pastGap] at he)
    | token hr hend hrem hrest =>
        rw [pastGap_pastGap] at hr hrest
        exact .token hr hend hrem hrest
    | remark hr hrest =>
        rw [pastGap_pastGap] at hr hrest
        exact .remark hr hrest
  · intro h
    cases h with
    | done he => exact .done (by rw [pastGap_pastGap, he])
    | token hr hend hrem hrest =>
        rw [← pastGap_pastGap] at hr hrest
        exact .token hr hend hrem hrest
    | remark hr hrest =>
        rw [← pastGap_pastGap] at hr hrest
        exact .remark hr hrest

theorem read {t : Text} (h : Readable t) : ∃ l n, Lexeme.read t.pastGap = .ok (l, n) := by
  cases h with
  | done he => exact ⟨.sourceEnd, 0, by rw [he]; rfl⟩
  | token hr _ _ _ => exact ⟨_, _, hr⟩
  | remark hr _ => exact ⟨_, _, hr⟩

/-- Reading comes to the end from where the first lexeme leaves it. -/
theorem rest_iff {t : Text} {l : Lexeme} {n : Nat}
    (hr : Lexeme.read t.pastGap = .ok (l, n)) (hend : l ≠ .sourceEnd) :
    Readable (if l = .keyword .REM then t.pastGap.afterLine else t.pastGap.drop n) ↔
      Readable t := by
  constructor
  · intro h
    by_cases hrem : l = .keyword .REM
    · subst hrem
      rw [if_pos rfl] at h
      exact .remark hr h
    · rw [if_neg hrem] at h
      exact .token hr hend hrem h
  · intro h
    cases h with
    | done he =>
        rw [he] at hr
        cases hr
        exact absurd rfl hend
    | token hr' _ hrem hrest =>
        cases hr.symm.trans hr'
        rwa [if_neg hrem]
    | remark hr' hrest =>
        cases hr.symm.trans hr'
        rwa [if_pos rfl]

/-- Reading may go on at the next line. -/
theorem afterLine {t : Text} (h : Readable t) : Readable t.afterLine := by
  induction h with
  | @done t he =>
      rw [← afterLine_pastGap, he]
      exact .done rfl
  | @token t l n hr _ _ hrest ih =>
      have hs := Lexeme.read_spans hr
      rw [← afterLine_pastGap]
      by_cases hl : l = .lineEnd
      · obtain ⟨rest, ht, rfl⟩ := hs.lineEnd hl
        rw [ht] at hrest ⊢
        simpa [Text.afterLine] using hrest
      · rw [← afterLine_drop (hs.inLine hl)]
        exact ih
  | @remark t n _ hrest _ =>
      rw [← afterLine_pastGap]
      exact hrest

end Readable

end Text

end LineBasic
