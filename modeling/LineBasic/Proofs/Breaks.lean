import LineBasic.Proofs.Reading

/-!
# Lexemes before a break

A lexeme other than a line end lies within its line, and it is read from the line
alone: it is the same whether the text ends there or goes on with a line end, with
or without a carriage return before it.
-/
namespace LineBasic

namespace Symbol

theorem read?_of_ne {c : Char} (hless : c ≠ '<') (hmore : c ≠ '>') (t : Text) :
    read? (c :: t) = read? [c] := by
  unfold read?
  split <;> simp_all

/-- A second character matters only if it is one of two. -/
theorem read?_second {c d : Char} (hequal : d ≠ '=') (hmore : d ≠ '>') (t : Text) :
    read? (c :: d :: t) = read? [c] := by
  by_cases hc : c = '<' ∨ c = '>'
  · rcases hc with rfl | rfl
    · unfold read?
      split <;> simp_all
    · unfold read?
      split <;> simp_all
  · exact read?_of_ne (fun h => hc (.inl h)) (fun h => hc (.inr h)) _

theorem read?_two (c d : Char) (t : Text) : read? (c :: d :: t) = read? [c, d] := by
  by_cases hc : c = '<' ∨ c = '>'
  · by_cases hequal : d = '='
    · subst hequal
      rcases hc with rfl | rfl <;> rfl
    · by_cases hmore : d = '>'
      · subst hmore
        rcases hc with rfl | rfl <;> rfl
      · rw [read?_second hequal hmore, read?_second hequal hmore]
  · have hless : c ≠ '<' := fun h => hc (.inl h)
    have hmore : c ≠ '>' := fun h => hc (.inr h)
    rw [read?_of_ne hless hmore, read?_of_ne hless hmore [d]]

end Symbol

namespace Lexeme

theorem readString_closed {body : Text} (hbody : ∀ c ∈ body, inString c = true) (after : Text) :
    readString (body ++ '"' :: after) = .ok (.string body, body.length + 2) := by
  have hquote : inString '"' = false := by decide
  have htake : (body ++ '"' :: after).takeWhile inString = body := by
    rw [List.takeWhile_append_of_pos hbody, List.takeWhile_cons]
    simp [hquote]
  simp only [readString, htake, List.drop_left]

theorem readString_open {body after : Text} (hbody : ∀ c ∈ body, inString c = true)
    (hafter : after = [] ∨ ∃ rest, after = '\n' :: rest) :
    readString (body ++ after) = .error .unterminatedString := by
  have htake : (body ++ after).takeWhile inString = body := by
    rw [List.takeWhile_append_of_pos hbody]
    rcases hafter with rfl | ⟨rest, rfl⟩
    · simp
    · have hline : inString '\n' = false := by decide
      simp [hline]
  simp only [readString, htake, List.drop_left]
  rcases hafter with rfl | ⟨rest, rfl⟩ <;> rfl

end Lexeme

namespace Text

/-- A text is a line and what comes from its end on. -/
theorem exists_line (t : Text) :
    ∃ h x : Text, t = h ++ x ∧ '\n' ∉ h ∧ (x = [] ∨ ∃ rest, x = '\n' :: rest) := by
  refine ⟨t.takeWhile (· != '\n'), t.dropWhile (· != '\n'),
    List.takeWhile_append_dropWhile.symm, ?_, ?_⟩
  · intro hm
    have hp := List.all_eq_true.1 (List.all_takeWhile (p := (· != '\n')) (l := t)) _ hm
    exact absurd hp (by decide)
  · have hhead := List.head?_dropWhile_not (· != '\n') t
    cases hd : t.dropWhile (· != '\n') with
    | nil => exact .inl rfl
    | cons c rest =>
        rw [hd] at hhead
        have hc : c = '\n' := by simpa using hhead
        exact .inr ⟨rest, by rw [hc]⟩

/-- Gaps before a text, if they are all of a line, reach to the break behind it. -/
theorem pastGap_append (h x : Text) :
    (h ++ x).pastGap = if h.pastGap = [] then x.pastGap else h.pastGap ++ x := by
  unfold pastGap
  rw [List.dropWhile_append]
  simp only [List.isEmpty_iff]

/-- A text that starts with the end of a line, or that is at its end. -/
inductive Break : Text → Prop
  | done : Break []
  | line (rest : Text) : Break ('\n' :: rest)
  | returned (rest : Text) : Break ('\r' :: '\n' :: rest)

namespace Break

variable {h x : Text}

/-- What a break starts with. -/
theorem head (hx : Break x) : x = [] ∨ ∃ c rest, x = c :: rest ∧ (c = '\n' ∨ c = '\r') := by
  cases hx with
  | done => exact .inl rfl
  | line rest => exact .inr ⟨_, _, rfl, .inl rfl⟩
  | returned rest => exact .inr ⟨_, _, rfl, .inr rfl⟩

theorem takeWhile_append (hx : Break x) {p : Char → Bool} (hline : p '\n' = false)
    (hreturn : p '\r' = false) : (h ++ x).takeWhile p = h.takeWhile p := by
  induction h with
  | nil =>
      rcases hx.head with rfl | ⟨c, rest, rfl, rfl | rfl⟩
      · rfl
      · simp [hline]
      · simp [hreturn]
  | cons c rest ih => simp only [List.cons_append, List.takeWhile_cons, ih]

/-- A keyword that is not within a line is not there at all. -/
theorem starts_append (hx : Break x) (word : Keyword) : word.starts (h ++ x) = word.starts h := by
  have hin : ∀ c, c = '\n' ∨ c = '\r' → c ∉ word.spelling := by
    rintro c (rfl | rfl)
    · cases word <;> decide
    · cases word <;> decide
  unfold Keyword.starts
  by_cases hle : word.spelling.length ≤ h.length
  · rw [List.take_append_of_le_length hle]
  · have hshort : upper (h.take word.spelling.length) ≠ word.spelling := by
      intro he
      have hlen := Keyword.length_of_upper he
      rw [List.length_take] at hlen
      omega
    rw [beq_eq_false_iff_ne.2 hshort, beq_eq_false_iff_ne]
    rcases hx.head with rfl | ⟨c, rest, rfl, hc⟩
    · rwa [List.append_nil]
    · intro he
      apply hin c hc
      rw [← he, upper, List.mem_flatMap]
      obtain ⟨n, hn⟩ : ∃ n, word.spelling.length - h.length = n + 1 :=
        ⟨word.spelling.length - h.length - 1, by omega⟩
      refine ⟨c, ?_, ?_⟩
      · rw [List.take_append, hn]
        simp
      · rcases hc with rfl | rfl <;> decide

theorem keyword_append (hx : Break x) : Keyword.read? (h ++ x) = Keyword.read? h := by
  unfold Keyword.read?
  congr 1
  funext word
  exact starts_append hx word

theorem symbol_append (hx : Break x) (c : Char) :
    Symbol.read? (c :: (h ++ x)) = Symbol.read? (c :: h) := by
  cases h with
  | cons d rest => rw [List.cons_append, Symbol.read?_two, Symbol.read?_two c d rest]
  | nil =>
      rcases hx.head with rfl | ⟨d, rest, rfl, rfl | rfl⟩
      · rfl
      · exact Symbol.read?_second (by decide) (by decide) rest
      · exact Symbol.read?_second (by decide) (by decide) rest

/-- A string is closed within its line or not at all. -/
theorem readString_append (hx : Break x) (hline : '\n' ∉ h) :
    Lexeme.readString (h ++ x) = Lexeme.readString h := by
  have hsplit : h.takeWhile Lexeme.inString ++ h.dropWhile Lexeme.inString = h :=
    List.takeWhile_append_dropWhile
  have hbody := List.all_eq_true.1 (List.all_takeWhile (p := Lexeme.inString) (l := h))
  cases hd : h.dropWhile Lexeme.inString with
  | cons c after =>
      rw [hd] at hsplit
      have hc : c = '"' := by
        have hnot : Lexeme.inString c = false := by
          have hhead := List.head?_dropWhile_not Lexeme.inString h
          rw [hd] at hhead
          simpa using hhead
        have hmem : c ∈ h := by
          rw [← hsplit]
          simp
        simp only [Lexeme.inString, Bool.and_eq_false_iff, bne_eq_false_iff_eq] at hnot
        rcases hnot with hq | hn
        · exact hq
        · exact absurd (hn ▸ hmem) hline
      rw [← hsplit, hc, List.append_assoc, List.cons_append, Lexeme.readString_closed hbody,
        Lexeme.readString_closed hbody]
  | nil =>
      rw [hd, List.append_nil] at hsplit
      rw [hsplit] at hbody
      have hopen := Lexeme.readString_open hbody (.inl rfl)
      rw [List.append_nil] at hopen
      rw [hopen]
      cases hx with
      | done => rwa [List.append_nil]
      | line rest => exact Lexeme.readString_open hbody (.inr ⟨rest, rfl⟩)
      | returned rest =>
          have hreturn : ∀ c ∈ h ++ ['\r'], Lexeme.inString c = true := by
            intro c hc
            rcases List.mem_append.1 hc with hc | hc
            · exact hbody c hc
            · rw [List.mem_singleton.1 hc]
              decide
          have hlast := Lexeme.readString_open hreturn (.inr ⟨rest, rfl⟩)
          rwa [List.append_assoc] at hlast

theorem readNumber_append (hx : Break x) : Lexeme.readNumber (h ++ x) = Lexeme.readNumber h := by
  unfold Lexeme.readNumber
  rw [hx.takeWhile_append (by decide) (by decide)]

/-- The lexeme at the start of a line is read from the line. -/
theorem read_append (hx : Break x) (hline : '\n' ∉ h) (hne : h ≠ []) :
    Lexeme.read (h ++ x) = Lexeme.read h := by
  cases h with
  | nil => exact absurd rfl hne
  | cons c rest =>
      have hrest : '\n' ∉ rest := fun hm => hline (List.mem_cons_of_mem c hm)
      have hnumber := hx.readNumber_append (h := c :: rest)
      have hkeyword := hx.keyword_append (h := c :: rest)
      rw [List.cons_append] at hnumber hkeyword ⊢
      simp only [Lexeme.read, Lexeme.readWord, hnumber, hkeyword, hx.readString_append hrest,
        hx.symbol_append]

end Break

end Text

end LineBasic
