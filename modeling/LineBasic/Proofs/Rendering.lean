import LineBasic.Proofs.Footing
import LineBasic.Proofs.Spelling

/-!
# Reading undoes writing

Lexemes written one after the other, with a gap of any kind between each two and perhaps
at both ends, are read back as the same lexemes, followed by the end of the source. Line
ends are lexemes like any other here, and so is the word of a remark: it is not skipped.
-/
namespace LineBasic

namespace Lexeme

/-- A lexeme as it is written, with the gap that follows. -/
structure Written where
  lexeme : Lexeme
  text : Text
  gap : Text
  writes : lexeme.Writes text
  blank : ∀ c ∈ gap, Text.isGap c = true

def rendered (items : List Written) : Text := items.flatMap fun item => item.text ++ item.gap

/-- Only the last of the lexemes may have no gap behind it. -/
def Spaced (items : List Written) : Prop := ∀ item ∈ items.dropLast, item.gap ≠ []

theorem rendered_cons (item : Written) (items : List Written) :
    rendered (item :: items) = item.text ++ (item.gap ++ rendered items) := by
  rw [rendered, List.flatMap_cons, List.append_assoc]
  rfl

theorem Spaced.tail {item : Written} {items : List Written} (h : Spaced (item :: items)) :
    Spaced items := by
  cases items with
  | nil => simp [Spaced]
  | cons second others =>
      intro other hother
      exact h other (List.mem_cons_of_mem item hother)

theorem Written.ne_sourceEnd (item : Written) : item.lexeme ≠ .sourceEnd := by
  intro h
  have hwrites := item.writes
  rw [h] at hwrites
  exact hwrites

/-- What follows a written lexeme cannot be taken for a part of it. -/
theorem Spaced.clear {item : Written} {items : List Written} (h : Spaced (item :: items)) :
    Text.Clear (item.gap ++ rendered items) := by
  intro c hc
  cases hgap : item.gap with
  | cons d more =>
      rw [hgap] at hc
      cases hc
      exact .inl (item.blank c (by simp [hgap]))
  | nil =>
      cases items with
      | nil =>
          rw [hgap] at hc
          cases hc
      | cons second others => exact absurd hgap (h item (by simp))

theorem Spaced.read {item : Written} {items : List Written} (h : Spaced (item :: items)) :
    Lexeme.read (rendered (item :: items)) = .ok (item.lexeme, item.text.length) := by
  rw [rendered_cons]
  exact read_of_writes item.writes h.clear

theorem Spaced.exists_read {items : List Written} (h : Spaced items) :
    ∃ l n, Lexeme.read (rendered items) = .ok (l, n) := by
  cases items with
  | nil => exact ⟨.sourceEnd, 0, rfl⟩
  | cons item others => exact ⟨_, _, h.read⟩

theorem pastGap_rendered (items : List Written) :
    Text.pastGap (rendered items) = rendered items := by
  cases items with
  | nil => rfl
  | cons item others =>
      rw [rendered_cons]
      exact pastGap_of_writes item.writes _

theorem pastGap_gap_rendered {gap : Text} (h : ∀ c ∈ gap, Text.isGap c = true)
    (items : List Written) : Text.pastGap (gap ++ rendered items) = rendered items := by
  rw [Text.pastGap, List.dropWhile_append_of_pos h]
  exact pastGap_rendered items

end Lexeme

namespace Cursor

open Lexeme (Written rendered Spaced)

/-- The next move of a cursor in front of written lexemes. -/
theorem next_rendered {c : Cursor} (h : c.Placed) {item : Written} {items : List Written}
    (hspaced : Spaced (item :: items)) (hahead : c.ahead = rendered (item :: items)) :
    c.token.lexeme = item.lexeme ∧
      ∃ d : Cursor, next c = .ok () d ∧ d.Placed ∧ d.ahead = rendered items := by
  have hhere := h.here
  rw [hahead, hspaced.read] at hhere
  obtain ⟨hlexeme, hlength⟩ : item.lexeme = c.token.lexeme ∧
      item.text.length = c.token.stop - c.token.start := by
    simpa using hhere
  have hend : c.token.lexeme ≠ .sourceEnd := hlexeme ▸ item.ne_sourceEnd
  have hbehind : Text.pastGap (c.sheet.text.drop c.token.stop) = rendered items := by
    have hdrop := h.behind_eq
    rw [hahead, ← hlength, Lexeme.rendered_cons, List.drop_left] at hdrop
    rw [show c.sheet.text.drop c.token.stop = _ from hdrop]
    exact Lexeme.pastGap_gap_rendered item.blank items
  obtain ⟨l, n, hread⟩ := hspaced.tail.exists_read
  rw [← hbehind] at hread
  refine ⟨hlexeme.symm, c.landed c.nextOrigin c.token.stop l n, ?_, placed_landed _ hread, ?_⟩
  · rw [next_eq_moveTo hend, moveTo_of_read _ hread]
  · rw [ahead_landed, hbehind]

/-- A cursor in front of written lexemes comes past each of them to the end. -/
theorem placesWithin_rendered {items : List Written} {moves : Nat} {c : Cursor} (h : c.Placed)
    (hspaced : Spaced items) (hahead : c.ahead = rendered items) (hmoves : c.ahead.length ≤ moves) :
    (placesWithin moves c).2 = none ∧
      (placesWithin moves c).1.map (·.token.lexeme) = items.map (·.lexeme) ++ [.sourceEnd] := by
  induction items generalizing moves c with
  | nil =>
      have hend := h.spans.ending.2 hahead
      cases moves with
      | zero => simp [placesWithin, hend]
      | succ moves => simp [placesWithin, finished_iff.2 hend, hend]
  | cons item items ih =>
      obtain ⟨hlexeme, d, hd, hplaced, hrest⟩ := next_rendered h hspaced hahead
      have hend : c.token.lexeme ≠ .sourceEnd := hlexeme ▸ item.ne_sourceEnd
      have hless := h.length_next hend hd
      obtain ⟨more, rfl⟩ : ∃ more, moves = more + 1 := ⟨moves - 1, by omega⟩
      obtain ⟨hfault, hlexemes⟩ := ih hplaced hspaced.tail hrest (by omega : _ ≤ more)
      simp only [placesWithin, if_neg (mt finished_iff.1 hend), hd]
      exact ⟨hfault, by rw [List.map_cons, hlexemes, hlexeme]; rfl⟩

/-- Lexemes that are written with gaps between them are read back. -/
theorem places_rendered {lead : Text} (hlead : ∀ c ∈ lead, Text.isGap c = true)
    {items : List Written} (hspaced : Spaced items) (name : Text) :
    ∃ first, start ⟨lead ++ rendered items, name⟩ = .ok first ∧ first.places.2 = none ∧
      first.places.1.map (·.token.lexeme) = items.map (·.lexeme) ++ [.sourceEnd] := by
  obtain ⟨l, n, hread⟩ := hspaced.exists_read
  rw [← Lexeme.pastGap_gap_rendered hlead items] at hread
  have hstart : start ⟨lead ++ rendered items, name⟩ = _ := start_of_read hread
  refine ⟨_, hstart, ?_⟩
  apply placesWithin_rendered (placed_of_start hstart) hspaced
  · rw [ahead_of_start hstart]
    exact Lexeme.pastGap_gap_rendered hlead items
  · rw [ahead, List.length_drop]
    exact Nat.sub_le _ _

/-- Letters and signs that would be a keyword and one sign without the gaps. -/
theorem places_rendered_if : ∃ first,
    start ⟨"\ti\rF < = \n gOtO \t10 \"<\"".toList, []⟩ = .ok first ∧ first.places.2 = none ∧
      first.places.1.map (·.token.lexeme) = [.letter 'i', .letter 'F', .symbol .less,
        .symbol .equal, .lineEnd, .keyword .GOTO, .number 10, .string ['<'], .sourceEnd] := by
  have hten : Numeral.writable 10 = true :=
    Numeral.writable_of_natural (n := 10) (show Numeral.natural ['1', '0'] = .ok 10 from rfl)
  let items : List Written :=
    [⟨.letter 'i', ['i'], ['\r'], ⟨rfl, rfl⟩, List.all_eq_true.1 rfl⟩,
      ⟨.letter 'F', ['F'], [' '], ⟨rfl, rfl⟩, List.all_eq_true.1 rfl⟩,
      ⟨.symbol .less, ['<'], [' '], rfl, List.all_eq_true.1 rfl⟩,
      ⟨.symbol .equal, ['='], [' '], rfl, List.all_eq_true.1 rfl⟩,
      ⟨.lineEnd, ['\n'], [' '], rfl, List.all_eq_true.1 rfl⟩,
      ⟨.keyword .GOTO, ['g', 'O', 't', 'O'], [' ', '\t'], rfl, List.all_eq_true.1 rfl⟩,
      ⟨.number 10, ['1', '0'], [' '], ⟨hten, rfl⟩, List.all_eq_true.1 rfl⟩,
      ⟨.string ['<'], ['"', '<', '"'], [], ⟨List.all_eq_true.1 rfl, rfl⟩, List.all_eq_true.1 rfl⟩]
  have hspaced : Spaced items := by simp [Spaced, items]
  have hlead : ∀ c ∈ ['\t'], Text.isGap c = true := List.all_eq_true.1 rfl
  exact places_rendered hlead hspaced []

end Cursor

end LineBasic
