import Mathlib.Data.List.DropRight
import LineBasic.Command
import LineBasic.Program
import LineBasic.Proofs.Numeral

/-!
# Typed lines

What a line typed at the editor edits, told by its parts: a number, and perhaps
a text after it, with blanks before, between and behind. The parts are the only
ones of the line, since blanks and decimals are apart: a command that is read
from a line changes the number that stands there, gives it the text that stands
there, and nothing else. A line of a listing is such a line.
-/
namespace LineBasic

namespace Text

theorem isBlank_of_isDecimal {c : Char} (h : isDecimal c = true) : isBlank c = false := by
  have hascii : ∀ range ∈ blanks, range.2 < 48 ∨ 57 < range.1 := by decide
  have hzeros : ∀ start ∈ zeros, ∀ range ∈ blanks, range.2 < start ∨ start + 10 ≤ range.1 := by
    decide
  refine List.any_eq_false.2 fun range hrange => ?_
  simp only [Bool.and_eq_true, decide_eq_true_eq]
  simp only [isDecimal, decimalValue?] at h
  split at h
  · split at h
    · rename_i hdigit
      have hbounds := Char.isDigit_iff_toNat.1 hdigit
      simp only [Char.reduceToNat] at hbounds
      have := hascii range hrange
      omega
    · cases h
  · obtain ⟨start, hstart⟩ := Option.isSome_iff_exists.1 (Option.isSome_map ▸ h)
    have hin := List.find?_some hstart
    simp only [Bool.and_eq_true, decide_eq_true_eq] at hin
    have := hzeros start (List.mem_of_find?_eq_some hstart) range hrange
    omega

/-- Nothing but blanks. -/
def Padding (text : Text) : Prop := ∀ c ∈ text, isBlank c = true

/-- No blank stands at either end. -/
structure Neat (text : Text) : Prop where
  starts : ∀ c ∈ text.head?, isBlank c = false
  ends : ∀ c ∈ text.getLast?, isBlank c = false

theorem starts_dropWhile (drop : Char → Bool) (text : Text) :
    ∀ c ∈ (text.dropWhile drop).head?, drop c = false := by
  intro c hc
  have h := List.head?_dropWhile_not drop text
  rw [Option.mem_def.1 hc] at h
  exact h

theorem dropWhile_of_starts {drop : Char → Bool} {text : Text}
    (h : ∀ c ∈ text.head?, drop c = false) : text.dropWhile drop = text := by
  cases text with
  | nil => rfl
  | cons c rest => exact List.dropWhile_cons_of_neg (by simp [h c rfl])

theorem neat_trim (line : Text) : (line.trim isBlank).Neat := by
  constructor
  · intro c hc
    -- What is left at the front is what the first cut left there.
    obtain ⟨rest, hrest⟩ := List.rdropWhile_prefix isBlank (line.dropWhile isBlank)
    refine starts_dropWhile isBlank line c ?_
    have hc : (List.rdropWhile isBlank (line.dropWhile isBlank)).head? = some c := hc
    rw [← hrest, List.head?_append, hc, Option.some_or, Option.mem_def]
  · intro c hc
    refine starts_dropWhile isBlank (line.dropWhile isBlank).reverse c ?_
    rwa [trim, trimEnd, List.getLast?_reverse] at hc

theorem exists_padding (line : Text) :
    ∃ lead trail, Padding lead ∧ Padding trail ∧ line = lead ++ line.trim isBlank ++ trail := by
  refine ⟨line.takeWhile isBlank, (line.dropWhile isBlank).rtakeWhile isBlank,
    fun c hc => List.mem_takeWhile_imp hc, fun c hc => List.mem_rtakeWhile_imp hc, ?_⟩
  have hend : line.trim isBlank ++ (line.dropWhile isBlank).rtakeWhile isBlank =
      line.dropWhile isBlank := List.rdropWhile_append_rtakeWhile
  rw [List.append_assoc, hend, List.takeWhile_append_dropWhile]

theorem trim_padded {lead text trail : Text} (hlead : lead.Padding) (htext : text.Neat)
    (htrail : trail.Padding) : trim isBlank (lead ++ text ++ trail) = text := by
  have htrail' : ∀ c ∈ trail.reverse, isBlank c = true := fun c hc =>
    htrail c (List.mem_reverse.1 hc)
  rw [trim, trimEnd, List.append_assoc, List.dropWhile_append_of_pos hlead]
  cases text with
  | nil => simp [List.dropWhile_eq_nil_iff.2 htrail]
  | cons c rest =>
      have hstarts : ∀ d ∈ (c :: rest ++ trail).head?, isBlank d = false :=
        fun d hd => htext.starts d hd
      have hends : ∀ d ∈ (c :: rest).reverse.head?, isBlank d = false := by
        rw [List.head?_reverse]
        exact htext.ends
      rw [dropWhile_of_starts hstarts, List.reverse_append,
        List.dropWhile_append_of_pos htrail', dropWhile_of_starts hends, List.reverse_reverse]

/-- A text an editor keeps. -/
structure Kept (text : Text) : Prop extends Neat text where
  nonempty : text ≠ []
  oneLine : '\n' ∉ text

structure Numeric (digits : Text) : Prop where
  nonempty : digits ≠ []
  decimal : ∀ c ∈ digits, isDecimal c = true

theorem Numeric.neat {digits : Text} (h : digits.Numeric) : digits.Neat where
  starts c hc := isBlank_of_isDecimal (h.decimal c (List.mem_of_mem_head? hc))
  ends c hc := isBlank_of_isDecimal (h.decimal c (List.mem_of_mem_getLast? hc))

theorem Numeric.neat_append {digits text : Text} (h : digits.Numeric) (gap : Text)
    (htext : text.Kept) : (digits ++ gap ++ text).Neat where
  starts c hc := by
    rw [List.append_assoc, List.head?_append_of_ne_nil _ h.nonempty] at hc
    exact h.neat.starts c hc
  ends c hc := by
    rw [List.getLast?_append_of_ne_nil _ htext.nonempty] at hc
    exact htext.ends c hc

/-- The line edits the numbered line: it gives it a text, or takes its text away. -/
inductive Edits : Text → Int → Option Text → Prop
  | bare {lead digits trail : Text} (lead_blank : lead.Padding) (numeric : digits.Numeric)
      (trail_blank : trail.Padding) :
      Edits (lead ++ digits ++ trail) (Numeral.value digits) none
  | given {lead digits gap text trail : Text} (lead_blank : lead.Padding)
      (numeric : digits.Numeric) (gap_blank : gap.Padding) (kept : text.Kept)
      (apart : gap = [] → ∀ c ∈ text.head?, isDecimal c = false) (trail_blank : trail.Padding) :
      Edits (lead ++ (digits ++ gap ++ text) ++ trail) (Numeral.value digits) (some text)

/-- The line asks for an empty program. -/
def Clears (line : Text) : Prop :=
  (line.trim isBlank).upper = "NEW".toList ∧ ∀ number text, ¬ line.Edits number text

end Text

namespace Command

open Text

/-- The parts of a typed text that edits: the digits, blanks, and what is left. -/
structure Parts (typed digits gap text : Text) : Prop where
  eq : typed = digits ++ gap ++ text
  numeric : digits.Numeric
  blank : gap.Padding
  starts : ∀ c ∈ text.head?, isBlank c = false
  apart : gap = [] → ∀ c ∈ text.head?, isDecimal c = false
  oneLine : '\n' ∉ text

theorem Parts.edit?_eq {typed digits gap text : Text} (h : Parts typed digits gap text) :
    edit? typed = some (digits, text) := by
  have hstop : ∀ c ∈ (gap ++ text).head?, isDecimal c = false := by
    intro c hc
    cases gap with
    | nil => exact h.apart rfl c hc
    | cons d rest =>
        cases hc
        have hblank := h.blank c List.mem_cons_self
        exact Bool.eq_false_iff.2 fun hc => by simp [isBlank_of_isDecimal hc] at hblank
  have hdigits : typed.takeWhile isDecimal = digits := by
    have hnone : (gap ++ text).takeWhile isDecimal = [] := by
      cases hrest : gap ++ text with
      | nil => rfl
      | cons c rest => simp [hstop c (by simp [hrest])]
    rw [h.eq, List.append_assoc, List.takeWhile_append_of_pos h.numeric.decimal, hnone,
      List.append_nil]
  have htext : (typed.drop digits.length).dropWhile isBlank = text := by
    rw [h.eq, List.append_assoc, List.drop_left, List.dropWhile_append_of_pos h.blank,
      dropWhile_of_starts h.starts]
  unfold edit?
  simp only [hdigits, htext]
  rw [if_neg]
  simp [h.numeric.nonempty, h.oneLine]

theorem exists_parts {typed digits text : Text} (h : edit? typed = some (digits, text)) :
    ∃ gap, Parts typed digits gap text := by
  simp only [edit?, Bool.or_eq_true, List.isEmpty_iff, List.contains_eq_mem, decide_eq_true_eq]
    at h
  split at h
  · cases h
  · rename_i hnot
    simp only [Option.some.injEq, Prod.mk.injEq] at h
    obtain ⟨rfl, rfl⟩ := h
    have hdrop := @List.drop_left _ (typed.takeWhile isDecimal) (typed.dropWhile isDecimal)
    rw [List.takeWhile_append_dropWhile] at hdrop
    rw [hdrop] at hnot ⊢
    push Not at hnot
    refine ⟨(typed.dropWhile isDecimal).takeWhile isBlank, ?_, ⟨hnot.1, ?_⟩, ?_, ?_, ?_, hnot.2⟩
    · rw [List.append_assoc, List.takeWhile_append_dropWhile, List.takeWhile_append_dropWhile]
    · exact fun c hc => List.mem_takeWhile_imp hc
    · exact fun c hc => List.mem_takeWhile_imp hc
    · exact starts_dropWhile isBlank _
    · intro hgap
      have hsame := @List.takeWhile_append_dropWhile _ isBlank (typed.dropWhile isDecimal)
      rw [hgap, List.nil_append] at hsame
      rw [hsame]
      exact starts_dropWhile isDecimal typed

theorem parts_of_edits {line : Text} {number : Int} {text : Option Text}
    (h : line.Edits number text) : ∃ digits gap,
      Parts (line.trim isBlank) digits gap (text.getD []) ∧ number = Numeral.value digits ∧
        ∀ kept ∈ text, kept.Kept := by
  cases h with
  | @bare lead digits trail lead_blank numeric trail_blank =>
      refine ⟨digits, [], ⟨?_, numeric, ?_, ?_, ?_, ?_⟩, rfl, ?_⟩
      · simpa using trim_padded lead_blank numeric.neat trail_blank
      all_goals simp [Padding]
  | @given lead digits gap text trail lead_blank numeric gap_blank kept apart trail_blank =>
      have htrim := trim_padded lead_blank (numeric.neat_append gap kept) trail_blank
      exact ⟨digits, gap, ⟨htrim, numeric, gap_blank, kept.starts, apart, kept.oneLine⟩, rfl,
        by simpa using kept⟩

theorem edits_of_parts {line digits gap text : Text}
    (h : Parts (line.trim isBlank) digits gap text) :
    line.Edits (Numeral.value digits) (if text.isEmpty then none else some text) := by
  obtain ⟨lead, trail, hlead, htrail, hline⟩ := exists_padding line
  rw [hline, h.eq]
  split
  · rename_i hempty
    rw [List.isEmpty_iff.1 hempty, List.append_nil, ← List.append_assoc lead, List.append_assoc]
    exact .bare hlead h.numeric fun c hc =>
      (List.mem_append.1 hc).elim (h.blank c) (htrail c)
  · rename_i hne
    have hne : text ≠ [] := by simpa using hne
    have hends : ∀ c ∈ text.getLast?, isBlank c = false := by
      intro c hc
      refine (neat_trim line).ends c ?_
      rw [h.eq, List.getLast?_append_of_ne_nil _ hne]
      exact hc
    exact .given hlead h.numeric h.blank ⟨⟨h.starts, hends⟩, hne, h.oneLine⟩ h.apart htrail

/-- The numbered line a command changes, and the text it gives it. -/
def change? : Command → Option (Int × Option Text)
  | enter number text _ => some (number, some text)
  | remove number => some (number, none)
  | _ => none

theorem change?_named (word : Text) : (named word).change? = none := by
  simp only [named]
  split_ifs <;> rfl

theorem upper_of_named {word : Text} (h : named word = .new) : word.upper = "NEW".toList := by
  simp only [named] at h
  split_ifs at h with _ _ _ _ hnew
  rw [← hnew, String.toList_ofList]

theorem ofLine_cases {line : Text} {command : Command} (h : ofLine line = .ok command) :
    (line.trim isBlank = [] ∧ command = .nothing) ∨
      (∃ digits gap text, Parts (line.trim isBlank) digits gap text) ∨
        command = named (line.trim isBlank) := by
  simp only [ofLine] at h
  split at h
  · rename_i hempty
    cases h
    exact .inl ⟨List.isEmpty_iff.1 hempty, rfl⟩
  · split at h
    · rename_i digits text hedit
      obtain ⟨gap, hparts⟩ := exists_parts hedit
      exact .inr (.inl ⟨digits, gap, text, hparts⟩)
    · cases h
      exact .inr (.inr rfl)

theorem Parts.ofLine_eq {line digits gap text : Text}
    (h : Parts (line.trim isBlank) digits gap text) :
    ofLine line = (Numeral.natural digits).map fun number =>
      if text.isEmpty then remove number else enter number text (line.trim isBlank) := by
  have hne : line.trim isBlank ≠ [] := by
    rw [h.eq]
    simp [h.numeric.nonempty]
  simp only [ofLine, h.edit?_eq, List.isEmpty_iff]
  rw [if_neg hne]

theorem value_of_natural {digits : Text} {number : Nat} (hdigits : digits.Numeric)
    (h : Numeral.natural digits = .ok number) : number = Numeral.value digits := by
  have hall : digits.takeWhile isDecimal = digits := List.takeWhile_eq_self_iff.2 hdigits.decimal
  simp only [Numeral.natural, hall] at h
  split_ifs at h
  cases h
  rfl

theorem Parts.change?_eq {line digits gap text : Text} {command : Command}
    (h : Parts (line.trim isBlank) digits gap text) (hread : ofLine line = .ok command) :
    Numeral.natural digits = .ok (Numeral.value digits) ∧
      command.change? =
        some ((Numeral.value digits : Int), if text.isEmpty then none else some text) := by
  rw [h.ofLine_eq] at hread
  cases hnumber : Numeral.natural digits with
  | error fault => simp [hnumber, Except.map] at hread
  | ok number =>
      rw [hnumber] at hread
      cases hread
      rw [value_of_natural h.numeric hnumber]
      refine ⟨rfl, ?_⟩
      cases text <;> rfl

/-- A line that is read as a command edits what the command changes. -/
theorem edits_iff {line : Text} {command : Command} (h : ofLine line = .ok command)
    {number : Int} {text : Option Text} :
    line.Edits number text ↔ command.change? = some (number, text) := by
  constructor
  · intro hedits
    obtain ⟨digits, gap, hparts, rfl, hkept⟩ := parts_of_edits hedits
    rw [(hparts.change?_eq h).2]
    cases text with
    | none => rfl
    | some text => simp [(hkept text rfl).nonempty]
  · intro hchange
    obtain ⟨-, rfl⟩ | ⟨digits, gap, left, hparts⟩ | rfl := ofLine_cases h
    · cases hchange
    · have hedits := edits_of_parts hparts
      rw [(hparts.change?_eq h).2] at hchange
      simp only [Option.some.injEq, Prod.mk.injEq] at hchange
      obtain ⟨rfl, rfl⟩ := hchange
      exact hedits
    · rw [change?_named] at hchange
      cases hchange

theorem clears_iff {line : Text} {command : Command} (h : ofLine line = .ok command) :
    line.Clears ↔ command = .new := by
  obtain ⟨hempty, rfl⟩ | ⟨digits, gap, text, hparts⟩ | rfl := ofLine_cases h
  · simp [Clears, hempty, upper]
  · have hchange := (hparts.change?_eq h).2
    refine iff_of_false (fun hclears => hclears.2 _ _ (edits_of_parts hparts)) ?_
    rintro rfl
    cases hchange
  · constructor
    · rintro ⟨hword, -⟩
      simp only [named, hword]
      rfl
    · intro hnew
      refine ⟨upper_of_named hnew, fun number text hedits => ?_⟩
      have hchange := (edits_iff h).1 hedits
      rw [change?_named] at hchange
      cases hchange

theorem writable_of_change? {line : Text} {command : Command} (h : ofLine line = .ok command)
    {number : Int} {text : Option Text} (hchange : command.change? = some (number, text)) :
    0 ≤ number ∧ Numeral.writable number = true := by
  obtain ⟨digits, gap, hparts, rfl, -⟩ := parts_of_edits ((edits_iff h).2 hchange)
  exact ⟨Int.natCast_nonneg _, Numeral.writable_of_natural (hparts.change?_eq h).1⟩

theorem kept_of_change? {line : Text} {command : Command} (h : ofLine line = .ok command)
    {number : Int} {text : Text} (hchange : command.change? = some (number, some text)) :
    text.Kept := by
  obtain ⟨digits, gap, -, -, hkept⟩ := parts_of_edits ((edits_iff h).2 hchange)
  exact hkept text rfl

/-- A listed line is read as what it lists. -/
theorem ofLine_listed {number : Int} {text : Text} (hnumber : 0 ≤ number)
    (hwritable : Numeral.writable number = true) (htext : text.Kept) :
    ofLine (Program.listed (number, text)) =
      .ok (.enter number.toNat text (Program.listed (number, text))) := by
  obtain ⟨number, rfl⟩ := Int.eq_ofNat_of_zero_le hnumber
  have hlisted : Program.listed (number, text) = Nat.toDigits 10 number ++ [' '] ++ text := by
    simp [Program.listed, Numeral.decimal]
  have hnumeric : Numeric (Nat.toDigits 10 number) :=
    ⟨Nat.toDigits_ne_nil, fun c hc => Numeral.isDecimal_of_mem_toDigits hc⟩
  have hnone : Padding [] := by simp [Padding]
  have hspace : Padding [' '] := by simp only [Padding, List.forall_mem_singleton]; decide
  have htrim := trim_padded hnone (hnumeric.neat_append [' '] htext) hnone
  rw [List.nil_append, List.append_nil, ← hlisted] at htrim
  have hparts : Parts ((Program.listed (number, text)).trim isBlank)
      (Nat.toDigits 10 number) [' '] text :=
    ⟨htrim.trans hlisted, hnumeric, hspace, htext.starts, by simp, htext.oneLine⟩
  rw [hparts.ofLine_eq, Numeral.natural_toDigits hwritable, htrim]
  simp [Except.map, htext.nonempty]

end Command

end LineBasic
