import Mathlib.Data.List.Nodup
import LineBasic.Proofs.Typing
import LineBasic.Text.Split

/-!
# Stored programs

A program in ascending order is the texts it gives its numbers. The lines of its
listing are its lines, and each of them, typed again, edits what it lists.
-/
namespace LineBasic

namespace Program

theorem get?_empty (k : Int) : empty.get? k = none := rfl

theorem get?_erase (p : Program) (number k : Int) :
    (p.erase number).get? k = if k = number then none else p.get? k := by
  show (p.lines.filter (·.1 != number)).lookup k = if k = number then none else p.lines.lookup k
  induction p.lines with
  | nil => simp
  | cons line rest ih =>
      obtain ⟨first, text⟩ := line
      by_cases hfirst : first = number
      · subst hfirst
        by_cases hk : k = first
        · simpa [hk] using ih
        · simp [ih, hk, List.lookup_cons, beq_eq_false_iff_ne.2 hk]
      · by_cases hk : k = first
        · simp [hk, hfirst]
        · simp [hfirst, List.lookup_cons, beq_eq_false_iff_ne.2 hk, ih]

/-- A program as sessions leave it: in order, with numbers and texts that can be typed. -/
structure Sound (p : Program) : Prop where
  ascending : p.lines.Pairwise (·.1 < ·.1)
  numbers : ∀ line ∈ p.lines, 0 ≤ line.1 ∧ Numeral.writable line.1 = true
  texts : ∀ line ∈ p.lines, line.2.Kept

theorem mem_lines_iff {p : Program} (h : p.lines.Pairwise (·.1 < ·.1)) {number : Int}
    {text : Text} : (number, text) ∈ p.lines ↔ p.get? number = some text := by
  unfold get?
  generalize p.lines = lines at h ⊢
  induction lines with
  | nil => simp
  | cons line rest ih =>
      obtain ⟨first, body⟩ := line
      obtain ⟨hfirst, hrest⟩ := List.pairwise_cons.1 h
      by_cases hk : number = first
      · subst hk
        have hnot : (number, text) ∉ rest :=
          fun hmem => Int.lt_irrefl _ (hfirst (number, text) hmem)
        simp [hnot, eq_comm]
      · simp [List.lookup_cons, beq_eq_false_iff_ne.2 hk, hk, ih hrest]

theorem nodup_of_ascending {lines : List (Int × Text)} (h : lines.Pairwise (·.1 < ·.1)) :
    lines.Nodup := by
  refine h.imp fun hlt heq => ?_
  rw [heq] at hlt
  exact Int.lt_irrefl _ hlt

/-- A program is the texts it gives its numbers. -/
theorem eq_of_get? {p q : Program} (hp : p.lines.Pairwise (·.1 < ·.1))
    (hq : q.lines.Pairwise (·.1 < ·.1))
    (h : ∀ number text, p.get? number = some text ↔ q.get? number = some text) : p = q := by
  have hmem : ∀ line, line ∈ p.lines ↔ line ∈ q.lines := by
    rintro ⟨number, text⟩
    rw [mem_lines_iff hp, mem_lines_iff hq, h]
  have hperm := (List.perm_ext_iff_of_nodup (nodup_of_ascending hp) (nodup_of_ascending hq)).2 hmem
  have hlines := hperm.eq_of_pairwise
    (fun a b _ _ hab hba => absurd (Int.lt_trans hab hba) (Int.lt_irrefl _)) hp hq
  exact congrArg mk hlines

theorem sound_empty : empty.Sound := by
  constructor <;> simp [empty]

theorem Sound.put {p : Program} (h : p.Sound) {number : Int} {text : Text}
    (hnumber : 0 ≤ number ∧ Numeral.writable number = true) (htext : text.Kept) :
    (p.put number text).Sound where
  ascending := pairwise_putInto h.ascending
  numbers := fun _ hline => (mem_putInto hline).elim (fun heq => heq ▸ hnumber) (h.numbers _)
  texts := fun _ hline => (mem_putInto hline).elim (fun heq => heq ▸ htext) (h.texts _)

theorem Sound.erase {p : Program} (h : p.Sound) (number : Int) : (p.erase number).Sound where
  ascending := h.ascending.filter _
  numbers := fun _ hline => h.numbers _ (List.mem_of_mem_filter hline)
  texts := fun _ hline => h.texts _ (List.mem_of_mem_filter hline)

end Program

namespace Text

theorem split_line {line : Text} (h : '\n' ∉ line) (rest : Text) :
    split '\n' (line ++ '\n' :: rest) = line :: split '\n' rest := by
  induction line with
  | nil =>
      have hne : split '\n' rest ≠ [] := by
        cases rest with
        | nil => simp [split]
        | cons c rest =>
            simp only [split]
            split
            · split <;> simp
            · simp
      obtain ⟨piece, pieces, hsplit⟩ := List.exists_cons_of_ne_nil hne
      simp [split, hsplit]
  | cons c line ih =>
      have hc : c ≠ '\n' := fun heq => h (heq ▸ List.mem_cons_self)
      simp [split, ih fun hmem => h (List.mem_cons_of_mem _ hmem), hc]

theorem lines_of_ended {lines : List Text} (h : ∀ line ∈ lines, '\n' ∉ line) :
    Text.lines (lines.flatMap fun line => line ++ ['\n']) = lines := by
  have hsplit : split '\n' (lines.flatMap fun line => line ++ ['\n']) = lines ++ [[]] := by
    induction lines with
    | nil => rfl
    | cons line rest ih =>
        obtain ⟨hline, hrest⟩ := List.forall_mem_cons.1 h
        rw [List.flatMap_cons, List.append_assoc, List.singleton_append, split_line hline,
          ih hrest, List.cons_append]
  simp [Text.lines, hsplit]

end Text

namespace Program

theorem Sound.oneLine {p : Program} (h : p.Sound) {line : Int × Text} (hline : line ∈ p.lines) :
    '\n' ∉ listed line := by
  obtain ⟨hnonneg, -⟩ := h.numbers line hline
  have hdecimal : Numeral.decimal line.1 = Nat.toDigits 10 line.1.natAbs :=
    if_neg (Int.not_lt.2 hnonneg)
  have hdigits : '\n' ∉ Nat.toDigits 10 line.1.natAbs := fun hmem =>
    absurd (Numeral.isDecimal_of_mem_toDigits hmem) (by decide)
  simp [listed, hdecimal, hdigits, (h.texts line hline).oneLine]

theorem Sound.lines_source {p : Program} (h : p.Sound) :
    Text.lines p.source = p.lines.map listed := by
  have hlines : ∀ line ∈ p.lines.map listed, '\n' ∉ line := by
    intro line hline
    obtain ⟨entry, hentry, rfl⟩ := List.mem_map.1 hline
    exact h.oneLine hentry
  have hsource := Text.lines_of_ended hlines
  rwa [List.flatMap_map] at hsource

theorem Sound.ofLine_listed {p : Program} (h : p.Sound) {line : Int × Text}
    (hline : line ∈ p.lines) :
    Command.ofLine (listed line) = .ok (.enter line.1.toNat line.2 (listed line)) :=
  Command.ofLine_listed (h.numbers line hline).1 (h.numbers line hline).2 (h.texts line hline)

theorem Sound.edits_listed {p : Program} (h : p.Sound) {line : Int × Text}
    (hline : line ∈ p.lines) {number : Int} {text : Option Text} :
    (listed line).Edits number text ↔ number = line.1 ∧ text = some line.2 := by
  have hnumber : ((line.1.toNat : Nat) : Int) = line.1 :=
    Int.toNat_of_nonneg (h.numbers line hline).1
  rw [Command.edits_iff (h.ofLine_listed hline), Command.change?, hnumber]
  simp [eq_comm]

theorem Sound.nodup_listed {p : Program} (h : p.Sound) : (p.lines.map listed).Nodup := by
  refine List.Nodup.map_on ?_ (nodup_of_ascending h.ascending)
  intro line hline other hother hlisted
  have hedits := (h.edits_listed hline).2 ⟨rfl, rfl⟩
  rw [hlisted, h.edits_listed hother] at hedits
  exact Prod.ext hedits.1 (Option.some.inj hedits.2)

end Program

end LineBasic
