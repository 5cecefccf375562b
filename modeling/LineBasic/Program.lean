import LineBasic.Numeral

/-!
# Numbered programs

A program as it is edited: texts by line number, in ascending order, each
number once.
-/
namespace LineBasic

structure Program where
  lines : List (Int × Text)

namespace Program

def empty : Program := ⟨[]⟩

def isEmpty (p : Program) : Bool := p.lines.isEmpty

def putInto (number : Int) (text : Text) : List (Int × Text) → List (Int × Text)
  | [] => [(number, text)]
  | line :: rest =>
      if number < line.1 then (number, text) :: line :: rest
      else if number = line.1 then (number, text) :: rest
      else line :: putInto number text rest

/-- Give a line its text, in place of the one it had. -/
def put (p : Program) (number : Int) (text : Text) : Program := ⟨putInto number text p.lines⟩

def erase (p : Program) (number : Int) : Program := ⟨p.lines.filter (·.1 != number)⟩

def get? (p : Program) (number : Int) : Option Text := p.lines.lookup number

/-- A program given line by line; a later line replaces an earlier one of its number. -/
def ofLines (lines : List (Int × Text)) : Program :=
  lines.foldl (fun p line => p.put line.1 line.2) empty

def listed (line : Int × Text) : Text := Numeral.decimal line.1 ++ ' ' :: line.2

def source (p : Program) : Text := p.lines.flatMap fun line => listed line ++ ['\n']

theorem lookup_putInto (number k : Int) (text : Text) (lines : List (Int × Text)) :
    (putInto number text lines).lookup k = if k = number then some text else lines.lookup k := by
  induction lines with
  | nil =>
      by_cases hk : k = number
      · simp [putInto, hk]
      · simp [putInto, List.lookup_cons, hk, beq_eq_false_iff_ne.2 hk]
  | cons line rest ih =>
      obtain ⟨first, body⟩ := line
      by_cases hk : k = number
      · subst hk
        simp only [putInto]
        split
        · simp
        · split
          · simp
          · rename_i hne
            simp [List.lookup_cons, beq_eq_false_iff_ne.2 hne, ih]
      · simp only [putInto]
        split
        · simp [List.lookup_cons, beq_eq_false_iff_ne.2 hk]
        · split
          · rename_i heq
            subst heq
            simp [List.lookup_cons, beq_eq_false_iff_ne.2 hk]
          · simp [List.lookup_cons, hk, ih]

theorem get?_put (p : Program) (number k : Int) (text : Text) :
    (p.put number text).get? k = if k = number then some text else p.get? k :=
  lookup_putInto number k text p.lines

theorem mem_putInto {number : Int} {text : Text} {line : Int × Text} {lines : List (Int × Text)}
    (h : line ∈ putInto number text lines) : line = (number, text) ∨ line ∈ lines := by
  induction lines with
  | nil => simpa [putInto] using h
  | cons first rest ih =>
      simp only [putInto] at h
      split at h
      · simpa using h
      · split at h
        · rcases List.mem_cons.1 h with h | h
          · exact .inl h
          · exact .inr (List.mem_cons_of_mem _ h)
        · rcases List.mem_cons.1 h with rfl | h
          · simp
          · rcases ih h with h | h
            · exact .inl h
            · exact .inr (List.mem_cons_of_mem _ h)

theorem pairwise_putInto {number : Int} {text : Text} {lines : List (Int × Text)}
    (h : lines.Pairwise (·.1 < ·.1)) : (putInto number text lines).Pairwise (·.1 < ·.1) := by
  induction lines with
  | nil => simp [putInto]
  | cons first rest ih =>
      obtain ⟨hfirst, hrest⟩ := List.pairwise_cons.1 h
      simp only [putInto]
      split
      · rename_i hlt
        refine List.pairwise_cons.2 ⟨?_, h⟩
        intro line hline
        rcases List.mem_cons.1 hline with rfl | hline
        · exact hlt
        · exact Int.lt_trans hlt (hfirst line hline)
      · split
        · rename_i heq
          subst heq
          exact List.pairwise_cons.2 ⟨hfirst, hrest⟩
        · refine List.pairwise_cons.2 ⟨?_, ih hrest⟩
          intro line hline
          rcases mem_putInto hline with rfl | hline
          · simp only; omega
          · exact hfirst line hline
end Program

end LineBasic
