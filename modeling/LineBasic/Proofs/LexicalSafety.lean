import LineBasic.Proofs.Calls

/-!
# Lexical failures come before execution

The first step surveys the whole text before it executes anything. If some token
cannot be read, every step fails in the same way and nothing is executed;
otherwise no step fails to read a token, wherever the program jumps to. The second
half is the lockstep of a machine with itself: a sound cursor stays sound.
-/
namespace LineBasic
open Machine

def Coupling.same : Coupling where
  slack := False
  Rel c d := d = c ∧ c.Sound
  Edge c d := d = c
  left h := h.2
  right h := h.1 ▸ h.2
  alike h := .inl (by rw [h.1])
  line h := by rw [h.1]
  edge h := by rw [h]
  next := by
    rintro c d c' d' ⟨rfl, hs⟩ hend hrem hc hd
    cases hc.symm.trans hd
    obtain ⟨e, he, hsound, -⟩ := hs.next hend hrem
    cases hc.symm.trans he
    exact ⟨⟨rfl, hsound⟩, fun _ => rfl⟩
  finish := by
    rintro c d d' ⟨rfl, -⟩ hend hline
    cases hend.symm.trans hline
  skip := by
    rintro c d c' d' ⟨rfl, hs⟩ hend hc hd
    cases hc.symm.trans hd
    obtain ⟨e, he, hsound, -⟩ := hs.skipLine hend
    cases hc.symm.trans he
    exact ⟨rfl, hsound⟩
  start := by
    rintro c d c' d' ⟨rfl, hs⟩ hc hd
    cases hc.symm.trans hd
    obtain ⟨e, he, hsound⟩ := hs.start
    cases hc.symm.trans he
    exact ⟨rfl, hsound⟩

theorem Fault.Alike.not_lexical {f g : Fault} (h : f.Alike g) : ¬ f.Lexical := by
  cases h with
  | error hc => exact hc
  | _ => exact id

namespace Machine

/-- What a machine is like as long as nothing has been executed. -/
structure Untouched (sheet : Sheet) (output : Output) (m : Machine) : Prop where
  sheet : m.cursor.sheet = sheet
  store : m.store = .zero
  output : m.output = output
  started : m.started = false
  finished : m.finished = false

namespace Untouched

variable {sheet : Sheet} {output : Output} {m : Machine} {first : Cursor} {f : Fault}
  {surveyed : Listing}

/-- A survey starts from the text, so one that fails once fails again. -/
theorem build (h : m.Untouched sheet output) (hstart : Cursor.start sheet = .ok first)
    (hfail : Listing.build ⟨first, .empty⟩ = .error f surveyed) :
    Listing.build m.listing = .error f surveyed := by
  have hfirst : Cursor.start first.sheet = .ok first := by
    rw [Cursor.sheet_of_start hstart, hstart]
  have hm : Cursor.start m.listing.cursor.sheet = .ok first := by
    rw [← hstart, ← h.sheet]
    rfl
  rw [Listing.build_eq hm, ← hfail, Listing.build_eq (l := ⟨first, .empty⟩) hfirst]

/-- Then a step fails and leaves the machine untouched. -/
theorem step (h : m.Untouched sheet output) (hstart : Cursor.start sheet = .ok first)
    (hfail : Listing.build ⟨first, .empty⟩ = .error f surveyed)
    (hsheet : surveyed.cursor.sheet = sheet) :
    m.outcome = .error f ∧ m.stepped.Untouched sheet output := by
  have hstep := step_of_failed h.started (h.build hstart hfail)
  unfold outcome stepped
  rw [hstep]
  exact ⟨rfl, { h with sheet := hsheet }⟩

end Untouched

/-- A text that cannot be read: every call fails as the survey does, and nothing is
executed. -/
structure Rejected (m : Machine) : Prop where
  survey : ∃ f l, f.Lexical ∧ Listing.build m.listing = .error f l ∧
    ∀ count, m.call count = .error f
  output : ∀ count, (m.called count).output = m.output
  store : ∀ count, (m.called count).store = .zero
  unfinished : ∀ count, (m.called count).finished = false

/-- A text that can be read: the survey succeeds and no call fails to read a token. -/
structure Accepted (m : Machine) : Prop where
  survey : ∃ l, Listing.build m.listing = .ok () l
  indexed : ∃ m', buildIndex m = .ok () m'
  calls : ∀ count f, m.call count = .error f → ¬ f.Lexical

theorem untouched_fresh {c : Cursor} {size : WordSize} {output : Output} {reports : Reports} :
    (fresh c size output reports).Untouched c.sheet output :=
  ⟨rfl, rfl, rfl, rfl, rfl⟩

theorem rejected_of_survey {c : Cursor} {size : WordSize} {output : Output} {reports : Reports}
    {f : Fault} {surveyed : Listing} (hstart : Cursor.start c.sheet = .ok c)
    (hfail : Listing.build ⟨c, .empty⟩ = .error f surveyed)
    (hsheet : surveyed.cursor.sheet = c.sheet) (hlex : f.Lexical) :
    (fresh c size output reports).Rejected := by
  have h : (fresh c size output reports).Untouched c.sheet output := untouched_fresh
  have hcalled := called_induction (fun m hm => (hm.step hstart hfail hsheet).2) h
  exact ⟨⟨f, surveyed, hlex, hfail, fun count => ((hcalled count).step hstart hfail hsheet).1⟩,
    fun count => (hcalled count).output, fun count => (hcalled count).store,
    fun count => (hcalled count).finished⟩

theorem accepted_of_readable {c : Cursor} {size : WordSize} {output : Output}
    {reports : Reports} (hstart : Cursor.start c.sheet = .ok c)
    (hreadable : c.sheet.text.Readable) : (fresh c size output reports).Accepted := by
  obtain ⟨index, hbuild, -, hwritable⟩ :=
    survey_of_readable (l := ⟨c, .empty⟩) hstart hreadable
  refine ⟨⟨_, hbuild⟩, ⟨_, buildIndex_of_build hbuild hwritable⟩, ?_⟩
  intro count f hf
  have hsound := Cursor.sound_of_start hstart hreadable
  obtain ⟨m, n, hm, -, hpaired⟩ :=
    begun_agree (k := .same) ⟨rfl, hsound⟩ hstart hstart size output reports
  have hsame := call_agree id hpaired count
  rw [← (called_of_step_eq hm count).1, hf] at hsame
  generalize n.call count = other at hsame
  cases hsame with
  | error hfault => exact hfault.not_lexical

/-- A machine that has been loaded is either rejected by its survey, at every call, or
accepted for good. -/
theorem rejected_or_accepted {sheet : Sheet} {size : WordSize} {output : Output}
    {reports : Reports} {m : Machine} (h : load sheet size output reports = .ok m) :
    (m.Rejected ∨ m.Accepted) ∧ ¬ (m.Rejected ∧ m.Accepted) := by
  obtain ⟨c, hc, rfl⟩ := start_of_load h
  obtain rfl := Cursor.sheet_of_start hc
  constructor
  · rcases Listing.build_outcome (l := ⟨c, .empty⟩) hc with
      ⟨-, -, hreadable, -⟩ | ⟨f, surveyed, hfail, hsheet, hlex, -⟩
    · exact .inr (accepted_of_readable hc hreadable)
    · exact .inl (rejected_of_survey hc hfail hsheet hlex)
  · rintro ⟨hrejected, haccepted⟩
    obtain ⟨f, l, -, hfail, -⟩ := hrejected.survey
    obtain ⟨l', hok⟩ := haccepted.survey
    cases hok.symm.trans hfail

/-- The stray character behind the letter is met by the survey, before the letter is
executed. -/
theorem rejected_stray_character :
    ∃ m, load ⟨['A', '?'], []⟩ ⟨16, by decide⟩ {} {} = .ok m ∧ m.Rejected := by
  have hload : load ⟨['A', '?'], []⟩ ⟨16, by decide⟩ {} {} =
      .ok (fresh ⟨⟨['A', '?'], []⟩, .first, ⟨.letter 'A', 1, 1, 0, 1⟩⟩ ⟨16, by decide⟩ {} {}) := rfl
  refine ⟨_, hload, ?_⟩
  rcases (rejected_or_accepted hload).1 with hrejected | haccepted
  · exact hrejected
  · exact absurd rfl (haccepted.calls 0 _ rfl)

end Machine

end LineBasic
