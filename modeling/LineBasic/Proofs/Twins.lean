import LineBasic.Proofs.LineEndings

/-!
# Twin machines

Machines on different texts are twins when they cannot be told apart by what they have
written, hold and report. A machine echoes another when the surveys of both texts
record the same numbers, every call has the same answer or the same failure, and the
two are twins after every call. It takes no more than a coupling of the first places
of the texts: the machines then stay coupled through all calls.
-/
namespace LineBasic

namespace Machine

/-- Machines that have written, hold and report the same. -/
structure Twins (m n : Machine) : Prop where
  output : n.output = m.output
  store : n.store = m.store
  reports : m.reports.Alike n.reports
  index : n.index = m.index
  finished : n.finished = m.finished

/-- Machines whose surveys and calls come out the same. -/
structure Echoes (m n : Machine) : Prop where
  survey : ∃ l l', Listing.build m.listing = .ok () l ∧ Listing.build n.listing = .ok () l' ∧
    l'.index = l.index
  calls : ∀ count, SameOutcome Fault.Told (m.call count) (n.call count)
  twins : ∀ count, (m.called count).Twins (n.called count)

/-- The survey of the text gets through. -/
def Surveyed (m : Machine) : Prop := ∃ l, Listing.build m.listing = .ok () l

instance (m : Machine) : Decidable m.Surveyed :=
  match h : Listing.build m.listing with
  | .ok () l => isTrue ⟨l, h⟩
  | .error _ _ => isFalse fun ⟨_, hok⟩ => nomatch h.symm.trans hok

/-- A machine whose survey gets through is at the start of a text that can be read. -/
theorem start_of_surveyed {sheet : Sheet} {size : WordSize} {output : Output}
    {reports : Reports} {m : Machine} (hload : load sheet size output reports = .ok m)
    (hsurvey : m.Surveyed) :
    sheet.text.Readable ∧ ∃ c, Cursor.start sheet = .ok c ∧ c.sheet = sheet ∧
      m = fresh c size output reports := by
  obtain ⟨c, hc, rfl⟩ := start_of_load hload
  obtain ⟨l, hbuild⟩ := hsurvey
  have hsheet := Cursor.sheet_of_start hc
  refine ⟨?_, c, hc, hsheet, rfl⟩
  rcases Listing.build_outcome (l := ⟨c, .empty⟩) (hsheet.symm ▸ hc) with
    ⟨-, -, hreadable, -⟩ | ⟨f, surveyed, hfail, -⟩
  · exact hsheet ▸ hreadable
  · cases hfail.symm.trans hbuild

end Machine

theorem Paired.twins {k : Coupling} {E : Cursor → Cursor → Prop} {m n : Machine}
    (h : Paired k E m n) : m.Twins n :=
  ⟨h.output.symm, h.store.symm, h.reports, h.index.symm, h.finished.symm⟩

theorem SameOutcome.mono {R S : Fault → Fault → Prop} {a b : Except Fault Bool}
    (h : SameOutcome R a b) (hRS : ∀ f g, R f g → S f g) : SameOutcome S a b := by
  cases h with
  | ok more => exact .ok more
  | error hf => exact .error (hRS _ _ hf)

namespace Coupling

variable {k : Coupling} {c d : Cursor}

/-- Machines that are loaded at coupled cursors answer alike, and stay coupled twins. -/
theorem called_twins (hs : ¬ k.slack) (hrel : k.Rel c d) (hc : Cursor.start c.sheet = .ok c)
    (hd : Cursor.start d.sheet = .ok d) (size : WordSize) (output : Output) (reports : Reports)
    (count : Nat) :
    SameOutcome Fault.Told ((Machine.fresh c size output reports).call count)
        ((Machine.fresh d size output reports).call count) ∧
      ((Machine.fresh c size output reports).called count).Twins
        ((Machine.fresh d size output reports).called count) ∧
      k.Rel ((Machine.fresh c size output reports).called count).cursor
        ((Machine.fresh d size output reports).called count).cursor := by
  obtain ⟨m, n, hm, hn, hpaired⟩ := begun_agree hrel hc hd size output reports
  constructor
  · rw [(Machine.called_of_step_eq hm count).1, (Machine.called_of_step_eq hn count).1]
    exact (call_agree hs hpaired count).mono fun _ _ => Fault.Alike.told
  · cases count with
    | zero => exact ⟨⟨rfl, rfl, ⟨rfl, rfl, rfl, rfl, rfl⟩, rfl, rfl⟩, hrel⟩
    | succ count =>
        rw [(Machine.called_of_step_eq hm count).2, (Machine.called_of_step_eq hn count).2]
        have hcalled := called_agree hs hpaired (count + 1)
        exact ⟨hcalled.twins, hcalled.cursor⟩

theorem echoes (hs : ¬ k.slack) (hrel : k.Rel c d) (hc : Cursor.start c.sheet = .ok c)
    (hd : Cursor.start d.sheet = .ok d) (size : WordSize) (output : Output) (reports : Reports) :
    (Machine.fresh c size output reports).Echoes (Machine.fresh d size output reports) := by
  obtain ⟨c', d', index, hbuild, hbuild', -⟩ :=
    k.build_agree (l := ⟨c, .empty⟩) (r := ⟨d, .empty⟩) hrel
  exact ⟨⟨_, _, hbuild, hbuild', rfl⟩,
    fun count => (called_twins hs hrel hc hd size output reports count).1,
    fun count => (called_twins hs hrel hc hd size output reports count).2.1⟩

end Coupling

end LineBasic
