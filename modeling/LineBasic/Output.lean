import LineBasic.Fault

/-!
# Output

The pieces of text that have been written, in order. A write may be
interrupted, at any piece and any number of times: an output has alarms, and
the first of them tells from the pieces written so far whether the next one is
interrupted. The piece is then not written, and the next alarm is set.
Interrupts that strike between writes are none of the output's.
-/
namespace LineBasic

abbrev Alarm := Array Text → Bool

structure Output where
  pieces : Array Text := #[]
  alarms : List Alarm := []

namespace Output

def text (o : Output) : Text := o.pieces.toList.flatten

/-- Write a piece. An empty piece is no write. -/
def write (piece : Text) : EStateM Fault Output Unit := fun o =>
  if piece.isEmpty then .ok () o
  else match o.alarms with
    | [] => .ok () { o with pieces := o.pieces.push piece }
    | alarm :: later =>
        if alarm o.pieces then .error .interrupted { o with alarms := later }
        else .ok () { o with pieces := o.pieces.push piece }

variable {o after : Output} {piece : Text}

/-- A piece is written, or an alarm goes off in its place. -/
theorem write_cases (piece : Text) (o : Output) :
    write piece o = .ok () { o with
      pieces := if piece.isEmpty then o.pieces else o.pieces.push piece } ∨
    ∃ alarm later, o.alarms = alarm :: later ∧
      write piece o = .error .interrupted { o with alarms := later } := by
  simp only [write]
  split
  · exact .inl rfl
  · split
    · exact .inl rfl
    · rename_i alarm later halarms
      split
      · exact .inr ⟨alarm, later, halarms, rfl⟩
      · exact .inl rfl

theorem text_write (h : write piece o = .ok () after) : after.text = o.text ++ piece := by
  rcases write_cases piece o with hwrite | ⟨alarm, later, -, hwrite⟩
  · cases hwrite.symm.trans h
    by_cases hempty : piece.isEmpty
    · simp [text, List.isEmpty_iff.1 hempty]
    · simp [text, hempty]
  · cases hwrite.symm.trans h

theorem alarms_write (h : write piece o = .ok () after) : after.alarms = o.alarms := by
  rcases write_cases piece o with hwrite | ⟨alarm, later, -, hwrite⟩
  · cases hwrite.symm.trans h
    rfl
  · cases hwrite.symm.trans h

/-- What is left of a write that an alarm stops. -/
theorem write_error {fault : Fault} (h : write piece o = .error fault after) :
    fault = .interrupted ∧ after.text = o.text ∧ o.alarms ≠ [] := by
  rcases write_cases piece o with hwrite | ⟨alarm, later, halarms, hwrite⟩
  · cases hwrite.symm.trans h
  · cases hwrite.symm.trans h
    exact ⟨rfl, rfl, by simp [halarms]⟩

/-- Without alarms everything is written. -/
theorem exists_write_of_quiet (h : o.alarms = []) (piece : Text) :
    ∃ after, write piece o = .ok () after ∧ after.alarms = [] := by
  rcases write_cases piece o with hwrite | ⟨alarm, later, halarms, -⟩
  · exact ⟨_, hwrite, h⟩
  · exact absurd (h.symm.trans halarms) (by simp)

end Output

end LineBasic
