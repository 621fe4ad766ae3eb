import Mathlib.Data.List.Infix

/-!
# Reliable pipes

A pipe is known by two histories, what has entered it and what has left it. It is reliable
when the second is a prefix of the first: nothing is lost in the middle, repeated or
reordered, and how the entries were cut does not show at the exit. `flight` is what is
between the two ends.
-/

namespace LinuxNet.Lib.Pipe

variable {α : Type*} {entered left dat : List α}

/-- What has entered and not left. -/
def flight (entered left : List α) : List α := entered.drop left.length

theorem left_append_flight (h : left <+: entered) : left ++ flight entered left = entered := by
  obtain ⟨rest, rfl⟩ := h
  rw [flight, List.drop_left]

/-- What leaves comes from the front of the flight. -/
theorem flight_leave (h : left ++ dat <+: entered) :
    flight entered left = dat ++ flight entered (left ++ dat) := by
  obtain ⟨rest, rfl⟩ := h
  rw [flight, flight, List.drop_left, List.append_assoc, List.drop_left]

theorem leave_of_flight (h : left <+: entered) (hdat : dat <+: flight entered left) :
    left ++ dat <+: entered := by
  obtain ⟨rest, hrest⟩ := hdat
  refine ⟨rest, ?_⟩
  rw [List.append_assoc, hrest, left_append_flight h]

end LinuxNet.Lib.Pipe
