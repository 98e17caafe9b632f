import Mathlib.Data.List.Basic

/-!
# The last change in a history

What events leave of something that only some of them change: what the last of these makes of it
(`lastChange_eq_some_iff`). A change may also take it away.
-/

namespace Acme

variable {α β : Type} {change : α → Option (Option β)} {history : List α}

/-- What events leave of something that is not there before them. An event makes a new thing of it, takes
it away, or leaves it as it is. -/
def lastChange (change : α → Option (Option β)) (history : List α) : Option β :=
  (history.reverse.findSome? change).join

theorem lastChange_concat (history : List α) (event : α) :
    lastChange change (history ++ [event]) = (change event).getD (lastChange change history) := by
  rw [lastChange, lastChange, List.reverse_append, List.reverse_singleton, List.singleton_append,
    List.findSome?_cons]
  cases change event <;> rfl

theorem lastChange_eq_some_iff {b : β} :
    lastChange change history = some b
      ↔ ∃ before event after, history = before ++ event :: after ∧ change event = some (some b)
        ∧ ∀ later ∈ after, change later = none := by
  rw [lastChange, Option.join_eq_some_iff, List.findSome?_eq_some_iff]
  constructor
  · rintro ⟨after, event, before, hsplit, hevent, hafter⟩
    refine ⟨before.reverse, event, after.reverse, ?_, hevent, fun later h => ?_⟩
    · simpa using congrArg List.reverse hsplit
    · exact hafter later (List.mem_reverse.mp h)
  · rintro ⟨before, event, after, rfl, hevent, hafter⟩
    refine ⟨after.reverse, event, before.reverse, by simp, hevent, fun later h => ?_⟩
    exact hafter later (List.mem_reverse.mp h)

end Acme
