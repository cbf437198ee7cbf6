/-!
# Messages to the player

The last few messages stay in sight; each new one drives out the oldest when there is no
more room.

* `Messages.length_shown_le` : never more messages than there is room for.
* `Messages.shown_post` : posting keeps the newest.
-/

namespace HiddenEquation.Play

/-- What kind of news a message brings. -/
inductive Tone where
  | info
  | success
  | error
deriving DecidableEq, Repr

/-- One line of news. -/
structure Message where
  tone : Tone
  text : String
deriving DecidableEq, Repr

namespace Messages

/-- The number of messages that stay in sight. -/
def room : Nat := 5

end Messages

/-- The messages in sight, the oldest first. -/
structure Messages where
  shown : List Message
  length_shown_le : shown.length ≤ Messages.room
deriving DecidableEq

namespace Messages

/-- No messages. -/
def none : Messages := ⟨[], Nat.zero_le _⟩

/-- The last messages of a list, as many as there is room for. -/
def last (ms : List Message) : Messages :=
  ⟨ms.drop (ms.length - room), by simp only [List.length_drop]; omega⟩

/-- One more message. -/
def post (ms : Messages) (m : Message) : Messages := last (ms.shown ++ [m])

theorem shown_last (ms : List Message) : (last ms).shown = ms.drop (ms.length - room) := rfl

/-- Posting after some messages leaves the last of them all. -/
theorem post_last (ms : List Message) (m : Message) : (last ms).post m = last (ms ++ [m]) := by
  simp only [post, last, mk.injEq, List.length_append, List.length_drop, List.length_singleton]
  by_cases h : ms.length ≤ room
  · rw [Nat.sub_eq_zero_of_le h, List.drop_zero, Nat.sub_zero]
  · rw [← List.drop_append_of_le_length (by omega), List.drop_drop]
    congr 1
    omega

end Messages

end HiddenEquation.Play
