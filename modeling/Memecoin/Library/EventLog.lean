/-
This file is about logs that grow by one event at a time, and about readers that
fold the events of a log that concern them. What a reader has made of a log
determines what it makes of the next event.
-/

import Mathlib.Data.List.Infix

namespace EventLog

variable {Event View : Type*}

/-- What a reader that starts from `start` makes of the events that concern it. -/
def replay (concerns : Event → Bool) (apply : View → Event → View) (start : View)
    (log : List Event) : View :=
  (log.filter concerns).foldl apply start

section Replay

variable {concerns : Event → Bool} {apply : View → Event → View} {start : View}

theorem replay_concat {event : Event} (concerned : concerns event) (log : List Event) :
    replay concerns apply start (log ++ [event]) =
      apply (replay concerns apply start log) event := by
  unfold replay
  rw [List.filter_append, List.filter_cons_of_pos concerned, List.filter_nil, List.foldl_append,
    List.foldl_cons, List.foldl_nil]

theorem replay_concat_of_not {event : Event} (unconcerned : ¬ concerns event) (log : List Event) :
    replay concerns apply start (log ++ [event]) = replay concerns apply start log := by
  unfold replay
  rw [List.filter_append, List.filter_cons_of_neg unconcerned, List.filter_nil, List.append_nil]

end Replay

/-- Every event of the log meets a condition on the log before it. -/
def Each (condition : List Event → Event → Prop) (log : List Event) : Prop :=
  ∀ before event, before ++ [event] <+: log → condition before event

variable {condition : List Event → Event → Prop}

theorem each_nil : Each condition [] := by
  intro before event isPrefix
  simp at isPrefix

theorem Each.concat {log : List Event} (each : Each condition log) {event : Event}
    (met : condition log event) : Each condition (log ++ [event]) := by
  intro before other isPrefix
  rcases List.prefix_concat_iff.mp isPrefix with whole | earlier
  · obtain ⟨rfl, last⟩ := List.append_inj' whole rfl
    rwa [List.singleton_inj.mp last]
  · exact each before other earlier

end EventLog
