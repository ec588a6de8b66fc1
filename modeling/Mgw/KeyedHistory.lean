import Mathlib.Data.List.Induction

/-!
Histories of events that carry a key: the latest event with a given key, the first
value that was put under a key since the key was last taken out, and what becomes of
them when the history grows.
-/

namespace Mgw.KeyedHistory

set_option autoImplicit false

variable {Event Key : Type*} [DecidableEq Key] (keyOf : Event → Key)

def latest (history : List Event) (key : Key) : Option Event :=
  (history.filter fun event => keyOf event = key).getLast?

theorem latest_append_same {history : List Event} {event : Event} {key : Key}
    (same : keyOf event = key) : latest keyOf (history ++ [event]) key = some event := by
  unfold latest
  rw [List.filter_append, List.filter_cons_of_pos (by simp [same]), List.filter_nil,
    List.getLast?_concat]

theorem latest_append_other {history : List Event} {event : Event} {key : Key}
    (other : keyOf event ≠ key) :
    latest keyOf (history ++ [event]) key = latest keyOf history key := by
  unfold latest
  rw [List.filter_append, List.filter_cons_of_neg (by simp [other]), List.filter_nil,
    List.append_nil]

/-- A key that no event carries has no latest event. -/
theorem latest_eq_none {history : List Event} {key : Key}
    (absent : ∀ event ∈ history, keyOf event ≠ key) : latest keyOf history key = none := by
  unfold latest
  rw [List.filter_eq_nil_iff.mpr]
  · rfl
  · intro event member
    simp [absent event member]

section Since

variable {Entry Value : Type*} (puts : Event → Entry → Option Value)
  (takes : Event → Entry → Bool)

def firstSince (history : List Event) (entry : Entry) : Option Value :=
  ((history.reverse.takeWhile fun event => !takes event entry).reverse).findSome? fun event =>
    puts event entry

theorem first_since_nil (entry : Entry) : firstSince puts takes [] entry = none := rfl

theorem first_since_append (history : List Event) (event : Event) (entry : Entry) :
    firstSince puts takes (history ++ [event]) entry =
      if takes event entry then none
      else (firstSince puts takes history entry).or (puts event entry) := by
  unfold firstSince
  rw [List.reverse_append, List.reverse_singleton, List.singleton_append, List.takeWhile_cons]
  cases takes event entry with
  | true => rfl
  | false =>
      rw [if_pos (by rfl), if_neg Bool.false_ne_true, List.reverse_cons, List.findSome?_append,
        List.findSome?_singleton]

end Since

end Mgw.KeyedHistory
