import Agner.ActorControl
import Mathlib.Tactic

/-!
The messages of an actor and the search of its mailbox by a receive.

* A visitor is given by the messages that its parameter type accepts.
* `tryMatchMailbox`: the position of the oldest message that one of the visitors accepts.
-/

namespace Agner

/-- `message_variant`: the actor's own message types and the two signals. -/
inductive Message (M : Type) where
  | user (m : M)
  | signal (sg : Signal)

/-- A message visitor, by the messages its parameter accepts. -/
abbrev Visitor (M : Type) := Message M → Bool

/-- A message in a mailbox, with its position among all messages enqueued to that actor. -/
structure Envelope (M : Type) where
  stamp : ℕ
  body : Message M

/-- What a visitor of a receive has been run on. -/
inductive Outcome (M : Type) where
  | message (envelope : Envelope M) (visitor : ℕ)
  | timeout

/-! ### Matching -/

/-- `try_match_visitors`: whether one of the visitors accepts the message, which the first
such visitor is then run on. -/
def tryMatchVisitors {M : Type} (visitors : List (Visitor M)) (m : Message M) : Bool :=
  visitors.any fun visitor => visitor m

/-- The search of `try_match_mailbox`: the position of the first message that is accepted. -/
def tryMatchMailbox {M : Type} (visitors : List (Visitor M)) (mailbox : List (Envelope M)) :
    Option ℕ :=
  mailbox.findIdx? fun e => tryMatchVisitors visitors e.body

section Matching

variable {M : Type} {visitors : List (Visitor M)} {mailbox : List (Envelope M)}

lemma tryMatchMailbox_eq_none :
    tryMatchMailbox visitors mailbox = none ↔
      ∀ e ∈ mailbox, tryMatchVisitors visitors e.body = false := by
  rw [tryMatchMailbox, List.findIdx?_eq_none_iff]

/-- The message found is accepted, and those before it are not. -/
lemma tryMatchMailbox_eq_some {position : ℕ}
    (h : tryMatchMailbox visitors mailbox = some position) :
    ∃ older e newer, mailbox = older ++ e :: newer ∧ older.length = position ∧
      tryMatchVisitors visitors e.body = true ∧
      ∀ e' ∈ older, tryMatchVisitors visitors e'.body = false := by
  obtain ⟨hlt, hacc, hbefore⟩ := List.findIdx?_eq_some_iff_getElem.mp h
  refine ⟨mailbox.take position, mailbox[position], mailbox.drop (position + 1), ?_, ?_, hacc, ?_⟩
  · rw [List.getElem_cons_drop, List.take_append_drop]
  · rw [List.length_take, min_eq_left hlt.le]
  · intro e' he'
    obtain ⟨i, hi, rfl⟩ := List.mem_take_iff_getElem.mp he'
    have hlt' : i < position := lt_of_lt_of_le hi (min_le_left _ _)
    simpa using hbefore i hlt'

/-- There is a message where the search stops, and it is accepted. -/
lemma getElem?_of_tryMatchMailbox {position : ℕ}
    (h : tryMatchMailbox visitors mailbox = some position) :
    ∃ e, mailbox[position]? = some e ∧ tryMatchVisitors visitors e.body = true := by
  obtain ⟨older, e, newer, rfl, rfl, hacc, -⟩ := tryMatchMailbox_eq_some h
  exact ⟨e, by simp, hacc⟩

/-- Removing messages makes no message match. -/
lemma tryMatchMailbox_sublist {shorter : List (Envelope M)}
    (h : tryMatchMailbox visitors mailbox = none) (hsub : shorter.Sublist mailbox) :
    tryMatchMailbox visitors shorter = none :=
  tryMatchMailbox_eq_none.mpr fun e he => tryMatchMailbox_eq_none.mp h e (hsub.subset he)

end Matching

end Agner
