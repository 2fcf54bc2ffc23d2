import Mathlib.Tactic

/-!
`actor_control.hpp`: references to actors, exit reasons, and the two signals a scheduler
sends when an actor exits.
-/

namespace Agner

/-- `ActorRef`: the number a scheduler handed out, counted from `1` on; `0` is the default
constructed reference, which names no actor. -/
abbrev ActorRef := ℕ

/-- `ActorRef::valid`. -/
def ActorRef.valid (ref : ActorRef) : Bool := decide (ref ≠ 0)

/-- `ExitReason::Kind`, the only member of `ExitReason`. -/
inductive ExitReason where
  | normal
  | stopped
  | error
  deriving DecidableEq, Repr, Inhabited

/-- `ExitSignal` and `DownSignal`, each with the actor it names and that actor's reason. -/
inductive Signal where
  | exit (source : ActorRef) (reason : ExitReason)
  | down (source : ActorRef) (reason : ExitReason)
  deriving DecidableEq, Repr, Inhabited

namespace Signal

/-- The member `from` of a signal: the actor it names. -/
def source : Signal → ActorRef
  | exit a _ => a
  | down a _ => a

/-- The member `reason` of a signal. -/
def reason : Signal → ExitReason
  | exit _ r => r
  | down _ r => r

@[simp] lemma source_exit (a : ActorRef) (r : ExitReason) : (exit a r).source = a := rfl

@[simp] lemma source_down (a : ActorRef) (r : ExitReason) : (down a r).source = a := rfl

@[simp] lemma reason_exit (a : ActorRef) (r : ExitReason) : (exit a r).reason = r := rfl

@[simp] lemma reason_down (a : ActorRef) (r : ExitReason) : (down a r).reason = r := rfl

end Signal

end Agner
