import DevopsEcommerce.Interleaving.Program
import Mathlib.Logic.Function.Iterate

/-!
# Commands that are sent again

A client that loses its connection sends the commands that have no reply again as soon as it is
connected, and gives one up only after some attempts to connect. Redis does not know that it has
had a command before and executes it once more, and its promise resolves as if nothing had been.
-/

open Interleaving

namespace Redis

/-- What becomes of a command: it is executed and sent again `resent` times, and the last time goes
as the fault says. -/
structure Outcome where
  resent : ℕ
  fault : Fault
deriving DecidableEq

namespace Outcome

/-- The command is not sent again. -/
def once (fault : Fault) : Outcome := ⟨0, fault⟩

/-- How often Redis executes the command. -/
def executions (o : Outcome) : ℕ := o.resent + if o.fault = .before then 0 else 1

/-- The store after the command, if nothing else comes in between. -/
def apply {S : Type} (o : Outcome) (effect : S → S) (store : S) : S :=
  effect^[o.executions] store

lemma executions_of_answered {o : Outcome} (h : o.fault = .none) :
    o.executions = o.resent + 1 := by
  rw [executions, h, if_neg (by decide)]

end Outcome

end Redis
