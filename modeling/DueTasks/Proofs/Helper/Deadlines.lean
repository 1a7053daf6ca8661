import DueTasks.Helper.Machine
import DueTasks.Proofs.Asking
import DueTasks.Settings.Basic
import Mathlib.Logic.Relation

/-! Deadlines that a clock cannot tell.
A helper that starts has to end before a deadline. If there is no such time, the machine crashes,
and it stays crashed whatever is run on it later.
-/

namespace DueTasks

open Asking

namespace Machine

variable {machine start final : Machine} {limit : Duration} {words : List String}

-----------------------------------------------------------------------------------------
-- A single run
-----------------------------------------------------------------------------------------

/-- The machine after the words of a command line were run on it. -/
def after (machine : Machine) (limit : Duration) (words : List String) : Machine :=
  ((run limit words).outcome machine).2

/-- What a helper leaves behind that runs up to a deadline. -/
def finished (machine : Machine) (result : Script.RunResult) (deadline : Duration) : Machine :=
  { machine with
    disk := { machine.disk with root := result.root }
    clock := ⟨result.finish.getD deadline.nanoseconds⟩ }

theorem after_cons (program : String) (args : List String)
    : machine.after limit (program :: args)
      = match prepare machine.disk program args with
        | .error _ => machine
        | .ok call =>
            match deadline? machine.clock limit with
            | none => { machine with crashed := true }
            | some deadline =>
                machine.finished
                  (Script.run machine.disk machine.clock.nanoseconds deadline.nanoseconds call)
                  deadline := by
  have current : outcome (get : Asking Machine HelperError Machine) machine = (.ok machine, machine) :=
    rfl
  rw [after, run, outcome_bind, current]
  dsimp only
  cases prepare machine.disk program args with
  | error message => rfl
  | ok call =>
      dsimp only
      cases deadline? machine.clock limit with
      | none => rfl
      | some deadline =>
          dsimp only
          generalize Script.run machine.disk machine.clock.nanoseconds deadline.nanoseconds call
            = result
          rcases result with ⟨code, out, err, _ | finish, root⟩ <;> rfl

/-- A crashed machine stays crashed. -/
theorem crashed_after_crash (down : machine.crashed = true)
    : (machine.after limit words).crashed = true := by
  cases words with
  | nil => exact down
  | cons program args =>
      rw [after_cons]
      cases prepare machine.disk program args with
      | error message => exact down
      | ok call => cases deadline? machine.clock limit <;> first | rfl | exact down

-----------------------------------------------------------------------------------------
-- Several runs
-----------------------------------------------------------------------------------------

/-- One machine becomes another by programs that run on it. -/
def Becomes (limit : Duration) : Machine → Machine → Prop :=
  Relation.ReflTransGen fun before later => ∃ words, later = before.after limit words

theorem Becomes.crashed (becomes : Becomes limit start final) (down : start.crashed = true)
    : final.crashed = true := by
  induction becomes with
  | refl => exact down
  | tail _ step ih =>
      obtain ⟨words, rfl⟩ := step
      exact crashed_after_crash ih

end Machine

end DueTasks
