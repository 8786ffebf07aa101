import Mathlib.Data.List.Basic

/-!
# Reactors — what answers each input with outputs

A reactor has a state, takes inputs and answers with outputs, those of its
start included. What it is after a history of inputs, and all it has
answered by then, is `run`; it does not matter where and when the answers
are read.
-/

namespace WaylandWebStream

/-- **A reactor**: how it starts, and what an input does. -/
structure Reactor (σ ι ο : Type*) where
  /-- The state it starts in, and what it says at that. -/
  start : σ × List ο
  /-- The state after an input, and what it says to it. -/
  react : σ → ι → σ × List ο

namespace Reactor

variable {σ ι ο : Type*} (R : Reactor σ ι ο)

/-- The state after a history, and all that was said. -/
def run (history : List ι) : σ × List ο :=
  history.foldl (fun r input => ((R.react r.1 input).1, r.2 ++ (R.react r.1 input).2)) R.start

@[simp] theorem run_nil : R.run [] = R.start := rfl

/-- One input more. -/
@[simp] theorem run_concat (history : List ι) (input : ι) : R.run (history ++ [input]) =
    ((R.react (R.run history).1 input).1,
      (R.run history).2 ++ (R.react (R.run history).1 input).2) := by
  simp [run, List.foldl_append]

end Reactor

end WaylandWebStream
