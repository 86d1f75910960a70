import LeaseRegistry.Script.Reading

/-!
# Running scripts

A script sets a value up and lists steps. Its report is the list of what the steps answer.
-/

namespace LeaseRegistry.Script

def stepsOf (v : Json) : Read (List Json) := list "steps" v

def nameOf (step : Json) : Read String := str "do" step

def runSteps {σ : Type} (step : σ → Json → Read (Json × σ)) (s : σ) (steps : List Json) :
    Read (List Json × σ) :=
  steps.foldlM (fun (out, s) v => do
    let (r, s) ← step s v
    return (out ++ [r], s)) ([], s)

def report {σ : Type} (step : σ → Json → Read (Json × σ)) (s : σ) (v : Json) : Read Json := do
  return .array (← runSteps step s (← stepsOf v)).1

end LeaseRegistry.Script
