/-!
# Worklists

A walk with an explicit stack of tasks: the task on top is done, and the tasks it leaves go on top of the rest. A walk
needs no room beyond its stack, however deep the data are.
-/

namespace ShaderTrace.Worklist

variable {σ τ ε : Type}

/-- Does tasks from the top of the stack until none is left, at most `bound` of them. -/
def run (step : σ → τ → Except ε (σ × List τ)) (exhausted : ε) : (bound : Nat) → σ → List τ → Except ε σ
  | _, state, [] => .ok state
  | 0, _, _ :: _ => .error exhausted
  | bound + 1, state, task :: rest => do
    let (state, next) ← step state task
    run step exhausted bound state (next ++ rest)

end ShaderTrace.Worklist
