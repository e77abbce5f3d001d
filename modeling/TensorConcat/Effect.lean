import TensorConcat.Error

/-! Actions that can fail after they have changed something: the state is kept in either case. -/

namespace TensorConcat

/-- An action on a state that answers a value or an error. -/
abbrev Action (σ α : Type) :=
  ExceptT Error (StateM σ) α

namespace Action

variable {σ α : Type}

def perform (action : Action σ α) (state : σ) : Except Error α × σ :=
  action state

def ofExcept (answer : Except Error α) : Action σ α :=
  fun state => (answer, state)

/-- Repeats an action for the numbers from `start` on, `count` times or up to the first error. -/
def countTo (action : Nat → Action σ Unit) : (count : Nat) → (start : Nat) → Action σ Unit
  | 0, _ => pure ()
  | count + 1, start => do
    action start
    countTo action count (start + 1)

end Action
end TensorConcat
