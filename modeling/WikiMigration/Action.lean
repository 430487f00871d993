/-
Actions on a world.

An action gives a value or fails.  Either way it leaves a world and what it put out on the way: what
was done before a failure stays done.  Nothing is said about what a world is, so what holds of an
action made of parts holds whatever the parts do.
-/
import WikiMigration.Error

namespace WikiMigration

/-- What an action on worlds `σ` leaves: its value or its failure, the world, and its output. -/
structure Outcome (ω σ α : Type) where
  result : Except Failure α
  world : σ
  output : List ω

/-- An action on worlds `σ` that puts out `ω` and gives an `α`. -/
def Action (ω σ α : Type) : Type := σ → Outcome ω σ α

namespace Action

variable {ω ψ σ τ α β : Type}

/-- The action that does nothing and has the given result. -/
def ofResult (result : Except Failure α) : Action ω σ α := fun world => ⟨result, world, []⟩

/-- One action and then another one that depends on its value; a failure is the end. -/
def andThen (first : Action ω σ α) (next : α → Action ω σ β) : Action ω σ β := fun world =>
  let outcome := first world
  match outcome.result with
  | .ok a =>
    let last := next a outcome.world
    { last with output := outcome.output ++ last.output }
  | .error e => { outcome with result := .error e }

instance : Monad (Action ω σ) where
  pure a := ofResult (.ok a)
  bind := andThen

/-- The action that fails. -/
def fail (failure : Failure) : Action ω σ α := ofResult (.error failure)

/-- The action that puts something out. -/
def emit (x : ω) : Action ω σ Unit := fun world => ⟨.ok (), world, [x]⟩

/-- The world. -/
def world : Action ω σ σ := fun world => ⟨.ok world, world, []⟩

/-- Changes the world. -/
def change (f : σ → σ) : Action ω σ Unit := fun world => ⟨.ok (), f world, []⟩

/-- What the action results in, be it a failure. -/
def attempt (action : Action ω σ α) : Action ω σ (Except Failure α) := fun world =>
  let outcome := action world
  { outcome with result := .ok outcome.result }

/-- The action with its failure replaced. -/
def mapFailure (f : Failure → Failure) (action : Action ω σ α) : Action ω σ α := fun world =>
  let outcome := action world
  { outcome with result := outcome.result.mapError f }

/-- The action as a step of the given kind: a failure that is not classified yet becomes one of the
kind. -/
def boundary (kind : ErrorKind) (page : Option String) (name : String) (action : Action ω σ α) :
    Action ω σ α :=
  action.mapFailure fun failure => .classified (failure.atBoundary kind page name)

/-- The action on a part of a larger world, with its output turned into that of the larger one. -/
def within (part : τ → σ) (update : σ → τ → τ) (shown : ω → ψ) (action : Action ω σ α) :
    Action ψ τ α := fun world =>
  let outcome := action (part world)
  ⟨outcome.result, update outcome.world world, outcome.output.map shown⟩

end Action

end WikiMigration
