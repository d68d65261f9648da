import Mathlib.Data.List.Basic

namespace IpciBlockchain
namespace Foundation

/-!
# Computations with a state and failures

A computation changes a state and then answers or fails.  A failure keeps what
was changed before it, and `none` is a computation that never returns.

Three facts about the parts of a program are carried to the whole here: that
two programs agree from a state, that one program simulates another through a
map of the states, and that a program leaves a view of the state alone.
-/

/-- Computations over a state that may fail, or not return. -/
abbrev Computation (Failure State : Type) := ExceptT Failure (StateT State Option)

namespace Computation

variable {Failure State State' Value Result Item View : Type}

/-- A value that may never be returned, without any effect. -/
def returning (result : Option Value) : Computation Failure State Value :=
  fun state => result.map fun value => (.ok value, state)

/-- Sequences agree from a state if their continuations agree wherever the
common beginning leads. -/
theorem run_bind_congr {state : State} {first : Computation Failure State Value}
    {rest rest' : Value → Computation Failure State Result}
    (agree : ∀ value next, first.run.run state = some (.ok value, next) →
      (rest value).run.run next = (rest' value).run.run next) :
    (first >>= rest).run.run state = (first >>= rest').run.run state := by
  simp only [ExceptT.run_bind, StateT.run_bind]
  cases ran : first.run.run state with
  | none => rfl
  | some outcome =>
      rcases outcome with ⟨answer, next⟩
      cases answer with
      | error reason => rfl
      | ok value => exact agree value next ran

/-- Sequences agree from a state if their beginnings do. -/
theorem run_bind_of_eq {state : State} {first first' : Computation Failure State Value}
    {rest : Value → Computation Failure State Result}
    (same : first.run.run state = first'.run.run state) :
    (first >>= rest).run.run state = (first' >>= rest).run.run state := by
  simp only [ExceptT.run_bind, StateT.run_bind, same]

/-! ## Simulation -/

/-- Through a map of the states, the computation is the model. -/
def Simulates (abstract : State → State') (computation : Computation Failure State Value)
    (model : Computation Failure State' Value) : Prop :=
  ∀ state, model.run.run (abstract state) =
    (computation.run.run state).map (Prod.map id abstract)

namespace Simulates

variable {abstract : State → State'}

theorem pure_ (value : Value) :
    Simulates abstract (pure value : Computation Failure State Value) (pure value) :=
  fun _ => rfl

theorem throw_ (failure : Failure) :
    Simulates abstract (throw failure : Computation Failure State Value) (throw failure) :=
  fun _ => rfl

theorem bind {first : Computation Failure State Value}
    {first' : Computation Failure State' Value}
    {rest : Value → Computation Failure State Result}
    {rest' : Value → Computation Failure State' Result}
    (begins : Simulates abstract first first')
    (continues : ∀ value, Simulates abstract (rest value) (rest' value)) :
    Simulates abstract (first >>= rest) (first' >>= rest') := by
  intro state
  simp only [ExceptT.run_bind, StateT.run_bind]
  rw [begins state]
  cases first.run.run state with
  | none => rfl
  | some outcome =>
      rcases outcome with ⟨answer, next⟩
      cases answer with
      | error reason => rfl
      | ok value => exact continues value next

theorem returning_ (result : Option Value) :
    Simulates abstract (returning result : Computation Failure State Value)
      (returning result) := by
  intro state
  cases result <;> rfl

/-- A loop simulates a loop if its body does. -/
theorem forIn_ {body : Item → Computation Failure State PUnit}
    {body' : Item → Computation Failure State' PUnit}
    (simulates : ∀ item, Simulates abstract (body item) (body' item)) (items : List Item) :
    Simulates abstract
      (forIn items PUnit.unit fun item _ => do
        body item
        pure (ForInStep.yield PUnit.unit))
      (forIn items PUnit.unit fun item _ => do
        body' item
        pure (ForInStep.yield PUnit.unit)) := by
  induction items with
  | nil => exact pure_ _
  | cons item rest ih =>
      simp only [List.forIn_cons, bind_assoc, pure_bind]
      exact bind (simulates item) fun _ => ih

/-- An update simulates another one if the map of the states commutes with
them. -/
theorem modify_ {update : State → State} {update' : State' → State'}
    (commutes : ∀ state, abstract (update state) = update' (abstract state)) :
    Simulates abstract (modify update : Computation Failure State PUnit) (modify update') := by
  intro state
  change some (Except.ok PUnit.unit, update' (abstract state)) =
    some (Except.ok PUnit.unit, abstract (update state))
  rw [commutes state]

end Simulates

/-! ## What a computation leaves alone -/

/-- Whatever the computation answers, and also if it fails, it does not change
the view of the state. -/
def Preserves (view : State → View) (computation : Computation Failure State Value) : Prop :=
  ∀ state answer next, computation.run.run state = some (answer, next) → view next = view state

namespace Preserves

variable {view : State → View}

theorem pure_ (value : Value) :
    Preserves view (pure value : Computation Failure State Value) := by
  intro state answer next returned
  cases returned
  rfl

theorem throw_ (failure : Failure) :
    Preserves view (throw failure : Computation Failure State Value) := by
  intro state answer next returned
  cases returned
  rfl

theorem bind {first : Computation Failure State Value}
    {rest : Value → Computation Failure State Result} (begins : Preserves view first)
    (continues : ∀ value, Preserves view (rest value)) : Preserves view (first >>= rest) := by
  intro state answer next returned
  simp only [ExceptT.run_bind, StateT.run_bind] at returned
  cases ran : first.run.run state with
  | none =>
      rw [ran] at returned
      cases returned
  | some outcome =>
      rcases outcome with ⟨answer', middle⟩
      rw [ran] at returned
      have before := begins state answer' middle ran
      cases answer' with
      | error reason =>
          cases returned
          exact before
      | ok value => exact (continues value middle answer next returned).trans before

theorem returning_ (result : Option Value) :
    Preserves view (returning result : Computation Failure State Value) := by
  intro state answer next returned
  rcases Option.map_eq_some_iff.mp returned with ⟨value, _, equal⟩
  cases equal
  rfl

/-- A loop leaves alone what its body leaves alone. -/
theorem forIn_ {body : Item → Computation Failure State PUnit}
    (preserves : ∀ item, Preserves view (body item)) (items : List Item) :
    Preserves view (forIn items PUnit.unit fun item _ => do
      body item
      pure (ForInStep.yield PUnit.unit)) := by
  induction items with
  | nil => exact pure_ _
  | cons item rest ih =>
      simp only [List.forIn_cons, bind_assoc, pure_bind]
      exact bind (preserves item) fun _ => ih

theorem modify_ {update : State → State} (preserves : ∀ state, view (update state) = view state) :
    Preserves view (modify update : Computation Failure State PUnit) := by
  intro state answer next returned
  cases returned
  exact preserves state

end Preserves

/-- Sequences agree from a state if their common beginning leaves the state
alone and their continuations agree from it. -/
theorem run_bind_congr_of_preserves {state : State} {first : Computation Failure State Value}
    {rest rest' : Value → Computation Failure State Result} (still : Preserves id first)
    (agree : ∀ value, (rest value).run.run state = (rest' value).run.run state) :
    (first >>= rest).run.run state = (first >>= rest').run.run state := by
  apply run_bind_congr
  intro value next ran
  have same : next = state := still state _ next ran
  rw [same]
  exact agree value

end Computation

end Foundation
end IpciBlockchain
