import Mathlib.Data.List.Basic

namespace IpciBlockchain
namespace Foundation

/-!
# Runs of an answering machine

A machine takes commands one at a time.  For each command it either answers
and moves to a next state, or it never returns; the latter is `none`, so
that a statement about a run has to prove that every step of it returned.

The rules below are the ways in which a property of one step becomes a property
of a whole run: an invariant, a simulation of an abstract model that sees only
commands and answers, the part that a machine has in a run of many, and the
projection of a run onto one of many components that share the machine.
-/

/-- One step of a machine.  `none` means that the command does not return. -/
abbrev Machine (Command Answer State : Type) :=
  Command → State → Option (Answer × State)

namespace Machine

variable {Command Answer State Model Component View : Type}

/-- Feed the commands in order and keep each one with the answer it got. -/
def run (machine : Machine Command Answer State) :
    List Command → State → Option (List (Command × Answer) × State)
  | [], state => some ([], state)
  | command :: rest, state =>
      (machine command state).bind fun (answer, middle) =>
        (run machine rest middle).map fun (receipts, last) =>
          ((command, answer) :: receipts, last)

variable (machine : Machine Command Answer State)

/-- A run of a nonempty list is its first step followed by a run of the rest. -/
theorem run_cons_eq_some_iff (command : Command) (rest : List Command) (state last : State)
    (receipts : List (Command × Answer)) :
    run machine (command :: rest) state = some (receipts, last) ↔
      ∃ answer middle later, machine command state = some (answer, middle) ∧
        run machine rest middle = some (later, last) ∧
        receipts = (command, answer) :: later := by
  constructor
  · intro ran
    rcases Option.bind_eq_some_iff.mp ran with ⟨⟨answer, middle⟩, stepped, ran⟩
    rcases Option.map_eq_some_iff.mp ran with ⟨⟨later, last'⟩, ranRest, equal⟩
    cases equal
    exact ⟨answer, middle, later, stepped, ranRest, rfl⟩
  · rintro ⟨answer, middle, later, stepped, ranRest, rfl⟩
    simp only [run, stepped, Option.bind_some, ranRest, Option.map_some]

/-! ## Models that see commands and answers -/

/-- A model that is driven by the commands and by the answers the machine
really gave, and never looks at the machine's state, stays related to the
state along every run that returns. -/
theorem run_tracks (relates : State → Model → Prop)
    (advance : Model → Command × Answer → Model)
    (step : ∀ command state answer next model, relates state model →
      machine command state = some (answer, next) →
      relates next (advance model (command, answer)))
    {commands : List Command} {state last : State} (model : Model)
    {receipts : List (Command × Answer)} (start : relates state model)
    (ran : run machine commands state = some (receipts, last)) :
    relates last (receipts.foldl advance model) := by
  induction commands generalizing state model receipts with
  | nil => cases ran; exact start
  | cons command rest ih =>
      rcases (run_cons_eq_some_iff machine command rest state last receipts).mp ran with
        ⟨answer, middle, later, stepped, ranRest, rfl⟩
      rw [List.foldl_cons]
      exact ih _ (step command state answer middle model start stepped) ranRest

/-- What every returning step preserves holds at the end of every run. -/
theorem run_preserves {holds : State → Prop}
    (step : ∀ command state answer next, holds state →
      machine command state = some (answer, next) → holds next)
    {commands : List Command} {state last : State} {receipts : List (Command × Answer)}
    (start : holds state) (ran : run machine commands state = some (receipts, last)) :
    holds last :=
  run_tracks machine (fun state _ => holds state) (fun _ _ => ())
    (fun command state answer next _ => step command state answer next) () start ran

/-- Forward simulation: if related steps return, so does every run, and the
model stays related to it. -/
theorem run_simulates (relates : State → Model → Prop)
    (advance : Model → Command × Answer → Model)
    (step : ∀ command state model, relates state model →
      ∃ answer next, machine command state = some (answer, next) ∧
        relates next (advance model (command, answer)))
    (commands : List Command) {state : State} (model : Model) (start : relates state model) :
    ∃ receipts last, run machine commands state = some (receipts, last) ∧
      relates last (receipts.foldl advance model) := by
  induction commands generalizing state model with
  | nil => exact ⟨[], state, rfl, start⟩
  | cons command rest ih =>
      rcases step command state model start with ⟨answer, middle, stepped, related⟩
      rcases ih _ related with ⟨later, last, ranRest, final⟩
      exact ⟨(command, answer) :: later, last,
        (run_cons_eq_some_iff machine command rest state last _).mpr
          ⟨answer, middle, later, stepped, ranRest, rfl⟩, final⟩

/-- If an invariant makes every step return, every run returns. -/
theorem run_returns {holds : State → Prop}
    (step : ∀ command state, holds state →
      ∃ answer next, machine command state = some (answer, next) ∧ holds next)
    (commands : List Command) {state : State} (start : holds state) :
    ∃ receipts last, run machine commands state = some (receipts, last) ∧ holds last := by
  rcases run_simulates machine (fun state _ => holds state) (fun _ _ => ())
      (fun command state _ => step command state) commands () start with
    ⟨receipts, last, ran, final⟩
  exact ⟨receipts, last, ran, final⟩

/-- If every step of a machine, seen through a map of its states, is the step
of another machine, then so is every run, including the runs that do not
return. -/
theorem run_abstracts {State' : Type} {machine' : Machine Command Answer State'}
    (abstract : State → State')
    (step : ∀ command state,
      machine' command (abstract state) = (machine command state).map (Prod.map id abstract))
    (commands : List Command) (state : State) :
    run machine' commands (abstract state) =
      (run machine commands state).map (Prod.map id abstract) := by
  induction commands generalizing state with
  | nil => rfl
  | cons command rest ih =>
      rw [run, run, step command state]
      cases stepped : machine command state with
      | none => rfl
      | some outcome =>
          rcases outcome with ⟨answer, middle⟩
          simp only [Option.map_some, Option.bind_some, Prod.map_apply, id_eq]
          rw [ih middle]
          cases run machine rest middle <;> rfl

/-- Two machines that agree on every step from an invariant have the same
runs. -/
theorem run_congr {machine' : Machine Command Answer State} {holds : State → Prop}
    (agree : ∀ command state, holds state → machine' command state = machine command state)
    (step : ∀ command state answer next, holds state →
      machine command state = some (answer, next) → holds next)
    (commands : List Command) {state : State} (start : holds state) :
    run machine' commands state = run machine commands state := by
  induction commands generalizing state with
  | nil => rfl
  | cons command rest ih =>
      rw [run, run, agree command state start]
      cases stepped : machine command state with
      | none => rfl
      | some outcome =>
          rcases outcome with ⟨answer, middle⟩
          simp only [Option.bind_some]
          rw [ih (step command state answer middle start stepped)]

/-! ## States that others change, too -/

section Shared

variable {Other : Type}

/-- A machine whose commands are interleaved with changes that others make to
its state. -/
def shared (change : Other → State → State) : Machine (Command ⊕ Other) (Option Answer) State :=
  fun step state =>
    match step with
    | .inl command => (machine command state).map fun (answer, next) => (some answer, next)
    | .inr other => some (none, change other state)

/-- The commands among the steps. -/
def ownSteps (steps : List (Command ⊕ Other)) : List Command :=
  steps.filterMap Sum.getLeft?

/-- The changes of others among the steps. -/
def otherSteps (steps : List (Command ⊕ Other)) : List Other :=
  steps.filterMap Sum.getRight?

/-- The commands with their answers. -/
def ownReceipts (receipts : List ((Command ⊕ Other) × Option Answer)) : List (Command × Answer) :=
  receipts.filterMap fun receipt =>
    match receipt with
    | (.inl command, some answer) => some (command, answer)
    | _ => none

variable {change : Other → State → State}

/-- Through a map of the states that does not see the changes of others, a run
is the run of the machine's own commands. -/
theorem run_shared_own {State' : Type} {machine' : Machine Command Answer State'}
    (abstract : State → State')
    (step : ∀ command state,
      machine' command (abstract state) = (machine command state).map (Prod.map id abstract))
    (unseen : ∀ other state, abstract (change other state) = abstract state)
    (steps : List (Command ⊕ Other)) (state : State) :
    run machine' (ownSteps steps) (abstract state) =
      (run (shared machine change) steps state).map (Prod.map ownReceipts abstract) := by
  induction steps generalizing state with
  | nil => rfl
  | cons head rest ih =>
      cases head with
      | inl command =>
          have own : ownSteps (.inl command :: rest) = command :: ownSteps rest := rfl
          rw [own, run, run, step command state, shared]
          cases stepped : machine command state with
          | none => rfl
          | some outcome =>
              rcases outcome with ⟨answer, middle⟩
              simp only [Option.map_some, Option.bind_some, Prod.map_apply, id_eq]
              rw [ih middle]
              cases run (shared machine change) rest middle <;> rfl
      | inr other =>
          have skipped : ownSteps (.inr other :: rest) = ownSteps rest := rfl
          rw [skipped, ← unseen other state, ih (change other state), run, shared]
          simp only [Option.bind_some]
          cases run (shared machine change) rest (change other state) <;> rfl

/-- A view of the state that the machine leaves alone is, after a run, what the
changes of others made of it. -/
theorem run_shared_others (view : State → View) (changeView : Other → View → View)
    (changes : ∀ other state, view (change other state) = changeView other (view state))
    (frame : ∀ command state answer next, machine command state = some (answer, next) →
      view next = view state)
    {steps : List (Command ⊕ Other)} {state last : State}
    {receipts : List ((Command ⊕ Other) × Option Answer)}
    (ran : run (shared machine change) steps state = some (receipts, last)) :
    view last =
      (otherSteps steps).foldl (fun seen other => changeView other seen) (view state) := by
  induction steps generalizing state receipts with
  | nil => cases ran; rfl
  | cons head rest ih =>
      rcases (run_cons_eq_some_iff _ head rest state last receipts).mp ran with
        ⟨answer, middle, later, stepped, ranRest, _⟩
      cases head with
      | inl command =>
          have skipped : otherSteps (.inl command :: rest) = otherSteps rest := rfl
          rcases Option.map_eq_some_iff.mp stepped with ⟨⟨own, next⟩, returned, same⟩
          cases same
          rw [skipped, ← frame command state own middle returned]
          exact ih ranRest
      | inr other =>
          have taken : otherSteps (.inr other :: rest) = other :: otherSteps rest := rfl
          cases stepped
          rw [taken, List.foldl_cons, ← changes]
          exact ih ranRest

end Shared

/-! ## Components that share a machine -/

/-- A machine is local when each command belongs to at most one component,
leaves the view of every other component alone, and changes the view of its
own component in a way that depends on that view only. -/
structure Local (owner : Command → Option Component) (view : Component → State → View) :
    Prop where
  frame : ∀ {command state answer next component}, owner command ≠ some component →
    machine command state = some (answer, next) → view component next = view component state
  own : ∀ {command component state state' answer answer' next next'},
    owner command = some component → view component state = view component state' →
    machine command state = some (answer, next) →
    machine command state' = some (answer', next') → view component next = view component next'

variable [DecidableEq Component] {machine}
  {owner : Command → Option Component} {view : Component → State → View}

/-- The commands of one component, in the order in which they were issued. -/
def ownedBy (owner : Command → Option Component) (component : Component)
    (commands : List Command) : List Command :=
  commands.filter fun command => owner command = some component

/-- A component cannot tell a run from the run of its own commands alone. -/
theorem Local.run_projection (isLocal : Local machine owner view) (component : Component)
    {commands : List Command} {state state' last last' : State}
    {receipts receipts' : List (Command × Answer)}
    (same : view component state = view component state')
    (ran : run machine commands state = some (receipts, last))
    (ranOwn : run machine (ownedBy owner component commands) state' = some (receipts', last')) :
    view component last = view component last' := by
  induction commands generalizing state state' receipts receipts' with
  | nil => cases ran; cases ranOwn; exact same
  | cons command rest ih =>
      rcases (run_cons_eq_some_iff machine command rest state last receipts).mp ran with
        ⟨answer, middle, later, stepped, ranRest, _⟩
      by_cases owned : owner command = some component
      · have keep : ownedBy owner component (command :: rest) =
            command :: ownedBy owner component rest := by
          simp [ownedBy, owned]
        rw [keep] at ranOwn
        rcases (run_cons_eq_some_iff machine command _ state' last' receipts').mp ranOwn with
          ⟨answer', middle', later', stepped', ranRest', _⟩
        exact ih (isLocal.own owned same stepped stepped') ranRest ranRest'
      · have skip : ownedBy owner component (command :: rest) =
            ownedBy owner component rest := by
          simp [ownedBy, owned]
        rw [skip] at ranOwn
        exact ih ((isLocal.frame owned stepped).trans same) ranRest ranOwn

/-- Two interleavings of the same per-component command sequences give every
component the same view.  The run of the component's own commands is the
common reference; an invariant that makes steps return provides it. -/
theorem Local.run_interleaving (isLocal : Local machine owner view) (component : Component)
    {commands commands' : List Command} {state last last' : State}
    {receipts receipts' : List (Command × Answer)}
    (returns : ∃ own final,
      run machine (ownedBy owner component commands) state = some (own, final))
    (sameOrder : ownedBy owner component commands = ownedBy owner component commands')
    (ran : run machine commands state = some (receipts, last))
    (ran' : run machine commands' state = some (receipts', last')) :
    view component last = view component last' := by
  rcases returns with ⟨own, final, ranOwn⟩
  have first := isLocal.run_projection component rfl ran ranOwn
  have second := isLocal.run_projection component rfl ran' (sameOrder ▸ ranOwn)
  exact first.trans second.symm

end Machine

end Foundation
end IpciBlockchain
