import Mathlib.Init

/-! Runs of a partial step function, and conditions on the steps that they take. -/

namespace Fauxchange.Lib

variable {S A : Type} (step : S → A → Option S)

/-- The state after a list of actions, if each of them was enabled. -/
def runFrom : S → List A → Option S
  | state, [] => some state
  | state, action :: rest =>
    match step state action with
    | none => none
    | some next => runFrom next rest

/-- A condition holds of every action at the state it is taken in. -/
def Throughout (condition : S → A → Prop) : S → List A → Prop
  | _, [] => True
  | state, action :: rest =>
    condition state action ∧ ∀ next, step state action = some next → Throughout condition next rest

/-- Every action leads to a state with a property. -/
def Always (property : S → Prop) : S → List A → Prop :=
  Throughout step fun state action => ∀ next, step state action = some next → property next

variable {step} {condition : S → A → Prop} {invariant property : S → Prop}

theorem runFrom_cons {state final : S} {action : A} {rest : List A} (run : runFrom step state (action :: rest) = some final) :
    ∃ next, step state action = some next ∧ runFrom step next rest = some final := by
  unfold runFrom at run
  cases taken : step state action with
  | none => simp [taken] at run
  | some next =>
    simp only [taken] at run
    exact ⟨next, rfl, run⟩

/-- A condition that can be checked at one step can be checked along a run. -/
instance decidableThroughout [∀ state action, Decidable (condition state action)] :
    (state : S) → (actions : List A) → Decidable (Throughout step condition state actions)
  | _, [] => .isTrue trivial
  | state, action :: rest =>
    have later : Decidable (∀ next, step state action = some next → Throughout step condition next rest) :=
      match step state action with
      | none => .isTrue nofun
      | some next =>
        have := decidableThroughout next rest
        decidable_of_iff (Throughout step condition next rest) (by simp)
    inferInstanceAs (Decidable (_ ∧ _))

theorem Throughout.weaken {weaker : S → A → Prop} (implied : ∀ state action, condition state action → weaker state action)
    {state : S} {actions : List A} (allowed : Throughout step condition state actions) :
    Throughout step weaker state actions := by
  induction actions generalizing state with
  | nil => trivial
  | cons action rest ih => exact ⟨implied state action allowed.1, fun next taken => ih (allowed.2 next taken)⟩

/-- A condition on the actions alone. -/
theorem throughout_of_forall {allowed : A → Prop} {state : S} {actions : List A} (all : ∀ action ∈ actions, allowed action) :
    Throughout step (fun _ action => allowed action) state actions := by
  induction actions generalizing state with
  | nil => trivial
  | cons action rest ih =>
    obtain ⟨first, later⟩ := List.forall_mem_cons.1 all
    exact ⟨first, fun next _ => ih later⟩

/-- A property that the allowed steps preserve holds at the end of every run of them. -/
theorem runFrom_invariant
    (preserved : ∀ state action next, invariant state → condition state action → step state action = some next →
      invariant next)
    {state final : S} {actions : List A} (initially : invariant state) (allowed : Throughout step condition state actions)
    (run : runFrom step state actions = some final) : invariant final := by
  induction actions generalizing state with
  | nil =>
    cases run
    exact initially
  | cons action rest ih =>
    obtain ⟨next, taken, later⟩ := runFrom_cons run
    exact ih (preserved state action next initially allowed.1 taken) (allowed.2 next taken) later

/-- A property that every step preserves holds at the end of every run. -/
theorem runFrom_preserved
    (preserved : ∀ state action next, invariant state → step state action = some next → invariant next)
    {state final : S} {actions : List A} (initially : invariant state) (run : runFrom step state actions = some final) :
    invariant final := by
  induction actions generalizing state with
  | nil =>
    cases run
    exact initially
  | cons action rest ih =>
    obtain ⟨next, taken, later⟩ := runFrom_cons run
    exact ih (preserved state action next initially taken) later

/-- A property of a state and of the actions that have led to it. -/
theorem runFrom_history {property : List A → S → Prop}
    (preserved : ∀ done state action next, property done state → step state action = some next → property (done ++ [action]) next)
    {state final : S} {done actions : List A} (initially : property done state) (run : runFrom step state actions = some final) :
    property (done ++ actions) final := by
  induction actions generalizing done state with
  | nil =>
    cases run
    rw [List.append_nil]
    exact initially
  | cons action rest ih =>
    obtain ⟨next, taken, later⟩ := runFrom_cons run
    have further := ih (preserved done state action next initially taken) later
    rw [List.append_assoc] at further
    exact further

/-- Where the allowed steps are exactly those that keep a property, a run keeps it throughout exactly when all
its steps are allowed. -/
theorem always_iff_throughout (invariant : S → Prop)
    (preserved : ∀ state action next, invariant state → condition state action → step state action = some next →
      invariant next)
    (exact : ∀ state action, invariant state →
      ((∀ next, step state action = some next → property next) ↔ condition state action))
    {state : S} {actions : List A} (initially : invariant state) :
    Always step property state actions ↔ Throughout step condition state actions := by
  induction actions generalizing state with
  | nil => exact Iff.rfl
  | cons action rest ih =>
    refine and_congr_right_iff.2 ?_ |>.trans (and_congr_left fun _ => exact state action initially)
    intro good
    have allowed := (exact state action initially).1 good
    refine forall_congr' fun next => forall_congr' fun taken => ?_
    exact ih (preserved state action next initially allowed taken)

end Fauxchange.Lib
