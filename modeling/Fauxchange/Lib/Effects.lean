import Mathlib.Order.Basic

/-! Computations that may stop with an error and keep the state they have reached, and what holds of every
path through one. -/

namespace Fauxchange.Lib

theorem except_bind_ok {ε α β : Type} {m : Except ε α} {next : α → Except ε β} {value : β}
    (result : (m >>= next) = .ok value) : ∃ first, m = .ok first ∧ next first = .ok value := by
  cases m with
  | error => cases result
  | ok first => exact ⟨first, rfl, result⟩

theorem except_of_toOption {ε α : Type} {m : Except ε α} {value : α} (result : m.toOption = some value) : m = .ok value := by
  cases m with
  | error => cases result
  | ok first => exact congrArg Except.ok (Option.some.inj result)

/-- A list of checks passes when each of them does. -/
theorem forM_ok_iff {ε α : Type} {check : α → Except ε PUnit} {items : List α} :
    items.forM check = .ok ⟨⟩ ↔ ∀ item ∈ items, check item = .ok ⟨⟩ := by
  induction items with
  | nil => exact ⟨fun _ _ member => (by cases member), fun _ => rfl⟩
  | cons item rest ih =>
    rw [List.forM_eq_forM, List.forM_cons, List.forall_mem_cons, ← ih, List.forM_eq_forM]
    cases check item with
    | error error => exact ⟨fun wrong => (by cases wrong), fun wrong => (by cases wrong.1)⟩
    | ok _ => exact ⟨fun later => ⟨rfl, later⟩, And.right⟩

/-- What each step of a fallible fold keeps, the fold keeps. -/
theorem foldlM_ok {ε σ α : Type} {step : σ → α → Except ε σ} {invariant : σ → Prop}
    (keeps : ∀ state item next, invariant state → step state item = .ok next → invariant next) {items : List α}
    {start final : σ} (initial : invariant start) (done : items.foldlM step start = .ok final) : invariant final := by
  induction items generalizing start with
  | nil =>
    cases done
    exact initial
  | cons item rest ih =>
    rw [List.foldlM_cons] at done
    obtain ⟨next, stepped, later⟩ := except_bind_ok done
    exact ih (keeps start item next initial stepped) later

abbrev Fallible (ε σ : Type) := ExceptT ε (StateM σ)

namespace Fallible
variable {ε σ α β : Type}

/-- The result with the state that is left behind, also after an error. -/
def exec (m : Fallible ε σ α) (state : σ) : Except ε α × σ := Id.run ((ExceptT.run m).run state)

/-- The computation given by a transition. -/
def transition (next : σ → Except ε α × σ) : Fallible ε σ α := ExceptT.mk (StateT.mk fun state => pure (next state))

@[simp] theorem exec_transition (next : σ → Except ε α × σ) (state : σ) : (transition next).exec state = next state := rfl

@[simp] theorem exec_pure (value : α) (state : σ) : exec (pure value : Fallible ε σ α) state = (.ok value, state) := rfl

@[simp] theorem exec_throw (error : ε) (state : σ) :
    exec (throw error : Fallible ε σ α) state = (.error error, state) := rfl

@[simp] theorem exec_get (state : σ) : exec (get : Fallible ε σ σ) state = (.ok state, state) := rfl

@[simp] theorem exec_modify (change : σ → σ) (state : σ) :
    exec (modify change : Fallible ε σ PUnit) state = (.ok ⟨⟩, change state) := rfl

theorem exec_bind (m : Fallible ε σ α) (next : α → Fallible ε σ β) (state : σ) :
    exec (m >>= next) state =
      match exec m state with
      | (.ok value, reached) => exec (next value) reached
      | (.error error, reached) => (.error error, reached) := by
  unfold exec ExceptT.run StateT.run Id.run
  simp only [bind, ExceptT.bind, ExceptT.mk, StateT.bind, ExceptT.bindCont]
  cases m state with
  | mk result reached => cases result <;> rfl

theorem exec_bind_ok {m : Fallible ε σ α} {next : α → Fallible ε σ β} {state reached : σ} {value : α}
    (first : exec m state = (.ok value, reached)) : exec (m >>= next) state = exec (next value) reached := by
  rw [exec_bind, first]

theorem exec_bind_error {m : Fallible ε σ α} {next : α → Fallible ε σ β} {state reached : σ} {error : ε}
    (first : exec m state = (.error error, reached)) : exec (m >>= next) state = (.error error, reached) := by
  rw [exec_bind, first]

/-- A computation that finishes has finished its first part. -/
theorem exec_bind_eq_ok {m : Fallible ε σ α} {next : α → Fallible ε σ β} {state reached : σ} {value : β}
    (finished : exec (m >>= next) state = (.ok value, reached)) :
    ∃ first middle, exec m state = (.ok first, middle) ∧ exec (next first) middle = (.ok value, reached) := by
  rw [exec_bind] at finished
  revert finished
  rcases exec m state with ⟨error | first, middle⟩
  · nofun
  · exact fun finished => ⟨first, middle, rfl, finished⟩

@[simp] theorem exec_get_bind (next : σ → Fallible ε σ β) (state : σ) :
    exec (get >>= next) state = exec (next state) state := exec_bind_ok rfl

@[simp] theorem exec_modify_bind (change : σ → σ) (next : PUnit → Fallible ε σ β) (state : σ) :
    exec (modify change >>= next) state = exec (next ⟨⟩) (change state) := exec_bind_ok rfl

/-- A relation between the start, the result and the end of every run of a computation. -/
def Ends (post : σ → Except ε α → σ → Prop) (m : Fallible ε σ α) : Prop :=
  ∀ state, post state (m.exec state).1 (m.exec state).2

section Rules
variable {holds : σ → Prop} {m other : Fallible ε σ α} {next : α → Fallible ε σ β}

/-- A property of the state that a computation does not lose, whether it finishes or not. -/
def Keeps (holds : σ → Prop) (m : Fallible ε σ α) : Prop := ∀ state, holds state → holds (m.exec state).2

theorem Keeps.pure {value : α} : Keeps holds (Pure.pure value : Fallible ε σ α) := fun _ held => held

theorem Keeps.throw {error : ε} : Keeps holds (MonadExcept.throw error : Fallible ε σ α) := fun _ held => held

theorem Keeps.transition {step : σ → Except ε α × σ} (kept : ∀ state, holds state → holds (step state).2) :
    Keeps holds (Fallible.transition step) := kept

theorem Keeps.modify {change : σ → σ} (kept : ∀ state, holds state → holds (change state)) :
    Keeps holds (MonadStateOf.modifyGet fun state => (⟨⟩, change state) : Fallible ε σ PUnit) := kept

theorem Keeps.bind (first : Keeps holds m) (rest : ∀ value, Keeps holds (next value)) : Keeps holds (m >>= next) := by
  intro state held
  have now := first state held
  rw [exec_bind]
  revert now
  rcases m.exec state with ⟨error | value, middle⟩
  · exact id
  · exact rest value middle

/-- A computation that reads the state first. -/
theorem Keeps.get {next : σ → Fallible ε σ β} (rest : ∀ seen, Keeps holds (next seen)) :
    Keeps holds (MonadState.get >>= next) :=
  Keeps.bind (fun _ held => held) rest

theorem Keeps.ite {condition : Prop} [Decidable condition] (yes : Keeps holds m) (no : Keeps holds other) :
    Keeps holds (if condition then m else other) := by
  split
  · exact yes
  · exact no

end Rules

end Fallible

end Fauxchange.Lib
