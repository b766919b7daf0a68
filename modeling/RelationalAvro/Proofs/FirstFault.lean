import RelationalAvro.Fault

/-!
# The first fault of a run of checks

A step that can be refused is described by two things: the faults it has, in the order in which it
meets them, and the value it gives where there are none. `firstFaultOr faults value` is the outcome
that belongs to such a description. Doing one step after another appends the faults, so the outcome
of a whole run is read off the descriptions of its steps, and a run over a list has the faults of
all its entries in order.

`run_mapM_firstFaultOr` is the form for steps that also pass a state on. The state is known through
its history only: `Follows history state` says which states can stand after a history, each entry
adds its `trace` to the history, and the value of an entry depends on the history before it.
-/

namespace RelationalAvro

variable {α β γ σ : Type}

/-- The first of the faults, or the value if there are none. -/
def firstFaultOr (faults : List Fault) (value : α) : Except Fault α :=
  match faults with
  | [] => .ok value
  | fault :: _ => .error fault

@[simp] theorem firstFaultOr_nil (value : α) : firstFaultOr [] value = .ok value := rfl

@[simp] theorem firstFaultOr_cons (fault : Fault) (faults : List Fault) (value : α) :
    firstFaultOr (fault :: faults) value = .error fault := rfl

/-- There is a value exactly if there are no faults. -/
theorem firstFaultOr_eq_ok_iff {faults : List Fault} {value result : α} :
    firstFaultOr faults value = .ok result ↔ faults = [] ∧ value = result := by
  cases faults <;> simp

/-- What ends in a fault ends in the first. -/
theorem firstFaultOr_eq_error_iff {faults : List Fault} {value : α} {fault : Fault} :
    firstFaultOr faults value = .error fault ↔ faults.head? = some fault := by
  cases faults <;> simp

/-- Two steps give a value if both do. -/
theorem bind_eq_ok_iff {outcome : Except Fault α} {f : α → Except Fault β} {result : β} :
    (outcome >>= f) = .ok result ↔ ∃ value, outcome = .ok value ∧ f value = .ok result := by
  cases outcome with
  | error fault => simp [Bind.bind, Except.bind]
  | ok value => simp [Bind.bind, Except.bind]

/-- The faults of the second step come after those of the first. -/
theorem firstFaultOr_bind {faults further : List Fault} {value : α} {f : α → Except Fault β}
    {result : β} (h : f value = firstFaultOr further result) :
    (firstFaultOr faults value >>= f) = firstFaultOr (faults ++ further) result := by
  cases faults with
  | nil => exact h
  | cons fault faults => rfl

/-- A second step without faults only changes the value. -/
theorem firstFaultOr_bind_ok {faults : List Fault} {value : α} {f : α → Except Fault β}
    {result : β} (h : f value = .ok result) :
    (firstFaultOr faults value >>= f) = firstFaultOr faults result := by
  cases faults with
  | nil => exact h
  | cons fault faults => rfl

/-- A check within a run that passes a state on leaves the state alone. -/
theorem run_firstFaultOr_bind {faults further : List Fault} {value : α} {state : σ}
    {f : α → StateT σ (Except Fault) β} {result : β × σ}
    (h : (f value).run state = firstFaultOr further result) :
    (liftM (firstFaultOr faults value) >>= f).run state =
      firstFaultOr (faults ++ further) result := by
  cases faults with
  | nil => exact h
  | cons fault faults => rfl

/-- A function of the value leaves the faults alone. -/
theorem map_firstFaultOr (faults : List Fault) (value : α) (f : α → β) :
    (firstFaultOr faults value).map f = firstFaultOr faults (f value) := by
  cases faults <;> rfl

/-- A run over a list has the faults of its entries in order. -/
theorem mapM_firstFaultOr {f : α → Except Fault β} {faults : α → List Fault} {value : α → β}
    (h : ∀ a, f a = firstFaultOr (faults a) (value a)) (list : List α) :
    list.mapM f = firstFaultOr (list.flatMap faults) (list.map value) := by
  induction list with
  | nil => rfl
  | cons a rest ih =>
    rw [List.mapM_cons, h a, List.flatMap_cons, List.map_cons]
    refine firstFaultOr_bind ?_
    rw [ih]
    exact firstFaultOr_bind_ok rfl

/-- A run that passes a state on: if each step keeps the state in step with the history, so does the
run, and each entry gets the value that belongs to the history before it. -/
theorem run_mapM_firstFaultOr (Follows : List γ → σ → Prop) (trace : α → List γ)
    {f : α → StateT σ (Except Fault) β} {faults : α → List Fault} {value : List γ → α → β}
    (step : ∀ history a state, Follows history state → ∃ next, Follows (history ++ trace a) next ∧
      (f a).run state = firstFaultOr (faults a) (value history a, next))
    (list : List α) {history : List γ} {state : σ} (h : Follows history state) :
    ∃ next, Follows (history ++ list.flatMap trace) next ∧
      (list.mapM f).run state = firstFaultOr (list.flatMap faults)
        (list.mapIdx fun i a => value (history ++ (list.take i).flatMap trace) a, next) := by
  -- one step describes the head and leaves a state that follows the longer history
  induction list generalizing history state with
  | nil => exact ⟨state, by simpa using h, rfl⟩
  | cons a rest ih =>
    obtain ⟨middle, hmiddle, hfirst⟩ := step history a state h
    obtain ⟨next, hnext, hrest⟩ := ih hmiddle
    refine ⟨next, by simpa using hnext, ?_⟩
    rw [List.mapM_cons, StateT.run_bind, hfirst, List.flatMap_cons]
    refine firstFaultOr_bind ?_
    rw [StateT.run_bind, hrest]
    refine firstFaultOr_bind_ok ?_
    simp only [List.mapIdx_cons, List.take_zero, List.flatMap_nil, List.append_nil,
      List.take_succ_cons, List.flatMap_cons, List.append_assoc]
    rfl

end RelationalAvro
