import EndpointSecurity.Library.Machine
import Mathlib.Logic.Function.Basic

/-! Machines put together.

`family` is machines side by side, an input moving the one it names; `into` is a
machine in front of another one that reads what the first does. Either way each
machine takes, one for one, the steps it would take alone on its own share of the
inputs (`family_steps`, `into_steps`), so what is proved of a machine holds of it
inside any composition and any interleaving. A `queue` gives out what was put into
it, first in, first out (`queue_conserves`), and a machine behind it that moves only
when it gives something takes the steps it takes on what comes out
(`optional_steps`). -/
namespace EndpointSecurity.Library.Machine
variable {κ ι ι' ο ο' σ τ : Type}

/-! ### Other inputs -/

/-- The machine behind a function on its inputs. -/
def comap (M : Machine ι ο σ) (f : ι' → ι) : Machine ι' ο σ := ⟨fun s i => M.step s (f i)⟩

def Step.mapInput (f : ι' → ι) (t : Step ι' ο σ) : Step ι ο σ := ⟨t.before, f t.input, t.output, t.after⟩

theorem comap_run (M : Machine ι ο σ) (f : ι' → ι) (s : σ) (inputs : List ι') :
    (M.comap f).run s inputs = M.run s (inputs.map f) := by
  induction inputs generalizing s with
  | nil => rfl
  | cons i rest ih => exact ih _

theorem comap_steps (M : Machine ι ο σ) (f : ι' → ι) (s : σ) (inputs : List ι') :
    ((M.comap f).steps s inputs).map (Step.mapInput f) = M.steps s (inputs.map f) := by
  induction inputs generalizing s with
  | nil => rfl
  | cons i rest ih =>
    rw [steps_cons, List.map_cons, ih]
    rfl

/-! ### Side by side -/

section Family
variable [DecidableEq κ] (M : κ → Machine ι ο σ)

/-- Machines side by side. -/
def family : Machine (κ × ι) ο (κ → σ) where
  step s i :=
    let r := (M i.1).step (s i.1) i.2
    (r.1, Function.update s i.1 r.2)

/-- The inputs of one of them. -/
def inputsOf (k : κ) (inputs : List (κ × ι)) : List ι :=
  inputs.filterMap fun i => if i.1 = k then some i.2 else none

/-- A step of one of them. -/
def stepOf (k : κ) (t : Step (κ × ι) ο (κ → σ)) : Option (Step ι ο σ) :=
  if t.input.1 = k then some ⟨t.before k, t.input.2, t.output, t.after k⟩ else none

theorem inputsOf_cons (k : κ) (i : κ × ι) (rest : List (κ × ι)) :
    inputsOf k (i :: rest) = (if i.1 = k then [i.2] else []) ++ inputsOf k rest := by
  unfold inputsOf
  by_cases h : i.1 = k <;> simp [h]

theorem inputsOf_map (k : κ) (f : ι' → ι) (inputs : List (κ × ι')) :
    inputsOf k (inputs.map (Prod.map id f)) = (inputsOf k inputs).map f := by
  induction inputs with
  | nil => rfl
  | cons i rest ih =>
    rw [List.map_cons, inputsOf_cons, inputsOf_cons, ih, List.map_append]
    by_cases h : i.1 = k <;> simp [h]

theorem family_step_other {k : κ} {i : κ × ι} (h : i.1 ≠ k) (s : κ → σ) :
    ((family M).step s i).2 k = s k := Function.update_of_ne (Ne.symm h) _ _

theorem family_step_self (i : κ × ι) (s : κ → σ) :
    ((family M).step s i).2 i.1 = ((M i.1).step (s i.1) i.2).2 := Function.update_self _ _ _

/-- **Whatever the interleaving, each machine takes the steps it takes alone.** -/
theorem family_steps (k : κ) (s : κ → σ) (inputs : List (κ × ι)) :
    ((family M).steps s inputs).filterMap (stepOf k) = (M k).steps (s k) (inputsOf k inputs) := by
  induction inputs generalizing s with
  | nil => rfl
  | cons i rest ih =>
    rw [steps_cons, List.filterMap_cons, ih, inputsOf_cons]
    by_cases h : i.1 = k
    · obtain rfl := h
      have hstep : stepOf i.1 ((family M).stepAt s i) = some ((M i.1).stepAt (s i.1) i.2) := by
        rw [stepOf, if_pos (show ((family M).stepAt s i).input.1 = i.1 from rfl)]
        show some (Step.mk (s i.1) i.2 _ (((family M).step s i).2 i.1)) = _
        rw [family_step_self]
        rfl
      rw [hstep, if_pos rfl, family_step_self]
      rfl
    · have hstep : stepOf k ((family M).stepAt s i) = none :=
        if_neg (show ¬ ((family M).stepAt s i).input.1 = k from h)
      rw [hstep, if_neg h, family_step_other M h]
      rfl

end Family

/-! ### One in front of the other -/

section Into
variable (M : Machine ι ο σ) (N : Machine (ι × ο) ο' τ)

/-- `N` behind `M`: it reads each input together with what `M` did on it. -/
def into : Machine ι (ο × ο') (σ × τ) where
  step s i :=
    let r := M.step s.1 i
    let q := N.step s.2 (i, r.1)
    ((r.1, q.1), (r.2, q.2))

/-- What the second machine reads. -/
def observed (ts : List (Step ι ο σ)) : List (ι × ο) := ts.map fun t => (t.input, t.output)

def Step.first (t : Step ι (ο × ο') (σ × τ)) : Step ι ο σ :=
  ⟨t.before.1, t.input, t.output.1, t.after.1⟩

def Step.second (t : Step ι (ο × ο') (σ × τ)) : Step (ι × ο) ο' τ :=
  ⟨t.before.2, (t.input, t.output.1), t.output.2, t.after.2⟩

theorem into_run (s : σ) (r : τ) (inputs : List ι) :
    (M.into N).run (s, r) inputs = (M.run s inputs, N.run r (observed (M.steps s inputs))) := by
  induction inputs generalizing s r with
  | nil => rfl
  | cons i rest ih => exact ih _ _

/-- **In front of the other, each machine takes the steps it takes alone.** -/
theorem into_steps (s : σ) (r : τ) (inputs : List ι) :
    ((M.into N).steps (s, r) inputs).map Step.first = M.steps s inputs ∧
      ((M.into N).steps (s, r) inputs).map Step.second = N.steps r (observed (M.steps s inputs)) := by
  induction inputs generalizing s r with
  | nil => exact ⟨rfl, rfl⟩
  | cons i rest ih =>
    obtain ⟨hfirst, hsecond⟩ := ih (M.step s i).2 (N.step r (i, (M.step s i).1)).2
    exact ⟨congrArg (M.stepAt s i :: ·) hfirst,
      congrArg (N.stepAt r (i, (M.step s i).1) :: ·) hsecond⟩

end Into

/-! ### Behind a queue -/

section Queue
variable {α δ : Type}

/-- A queue: items are put in, or the oldest one is taken out, if there is one. -/
def queue : Machine (List α ⊕ δ) (Option (α × δ)) (List α) where
  step q i :=
    match i, q with
    | .inl items, q => (none, q ++ items)
    | .inr _, [] => (none, [])
    | .inr d, x :: rest => (some (x, d), rest)

def putIn : List α ⊕ δ → List α
  | .inl items => items
  | .inr _ => []

/-- **First in, first out.** -/
theorem queue_conserves (q : List α) (inputs : List (List α ⊕ δ)) :
    q ++ inputs.flatMap putIn = ((queue.steps q inputs).filterMap Step.output).map Prod.fst ++ queue.run q inputs := by
  induction inputs generalizing q with
  | nil => exact List.append_nil q
  | cons i rest ih =>
    rw [steps_cons, run_cons, List.flatMap_cons]
    cases i with
    | inl items =>
      rw [← List.append_assoc]
      exact ih (q ++ items)
    | inr d =>
      cases q with
      | nil => exact ih []
      | cons x q => exact congrArg (x :: ·) (ih q)

/-- The machine where some inputs are missing. -/
def optional (M : Machine ι ο σ) : Machine (Option ι) (Option ο) σ where
  step s i :=
    match i with
    | none => (none, s)
    | some i => ((some (M.step s i).1), (M.step s i).2)

/-- The step of the machine itself, if it takes one. -/
def Step.taken (t : Step (Option ι) (Option ο) σ) : Option (Step ι ο σ) :=
  t.input.bind fun i => t.output.map fun o => ⟨t.before, i, o, t.after⟩

theorem optional_steps (M : Machine ι ο σ) (s : σ) (inputs : List (Option ι)) :
    (M.optional.steps s inputs).filterMap Step.taken = M.steps s (inputs.filterMap id) := by
  induction inputs generalizing s with
  | nil => rfl
  | cons i rest ih =>
    cases i with
    | none => exact ih s
    | some i => exact congrArg (M.stepAt s i :: ·) (ih (M.step s i).2)

theorem optional_run (M : Machine ι ο σ) (s : σ) (inputs : List (Option ι)) :
    M.optional.run s inputs = M.run s (inputs.filterMap id) := by
  induction inputs generalizing s with
  | nil => rfl
  | cons i rest ih =>
    cases i with
    | none => exact ih s
    | some i => exact ih (M.step s i).2

end Queue

end EndpointSecurity.Library.Machine
