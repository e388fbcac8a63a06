import Mathlib.Data.List.Forall2

/-! Machines that take one input at a time.

A `Machine` reads an input, makes an observation and moves. A run is a list of
inputs; `steps` lists what happens in it, each step with the state it starts
from and the state it ends in, so that a property of a whole run is a property
of its steps. The two rules are the induction every run needs: an invariant that
each step keeps holds at every step (`steps_forall`), and where a property of a
step is equivalent to a guard on it, and the guard keeps the invariant, the
property holds throughout a run exactly when the guard does (`steps_iff`). -/
namespace EndpointSecurity.Library

/-- A deterministic machine: from a state and an input, an observation and the
next state. -/
structure Machine (ι ο σ : Type) where
  step : σ → ι → ο × σ

namespace Machine

/-- One step of a run, with its two ends. -/
structure Step (ι ο σ : Type) where
  before : σ
  input : ι
  output : ο
  after : σ

variable {ι ο σ : Type} (M : Machine ι ο σ)

def run (s : σ) : List ι → σ
  | [] => s
  | i :: rest => run (M.step s i).2 rest

/-- The step the machine takes from `s` on `i`. -/
def stepAt (s : σ) (i : ι) : Step ι ο σ := ⟨s, i, (M.step s i).1, (M.step s i).2⟩

def steps (s : σ) : List ι → List (Step ι ο σ)
  | [] => []
  | i :: rest => M.stepAt s i :: steps (M.step s i).2 rest

@[simp] theorem run_nil (s : σ) : M.run s [] = s := rfl

@[simp] theorem run_cons (s : σ) (i : ι) (rest : List ι) :
    M.run s (i :: rest) = M.run (M.step s i).2 rest := rfl

@[simp] theorem steps_nil (s : σ) : M.steps s [] = [] := rfl

@[simp] theorem steps_cons (s : σ) (i : ι) (rest : List ι) :
    M.steps s (i :: rest) = M.stepAt s i :: M.steps (M.step s i).2 rest := rfl

theorem run_append (s : σ) (a b : List ι) : M.run s (a ++ b) = M.run (M.run s a) b := by
  induction a generalizing s with
  | nil => rfl
  | cons i rest ih => exact ih _

theorem steps_append (s : σ) (a b : List ι) :
    M.steps s (a ++ b) = M.steps s a ++ M.steps (M.run s a) b := by
  induction a generalizing s with
  | nil => rfl
  | cons i rest ih => simp only [List.cons_append, steps_cons, run_cons, ih]

/-- A run takes its inputs one by one, each once. -/
theorem steps_input (s : σ) (inputs : List ι) : (M.steps s inputs).map (·.input) = inputs := by
  induction inputs generalizing s with
  | nil => rfl
  | cons i rest ih => rw [steps_cons, List.map_cons, ih]; rfl

/-- A step of a run is taken from the state some prefix of its inputs reaches. -/
theorem mem_steps {s : σ} {inputs : List ι} {t : Step ι ο σ} (h : t ∈ M.steps s inputs) :
    ∃ done i rest, inputs = done ++ i :: rest ∧ t = M.stepAt (M.run s done) i := by
  induction inputs generalizing s with
  | nil => simp at h
  | cons i rest ih =>
    rcases List.mem_cons.mp h with rfl | h
    · exact ⟨[], i, rest, rfl, rfl⟩
    · obtain ⟨done, j, later, rfl, ht⟩ := ih h
      exact ⟨i :: done, j, later, rfl, ht⟩

section Rules
variable {M} {Inv : σ → Prop}

/-- An invariant kept by every step holds where a run ends. -/
theorem run_invariant (hstep : ∀ s i, Inv s → Inv (M.step s i).2) {s : σ} (hs : Inv s)
    (inputs : List ι) : Inv (M.run s inputs) := by
  induction inputs generalizing s with
  | nil => exact hs
  | cons i rest ih => exact ih (hstep s i hs)

/-- What an invariant gives for one step, every step of a run has. -/
theorem steps_forall {P : Step ι ο σ → Prop} (hstep : ∀ s i, Inv s → Inv (M.step s i).2)
    (hP : ∀ s i, Inv s → P (M.stepAt s i)) {s : σ} (hs : Inv s) (inputs : List ι) :
    ∀ t ∈ M.steps s inputs, P t := by
  intro t ht
  obtain ⟨done, i, rest, _, rfl⟩ := M.mem_steps ht
  exact hP _ i (run_invariant hstep hs done)

/-- Two readings of some steps of a run agree item by item if they do at each of these. -/
theorem steps_forall₂ {α β : Type} {R : α → β → Prop} {f : Step ι ο σ → List α} {g : Step ι ο σ → List β}
    {p : Step ι ο σ → Bool} (hstep : ∀ s i, Inv s → Inv (M.step s i).2)
    (hR : ∀ s i, Inv s → p (M.stepAt s i) = true → List.Forall₂ R (f (M.stepAt s i)) (g (M.stepAt s i)))
    {s : σ} (hs : Inv s) (inputs : List ι) :
    List.Forall₂ R (((M.steps s inputs).filter p).flatMap f) (((M.steps s inputs).filter p).flatMap g) := by
  induction inputs generalizing s with
  | nil => exact .nil
  | cons i rest ih =>
    rw [steps_cons, List.filter_cons]
    split
    · next hp =>
      rw [List.flatMap_cons, List.flatMap_cons]
      exact List.rel_append (hR s i hs hp) (ih (hstep s i hs))
    · exact ih (hstep s i hs)

/-- Where, under an invariant, a step is good exactly when its guard holds, and a
guarded step keeps the invariant, a run is good throughout exactly when it is
guarded throughout. -/
theorem steps_iff {P G : Step ι ο σ → Prop} (hstep : ∀ s i, Inv s → G (M.stepAt s i) → Inv (M.step s i).2)
    (hiff : ∀ s i, Inv s → (P (M.stepAt s i) ↔ G (M.stepAt s i))) {s : σ} (hs : Inv s)
    (inputs : List ι) : (∀ t ∈ M.steps s inputs, P t) ↔ ∀ t ∈ M.steps s inputs, G t := by
  induction inputs generalizing s with
  | nil => simp
  | cons i rest ih =>
    simp only [steps_cons, List.forall_mem_cons, hiff s i hs]
    constructor
    · rintro ⟨hg, hrest⟩
      exact ⟨hg, (ih (hstep s i hs hg)).mp hrest⟩
    · rintro ⟨hg, hrest⟩
      exact ⟨hg, (ih (hstep s i hs hg)).mpr hrest⟩

/-- Along a guarded run an invariant that every guarded step keeps gives what it
gives for one step. -/
theorem steps_of_guard {P G : Step ι ο σ → Prop}
    (hstep : ∀ s i, Inv s → G (M.stepAt s i) → P (M.stepAt s i) ∧ Inv (M.step s i).2) {s : σ}
    (hs : Inv s) (inputs : List ι) (hguard : ∀ t ∈ M.steps s inputs, G t) :
    ∀ t ∈ M.steps s inputs, P t := by
  induction inputs generalizing s with
  | nil => simp
  | cons i rest ih =>
    rw [steps_cons, List.forall_mem_cons] at hguard ⊢
    obtain ⟨hfirst, hrest⟩ := hguard
    obtain ⟨hp, hinv⟩ := hstep s i hs hfirst
    exact ⟨hp, ih hinv hrest⟩

/-- **Conservation.** Along every prefix of a run, what the machine holds at first and
takes in is what it gives out and holds at the end, exactly when each step conserves. -/
theorem prefixes_conserve_iff {α : Type} (contents : σ → List α) (taken given : Step ι ο σ → List α)
    (s : σ) (inputs : List ι) :
    (∀ done, done <+: inputs → contents s ++ (M.steps s done).flatMap taken =
        (M.steps s done).flatMap given ++ contents (M.run s done)) ↔
      ∀ t ∈ M.steps s inputs, contents t.before ++ taken t = given t ++ contents t.after := by
  refine ⟨fun h t ht => ?_, fun h done hdone => ?_⟩
  · obtain ⟨done, i, rest, rfl, rfl⟩ := M.mem_steps ht
    have hbefore := h done (List.prefix_append _ _)
    have hafter := h (done ++ [i]) ⟨rest, by rw [List.append_assoc]; rfl⟩
    rw [steps_append, run_append, List.flatMap_append, List.flatMap_append, ← List.append_assoc,
      hbefore, List.append_assoc, List.append_assoc] at hafter
    have hstep := List.append_cancel_left hafter
    simp only [steps_cons, steps_nil, List.flatMap_cons, List.flatMap_nil, List.append_nil] at hstep
    exact hstep
  · have hprefix : ∀ t ∈ M.steps s done, contents t.before ++ taken t = given t ++ contents t.after := by
      obtain ⟨rest, rfl⟩ := hdone
      intro t ht
      rw [steps_append] at h
      exact h t (List.mem_append_left _ ht)
    clear h hdone
    induction done generalizing s with
    | nil => simp
    | cons i done ih =>
      rw [steps_cons, List.forall_mem_cons] at hprefix
      obtain ⟨hfirst, hrest⟩ := hprefix
      have hlater := ih _ hrest
      simp only [steps_cons, List.flatMap_cons, run_cons, List.append_assoc]
      rw [← hlater, ← List.append_assoc, ← List.append_assoc]
      exact congrArg (· ++ _) hfirst

end Rules

end Machine

end EndpointSecurity.Library
