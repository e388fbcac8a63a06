import Mathlib.Data.List.Basic

/-! Programs against one database connection.

A connection works on its own copy of what is committed: statements move
`working`, `commit` publishes it, and what is not committed when the connection is
closed is gone. Every use of the database is one step, and a schedule says which
steps raise; so a program is run under every way the database can fail. `Ensures`
is what holds of a program's end, and its rules take a program apart step by step:
a step either raises, or has done what it does. -/
namespace EndpointSecurity.Library

/-- What a connection sees of a store: what is committed, what its transaction made
of it, and how many steps and commits it has behind it. -/
structure Session (σ : Type) where
  committed : σ
  working : σ
  steps : Nat
  commits : Nat

namespace Session
variable {σ : Type}

/-- A connection that was just opened. -/
def start (s : σ) : Session σ := ⟨s, s, 0, 0⟩

/-- A step behind it, nothing else changed. -/
def tick (s : Session σ) : Session σ := {s with steps := s.steps + 1}

/-- A step that moved the transaction to `w`. -/
def write (s : Session σ) (w : σ) : Session σ := {s.tick with working := w}

/-- A step that committed. -/
def publish (s : Session σ) : Session σ :=
  {s.tick with committed := s.working, commits := s.commits + 1}

end Session

/-- A program over a store `σ` that raises `ε` or gives an `α`, under a schedule of
the steps at which the database fails. -/
def Transaction (σ ε α : Type) : Type := (Nat → Option ε) → Session σ → Except ε α × Session σ

namespace Transaction
variable {σ ε α β : Type}

instance : Monad (Transaction σ ε) where
  pure a := fun _ s => (.ok a, s)
  bind p k := fun faults s =>
    match p faults s with
    | (.ok a, t) => k a faults t
    | (.error e, t) => (.error e, t)

/-- One step: it fails on schedule, or gives what `f` makes of the transaction. -/
def step (f : σ → Except ε (α × σ)) : Transaction σ ε α := fun faults s =>
  match faults s.steps with
  | some e => (.error e, s.tick)
  | none =>
    match f s.working with
    | .error e => (.error e, s.tick)
    | .ok (a, w) => (.ok a, s.write w)

/-- A step that only reads. -/
def query (f : σ → Except ε α) : Transaction σ ε α := step fun s => (f s).map fun a => (a, s)

/-- A step that only writes. -/
def execute (f : σ → Except ε σ) : Transaction σ ε Unit := step fun s => (f s).map fun w => ((), w)

/-- A step that can do nothing but fail. -/
def touch : Transaction σ ε Unit := step fun s => .ok ((), s)

/-- A commit that raises did not commit. -/
def commit : Transaction σ ε Unit := fun faults s =>
  match faults s.steps with
  | some e => (.error e, s.tick)
  | none => (.ok (), s.publish)

/-- What is left of a program once its connection is closed. -/
structure Outcome (σ ε α : Type) where
  result : Except ε α
  store : σ
  commits : Nat

/-- Open a connection, run the program, close the connection. -/
def run (p : Transaction σ ε α) (faults : Nat → Option ε) (s : σ) : Outcome σ ε α :=
  let end_ := p faults (.start s)
  ⟨end_.1, end_.2.committed, end_.2.commits⟩

/-! ### Rules -/

/-- `Q` holds of the result and the session a program ends with. -/
def Ensures (p : Transaction σ ε α) (faults : Nat → Option ε) (s : Session σ)
    (Q : Except ε α → Session σ → Prop) : Prop := Q (p faults s).1 (p faults s).2

variable {faults : Nat → Option ε} {s : Session σ} {Q : Except ε α → Session σ → Prop}

theorem ensures_bind {p : Transaction σ ε β} {k : β → Transaction σ ε α} :
    Ensures (p >>= k) faults s Q ↔ Ensures p faults s fun r t =>
      match r with
      | .ok b => Ensures (k b) faults t Q
      | .error e => Q (.error e) t := by
  show Q ((p >>= k) faults s).1 ((p >>= k) faults s).2 ↔ _
  have hbind : (p >>= k) faults s = match p faults s with
    | (.ok b, t) => k b faults t
    | (.error e, t) => (.error e, t) := rfl
  rw [hbind]
  unfold Ensures
  split <;> rename_i h <;> rw [h]

theorem ensures_ite {c : Prop} [Decidable c] {p q : Transaction σ ε α}
    (hp : c → Ensures p faults s Q) (hq : ¬ c → Ensures q faults s Q) :
    Ensures (if c then p else q) faults s Q := by
  split
  · exact hp ‹_›
  · exact hq ‹_›

theorem ensures_step {f : σ → Except ε (β × σ)} {k : β → Transaction σ ε α}
    (hraise : ∀ e, Q (.error e) s.tick)
    (hdone : ∀ b w, f s.working = .ok (b, w) → Ensures (k b) faults (s.write w) Q) :
    Ensures (step f >>= k) faults s Q := by
  rw [ensures_bind]
  unfold Ensures step
  cases faults s.steps with
  | some e => exact hraise e
  | none =>
    cases h : f s.working with
    | error e => exact hraise e
    | ok r => exact hdone r.1 r.2 h

/-- A read that raised, or gave what it reads. -/
theorem ensures_query {f : σ → Except ε β} {k : β → Transaction σ ε α}
    (hraise : ∀ e, Q (.error e) s.tick)
    (hdone : ∀ b, f s.working = .ok b → Ensures (k b) faults s.tick Q) :
    Ensures (query f >>= k) faults s Q := by
  apply ensures_step hraise
  intro b w h
  cases hf : f s.working with
  | error e => simp [hf, Except.map] at h
  | ok c =>
    simp only [hf, Except.map, Except.ok.injEq, Prod.mk.injEq] at h
    obtain ⟨rfl, rfl⟩ := h
    exact hdone c hf

/-- A write that raised, or left what it writes. -/
theorem ensures_execute {f : σ → Except ε σ} {k : Unit → Transaction σ ε α}
    (hraise : ∀ e, Q (.error e) s.tick)
    (hdone : ∀ w, f s.working = .ok w → Ensures (k ()) faults (s.write w) Q) :
    Ensures (execute f >>= k) faults s Q := by
  apply ensures_step hraise
  intro b w h
  cases hf : f s.working with
  | error e => simp [hf, Except.map] at h
  | ok v =>
    simp only [hf, Except.map, Except.ok.injEq, Prod.mk.injEq] at h
    obtain ⟨-, rfl⟩ := h
    exact hdone v hf

theorem ensures_touch {k : Unit → Transaction σ ε α} (hraise : ∀ e, Q (.error e) s.tick)
    (hdone : Ensures (k ()) faults s.tick Q) : Ensures (touch >>= k) faults s Q := by
  apply ensures_step hraise
  intro b w h
  obtain ⟨-, rfl⟩ := Prod.mk.inj (Except.ok.inj h)
  exact hdone

/-- A commit that raised, or published. -/
theorem ensures_commit {k : Unit → Transaction σ ε α} (hraise : ∀ e, Q (.error e) s.tick)
    (hdone : Ensures (k ()) faults s.publish Q) : Ensures (commit >>= k) faults s Q := by
  rw [ensures_bind]
  unfold Ensures commit
  cases faults s.steps with
  | some e => exact hraise e
  | none => exact hdone

/-- What a program ensures of its session is seen once the connection is closed. -/
theorem run_ensures {p : Transaction σ ε α} {s : σ} {P : Outcome σ ε α → Prop}
    (h : Ensures p faults (.start s) fun r t => P ⟨r, t.committed, t.commits⟩) :
    P (p.run faults s) := h

/-! ### Which programs return -/

/-- The program does not raise. -/
def Returns (p : Transaction σ ε α) (faults : Nat → Option ε) (s : Session σ) : Prop :=
  ∃ a, (p faults s).1 = .ok a

theorem returns_pure (a : α) : Returns (pure a : Transaction σ ε α) faults s := ⟨a, rfl⟩

theorem returns_ite {c : Prop} [Decidable c] {p q : Transaction σ ε α} :
    Returns (if c then p else q) faults s ↔
      (c → Returns p faults s) ∧ (¬ c → Returns q faults s) := by
  by_cases hc : c <;> simp [hc]

theorem returns_bind {p : Transaction σ ε β} {k : β → Transaction σ ε α} :
    Returns (p >>= k) faults s ↔
      ∃ b, (p faults s).1 = .ok b ∧ Returns (k b) faults (p faults s).2 := by
  have hbind : (p >>= k) faults s = match p faults s with
    | (.ok b, t) => k b faults t
    | (.error e, t) => (.error e, t) := rfl
  unfold Returns
  rw [hbind]
  rcases p faults s with ⟨r, t⟩
  cases r <;> simp

theorem returns_step {f : σ → Except ε (β × σ)} {k : β → Transaction σ ε α} :
    Returns (step f >>= k) faults s ↔ faults s.steps = none ∧
      ∃ b w, f s.working = .ok (b, w) ∧ Returns (k b) faults (s.write w) := by
  rw [returns_bind]
  unfold step
  cases faults s.steps with
  | some e => simp
  | none =>
    cases f s.working with
    | error e => simp
    | ok r => simp [Prod.ext_iff]

/-- A read returns if the step does not fail and what it reads is there. -/
theorem returns_query {f : σ → Except ε β} {k : β → Transaction σ ε α} :
    Returns (query f >>= k) faults s ↔ faults s.steps = none ∧
      ∃ b, f s.working = .ok b ∧ Returns (k b) faults s.tick := by
  rw [query, returns_step]
  cases f s.working with
  | error e => simp [Except.map]
  | ok b =>
    simp only [Except.map, Except.ok.injEq, Prod.mk.injEq]
    exact and_congr_right fun _ =>
      ⟨fun ⟨_, _, ⟨rfl, rfl⟩, h⟩ => ⟨_, rfl, h⟩, fun ⟨_, rfl, h⟩ => ⟨_, _, ⟨rfl, rfl⟩, h⟩⟩

/-- A write returns if the step does not fail and can be made. -/
theorem returns_execute {f : σ → Except ε σ} {k : Unit → Transaction σ ε α} :
    Returns (execute f >>= k) faults s ↔ faults s.steps = none ∧
      ∃ w, f s.working = .ok w ∧ Returns (k ()) faults (s.write w) := by
  rw [execute, returns_step]
  cases f s.working with
  | error e => simp [Except.map]
  | ok v =>
    exact and_congr_right fun _ =>
      ⟨fun ⟨_, _, h, hk⟩ => by obtain ⟨-, rfl⟩ := Prod.mk.inj (Except.ok.inj h); exact ⟨_, rfl, hk⟩,
        fun ⟨_, h, hk⟩ => by obtain rfl := Except.ok.inj h; exact ⟨_, _, rfl, hk⟩⟩

theorem returns_touch {k : Unit → Transaction σ ε α} :
    Returns (touch >>= k) faults s ↔ faults s.steps = none ∧ Returns (k ()) faults s.tick := by
  rw [touch, returns_step]
  exact and_congr_right fun _ =>
    ⟨fun ⟨_, _, h, hk⟩ => by obtain ⟨rfl, rfl⟩ := Prod.mk.inj (Except.ok.inj h); exact hk,
      fun hk => ⟨_, _, rfl, hk⟩⟩

/-- A commit returns if the step does not fail. -/
theorem returns_commit {k : Unit → Transaction σ ε α} :
    Returns (commit >>= k) faults s ↔ faults s.steps = none ∧ Returns (k ()) faults s.publish := by
  rw [returns_bind]
  unfold commit
  cases faults s.steps with
  | some e => simp
  | none => exact ⟨fun ⟨_, _, h⟩ => ⟨rfl, h⟩, fun ⟨_, h⟩ => ⟨(), rfl, h⟩⟩

/-! ### A step that fails -/

theorem step_raises {f : σ → Except ε (α × σ)} {e : ε} (h : faults s.steps = some e) :
    step f faults s = (.error e, s.tick) := by
  unfold step
  rw [h]

theorem commit_raises {e : ε} (h : faults s.steps = some e) : commit faults s = (.error e, s.tick) := by
  unfold commit
  rw [h]

/-! ### A database that answers -/

section Answers
variable {s : Session σ}

/-- The schedule under which no step fails. -/
def answering : Nat → Option ε := fun _ => none

@[simp] theorem bind_apply (p : Transaction σ ε β) (k : β → Transaction σ ε α) :
    (p >>= k) faults s = match p faults s with
      | (.ok b, t) => k b faults t
      | (.error e, t) => (.error e, t) := rfl

@[simp] theorem pure_apply (a : α) : (pure a : Transaction σ ε α) faults s = (.ok a, s) := rfl

theorem query_apply (f : σ → Except ε α) (h : faults s.steps = none) :
    query f faults s = (f s.working, s.tick) := by
  unfold query step
  rw [h]
  cases hf : f s.working with
  | error e => simp only [Except.map, hf]
  | ok a => simp only [Except.map, hf]; rfl

theorem execute_apply (f : σ → Except ε σ) (h : faults s.steps = none) :
    execute f faults s = match f s.working with
      | .ok w => (.ok (), s.write w)
      | .error e => (.error e, s.tick) := by
  unfold execute step
  rw [h]
  cases hf : f s.working <;> simp [Except.map, hf]

theorem touch_apply (h : faults s.steps = none) : touch faults s = (.ok (), s.tick) := by
  unfold touch step
  rw [h]
  rfl

theorem commit_apply (h : faults s.steps = none) : commit faults s = (.ok (), s.publish) := by
  unfold commit
  rw [h]

end Answers

end Transaction

end EndpointSecurity.Library
