import EndpointSecurity.Library.IsolationKey
import EndpointSecurity.Library.Transaction

/-! The answers of transactions that run at the same time.

What a request answers, it answers to the table of a moment at which it had its turn,
and it has committed all its writes or none (`run_traced`). A script that is a program on
a connection (`Implements`) gives the program's answer to the table it read
(`Reads.answers`, `Reads.commits`), and a request that takes its turns alone is its
program (`alone`). -/
namespace EndpointSecurity.Library.Isolation
open Machine

/-! ### Answers -/

/-- What is left of a script after some steps, where `t` was read. -/
inductive Reads {ρ ε α : Type} (t : List ρ) : Script ρ ε α → Script ρ ε α → Prop
  | refl (s : Script ρ ε α) : Reads t s s
  | touch {s next : Script ρ ε α} (h : Reads t s (.touch next)) : Reads t s next
  | query {s : Script ρ ε α} {next : List ρ → Script ρ ε α} (h : Reads t s (.query next)) : Reads t s (next t)

/-- The end of a script that reads `t`: an answer, or writes and an answer. -/
def Script.leaf {ρ ε α : Type} (t : List ρ) : Script ρ ε α → Except ε α ⊕ (List (Write ρ ε) × α)
  | .answer result => .inl result
  | .touch next => next.leaf t
  | .query next => (next t).leaf t
  | .write writes a => .inr (writes, a)

theorem Reads.leaf_eq {ρ ε α : Type} {t : List ρ} {s rest : Script ρ ε α} (h : Reads t s rest) :
    s.leaf t = rest.leaf t := by
  induction h with
  | refl => rfl
  | touch h ih => exact ih
  | query h ih => exact ih

theorem Reads.to_leaf {ρ ε α : Type} {t : List ρ} {s rest : Script ρ ε α} (h : Reads t s rest) :
    Reads t s (match rest.leaf t with
      | .inl result => .answer result
      | .inr (writes, a) => .write writes a) := by
  induction rest with
  | answer result => exact h
  | touch next ih => exact ih h.touch
  | query next ih => exact ih t h.query
  | write writes a => exact h

/-- How a request came to be where it is: what it read was the table of a `past` moment, and
its answer is the answer to that. It has committed all its writes, or nothing. -/
def Traced {ρ ε α : Type} (past : List ρ → Prop) (s : Script ρ ε α) (own : List (Change ρ)) : Phase ρ ε α → Prop
  | .reading none rest => own = [] ∧ ∀ t, Reads t s rest
  | .reading (some t) rest => own = [] ∧ past t ∧ Reads t s rest
  | .writing d writes a => own = [] ∧ ∃ t before, past t ∧ Reads t s (.write (before ++ writes) a) ∧
      Made before ∧ d.change = changeOf before
  | .returned (.error _) => own = []
  | .returned (.ok a) => ∃ t, past t ∧ ((Reads t s (.answer (.ok a)) ∧ own = []) ∨
      ∃ writes, Reads t s (.write writes a) ∧ Made writes ∧ own = [changeOf writes])

section Answers
variable {ι ρ ε α : Type} [DecidableEq ι] [DecidableEq ρ] {key : Setoid ρ} [DecidableRel key.r]
  {past past' : List ρ → Prop} {s : Script ρ ε α} {own : List (Change ρ)} {p : Phase ρ ε α}

omit [DecidableEq ρ] in
theorem Traced.mono (h : Traced past s own p) (hpast : ∀ t, past t → past' t) : Traced past' s own p := by
  match p, h with
  | .reading none _, h => exact h
  | .reading (some t) _, ⟨hown, ht, hreads⟩ => exact ⟨hown, hpast t ht, hreads⟩
  | .writing _ _ _, ⟨hown, t, before, ht, hrest⟩ => exact ⟨hown, t, before, hpast t ht, hrest⟩
  | .returned (.error _), h => exact h
  | .returned (.ok _), ⟨t, ht, hrest⟩ => exact ⟨t, hpast t ht, hrest⟩

omit [DecidableEq ρ] in
theorem Traced.own_eq (h : Traced past s own p) (hp : ∀ result, p ≠ .returned result) : own = [] := by
  match p, h with
  | .reading none _, h => exact h.1
  | .reading (some _) _, h => exact h.1
  | .writing _ _ _, h => exact h.1
  | .returned result, _ => exact absurd rfl (hp result)

omit [DecidableEq ρ] in
/-- The table a reading request has seen, or any. -/
theorem Traced.reads {snapshot : Option (List ρ)} {rest : Script ρ ε α} (h : Traced past s own (.reading snapshot rest))
    {rows : List ρ} (hrows : past rows) : own = [] ∧ past (snapshot.getD rows) ∧ Reads (snapshot.getD rows) s rest := by
  cases snapshot with
  | none => exact ⟨h.1, hrows, h.2 rows⟩
  | some t => exact h

omit [DecidableEq ρ] in
/-- The writes a request has behind it. -/
theorem Traced.writes {d : Pending ρ} {writes : List (Write ρ ε)} {a : α} (h : Traced past s own p)
    (hp : p.Writes d writes a) {rows : List ρ} (hrows : past rows) :
    own = [] ∧ ∃ t before, past t ∧ Reads t s (.write (before ++ writes) a) ∧ Made before ∧
      d.change = changeOf before := by
  cases hp with
  | reading snapshot writes a =>
    obtain ⟨hown, ht, hreads⟩ := h.reads hrows
    exact ⟨hown, _, [], ht, hreads, List.forall_mem_nil _, rfl⟩
  | writing d writes a => exact h

theorem Turned.traced {w w' : World ι ρ ε α} {i : ι} (h : Turned key w i w') (hw : Traced past s (w.own i) (w.phase i))
    (hrows : past w.rows) : Traced past s (w'.own i) (w'.phase i) := by
  cases h with
  | still => exact hw
  | failed e h =>
    rw [World.move_self]
    exact hw.own_eq h
  | @answered snapshot result h =>
    rw [World.move_self]
    rw [h] at hw
    obtain ⟨hown, ht, hreads⟩ := hw.reads hrows
    cases result with
    | error e => exact hown
    | ok a => exact ⟨_, ht, .inl ⟨hreads, hown⟩⟩
  | @touched snapshot next h =>
    rw [World.move_self]
    rw [h] at hw
    cases snapshot with
    | none => exact ⟨hw.1, fun t => (hw.2 t).touch⟩
    | some t => exact ⟨hw.1, hw.2.1, hw.2.2.touch⟩
  | queried h =>
    rw [World.move_self]
    rw [h] at hw
    obtain ⟨hown, ht, hreads⟩ := hw.reads hrows
    exact ⟨hown, ht, hreads.query⟩
  | @wrote d x rest a after h hfree happly =>
    rw [World.move_self]
    obtain ⟨hown, t, before, ht, hreads, hmade, hchange⟩ := hw.writes h hrows
    rw [List.append_cons] at hreads
    have hx : ∀ e, x ≠ .refuse e := by
      rintro e rfl
      cases happly
    have hmade' : Made (before ++ [x]) := List.forall_mem_append.mpr ⟨hmade, List.forall_mem_singleton.mpr hx⟩
    refine ⟨hown, t, before ++ [x], ht, hreads, hmade', ?_⟩
    show x.change d.change = _
    rw [hchange, changeOf, changeOf, List.foldl_append]
    rfl
  | @committed d a h =>
    obtain ⟨hown, t, before, ht, hreads, hmade, hchange⟩ := hw.writes h hrows
    rw [List.append_nil] at hreads
    show Traced past s ((w.commit i d a).own i) ((w.move i (.returned (.ok a))).phase i)
    rw [World.own_commit, World.move_self, hown, hchange]
    exact ⟨t, ht, .inr ⟨before, hreads, hmade, rfl⟩⟩

variable [Fintype ι] (key) (scripts : ι → Script ρ ε α) (rows : List ρ)

/-- The table before a turn of the request. -/
def Past (turns : List (Turn ι ε)) (i : ι) (t : List ρ) : Prop :=
  ∃ before fault after, turns = before ++ ⟨i, fault⟩ :: after ∧
    t = ((requests key).run (.initial scripts rows) before).rows

/-- **What a request answers, it answers to the table of a moment at which it had its turn**,
and it has committed everything or nothing. -/
theorem run_traced (turns : List (Turn ι ε)) (i : ι) :
    let w := (requests key).run (.initial scripts rows) turns
    Traced (Past key scripts rows turns i) (scripts i) (w.own i) (w.phase i) := by
  induction turns using List.reverseRecOn with
  | nil => exact ⟨rfl, fun t => .refl (scripts i)⟩
  | append_singleton turns turn ih =>
    dsimp only at ih ⊢
    have hmono : ∀ t, Past key scripts rows turns i t → Past key scripts rows (turns ++ [turn]) i t := by
      rintro t ⟨before, fault, after, rfl, rfl⟩
      exact ⟨before, fault, after ++ [turn], by rw [List.append_assoc]; rfl, rfl⟩
    have hturn : Turned key ((requests key).run (.initial scripts rows) turns) turn.who
        (takeTurn key ((requests key).run (.initial scripts rows) turns) turn) := takeTurn_turned _ turn
    have hrun : (requests key).run (.initial scripts rows) (turns ++ [turn]) =
        takeTurn key ((requests key).run (.initial scripts rows) turns) turn := run_append ..
    rw [hrun]
    by_cases hi : i = turn.who
    · subst hi
      exact hturn.traced (ih.mono hmono) ⟨turns, turn.fault, [], rfl, rfl⟩
    · obtain ⟨hphase, hown⟩ := hturn.others hi
      rw [hphase, hown]
      exact ih.mono hmono

end Answers

/-! ### Programs on a connection -/

section Programs
variable {σ ρ ε α : Type} (key : Setoid ρ) [DecidableRel key.r] (rows : σ → List ρ)

/-- A program that makes these writes, commits and gives `a`. -/
inductive Performs : List (Write ρ ε) → α → Transaction σ ε α → Prop
  | commit (a : α) : Performs [] a (Transaction.commit >>= fun _ => pure a)
  | execute {x : Write ρ ε} {writes : List (Write ρ ε)} {a : α} {f : σ → Except ε σ} {k : Unit → Transaction σ ε α}
    (hf : ∀ t, (f t).map rows = x.apply key (rows t)) (h : Performs writes a (k ())) :
    Performs (x :: writes) a (Transaction.execute f >>= k)

/-- A program on a connection, to a store with these rows, that does what the script says. -/
inductive Implements : Script ρ ε α → Transaction σ ε α → Prop
  | answer (result : Except ε α) : Implements (.answer result) fun _ s => (result, s)
  | touch {next : Script ρ ε α} {k : Unit → Transaction σ ε α} (h : Implements next (k ())) :
    Implements (.touch next) (Transaction.touch >>= k)
  | fetch {β : Type} {b : β} {next : Script ρ ε α} {k : β → Transaction σ ε α} (h : Implements next (k b)) :
    Implements (.touch next) (Transaction.query (fun _ => .ok b) >>= k)
  | query {β : Type} {f : σ → Except ε β} {next : List ρ → Script ρ ε α} {k : β → Transaction σ ε α}
    (hok : ∀ t b, f t = .ok b → Implements (next (rows t)) (k b))
    (herror : ∀ t e, f t = .error e → next (rows t) = .answer (.error e)) :
    Implements (.query next) (Transaction.query f >>= k)
  | write {writes : List (Write ρ ε)} {a : α} {p : Transaction σ ε α} (h : Performs key rows writes a p) :
    Implements (.write writes a) p

end Programs

/-! ### A table that is all one's own -/

section Serial
variable {σ ρ ε α : Type} {key : Setoid ρ} [DecidableRel key.r] {rows : σ → List ρ}
open Transaction

/-- What is left of a script that read the store is what is left of its program. -/
theorem Reads.implemented {s rest : Script ρ ε α} {t : σ} (h : Reads (rows t) s rest) {p : Transaction σ ε α}
    (hp : Implements key rows s p) : ∃ q n, Implements key rows rest q ∧
      p answering (.start t) = q answering ⟨t, t, n, 0⟩ := by
  induction h with
  | refl => exact ⟨p, 0, hp, rfl⟩
  | @touch next h ih =>
    obtain ⟨q, n, hq, heq⟩ := ih
    rw [heq]
    cases hq with
    | touch hk => exact ⟨_, n + 1, hk, by rw [bind_apply, touch_apply rfl]; rfl⟩
    | fetch hk => exact ⟨_, n + 1, hk, by rw [bind_apply, query_apply _ rfl]; rfl⟩
  | @query next h ih =>
    obtain ⟨q, n, hq, heq⟩ := ih
    rw [heq]
    cases hq with
    | @query _ f _ k hok herror =>
      rw [bind_apply, query_apply _ rfl]
      cases hf : f t with
      | ok b => exact ⟨k b, n + 1, hok t b hf, rfl⟩
      | error e =>
        have hanswer : Implements key rows (next (rows t)) fun _ s => (.error e, s) := by
          rw [herror t e hf]
          exact .answer _
        exact ⟨_, n + 1, hanswer, rfl⟩

/-- Where the store that was read is the store, the answer is the program's. -/
theorem Reads.answers {s : Script ρ ε α} {t : σ} {result : Except ε α} (h : Reads (rows t) s (.answer result))
    {p : Transaction σ ε α} (hp : Implements key rows s p) : p.run answering t = ⟨result, t, 0⟩ := by
  obtain ⟨q, n, hq, heq⟩ := h.implemented hp
  unfold Transaction.run
  rw [heq]
  cases hq with
  | answer => rfl

/-- Insertions only add to a table. -/
theorem foldl_change_apply {writes : List (Write ρ ε)} (hinserts : ∀ x ∈ writes, x ≠ .deleteAll) (c : Change ρ)
    (base : List ρ) : ∃ added, (writes.foldl Write.change c).apply base = c.apply base ++ added := by
  induction writes generalizing c with
  | nil => exact ⟨[], (List.append_nil _).symm⟩
  | cons x rest ih =>
    obtain ⟨hx, hrest⟩ := List.forall_mem_cons.mp hinserts
    obtain ⟨added, hadded⟩ := ih hrest (x.change c)
    cases x with
    | insert row duplicate =>
      refine ⟨row :: added, ?_⟩
      rw [List.foldl_cons, hadded, List.append_cons]
      exact congrArg (· ++ added) (List.append_assoc ..).symm
    | deleteAll => exact absurd rfl hx
    | refuse e => exact ⟨added, hadded⟩

/-- Insertions that leave a table its key are not refused. -/
theorem Performs.inserts {writes : List (Write ρ ε)} {a : α} {p : Transaction σ ε α}
    (h : Performs key rows writes a p) (hmade : Made writes) (hinserts : ∀ x ∈ writes, x ≠ .deleteAll) (c : Change ρ)
    (base : List ρ) (hkeyed : ((writes.foldl Write.change c).apply base).Pairwise fun x y => ¬ key.r x y)
    (committed working : σ) (n : Nat) (hworking : rows working = c.apply base) :
    ∃ t' n', p answering ⟨committed, working, n, 0⟩ = (.ok a, ⟨t', t', n', 1⟩) ∧
      rows t' = (writes.foldl Write.change c).apply base := by
  induction h generalizing c working n with
  | commit a =>
    refine ⟨working, n + 1, ?_, hworking⟩
    rw [bind_apply, commit_apply rfl]
    rfl
  | @execute x rest a f k hf h ih =>
    obtain ⟨hx, hrest⟩ := List.forall_mem_cons.mp hinserts
    obtain ⟨hmadex, hmaderest⟩ := List.forall_mem_cons.mp hmade
    cases x with
    | deleteAll => exact absurd rfl hx
    | refuse e => exact absurd rfl (hmadex e)
    | insert row duplicate =>
      obtain ⟨added, hadded⟩ := foldl_change_apply hrest ((Write.insert row duplicate).change c) base
      have hnew : ∀ x ∈ c.apply base, ¬ key.r x row := by
        rw [List.foldl_cons, hadded] at hkeyed
        intro x hx
        have hboth : (c.apply base ++ [row]).Pairwise fun x y => ¬ key.r x y := by
          have hprefix := (List.pairwise_append.mp hkeyed).1
          rwa [Change.apply, Write.change, ← List.append_assoc] at hprefix
        exact (List.pairwise_append.mp hboth).2.2 x hx row (List.mem_singleton_self row)
      have happly := hf working
      have hinserted : (Write.insert row duplicate).apply key (c.apply base) = .ok (c.apply base ++ [row]) :=
        Write.insert_eq_ok.mpr ⟨hnew, rfl⟩
      rw [hworking, hinserted] at happly
      cases hfw : f working with
      | error e =>
        rw [hfw] at happly
        cases happly
      | ok working' =>
        rw [hfw] at happly
        have hworking' : rows working' = ((Write.insert row duplicate).change c).apply base := by
          rw [Except.ok.inj happly]
          exact List.append_assoc ..
        obtain ⟨t', n', heq, hrows⟩ := ih hmaderest hrest _ hkeyed working' (n + 1) hworking'
        refine ⟨t', n', ?_, hrows⟩
        rw [bind_apply, execute_apply _ rfl]
        simp only [hfw]
        exact heq

/-- **Writes that could be committed to the table that was read are made by the program**,
if all deletions come first. -/
theorem Reads.commits {s : Script ρ ε α} {t : σ} {writes : List (Write ρ ε)} {a : α}
    (h : Reads (rows t) s (.write writes a)) {p : Transaction σ ε α} (hp : Implements key rows s p)
    (hmade : Made writes) (hfirst : ∀ x ∈ writes.tail, x ≠ .deleteAll)
    (hkeyed : ((changeOf writes).apply (rows t)).Pairwise fun x y => ¬ key.r x y) :
    ∃ t', p.run answering t = ⟨.ok a, t', 1⟩ ∧ rows t' = (changeOf writes).apply (rows t) := by
  obtain ⟨q, n, hq, heq⟩ := h.implemented hp
  have hwritten : ∃ t' n', q answering ⟨t, t, n, 0⟩ = (.ok a, ⟨t', t', n', 1⟩) ∧
      rows t' = (changeOf writes).apply (rows t) := by
    cases hq with
    | write hperforms =>
      by_cases hsweeps : ∃ rest, writes = .deleteAll :: rest
      · obtain ⟨rest, rfl⟩ := hsweeps
        cases hperforms with
        | @execute _ _ _ f k hf hrest =>
          have happly := hf t
          cases hft : f t with
          | error e =>
            rw [hft] at happly
            cases happly
          | ok cleared =>
            rw [hft] at happly
            have hcleared : rows cleared = (Change.mk true []).apply (rows t) := Except.ok.inj happly
            rw [bind_apply, execute_apply _ rfl]
            simp only [hft]
            exact hrest.inserts (List.forall_mem_cons.mp hmade).2 hfirst _ _ hkeyed t cleared (n + 1) hcleared
      · have hinserts : ∀ x ∈ writes, x ≠ .deleteAll := by
          rintro x hx rfl
          cases writes with
          | nil => cases hx
          | cons y rest =>
            rcases List.mem_cons.mp hx with rfl | hx
            · exact hsweeps ⟨rest, rfl⟩
            · exact hfirst _ hx rfl
        exact hperforms.inserts hmade hinserts .none (rows t) hkeyed t t n (Change.none_apply _).symm
  obtain ⟨t', n', hq, hrows⟩ := hwritten
  refine ⟨t', ?_, hrows⟩
  unfold Transaction.run
  rw [heq, hq]

end Serial

/-! ### A request alone -/

section Free
variable {ι ρ ε α : Type} {i : ι}

/-- Nobody else has changes that are not committed. -/
def World.Free (w : World ι ρ ε α) (i : ι) : Prop := ∀ j, j ≠ i → w.pending j = .none

theorem World.Free.move [DecidableEq ι] {w : World ι ρ ε α} (h : w.Free i) (p : Phase ρ ε α) : (w.move i p).Free i := by
  intro j hj
  rw [World.move_pending, Function.update_of_ne hj]
  exact h j hj

theorem World.Free.not_waits {key : Setoid ρ} {w : World ι ρ ε α} (h : w.Free i) (x : Write ρ ε) : ¬ w.Waits key i x := by
  rintro ⟨j, hj, hblocks⟩
  have hnone : (w.phase j).pending = .none := h j hj
  rw [hnone] at hblocks
  exact Pending.not_blocks_none hblocks

theorem raise_writes [DecidableEq ι] {w : World ι ρ ε α} {d : Pending ρ} {writes : List (Write ρ ε)} {a : α} {e : ε}
    (h : (w.phase i).Writes d writes a) : w.raise i e = w.move i (.returned (.error e)) := by
  unfold World.raise
  generalize w.phase i = p at h
  cases h <;> rfl

end Free

section Alone
variable {ι σ ρ ε α : Type} [DecidableEq ι] [Fintype ι] [DecidableEq ρ] {key : Setoid ρ} [DecidableRel key.r]
  {rows : σ → List ρ} {faults : Nat → Option ε} {i : ι}
open Transaction

/-- Turn after turn, from the `n`th step on, the request comes to a result and a table. -/
inductive Ends (key : Setoid ρ) [DecidableRel key.r] (faults : Nat → Option ε) (i : ι) :
    Nat → World ι ρ ε α → Except ε α → List ρ → Prop
  | returned {n : Nat} {w : World ι ρ ε α} {result : Except ε α} (h : w.phase i = .returned result) :
    Ends key faults i n w result w.rows
  | turn {n : Nat} {w : World ι ρ ε α} {result : Except ε α} {after : List ρ}
    (h : Ends key faults i (n + 1) (takeTurn key w ⟨i, faults n⟩) result after) : Ends key faults i n w result after

theorem Ends.run {n : Nat} {w : World ι ρ ε α} {result : Except ε α} {after : List ρ}
    (h : Ends key faults i n w result after) :
    ∃ m, let w' := (requests key).run w (turnsOf i ((List.range' n m).map faults))
      w'.phase i = .returned result ∧ w'.rows = after := by
  induction h with
  | returned h => exact ⟨0, h, rfl⟩
  | turn h ih =>
    obtain ⟨m, hm⟩ := ih
    exact ⟨m + 1, hm⟩

theorem Ends.of_eq {n : Nat} {w w' : World ι ρ ε α} {result : Except ε α} {after : List ρ}
    (hturn : takeTurn key w ⟨i, faults n⟩ = w') (h : Ends key faults i (n + 1) w' result after) :
    Ends key faults i n w result after := .turn (hturn ▸ h)

/-- A turn that raises ends it. -/
theorem Ends.raise {n : Nat} {w : World ι ρ ε α} {e : ε} (hfault : faults n = some e)
    (hraise : w.raise i e = w.move i (.returned (.error e))) : Ends key faults i n w (.error e) w.rows := by
  have hturn : takeTurn key w ⟨i, faults n⟩ = w.move i (.returned (.error e)) := by
    rw [hfault]
    exact hraise
  exact .of_eq hturn (.returned (World.move_self ..))

theorem proceed_writes {w : World ι ρ ε α} {d : Pending ρ} {writes : List (Write ρ ε)} {a : α}
    (h : (w.phase i).Writes d writes a) : w.proceed key i = w.perform key i d writes a := by
  unfold World.proceed
  generalize w.phase i = p at h
  cases h <;> rfl

theorem Performs.ends {writes : List (Write ρ ε)} {a : α} {p : Transaction σ ε α} (h : Performs key rows writes a p)
    {w : World ι ρ ε α} {d : Pending ρ} (hfree : w.Free i) (hfits : Fits key w.rows d)
    (hphase : (w.phase i).Writes d writes a) {s : Session σ} (hcommitted : rows s.committed = w.rows)
    (hworking : rows s.working = d.change.apply w.rows) :
    Ends key faults i s.steps w (p faults s).1 (rows (p faults s).2.committed) := by
  induction h generalizing w d s with
  | commit a =>
    cases hfault : faults s.steps with
    | some e =>
      rw [bind_apply, commit_raises hfault]
      exact hcommitted ▸ .raise hfault (raise_writes hphase)
    | none =>
      rw [bind_apply, commit_apply hfault]
      have hturn : takeTurn key w ⟨i, faults s.steps⟩ = w.commit i d a := by
        rw [hfault]
        exact proceed_writes hphase
      have hrows : rows s.working = (w.commit i d a).rows := hworking.trans hfits.view_eq.symm
      show Ends key faults i s.steps w (.ok a) (rows s.working)
      rw [hrows]
      exact .of_eq hturn (.returned (World.move_self w i (.returned (.ok a))))
  | @execute x rest a f k hf h ih =>
    cases hfault : faults s.steps with
    | some e =>
      rw [bind_apply, Transaction.execute, step_raises hfault]
      exact hcommitted ▸ .raise hfault (raise_writes hphase)
    | none =>
      rw [bind_apply, execute_apply _ hfault]
      have happly := hf s.working
      rw [hworking, ← hfits.view_eq] at happly
      cases hfw : f s.working with
      | error e =>
        rw [hfw] at happly
        have hturn : takeTurn key w ⟨i, faults s.steps⟩ = w.move i (.returned (.error e)) := by
          rw [hfault]
          show w.proceed key i = _
          rw [proceed_writes hphase, World.perform, if_neg (hfree.not_waits x), ← happly]
          rfl
        exact hcommitted ▸ .of_eq hturn (.returned (World.move_self ..))
      | ok working =>
        rw [hfw] at happly
        have hturn : takeTurn key w ⟨i, faults s.steps⟩ = w.move i (.writing (d.after w.rows x) rest a) := by
          rw [hfault]
          show w.proceed key i = _
          rw [proceed_writes hphase, World.perform, if_neg (hfree.not_waits x), ← happly]
          rfl
        have hphase' : ((w.move i (.writing (d.after w.rows x) rest a)).phase i).Writes (d.after w.rows x) rest a := by
          rw [World.move_self]
          exact .writing ..
        have hworking' : rows working = (d.after w.rows x).change.apply w.rows := by
          have happly' := happly.symm
          rw [hfits.view_eq] at happly'
          exact Write.apply_change happly'
        exact .of_eq hturn (ih (hfree.move _) (hfits.after happly.symm) hphase' (s := s.write working) hcommitted hworking')

theorem Implements.ends {script : Script ρ ε α} {p : Transaction σ ε α} (h : Implements key rows script p)
    {w : World ι ρ ε α} {snapshot : Option (List ρ)} (hfree : w.Free i)
    (hkeyed : w.rows.Pairwise fun x y => ¬ key.r x y) (hphase : w.phase i = .reading snapshot script)
    (hsnapshot : snapshot.getD w.rows = w.rows) {s : Session σ} (hcommitted : rows s.committed = w.rows)
    (hworking : s.working = s.committed) :
    Ends key faults i s.steps w (p faults s).1 (rows (p faults s).2.committed) := by
  induction h generalizing w snapshot s with
  | answer result =>
    have hturn : takeTurn key w ⟨i, faults s.steps⟩ = w.move i (.returned result) := by
      cases faults s.steps <;> simp only [takeTurn, World.proceed, World.raise, hphase]
    exact hcommitted ▸ .of_eq hturn (.returned (World.move_self ..))
  | @touch next k h ih =>
    cases hfault : faults s.steps with
    | some e =>
      rw [bind_apply, Transaction.touch, step_raises hfault]
      exact hcommitted ▸ .raise hfault (by simp only [World.raise, hphase])
    | none =>
      rw [bind_apply, touch_apply hfault]
      have hturn : takeTurn key w ⟨i, faults s.steps⟩ = w.move i (.reading snapshot next) := by
        simp only [takeTurn, hfault, World.proceed, hphase]
      exact .of_eq hturn (ih (hfree.move _) hkeyed (World.move_self ..) hsnapshot (s := s.tick) hcommitted hworking)
  | @fetch β b next k h ih =>
    cases hfault : faults s.steps with
    | some e =>
      rw [bind_apply, Transaction.query, step_raises hfault]
      exact hcommitted ▸ .raise hfault (by simp only [World.raise, hphase])
    | none =>
      rw [bind_apply, query_apply _ hfault]
      have hturn : takeTurn key w ⟨i, faults s.steps⟩ = w.move i (.reading snapshot next) := by
        simp only [takeTurn, hfault, World.proceed, hphase]
      exact .of_eq hturn (ih (hfree.move _) hkeyed (World.move_self ..) hsnapshot (s := s.tick) hcommitted hworking)
  | @query β f next k hok herror ih =>
    cases hfault : faults s.steps with
    | some e =>
      rw [bind_apply, Transaction.query, step_raises hfault]
      exact hcommitted ▸ .raise hfault (by simp only [World.raise, hphase])
    | none =>
      rw [bind_apply, query_apply _ hfault]
      have hturn : takeTurn key w ⟨i, faults s.steps⟩ =
          w.move i (.reading (some w.rows) (next (rows s.working))) := by
        simp only [takeTurn, hfault, World.proceed, hphase, hsnapshot, hworking, hcommitted]
      apply Ends.of_eq hturn
      cases hfs : f s.working with
      | ok b =>
        exact ih s.working b hfs (hfree.move _) hkeyed (World.move_self ..) rfl (s := s.tick) hcommitted hworking
      | error e =>
        have hanswer : takeTurn key (w.move i (.reading (some w.rows) (next (rows s.working)))) ⟨i, faults s.tick.steps⟩ =
            (w.move i (.reading (some w.rows) (next (rows s.working)))).move i (.returned (.error e)) := by
          cases faults s.tick.steps <;> simp only [takeTurn, World.proceed, World.raise, World.move_self, herror _ e hfs]
        have hends := Ends.of_eq hanswer (.returned (World.move_self ..))
        rw [World.move_rows, World.move_rows, ← hcommitted] at hends
        exact hcommitted ▸ hends
  | @write writes a p h =>
    have hphase' : (w.phase i).Writes .none writes a := by
      rw [hphase]
      exact .reading ..
    have hworking' : rows s.working = Change.none.apply w.rows := by
      rw [hworking, hcommitted, Change.none_apply]
    exact h.ends hfree (.none hkeyed) hphase' hcommitted hworking'

/-- **A request that takes its turns alone is its program on a connection.** -/
theorem alone {script : Script ρ ε α} {p : Transaction σ ε α} (h : Implements key rows script p) (w : World ι ρ ε α)
    (hfree : w.Free i) (hkeyed : w.rows.Pairwise fun x y => ¬ key.r x y) (hstart : w.phase i = .reading none script)
    (faults : Nat → Option ε) (t : σ) (ht : rows t = w.rows) :
    ∃ m, let w' := (requests key).run w (turnsOf i ((List.range m).map faults))
      w'.phase i = .returned (p.run faults t).result ∧ w'.rows = rows (p.run faults t).store := by
  have hends : Ends key faults i (Session.start t).steps w (p faults (.start t)).1 (rows (p faults (.start t)).2.committed) :=
    h.ends hfree hkeyed hstart rfl ht rfl
  obtain ⟨m, hm⟩ := hends.run
  rw [show (Session.start t).steps = 0 from rfl, ← List.range_eq_range'] at hm
  exact ⟨m, hm⟩

end Alone

end EndpointSecurity.Library.Isolation
