import EndpointSecurity.Library.Isolation

/-! The table under transactions that run at the same time.

The table keeps its key, and so would every commit at any moment (`Coherent`). So a
commit does to the table of its moment what its writes, made at earlier moments, would do
at once, and the table is what the commits make of it one after the other
(`run_effects`). -/
namespace EndpointSecurity.Library.Isolation
open Machine

/-! ### The key -/

/-- Changes that could be committed to the table; rows were deleted if all of them were. -/
structure Fits {ρ : Type} (key : Setoid ρ) (rows : List ρ) (d : Pending ρ) : Prop where
  distinct : (d.change.apply rows).Pairwise fun x y => ¬ key.r x y
  deleted : d.deleted = if d.change.swept then rows else []

/-- Changes that two requests can have at once. -/
structure Compatible {ρ : Type} (key : Setoid ρ) (rows : List ρ) (d d' : Pending ρ) : Prop where
  guarded : d.change.swept = true → d'.change.inserted = []
  guarded' : d'.change.swept = true → d.change.inserted = []
  bare : d.change.swept = true → d'.change.swept = true → rows = []
  apart : ∀ x ∈ d.change.inserted, ∀ y ∈ d'.change.inserted, ¬ key.r x y

/-- The table has its key, and each request could commit. -/
structure Coherent {ι ρ : Type} (key : Setoid ρ) (rows : List ρ) (pending : ι → Pending ρ) : Prop where
  keyed : rows.Pairwise fun x y => ¬ key.r x y
  fits : ∀ i, Fits key rows (pending i)
  compatible : ∀ i j, i ≠ j → Compatible key rows (pending i) (pending j)

section Key
variable {ρ ε : Type} {key : Setoid ρ} {rows rows' : List ρ} {d d' : Pending ρ}

theorem Fits.view_eq [DecidableEq ρ] (h : Fits key rows d) : d.view rows = d.change.apply rows := by
  unfold Pending.view Change.apply
  rw [h.deleted]
  cases d.change.swept with
  | true => simp
  | false => simp

theorem Fits.none (h : rows.Pairwise fun x y => ¬ key.r x y) : Fits key rows .none where
  distinct := by rwa [Pending.none, Change.none_apply]
  deleted := rfl

theorem Compatible.none (d : Pending ρ) : Compatible key rows .none d where
  guarded hswept := by cases hswept
  guarded' _ := rfl
  bare hswept := by cases hswept
  apart x hx := by cases hx

theorem Compatible.symm (h : Compatible key rows d d') : Compatible key rows d' d where
  guarded := h.guarded'
  guarded' := h.guarded
  bare hd' hd := h.bare hd hd'
  apart x hx y hy hkey := h.apart y hy x hx (key.symm hkey)

section Written
variable [DecidableEq ρ]

theorem Fits.after [DecidableRel key.r] {x : Write ρ ε} (h : Fits key rows d)
    (happly : x.apply key (d.view rows) = .ok rows') :
    Fits key rows (d.after rows x) := by
  have hkeyed := Write.apply_keyed happly (h.view_eq ▸ h.distinct)
  rw [h.view_eq] at happly
  constructor
  · rw [Write.apply_change happly] at hkeyed
    exact hkeyed
  · cases x with
    | insert row duplicate => exact h.deleted
    | deleteAll => rfl
    | refuse e => cases happly

/-- A write that did not have to wait. -/
theorem Compatible.after [DecidableRel key.r] {x : Write ρ ε} (h : Compatible key rows d d')
    (hfits' : Fits key rows d') (happly : x.apply key (d.view rows) = .ok rows') (hfree : ¬ d'.Blocks key x) :
    Compatible key rows (d.after rows x) d' := by
  cases x with
  | insert row duplicate =>
    unfold Pending.Blocks at hfree
    push Not at hfree
    obtain ⟨hswept, hrow⟩ := hfree
    constructor
    · exact h.guarded
    · exact fun hswept' => absurd hswept' hswept
    · exact h.bare
    · intro x hx y hy
      rcases List.mem_append.mp hx with hx | hx
      · exact h.apart x hx y hy
      · rw [List.mem_singleton.mp hx]
        exact fun hkey => hrow y hy (key.symm hkey)
  | deleteAll =>
    unfold Pending.Blocks at hfree
    push Not at hfree
    obtain ⟨hdeleted, hinserted⟩ := hfree
    constructor
    · exact fun _ => hinserted
    · exact fun _ => rfl
    · intro _ hswept'
      have hrows := hfits'.deleted
      rw [hdeleted, if_pos hswept'] at hrows
      exact hrows.symm
    · intro x hx
      cases hx
  | refuse e => cases happly

/-- What a commit of some changes leaves, fits the changes of others. -/
theorem Fits.commit (h : Fits key rows d) (hfits' : Fits key rows d') (hcompatible : Compatible key rows d d') :
    Fits key (d.view rows) d' := by
  rw [h.view_eq]
  constructor
  · cases hswept' : d'.change.swept with
    | true =>
      have hdistinct := hfits'.distinct
      simp only [Change.apply, hswept', if_true] at hdistinct ⊢
      exact hdistinct
    | false =>
      have hd := h.distinct
      have hd' := hfits'.distinct
      simp only [Change.apply, hswept', Bool.false_eq_true, if_false] at hd' ⊢
      apply List.pairwise_append.mpr
      obtain ⟨-, hinserted', hrows⟩ := List.pairwise_append.mp hd'
      constructor
      · exact hd
      · constructor
        · exact hinserted'
        · intro x hx y hy
          rcases List.mem_append.mp hx with hx | hx
          · split at hx
            · cases hx
            · exact hrows x hx y hy
          · exact hcompatible.apart x hx y hy
  · rw [hfits'.deleted]
    cases hswept' : d'.change.swept with
    | true =>
      rw [if_pos rfl, if_pos rfl, Change.apply, hcompatible.guarded' hswept', List.append_nil]
      split
      · exact hcompatible.bare ‹_› hswept'
      · rfl
    | false => rfl

/-- Nothing is left to delete for two. -/
theorem Compatible.commit {c c' : Pending ρ} (h : Fits key rows d) (hc : Compatible key rows c c')
    (hd : Compatible key rows d c) : Compatible key (d.view rows) c c' where
  guarded := hc.guarded
  guarded' := hc.guarded'
  bare hswept hswept' := by
    rw [h.view_eq, Change.apply, hd.guarded' hswept, hc.bare hswept hswept', ite_self, List.append_nil]
  apart := hc.apart

end Written

section Requests
variable {ι : Type} [DecidableEq ι] {pending : ι → Pending ρ}

theorem Coherent.update (h : Coherent key rows pending) {i : ι} (hfits : Fits key rows d)
    (hcompatible : ∀ j, j ≠ i → Compatible key rows d (pending j)) :
    Coherent key rows (Function.update pending i d) where
  keyed := h.keyed
  fits j := by
    by_cases hj : j = i
    · obtain rfl := hj
      rw [Function.update_self]
      exact hfits
    · rw [Function.update_of_ne hj]
      exact h.fits j
  compatible j k hjk := by
    by_cases hj : j = i
    · obtain rfl := hj
      rw [Function.update_self, Function.update_of_ne (Ne.symm hjk)]
      exact hcompatible k (Ne.symm hjk)
    · rw [Function.update_of_ne hj]
      by_cases hk : k = i
      · obtain rfl := hk
        rw [Function.update_self]
        exact (hcompatible j hj).symm
      · rw [Function.update_of_ne hk]
        exact h.compatible j k hjk

theorem Coherent.drop (h : Coherent key rows pending) (i : ι) : Coherent key rows (Function.update pending i .none) :=
  h.update (.none h.keyed) fun j _ => .none (pending j)

theorem Coherent.commit [DecidableEq ρ] (h : Coherent key rows pending) (i : ι) :
    Coherent key ((pending i).view rows) (Function.update pending i .none) := by
  have hothers : Coherent key rows (Function.update pending i .none) := h.drop i
  have hi := h.fits i
  have hnone : ∀ j, Compatible key rows (pending i) (Function.update pending i .none j) := by
    intro j
    by_cases hj : j = i
    · rw [hj, Function.update_self]
      exact (Compatible.none _).symm
    · rw [Function.update_of_ne hj]
      exact h.compatible i j (Ne.symm hj)
  constructor
  · rw [hi.view_eq]
    exact hi.distinct
  · exact fun j => hi.commit (hothers.fits j) (hnone j)
  · exact fun j k hjk => .commit hi (hothers.compatible j k hjk) (hnone j)

end Requests

end Key

section Worlds
variable {ι ρ ε α : Type} [DecidableEq ι]

def World.pending (w : World ι ρ ε α) (i : ι) : Pending ρ := (w.phase i).pending

theorem World.move_pending (w : World ι ρ ε α) (i : ι) (p : Phase ρ ε α) :
    (w.move i p).pending = Function.update w.pending i p.pending := by
  funext j
  unfold World.pending
  by_cases hj : j = i
  · rw [hj, World.move_self, Function.update_self]
  · rw [World.move_other w hj, Function.update_of_ne hj]

theorem World.commit_pending [DecidableEq ρ] (w : World ι ρ ε α) (i : ι) (d : Pending ρ) (a : α) :
    (w.commit i d a).pending = Function.update w.pending i .none := w.move_pending i (.returned (.ok a))

variable {key : Setoid ρ}

def World.Coherent (key : Setoid ρ) (w : World ι ρ ε α) : Prop := Isolation.Coherent key w.rows w.pending

omit [DecidableEq ι] in
theorem World.initial_coherent (scripts : ι → Script ρ ε α) {rows : List ρ}
    (h : rows.Pairwise fun x y => ¬ key.r x y) : (World.initial scripts rows).Coherent key where
  keyed := h
  fits _ := .none h
  compatible _ _ _ := .none _

variable [DecidableEq ρ] [DecidableRel key.r]

/-- **A turn keeps the key.** -/
theorem Turned.coherent {w w' : World ι ρ ε α} {i : ι} (h : Turned key w i w') (hw : w.Coherent key) : w'.Coherent key := by
  have hdrop : Isolation.Coherent key w.rows (Function.update w.pending i .none) := Coherent.drop hw i
  have hmove : ∀ p : Phase ρ ε α, p.pending = .none → (w.move i p).Coherent key := by
    intro p hp
    unfold World.Coherent
    rw [World.move_pending, hp]
    exact hdrop
  cases h with
  | still => exact hw
  | failed e h => exact hmove _ rfl
  | answered h => exact hmove _ rfl
  | touched h => exact hmove _ rfl
  | queried h => exact hmove _ rfl
  | wrote h hfree happly =>
    obtain rfl : w.pending i = _ := h.pending_eq
    unfold World.Coherent
    rw [World.move_pending]
    apply Coherent.update hw
    · exact (hw.fits i).after happly
    · intro j hj
      have hfree' : ¬ (w.pending j).Blocks key _ := fun hblocks => hfree ⟨j, hj, hblocks⟩
      exact (hw.compatible i j (Ne.symm hj)).after (hw.fits j) happly hfree'
  | committed h =>
    obtain rfl : w.pending i = _ := h.pending_eq
    unfold World.Coherent
    rw [World.commit_pending]
    exact Coherent.commit hw i

end Worlds

/-! ### Commits -/

section Commits
variable {ι ρ ε α : Type} [DecidableEq ι] [DecidableEq ρ] {key : Setoid ρ} [DecidableRel key.r]

/-- The table after these commits, each of them made at once. -/
def replay (rows : List ρ) (commits : List (ι × Change ρ)) : List ρ :=
  commits.foldl (fun rows c => c.2.apply rows) rows

/-- What a request has committed. -/
def World.own (w : World ι ρ ε α) (i : ι) : List (Change ρ) := (w.commits.filter fun c => c.1 = i).map Prod.snd

theorem Turned.replays {w w' : World ι ρ ε α} {i : ι} (h : Turned key w i w') (hw : w.Coherent key) {rows : List ρ}
    (hrows : w.rows = replay rows w.commits) : w'.rows = replay rows w'.commits := by
  cases h with
  | still | failed | answered | touched | queried | wrote => exact hrows
  | committed h =>
    obtain rfl : w.pending i = _ := h.pending_eq
    have hview : (w.pending i).view w.rows = (w.pending i).change.apply w.rows := (hw.fits i).view_eq
    show (w.pending i).view w.rows = replay rows (w.commits ++ [(i, (w.pending i).change)])
    rw [hview, hrows, replay, replay, List.foldl_append]
    rfl

/-- **The table is what the commits make of it, one after the other**, each as if its writes
had been made at that moment. -/
theorem run_effects [Fintype ι] (scripts : ι → Script ρ ε α) {rows : List ρ}
    (hrows : rows.Pairwise fun x y => ¬ key.r x y) (turns : List (Turn ι ε)) :
    ((requests key).run (.initial scripts rows) turns).rows =
      replay rows ((requests key).run (.initial scripts rows) turns).commits := by
  have hkept : ∀ (w : World ι ρ ε α) (t : Turn ι ε), w.Coherent key ∧ w.rows = replay rows w.commits →
      (takeTurn key w t).Coherent key ∧ (takeTurn key w t).rows = replay rows (takeTurn key w t).commits :=
    fun w t hw => ⟨(takeTurn_turned w t).coherent hw.1, (takeTurn_turned w t).replays hw.1 hw.2⟩
  have hinitial : (World.initial scripts rows).Coherent key ∧
      (World.initial scripts rows).rows = replay rows (World.initial scripts rows).commits :=
    ⟨World.initial_coherent scripts hrows, rfl⟩
  exact (run_invariant (M := requests key) hkept hinitial turns).2

omit [DecidableEq ι] [DecidableEq ρ] in
/-- Insertions leave rows behind. -/
theorem replay_ne_nil {rows : List ρ} {commits : List (ι × Change ρ)} (hsome : commits ≠ [])
    (hinsert : ∀ c ∈ commits, c.2.inserted ≠ []) : replay rows commits ≠ [] := by
  obtain ⟨before, c, rfl⟩ := (List.eq_nil_or_concat' commits).resolve_left hsome
  have hc : c.2.inserted ≠ [] := hinsert c (List.mem_append_right _ (List.mem_singleton_self c))
  rw [replay, List.foldl_append]
  exact fun hnil => hc (List.append_eq_nil_iff.mp hnil).2

theorem Turned.others {w w' : World ι ρ ε α} {i j : ι} (h : Turned key w i w') (hj : j ≠ i) :
    w'.phase j = w.phase j ∧ w'.own j = w.own j := by
  cases h with
  | still => exact ⟨rfl, rfl⟩
  | failed | answered | touched | queried | wrote => exact ⟨World.move_other w hj _, rfl⟩
  | committed h =>
    constructor
    · exact Function.update_of_ne hj ..
    · show ((w.commits ++ [_]).filter _).map _ = _
      rw [List.filter_append, List.filter_singleton, decide_eq_false (Ne.symm hj)]
      exact congrArg _ (List.append_nil _)

omit [DecidableEq ρ] in
theorem World.mem_own {w : World ι ρ ε α} {c : ι × Change ρ} (h : c ∈ w.commits) : c.2 ∈ w.own c.1 :=
  List.mem_map.mpr ⟨c, List.mem_filter.mpr ⟨h, decide_eq_true rfl⟩, rfl⟩

theorem World.own_commit (w : World ι ρ ε α) (i : ι) (d : Pending ρ) (a : α) :
    (w.commit i d a).own i = w.own i ++ [d.change] := by
  show ((w.commits ++ [_]).filter _).map _ = _
  rw [List.filter_append, List.filter_singleton, decide_eq_true rfl, List.map_append]
  rfl

end Commits

end EndpointSecurity.Library.Isolation
