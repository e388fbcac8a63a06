import EndpointSecurity.Library.Program
import Mathlib.Algebra.Order.Quantale
import Mathlib.Data.Finmap

/-! Separation logic for programs that allocate and free.

Assertions about a heap are a commutative quantale: `P * Q` splits the heap between
`P` and `Q`, `1` is the empty heap, `⨆` is an existential, `≤` is entailment. A `Triple`
holds next to whatever else is on the heap and does not touch it. An allocator may refuse
any request, and the refusals are counted: a triple is about runs in which requests may
have been denied, or about those in which none was, and `Triple.run` puts the two
together. -/
namespace EndpointSecurity.Library

abbrev Addr := Nat

abbrev Heap (β : Type) := Finmap fun _ : Addr => β

/-- The blocks that are allocated, how often the allocator was asked and how often it refused. -/
structure HeapState (β : Type) where
  blocks : Heap β
  requests : Nat
  refusals : Nat

/-- An allocator: whether it grants a request, and where. -/
structure Allocator (β : Type) where
  place : Nat → Heap β → β → Option Addr
  fresh : ∀ {n : Nat} {h : Heap β} {b : β} {a : Addr}, place n h b = some a → a ∉ h

variable {α β γ : Type}

/-! ### Programs -/

/-- A program on a heap: no refusal is ever taken back. -/
structure HeapProgram (β α : Type) where
  run : Program (HeapState β) α
  refusals_le : ∀ {m a t}, run m = .done a t → m.refusals ≤ t.refusals

namespace HeapProgram

instance : CoeFun (HeapProgram β α) fun _ => HeapState β → Outcome (HeapState β) α := ⟨run⟩

/-- A program that leaves the heap alone. -/
def quiet (p : Program (HeapState β) α) (h : Program.Quiet p) : HeapProgram β α :=
  ⟨p, fun {m a t} hdone => (congrArg HeapState.refusals (h m a t hdone)).ge⟩

instance : Monad (HeapProgram β) where
  pure a := quiet (pure a) (Program.quiet_pure a)
  bind p k := {
    run := p.run >>= fun a => (k a).run
    refusals_le := fun hdone =>
      have ⟨a, _, hp, hk⟩ := Program.bind_eq_done.mp hdone
      (p.refusals_le hp).trans ((k a).refusals_le hk) }

def wrong : HeapProgram β α := quiet Program.wrong Program.quiet_wrong

def fail : HeapProgram β α := quiet Program.fail Program.quiet_fail

def read : HeapProgram β (HeapState β) := quiet Program.read Program.quiet_read

theorem bind_eq_done {p : HeapProgram β α} {k : α → HeapProgram β γ} {m u : HeapState β} {c : γ} :
    (p >>= k) m = .done c u ↔ ∃ a t, p m = .done a t ∧ k a t = .done c u := Program.bind_eq_done

theorem bind_of_done {p : HeapProgram β α} {k : α → HeapProgram β γ} {m t : HeapState β} {a : α}
    (h : p m = .done a t) : (p >>= k) m = k a t := Program.bind_of_done h

end HeapProgram

def allocate (A : Allocator β) (b : β) : HeapProgram β (Option Addr) where
  run m :=
    match A.place m.requests m.blocks b with
    | none => .done none {m with requests := m.requests + 1, refusals := m.refusals + 1}
    | some a => .done (some a) {m with blocks := m.blocks.insert a b, requests := m.requests + 1}
  refusals_le := by
    intro m a t h
    split at h
    · obtain ⟨-, rfl⟩ := Outcome.done.inj h
      exact Nat.le_succ _
    · obtain ⟨-, rfl⟩ := Outcome.done.inj h
      exact le_rfl

def deref (a : Addr) : HeapProgram β β where
  run m :=
    match m.blocks.lookup a with
    | none => .wrong
    | some b => .done b m
  refusals_le := by
    intro m b t h
    split at h
    · cases h
    · obtain ⟨-, rfl⟩ := Outcome.done.inj h
      exact le_rfl

/-- One block is changed, if it is there. -/
def change (a : Addr) (f : Heap β → Heap β) : HeapProgram β Unit where
  run m :=
    match m.blocks.lookup a with
    | none => .wrong
    | some _ => .done () {m with blocks := f m.blocks}
  refusals_le := by
    intro m b t h
    split at h
    · cases h
    · obtain ⟨-, rfl⟩ := Outcome.done.inj h
      exact le_rfl

def assign (a : Addr) (b : β) : HeapProgram β Unit := change a fun h => h.insert a b

def free (a : Addr) : HeapProgram β Unit := change a fun h => h.erase a

theorem quiet_deref (a : Addr) : Program.Quiet (deref a : HeapProgram β β).run := by
  intro m b t h
  unfold deref at h
  cases hlookup : m.blocks.lookup a with
  | none => simp only [hlookup, reduceCtorEq] at h
  | some c =>
    simp only [hlookup, Outcome.done.injEq] at h
    exact h.2.symm

/-! ### Assertions -/

/-- The heaps an assertion holds of. -/
def Assertion (β : Type) : Type := Set (Heap β)

namespace Assertion

instance : Membership (Heap β) (Assertion β) := inferInstanceAs (Membership (Heap β) (Set (Heap β)))

instance : LE (Assertion β) := inferInstanceAs (LE (Set (Heap β)))

instance : Max (Assertion β) := inferInstanceAs (Max (Set (Heap β)))

instance : SupSet (Assertion β) := inferInstanceAs (SupSet (Set (Heap β)))

instance : Top (Assertion β) := inferInstanceAs (Top (Set (Heap β)))

instance : Bot (Assertion β) := inferInstanceAs (Bot (Set (Heap β)))

instance : CompleteLattice (Assertion β) := inferInstanceAs (CompleteLattice (Set (Heap β)))

@[ext] theorem ext {P Q : Assertion β} (h : ∀ k, k ∈ P ↔ k ∈ Q) : P = Q := Set.ext h

/-- Both of two assertions, each of a part of the heap of its own. -/
def sep (P Q : Assertion β) : Assertion β :=
  {h | ∃ h₁ h₂, Finmap.Disjoint h₁ h₂ ∧ h = h₁ ∪ h₂ ∧ h₁ ∈ P ∧ h₂ ∈ Q}

theorem sep_comm (P Q : Assertion β) : sep P Q = sep Q P := by
  have hswap : ∀ P Q : Assertion β, ∀ h ∈ sep P Q, h ∈ sep Q P := fun P Q h ⟨h₁, h₂, hd, he, hP, hQ⟩ =>
    ⟨h₂, h₁, hd.symm, he.trans (Finmap.union_comm_of_disjoint hd), hQ, hP⟩
  exact ext fun h => ⟨hswap P Q h, hswap Q P h⟩

theorem sep_assoc (P Q R : Assertion β) : sep (sep P Q) R = sep P (sep Q R) := by
  refine ext fun h => ⟨?_, ?_⟩
  · rintro ⟨_, h₃, hd, rfl, ⟨h₁, h₂, hd₁₂, rfl, hP, hQ⟩, hR⟩
    obtain ⟨hd₁₃, hd₂₃⟩ := (Finmap.disjoint_union_left _ _ _).mp hd
    exact ⟨h₁, h₂ ∪ h₃, (Finmap.disjoint_union_right _ _ _).mpr ⟨hd₁₂, hd₁₃⟩, Finmap.union_assoc, hP,
      h₂, h₃, hd₂₃, rfl, hQ, hR⟩
  · rintro ⟨h₁, _, hd, rfl, hP, h₂, h₃, hd₂₃, rfl, hQ, hR⟩
    obtain ⟨hd₁₂, hd₁₃⟩ := (Finmap.disjoint_union_right _ _ _).mp hd
    exact ⟨h₁ ∪ h₂, h₃, (Finmap.disjoint_union_left _ _ _).mpr ⟨hd₁₃, hd₂₃⟩, Finmap.union_assoc.symm,
      ⟨h₁, h₂, hd₁₂, rfl, hP, hQ⟩, hR⟩

/-- The heap is this one. -/
def exactly (h : Heap β) : Assertion β := {k | k = h}

theorem empty_sep (P : Assertion β) : sep (exactly ∅) P = P := by
  refine ext fun h => ⟨?_, fun hP => ⟨∅, h, Finmap.disjoint_empty h, Finmap.empty_union.symm, rfl, hP⟩⟩
  rintro ⟨_, h₂, -, rfl, rfl, hP⟩
  rwa [Finmap.empty_union]

instance : CommMonoid (Assertion β) where
  mul := sep
  one := exactly ∅
  mul_assoc := sep_assoc
  mul_comm := sep_comm
  one_mul := empty_sep
  mul_one P := (sep_comm _ _).trans (empty_sep P)

variable {P Q F : Assertion β} {h : Heap β}

theorem mem_mul : h ∈ P * Q ↔ ∃ h₁ h₂, Finmap.Disjoint h₁ h₂ ∧ h = h₁ ∪ h₂ ∧ h₁ ∈ P ∧ h₂ ∈ Q := Iff.rfl

theorem mem_one : h ∈ (1 : Assertion β) ↔ h = ∅ := Iff.rfl

theorem mem_sSup {S : Set (Assertion β)} : h ∈ sSup S ↔ ∃ P ∈ S, h ∈ P := Iff.rfl

theorem mem_iSup {ι : Sort*} {P : ι → Assertion β} : (h ∈ ⨆ i, P i) ↔ ∃ i, h ∈ P i := by
  rw [iSup, mem_sSup, Set.exists_range_iff]

instance : IsQuantale (Assertion β) where
  mul_sSup_distrib P S := by
    ext h
    simp only [mem_iSup]
    exact ⟨fun ⟨h₁, h₂, hd, he, hP, Q, hQ, hh⟩ => ⟨Q, hQ, h₁, h₂, hd, he, hP, hh⟩,
      fun ⟨Q, hQ, h₁, h₂, hd, he, hP, hh⟩ => ⟨h₁, h₂, hd, he, hP, Q, hQ, hh⟩⟩
  sSup_mul_distrib S P := by
    ext h
    simp only [mem_iSup]
    exact ⟨fun ⟨h₁, h₂, hd, he, ⟨Q, hQ, hh⟩, hP⟩ => ⟨Q, hQ, h₁, h₂, hd, he, hh, hP⟩,
      fun ⟨Q, hQ, h₁, h₂, hd, he, hh, hP⟩ => ⟨h₁, h₂, hd, he, ⟨Q, hQ, hh⟩, hP⟩⟩

/-- A fact about no part of the heap. -/
def fact (φ : Prop) : Assertion β := {h | φ ∧ h = ∅}

theorem mem_fact_mul {φ : Prop} : h ∈ fact φ * P ↔ φ ∧ h ∈ P := by
  refine ⟨?_, fun ⟨hφ, hP⟩ => ⟨∅, h, Finmap.disjoint_empty h, Finmap.empty_union.symm, ⟨hφ, rfl⟩, hP⟩⟩
  rintro ⟨_, h₂, -, rfl, ⟨hφ, rfl⟩, hP⟩
  rw [Finmap.empty_union]
  exact ⟨hφ, hP⟩

theorem fact_true {φ : Prop} (hφ : φ) : (fact φ : Assertion β) = 1 := ext fun _ => and_iff_right hφ

theorem fact_le_one {φ : Prop} : (fact φ : Assertion β) ≤ 1 := fun _ hh => hh.2

theorem le_fact_mul {φ : Prop} (hφ : φ) : P ≤ fact φ * P := by rw [fact_true hφ, one_mul]

/-- A block on its own. -/
def pointsTo (a : Addr) (b : β) : Assertion β := exactly (Finmap.singleton a b)

theorem mem_of_pointsTo_mul {a : Addr} {b : β} (hm : h ∈ pointsTo a b * F) : a ∈ h := by
  obtain ⟨_, k, -, rfl, rfl, -⟩ := hm
  exact Finmap.mem_union.mpr (.inl ((Finmap.mem_singleton a a b).mpr rfl))

/-- A block next to `F`: it is there, and the heap without it is `F`'s. -/
theorem mem_pointsTo_mul {a : Addr} {b : β} : h ∈ pointsTo a b * F ↔ h.lookup a = some b ∧ h.erase a ∈ F := by
  have hmem : a ∈ Finmap.singleton (β := fun _ => β) a b := (Finmap.mem_singleton a a b).mpr rfl
  constructor
  · rintro ⟨_, k, hd, rfl, rfl, hF⟩
    have herase : (Finmap.singleton a b ∪ k).erase a = k := by
      apply Finmap.ext_lookup
      intro x
      rcases eq_or_ne x a with rfl | hne
      · rw [Finmap.lookup_erase, Finmap.lookup_eq_none.mpr (hd x hmem)]
      · have hx : x ∉ Finmap.singleton (β := fun _ => β) a b := fun hx => hne ((Finmap.mem_singleton x a b).mp hx)
        rw [Finmap.lookup_erase_ne hne, Finmap.lookup_union_right hx]
    rw [Finmap.lookup_union_left hmem, Finmap.lookup_singleton_eq, herase]
    exact ⟨rfl, hF⟩
  · intro ⟨hlookup, hF⟩
    have hd : Finmap.Disjoint (h.erase a) (Finmap.singleton a b) := by
      intro x hx hsingle
      obtain rfl := (Finmap.mem_singleton x a b).mp hsingle
      exact Finmap.notMem_erase_self hx
    refine ⟨Finmap.singleton a b, h.erase a, hd.symm, ?_, rfl, hF⟩
    rw [← Finmap.union_comm_of_disjoint hd, Finmap.erase_union_singleton a b h hlookup]

/-- Storing a block where `F` has none. -/
theorem insert_mem_pointsTo_mul {a : Addr} {b : β} (hF : h.erase a ∈ F) : h.insert a b ∈ pointsTo a b * F := by
  have herase : (h.insert a b).erase a = h.erase a := by
    apply Finmap.ext_lookup
    intro x
    rcases eq_or_ne x a with rfl | hne
    · rw [Finmap.lookup_erase, Finmap.lookup_erase]
    · rw [Finmap.lookup_erase_ne hne, Finmap.lookup_erase_ne hne, Finmap.lookup_insert_of_ne _ hne]
  exact mem_pointsTo_mul.mpr ⟨Finmap.lookup_insert _, by rwa [herase]⟩

/-! ### Counting blocks -/

/-- The heaps of an assertion have so many blocks. -/
def Counts (P : Assertion β) (n : Nat) : Prop := ∀ h ∈ P, h.keys.card = n

theorem counts_one : Counts (1 : Assertion β) 0 := by
  intro h hh
  rw [mem_one.mp hh, Finmap.keys_empty, Finset.card_empty]

theorem counts_pointsTo (a : Addr) (b : β) : Counts (pointsTo a b) 1 := by
  intro h hh
  obtain rfl : h = Finmap.singleton a b := hh
  rw [Finmap.keys_singleton, Finset.card_singleton]

theorem Counts.mul {n k : Nat} (hP : Counts P n) (hQ : Counts Q k) : Counts (P * Q) (n + k) := by
  rintro _ ⟨h₁, h₂, hd, rfl, h₁P, h₂Q⟩
  have hkeys : Disjoint h₁.keys h₂.keys :=
    Finset.disjoint_left.mpr fun x hx hx' => hd x (Finmap.mem_keys.mp hx) (Finmap.mem_keys.mp hx')
  rw [Finmap.keys_union, Finset.card_union_of_disjoint hkeys, hP h₁ h₁P, hQ h₂ h₂Q]

theorem Counts.iSup {ι : Sort*} {P : ι → Assertion β} {n : Nat} (h : ∀ i, Counts (P i) n) : Counts (⨆ i, P i) n := by
  intro k hk
  obtain ⟨i, hi⟩ := mem_iSup.mp hk
  exact h i k hi

theorem Counts.fact_mul {φ : Prop} {n : Nat} (h : φ → Counts P n) : Counts (fact φ * P) n := by
  intro k hk
  obtain ⟨hφ, hP⟩ := mem_fact_mul.mp hk
  exact h hφ k hP

end Assertion

/-! ### Triples -/

open Assertion HeapProgram

/-- Next to anything else, the program takes `P` to `Q`. Where requests may be denied the
program is done all the same; where none may, this is about the runs in which none is. -/
def Triple (denied : Prop) (P : Assertion β) (p : HeapProgram β α) (Q : α → Assertion β) : Prop :=
  ∀ (F : Assertion β) (m : HeapState β), m.blocks ∈ P * F →
    (denied → ∃ a t, p m = .done a t) ∧
      ∀ a t, p m = .done a t → (denied ∨ t.refusals = m.refusals) → t.blocks ∈ Q a * F

namespace Triple
variable {denied : Prop} {P P' R F : Assertion β} {Q Q' : α → Assertion β} {p : HeapProgram β α}

/-- A program that is done, whatever may be denied. -/
theorem of_done (h : ∀ (F : Assertion β) (m : HeapState β), m.blocks ∈ P * F →
    ∃ a t, p m = .done a t ∧ t.blocks ∈ Q a * F) : Triple denied P p Q := by
  intro F m hm
  obtain ⟨a, t, hdone, ht⟩ := h F m hm
  refine ⟨fun _ => ⟨a, t, hdone⟩, fun b u hu _ => ?_⟩
  obtain ⟨rfl, rfl⟩ := Outcome.done.inj (hdone.symm.trans hu)
  exact ht

theorem pure {a : α} (h : P ≤ Q a) : Triple denied P (Pure.pure a) Q :=
  of_done fun F m hm => ⟨a, m, rfl, mul_le_mul_left h F hm⟩

theorem conseq (h : Triple denied P p Q) (hpre : P' ≤ P) (hpost : ∀ a, Q a ≤ Q' a) : Triple denied P' p Q' := by
  intro F m hm
  obtain ⟨hdone, hmeets⟩ := h F m (mul_le_mul_left hpre F hm)
  exact ⟨hdone, fun a t ha hgranted => mul_le_mul_left (hpost a) F (hmeets a t ha hgranted)⟩

theorem frame (h : Triple denied P p Q) (F : Assertion β) : Triple denied (P * F) p fun a => Q a * F := by
  intro G m hm
  simp only [mul_assoc] at hm ⊢
  exact h (F * G) m hm

theorem seq {k : α → HeapProgram β γ} {S : γ → Assertion β} (h : Triple denied P p Q)
    (hk : ∀ a, Triple denied (Q a) (k a) S) : Triple denied P (p >>= k) S := by
  intro G m hm
  obtain ⟨hdone, hmeets⟩ := h G m hm
  refine ⟨fun hdenied => ?_, fun c u hu hgranted => ?_⟩
  · obtain ⟨a, t, ha⟩ := hdone hdenied
    obtain ⟨c, u, hc⟩ := (hk a G t (hmeets a t ha (.inl hdenied))).1 hdenied
    exact ⟨c, u, bind_eq_done.mpr ⟨a, t, ha, hc⟩⟩
  · obtain ⟨a, t, ha, hc⟩ := bind_eq_done.mp hu
    have hp := p.refusals_le ha
    have hrest := (k a).refusals_le hc
    have hfirst : denied ∨ t.refusals = m.refusals := hgranted.imp_right fun h => by omega
    have hsecond : denied ∨ u.refusals = t.refusals := hgranted.imp_right fun h => by omega
    exact (hk a G t (hmeets a t ha hfirst)).2 c u hc hsecond

/-- One statement, on the part of the heap it is about. -/
theorem bind {k : α → HeapProgram β γ} {S : γ → Assertion β} (h : Triple denied P p Q) (hR : R = P * F)
    (hk : ∀ a, Triple denied (Q a * F) (k a) S) : Triple denied R (p >>= k) S := by
  rw [hR]
  exact (h.frame F).seq hk

/-- The last statement, on the part of the heap it is about. -/
theorem focus {S : α → Assertion β} (h : Triple denied P p Q) (hR : R = P * F) (hS : ∀ a, Q a * F ≤ S a) :
    Triple denied R p S := by
  rw [hR]
  exact (h.frame F).conseq le_rfl hS

theorem iSup {ι : Sort*} {P : ι → Assertion β} (h : ∀ i, Triple denied (P i) p Q) : Triple denied (⨆ i, P i) p Q := by
  intro G m hm
  obtain ⟨h₁, h₂, hd, he, hi, hG⟩ := mem_mul.mp hm
  obtain ⟨i, hi⟩ := mem_iSup.mp hi
  exact h i G m (mem_mul.mpr ⟨h₁, h₂, hd, he, hi, hG⟩)

theorem iSup_mul {ι : Type*} {P : ι → Assertion β} (h : ∀ i, Triple denied (P i * F) p Q) :
    Triple denied ((⨆ i, P i) * F) p Q := by
  rw [Quantale.iSup_mul_distrib]
  exact Triple.iSup h

theorem fact_mul {φ : Prop} (h : φ → Triple denied F p Q) : Triple denied (fact φ * F) p Q := by
  intro G m hm
  rw [mul_assoc, mem_fact_mul] at hm
  exact h hm.1 G m hm.2

theorem of_bot : Triple denied ⊥ p Q := by
  intro F m hm
  rw [Quantale.bot_mul] at hm
  exact hm.elim

/-- No address is in two parts of a heap. -/
theorem of_ne {a b : Addr} (hP : ∀ h ∈ P, a ∈ h) (hF : ∀ h ∈ F, b ∈ h) (h : a ≠ b → Triple denied (P * F) p Q) :
    Triple denied (P * F) p Q := by
  intro G m hm
  have hsplit := hm
  obtain ⟨_, _, -, -, ⟨h₁, h₂, hd, -, h₁P, h₂F⟩, -⟩ := hsplit
  refine h ?_ G m hm
  rintro rfl
  exact hd a (hP h₁ h₁P) (hF h₂ h₂F)

/-- A program that depends on how many blocks there are, all blocks counted. -/
theorem of_counts {n : Nat} (hP : Counts P n) {k : Nat → HeapProgram β α}
    (h : ∀ size, n ≤ size → Triple denied P (k size) Q) :
    Triple denied P (read >>= fun m => k m.blocks.keys.card) Q := by
  intro F m hm
  refine h _ ?_ F m hm
  obtain ⟨h₁, h₂, -, he, hP₁, -⟩ := mem_mul.mp hm
  rw [← hP h₁ hP₁, he, Finmap.keys_union]
  exact Finset.card_le_card Finset.subset_union_left

/-- A statement whose result is known. -/
theorem bind_eq {k : α → HeapProgram β γ} {S : γ → Assertion β} {v : α} {P' : Assertion β}
    (h : Triple denied P p fun r => fact (r = v) * P') (hR : R = P * F) (hk : Triple denied (P' * F) (k v) S) :
    Triple denied R (p >>= k) S := by
  refine h.bind hR fun r => ?_
  rw [mul_assoc]
  refine fact_mul ?_
  rintro rfl
  exact hk

/-! ### Statements -/

theorem deref {a : Addr} {b : β} : Triple denied (pointsTo a b) (deref a) fun r => fact (r = b) * pointsTo a b := by
  refine of_done fun F m hm => ⟨b, m, ?_, ?_⟩
  · simp only [Library.deref, (mem_pointsTo_mul.mp hm).1]
  · rw [mul_assoc]
    exact mem_fact_mul.mpr ⟨rfl, hm⟩

theorem assign {a : Addr} {b c : β} : Triple denied (pointsTo a b) (assign a c) fun _ => pointsTo a c := by
  refine of_done fun F m hm => ?_
  obtain ⟨hlookup, hF⟩ := mem_pointsTo_mul.mp hm
  refine ⟨(), {m with blocks := m.blocks.insert a c}, ?_, insert_mem_pointsTo_mul hF⟩
  simp only [Library.assign, change, hlookup]

theorem free {a : Addr} {b : β} : Triple denied (pointsTo a b) (free a) fun _ => 1 := by
  refine of_done fun F m hm => ?_
  obtain ⟨hlookup, hF⟩ := mem_pointsTo_mul.mp hm
  refine ⟨(), {m with blocks := m.blocks.erase a}, ?_, ?_⟩
  · simp only [Library.free, change, hlookup]
  · rwa [one_mul]

/-- A new block, or a refusal. -/
theorem allocate (A : Allocator β) (b : β) : Triple denied 1 (allocate A b) fun r =>
    match r with
    | none => fact denied
    | some a => pointsTo a b := by
  intro F m hm
  rw [one_mul] at hm
  unfold Library.allocate
  cases hplace : A.place m.requests m.blocks b with
  | none =>
    simp only [hplace]
    refine ⟨fun _ => ⟨none, _, rfl⟩, fun r t ht hgranted => ?_⟩
    obtain ⟨rfl, rfl⟩ := Outcome.done.inj ht
    -- a refusal is counted
    have hdenied : denied := hgranted.resolve_right (Nat.succ_ne_self m.refusals)
    exact mem_fact_mul.mpr ⟨hdenied, hm⟩
  | some a =>
    simp only [hplace]
    refine ⟨fun _ => ⟨some a, _, rfl⟩, fun r t ht _ => ?_⟩
    obtain ⟨rfl, rfl⟩ := Outcome.done.inj ht
    refine insert_mem_pointsTo_mul ?_
    have hfresh : m.blocks.erase a = m.blocks := by
      apply Finmap.ext_lookup
      intro x
      rcases eq_or_ne x a with rfl | hne
      · rw [Finmap.lookup_erase, Finmap.lookup_eq_none.mpr (A.fresh hplace)]
      · rw [Finmap.lookup_erase_ne hne]
    rwa [hfresh]

/-! ### Runs -/

/-- What triples say of a run: the program is done, the rest of the heap is as it was, and
what is only true because of a refusal is true only if there was one. -/
theorem run {Q : Prop → α → Assertion β} (h : ∀ denied, Triple denied P p (Q denied)) {m : HeapState β}
    {k rest : Heap β} (hk : k ∈ P) (hd : Finmap.Disjoint k rest) (hm : m.blocks = k ∪ rest) :
    ∃ a t k', p m = .done a t ∧ k' ∈ Q (m.refusals < t.refusals) a ∧ Finmap.Disjoint k' rest ∧
      t.blocks = k' ∪ rest := by
  have hsplit : m.blocks ∈ P * exactly rest := mem_mul.mpr ⟨k, rest, hd, hm, hk, rfl⟩
  obtain ⟨a, t, hdone⟩ := (h True _ m hsplit).1 trivial
  have hcounted : m.refusals < t.refusals ∨ t.refusals = m.refusals :=
    (p.refusals_le hdone).lt_or_eq.imp_right Eq.symm
  obtain ⟨k', _, hd', ht, hk', rfl⟩ := (h _ _ m hsplit).2 a t hdone hcounted
  exact ⟨a, t, k', hdone, hk', hd', ht⟩

end Triple

end EndpointSecurity.Library
