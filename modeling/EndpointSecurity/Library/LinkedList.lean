import EndpointSecurity.Library.Separation

/-! Doubly linked lists on a heap.

A `Cell` says what is at an address, given what its two links are. `links` is a stretch
of neighbours; `prev` and `next` is what its two ends point to. In a `ring` the first
cell points back to the last one, so that the end is found without a walk, and the last
one points to nothing. -/
namespace EndpointSecurity.Library
open Assertion

/-- What is at an address with a next and a previous cell. -/
abbrev Cell (β : Type) : Type := Addr → Option Addr → Option Addr → Assertion β

variable {α β : Type} {denied : Prop}

def links (next : Option Addr) : Option Addr → List Addr → List (Cell β) → Assertion β
  | _, [], [] => 1
  | prev, a :: as, c :: cs => c a (as.head?.or next) prev * links next (some a) as cs
  | _, _, _ => ⊥

/-- A list whose first cell points back to its last one. -/
def ring (as : List Addr) (cs : List (Cell β)) : Assertion β := links none as.getLast? as cs

variable {next prev : Option Addr} {a b l : Addr} {as : List Addr} {c : Cell β} {cs : List (Cell β)}

theorem getLast?_cons_or (a : Addr) (as : List Addr) (prev : Option Addr) :
    (a :: as).getLast?.or prev = as.getLast?.or (some a) := by
  cases as with
  | nil => rfl
  | cons b as => simp [List.getLast?_cons]

/-- One cell more at the end. -/
theorem links_concat (next prev : Option Addr) (as : List Addr) (b : Addr) (cs : List (Cell β)) (c : Cell β) :
    links next prev (as ++ [b]) (cs ++ [c]) = links (some b) prev as cs * c b next (as.getLast?.or prev) := by
  induction as generalizing prev cs with
  | nil =>
    cases cs with
    | nil => simp [links]
    | cons d cs =>
      have hlong : links next (some b) [] (cs ++ [c]) = ⊥ := by cases cs <;> rfl
      show d b _ prev * links next (some b) [] (cs ++ [c]) = ⊥ * _
      rw [hlong, Quantale.mul_bot, Quantale.bot_mul]
  | cons a as ih =>
    cases cs with
    | nil =>
      have hshort : links next (some a) (as ++ [b]) ([] : List (Cell β)) = ⊥ := by cases as <;> rfl
      show c a _ prev * links next (some a) (as ++ [b]) [] = ⊥ * _
      rw [hshort, Quantale.mul_bot, Quantale.bot_mul]
    | cons d cs =>
      have hhead : (as ++ [b]).head?.or next = as.head?.or (some b) := by cases as <;> rfl
      show d a ((as ++ [b]).head?.or next) prev * links next (some a) (as ++ [b]) (cs ++ [c]) =
        d a (as.head?.or (some b)) prev * links (some b) (some a) as cs * _
      rw [ih (some a) cs, hhead, getLast?_cons_or, mul_assoc]

/-- A ring of one. -/
theorem ring_singleton (b : Addr) (c : Cell β) : ring [b] [c] = c b none (some b) := mul_one _

/-- A longer ring, from one whose two ends point to the new cell. -/
theorem ring_concat (hlast : as.getLast? = some l) (b : Addr) (cs : List (Cell β)) (c : Cell β) :
    ring (as ++ [b]) (cs ++ [c]) = links (some b) (some b) as cs * c b none (some l) := by
  rw [ring, List.getLast?_concat, links_concat, hlast]
  rfl

/-! ### The two ends

What a program does to a cell it does to a list that begins or ends with it. -/

theorem Triple.first_result {p : HeapProgram β α} {G : α → Assertion β} {prev' : Option Addr}
    (hfirst : as.head? = some a)
    (h : ∀ c ∈ cs, ∀ n, Triple denied (c a n prev) p fun r => G r * c a n prev') :
    Triple denied (links next prev as cs) p fun r => G r * links next prev' as cs := by
  cases as with
  | nil => cases hfirst
  | cons b as =>
    obtain rfl : b = a := Option.some.inj hfirst
    cases cs with
    | nil => exact .of_bot
    | cons c cs =>
      refine ((h c List.mem_cons_self _).frame (links next (some b) as cs)).conseq le_rfl fun r => ?_
      exact (mul_assoc _ _ _).le

theorem Triple.first {p : HeapProgram β α} {prev' : Option Addr} (hfirst : as.head? = some a)
    (h : ∀ c ∈ cs, ∀ n, Triple denied (c a n prev) p fun _ => c a n prev') :
    Triple denied (links next prev as cs) p fun _ => links next prev' as cs := by
  have hresult : Triple denied (links next prev as cs) p fun _ => 1 * links next prev' as cs :=
    Triple.first_result hfirst fun c hc n => by simpa only [one_mul] using h c hc n
  simpa only [one_mul] using hresult

theorem Triple.last {p : HeapProgram β α} {next' : Option Addr} (hlast : as.getLast? = some l)
    (h : ∀ c ∈ cs, ∀ q, Triple denied (c l next q) p fun _ => c l next' q) :
    Triple denied (links next prev as cs) p fun _ => links next' prev as cs := by
  obtain ⟨front, rfl⟩ := List.getLast?_eq_some_iff.mp hlast
  cases cs using List.reverseRec with
  | nil =>
    have hbot : ∀ n, links n prev (front ++ [l]) ([] : List (Cell β)) = ⊥ := fun n => by cases front <;> rfl
    rw [hbot]
    exact .of_bot
  | append_singleton cs c =>
    simp only [links_concat]
    rw [mul_comm]
    refine ((h c (by simp) _).frame (links (some l) prev front cs)).conseq le_rfl fun _ => ?_
    exact (mul_comm _ _).le

/-! ### Counting -/

theorem counts_links_nil : Counts (links next prev as ([] : List (Cell β))) 0 := by
  cases as with
  | nil => exact counts_one
  | cons a as => exact fun _ h => h.elim

theorem counts_links_cons {n k : Nat} (hc : ∀ a next prev, Counts (c a next prev) n)
    (hcs : ∀ prev as, Counts (links next prev as cs) k) : Counts (links next prev as (c :: cs)) (n + k) := by
  cases as with
  | nil => exact fun _ h => h.elim
  | cons a as => exact (hc a _ _).mul (hcs (some a) as)

end EndpointSecurity.Library
