import EndpointSecurity.Agent.Record
import Mathlib.Data.List.FinRange

/-! The tracepoint handlers of the kernel side.

Each handler reserves a slot of the ring buffer, fills some of its fields and
submits it, or gives it back. `bpf_ringbuf_reserve` does not clear a slot, so a
handler is a function of the slot it is given as well. `handle_execve` counts the
arguments it copies in the slot's own `argc`; what the loop makes of any slot is
`argvLoop_eq`. -/
namespace EndpointSecurity.Agent
open Library

/-! ### What the helpers meet -/

/-- A string in user memory, without its NUL. -/
structure UserString where
  bytes : List UInt8
  noNul : 0 ∉ bytes

/-- An element of a user-space `argv`: a pointer that cannot be read, a null
pointer, or a pointer to a string, which may fault in turn. -/
inductive ArgPtr where
  | fault
  | null
  | ptr (s : Option UserString)

/-- A process as the kernel side reads it: the `tgid` of its parent, if it has a
parent whose `tgid` can be read. -/
structure Task where
  parentTgid : Option UInt32

/-- What the helpers return to a handler. -/
structure Kernel where
  ktimeGetNs : UInt64
  currentPidTgid : UInt64
  currentTask : Option Task

/-- `bpf_probe_read_user_str`: the length with the NUL and the string cut to fit,
or a fault, which clears the destination. -/
def probeReadUserStr {n : Nat} (dst : CArray n) : Option UserString → Int × CArray n
  | none => (-14, .zero n)
  | some s => ((s.bytes.take (n - 1)).length + 1, dst.overwrite (s.bytes.take (n - 1) ++ [0]))

/-- What a handler does with the ring buffer. -/
inductive RingOp where
  | none
  | submit (e : Event)
  | discard (e : Event)

def RingOp.submitted : RingOp → Option Event
  | .submit e => some e
  | _ => Option.none

/-! ### The handlers -/

/-- The body `handle_sendto` and `handle_socket` share: `filename` and `argv` are
still to do. -/
def handleCall (call : Syscalls) (k : Kernel) (slot : Option Event) : RingOp :=
  match slot with
  | none => .none
  | some e =>
    .submit {e with
      timestamp := k.ktimeGetNs
      ppid := 0
      call := call.value
      pid := (k.currentPidTgid >>> 32).toUInt32
      argc := 3}

def handleSendto (k : Kernel) (slot : Option Event) : RingOp := handleCall .SENDTO k slot

def handleSocket (k : Kernel) (slot : Option Event) : RingOp := handleCall .SOCKET k slot

/-- `handle_open` fills the slot and discards it. -/
def handleOpen (filename : Option UserString) (k : Kernel) (slot : Option Event) : RingOp :=
  match slot with
  | none => .none
  | some e =>
    .discard {e with
      timestamp := k.ktimeGetNs
      ppid := 0
      call := Syscalls.OPENAT.value
      pid := (k.currentPidTgid >>> 32).toUInt32
      filename := (probeReadUserStr e.filename filename).2
      argc := 1
      argv := Function.update e.argv 0 ((e.argv 0).store 0 88)}

/-- The loop over `argv`, from the index the list starts with. -/
def argvLoop (argv : Nat → ArgPtr) : List (Fin MAX_ARGS) → Event → Event
  | [], e => e
  | i :: rest, e =>
    match argv i with
    | .fault => e
    | .null => e
    | .ptr arg =>
      let read := probeReadUserStr (e.argv i) arg
      let e := {e with argv := Function.update e.argv i read.2}
      if read.1 < 0 then e else argvLoop argv rest {e with argc := e.argc + 1}

def handleExecve (filename : Option UserString) (argv : Nat → ArgPtr) (k : Kernel)
    (slot : Option Event) : RingOp :=
  match k.currentTask with
  | none => .none
  | some task =>
    match slot with
    | none => .none
    | some e =>
      .submit (argvLoop argv (List.finRange MAX_ARGS) {e with
        timestamp := k.ktimeGetNs
        call := Syscalls.EXECVE.value
        pid := (k.currentPidTgid >>> 32).toUInt32
        ppid := task.parentTgid.getD 0
        filename := (probeReadUserStr e.filename filename).2})

/-- A tracepoint that fires, with what its handler reads of the traced process. -/
inductive Tracepoint where
  | sendto
  | socket
  | openat (filename : Option UserString)
  | execve (filename : Option UserString) (argv : Nat → ArgPtr)

def Tracepoint.handle : Tracepoint → Kernel → Option Event → RingOp
  | .sendto => handleSendto
  | .socket => handleSocket
  | .openat filename => handleOpen filename
  | .execve filename argv => handleExecve filename argv

/-! ### What a copied string is -/

theorem probeReadUserStr_neg {n : Nat} (dst : CArray n) (s : Option UserString) :
    (probeReadUserStr dst s).1 < 0 ↔ s = none := by
  cases s with
  | none => simp [probeReadUserStr]
  | some s => simp only [probeReadUserStr, reduceCtorEq, iff_false]; omega

/-- The string a fault or a read leaves in an array of `n` bytes. -/
def copied (n : Nat) (s : Option UserString) : List UInt8 :=
  match s with
  | none => []
  | some s => s.bytes.take (n - 1)

/-- Whatever stood in the destination, the helper leaves a terminated string. -/
theorem probeReadUserStr_string {n : Nat} (hn : 0 < n) (dst : CArray n) (s : Option UserString) :
    (probeReadUserStr dst s).2.string = copied n s ∧ (probeReadUserStr dst s).2.Terminated := by
  cases s with
  | none => exact ⟨CArray.zero_string n, (CArray.zero_closed hn).terminated⟩
  | some s =>
    have hnul : 0 ∉ s.bytes.take (n - 1) := fun h => s.noNul (List.mem_of_mem_take h)
    have hlen : (s.bytes.take (n - 1)).length < n := by
      rw [List.length_take]
      omega
    exact CArray.overwrite_nul dst hnul hlen

/-! ### What the loop over `argv` does -/

/-- The string an element of `argv` points to, if there is one to read. -/
def ArgPtr.string : ArgPtr → Option UserString
  | .ptr s => s
  | _ => none

/-- The loop stops at the first argument it cannot capture. -/
def ArgPtr.captures : ArgPtr → Bool
  | .ptr (some _) => true
  | _ => false

/-- A string that faults is not counted, but its place in the slot is cleared. -/
def ArgPtr.clears : ArgPtr → Bool
  | .ptr none => true
  | _ => false

/-- The loop goes past the `i`-th argument. -/
def captures (argv : Nat → ArgPtr) (i : Fin MAX_ARGS) : Bool := (argv i).captures

/-- How many arguments are captured: up to `MAX_ARGS`, the first null pointer, or
the first pointer or string that cannot be read. -/
def captured (argv : Nat → ArgPtr) : Nat :=
  ((List.finRange MAX_ARGS).takeWhile (captures argv)).length

/-- The elements of the slot's `argv` the loop writes. -/
def writes (argv : Nat → ArgPtr) (j : Fin MAX_ARGS) : Bool :=
  decide (j.val < captured argv) || (decide (j.val = captured argv) && (argv j).clears)

/-- The slot's `argv` once the elements that satisfy `w` are written. -/
def writeArgs (argv : Nat → ArgPtr) (w : Fin MAX_ARGS → Bool) (e : Event) (j : Fin MAX_ARGS) :
    CArray ARG_LEN :=
  if w j then (probeReadUserStr (e.argv j) (argv j).string).2 else e.argv j

/-- Writing no element changes nothing. -/
theorem writeArgs_none {argv : Nat → ArgPtr} {w : Fin MAX_ARGS → Bool} (hw : ∀ j, w j = false)
    (e : Event) : writeArgs argv w e = e.argv := by
  funext j
  rw [writeArgs, hw j]
  rfl

theorem mem_captured (argv : Nat → ArgPtr) (j : Fin MAX_ARGS) :
    j ∈ (List.finRange MAX_ARGS).takeWhile (captures argv) ↔ j.val < captured argv := by
  have hprefix := List.takeWhile_prefix (l := List.finRange MAX_ARGS) (captures argv)
  rw [List.prefix_iff_eq_take.mp hprefix, List.mem_take_iff_getElem]
  refine ⟨fun ⟨i, hi, hj⟩ => ?_, fun h => ⟨j.val, ?_, ?_⟩⟩
  · rw [List.getElem_finRange] at hj
    rw [← hj]
    exact (Nat.lt_min.mp hi).1
  · rw [Nat.lt_min, List.length_finRange]
    exact ⟨h, j.isLt⟩
  · rw [List.getElem_finRange]
    rfl

theorem head_uncaptured (argv : Nat → ArgPtr) (j : Fin MAX_ARGS) :
    ((List.finRange MAX_ARGS).dropWhile (captures argv)).head? = some j ↔ j.val = captured argv := by
  have hsplit := List.takeWhile_append_dropWhile (p := captures argv) (l := List.finRange MAX_ARGS)
  have hdrop : (List.finRange MAX_ARGS).dropWhile (captures argv) =
      (List.finRange MAX_ARGS).drop (captured argv) := by
    conv => rhs; rw [← hsplit]
    exact (List.drop_left' rfl).symm
  rw [hdrop, List.head?_drop, List.getElem?_eq_some_iff]
  refine ⟨fun ⟨h, hj⟩ => ?_, fun h => ⟨?_, ?_⟩⟩
  · rw [← hj, List.getElem_finRange]
    rfl
  · rw [List.length_finRange, ← h]
    exact j.isLt
  · rw [List.getElem_finRange]
    exact Fin.ext h.symm

theorem captured_le (argv : Nat → ArgPtr) : captured argv ≤ MAX_ARGS := by
  have h := (List.takeWhile_sublist (l := List.finRange MAX_ARGS) (captures argv)).length_le
  rw [List.length_finRange] at h
  exact h

/-- Arguments that can be captured are copied and counted, in the slot's own count. -/
theorem argvLoop_captures (argv : Nat → ArgPtr) (done rest : List (Fin MAX_ARGS)) (e : Event)
    (hcap : ∀ i ∈ done, captures argv i = true) (hnodup : done.Nodup) :
    argvLoop argv (done ++ rest) e = argvLoop argv rest {e with
      argc := e.argc + UInt32.ofNat done.length
      argv := writeArgs argv (fun j => decide (j ∈ done)) e} := by
  induction done generalizing e with
  | nil =>
    rw [writeArgs_none fun j => by simp]
    simp
  | cons i done ih =>
    obtain ⟨hi, hdone⟩ := List.nodup_cons.mp hnodup
    have hc := hcap i (List.mem_cons_self ..)
    cases ha : argv i with
    | fault => simp [captures, ha, ArgPtr.captures] at hc
    | null => simp [captures, ha, ArgPtr.captures] at hc
    | ptr s =>
      cases s with
      | none => simp [captures, ha, ArgPtr.captures] at hc
      | some s =>
        have hneg : ¬ (probeReadUserStr (e.argv i) (some s)).1 < 0 := by
          simp [probeReadUserStr_neg]
        rw [List.cons_append, argvLoop, ha]
        simp only [if_neg hneg]
        rw [ih _ (fun j hj => hcap j (List.mem_cons_of_mem _ hj)) hdone]
        congr 1
        ext1
        all_goals try rfl
        · show e.argc + 1 + UInt32.ofNat done.length = e.argc + UInt32.ofNat (done.length + 1)
          rw [UInt32.ofNat_add, UInt32.add_assoc, UInt32.add_comm 1]
          rfl
        · funext j
          by_cases hj : j = i
          · subst hj
            simp [writeArgs, hi, ha, ArgPtr.string]
          · simp [writeArgs, hj]

/-- Where the loop stops, it has at most cleared one element. -/
theorem argvLoop_stops (argv : Nat → ArgPtr) (rest : List (Fin MAX_ARGS)) (e : Event)
    (hstop : ∀ i ∈ rest.head?, captures argv i = false) :
    argvLoop argv rest e = {e with
      argv := writeArgs argv (fun j => decide (rest.head? = some j) && (argv j).clears) e} := by
  cases rest with
  | nil =>
    rw [writeArgs_none fun j => by simp]
    rfl
  | cons i rest =>
    have hi := hstop i rfl
    -- an element that is not a string is not written
    have hkept : (argv i).clears = false →
        writeArgs argv (fun j => decide ((i :: rest).head? = some j) && (argv j).clears) e = e.argv := by
      intro hclears
      apply writeArgs_none
      intro j
      by_cases hj : i = j
      · rw [← hj, hclears, Bool.and_false]
      · simp [hj]
    rw [argvLoop]
    cases ha : argv i with
    | fault => rw [hkept (by rw [ha]; rfl)]
    | null => rw [hkept (by rw [ha]; rfl)]
    | ptr s =>
      cases s with
      | some s => simp [captures, ha, ArgPtr.captures] at hi
      | none =>
        have hneg : (probeReadUserStr (e.argv i) none).1 < 0 := by
          simp [probeReadUserStr_neg]
        simp only [if_pos hneg]
        ext1
        all_goals try rfl
        funext j
        by_cases hj : j = i
        · subst hj
          simp [writeArgs, ha, ArgPtr.clears, ArgPtr.string]
        · simp [writeArgs, hj, Ne.symm hj]

/-- **What the loop makes of a slot**: the captured arguments are added to the count
the slot came with, and the elements it does not write keep what they held. -/
theorem argvLoop_eq (argv : Nat → ArgPtr) (e : Event) :
    argvLoop argv (List.finRange MAX_ARGS) e = {e with
      argc := e.argc + UInt32.ofNat (captured argv)
      argv := writeArgs argv (writes argv) e} := by
  have hstop : ∀ i ∈ ((List.finRange MAX_ARGS).dropWhile (captures argv)).head?,
      captures argv i = false := fun i hi => by
    have := List.head?_dropWhile_not (captures argv) (List.finRange MAX_ARGS)
    rw [hi] at this
    exact this
  have hnodup := (List.nodup_finRange MAX_ARGS).sublist (List.takeWhile_sublist (captures argv))
  rw [← List.takeWhile_append_dropWhile (p := captures argv) (l := List.finRange MAX_ARGS),
    argvLoop_captures _ _ _ _ (fun i hi => List.mem_takeWhile_imp hi) hnodup, argvLoop_stops _ _ _ hstop]
  congr 1
  funext j
  simp only [writeArgs, writes, mem_captured, head_uncaptured]
  by_cases hlt : j.val < captured argv
  · have hne : ¬ j.val = captured argv := Nat.ne_of_lt hlt
    simp [hlt, hne]
  · simp [hlt]

end EndpointSecurity.Agent
