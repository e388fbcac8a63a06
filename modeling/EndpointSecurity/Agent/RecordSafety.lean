import EndpointSecurity.Agent.Tracepoints
import EndpointSecurity.Agent.Submit

/-! What the submitted records owe to the slots they were written into.

A handler leaves the fields it does not fill as an earlier record left them, and
the reader prints them all. Two questions follow, one about a run and one about a
pair of runs: when is every submitted record safe to read, and when does a report
not depend on the slot at all. Both are settled by the part of the slot that is
read and not written (`Tracepoint.SlotSafe`, `Tracepoint.SlotsAgree`). -/
namespace EndpointSecurity.Agent
open Library

/-- A tracepoint fires: the helpers' answers, and the slot reserved for it, if the
ring buffer has one. -/
structure Firing where
  tp : Tracepoint
  kernel : Kernel
  slot : Option Event

def Firing.op (f : Firing) : RingOp := f.tp.handle f.kernel f.slot

/-- The records a run puts in front of the reader. -/
def submitted (run : List Firing) : List Event := run.filterMap fun f => f.op.submitted

/-! ### The records the handlers submit -/

/-- The record of a `sendto` or a `socket`: its strings are the slot's. -/
def callRecord (call : Syscalls) (k : Kernel) (slot : Event) : Event :=
  {slot with
    timestamp := k.ktimeGetNs
    ppid := 0
    call := call.value
    pid := (k.currentPidTgid >>> 32).toUInt32
    argc := 3}

/-- The record of an `execve`: the captured arguments are counted on top of the
slot's own `argc`. -/
def execveRecord (filename : Option UserString) (argv : Nat → ArgPtr) (k : Kernel) (task : Task)
    (slot : Event) : Event where
  timestamp := k.ktimeGetNs
  pid := (k.currentPidTgid >>> 32).toUInt32
  call := Syscalls.EXECVE.value
  ppid := task.parentTgid.getD 0
  filename := (probeReadUserStr slot.filename filename).2
  argc := slot.argc + UInt32.ofNat (captured argv)
  argv := writeArgs argv (writes argv) slot

theorem callRecord_argc_le (call : Syscalls) (k : Kernel) (slot : Event) :
    (callRecord call k slot).argc.toNat ≤ MAX_ARGS := by
  show (3 : UInt32).toNat ≤ MAX_ARGS
  decide

theorem execveRecord_argv (filename : Option UserString) (argv : Nat → ArgPtr) (k : Kernel)
    (task : Task) (slot : Event) :
    (execveRecord filename argv k task slot).argv = writeArgs argv (writes argv) slot := rfl

theorem handleCall_submitted (call : Syscalls) (k : Kernel) (slot : Event) :
    (handleCall call k (some slot)).submitted = some (callRecord call k slot) := rfl

theorem handleExecve_submitted (filename : Option UserString) (argv : Nat → ArgPtr) (k : Kernel)
    (task : Task) (hk : k.currentTask = some task) (slot : Event) :
    (handleExecve filename argv k (some slot)).submitted =
      some (execveRecord filename argv k task slot) := by
  simp only [handleExecve, hk, argvLoop_eq, RingOp.submitted]
  rfl

/-- The count an `execve` record ends up with. -/
def execveArgc (argv : Nat → ArgPtr) (slot : Event) : Nat :=
  (slot.argc + UInt32.ofNat (captured argv)).toNat

theorem writeArgs_written {argv : Nat → ArgPtr} {w : Fin MAX_ARGS → Bool} (slot : Event)
    {j : Fin MAX_ARGS} (hj : w j = true) :
    (writeArgs argv w slot j).string = copied ARG_LEN (argv j).string ∧
      (writeArgs argv w slot j).Terminated := by
  rw [writeArgs, if_pos hj]
  exact probeReadUserStr_string (by decide) _ _

theorem writeArgs_kept {argv : Nat → ArgPtr} {w : Fin MAX_ARGS → Bool} (slot : Event)
    {j : Fin MAX_ARGS} (hj : w j = false) : writeArgs argv w slot j = slot.argv j := by
  rw [writeArgs, hj]
  rfl

/-! ### Safety of a run -/

/-- What of the slot the reader relies on and the handler does not write. -/
def Tracepoint.SlotSafe (k : Kernel) (slot : Event) : Tracepoint → Prop
  | .sendto | .socket =>
    slot.filename.Terminated ∧ ∀ j : Fin MAX_ARGS, j.val < 3 → (slot.argv j).Terminated
  | .openat _ => True
  | .execve _ argv => k.currentTask = none ∨
    (execveArgc argv slot ≤ MAX_ARGS ∧ ∀ j : Fin MAX_ARGS, j.val < execveArgc argv slot →
      writes argv j = false → (slot.argv j).Terminated)

def Firing.SlotSafe (f : Firing) : Prop := ∀ slot ∈ f.slot, f.tp.SlotSafe f.kernel slot

theorem handleCall_safe (call : Syscalls) (k : Kernel) (slot : Event) :
    (∀ e ∈ (handleCall call k (some slot)).submitted, e.Safe) ↔
      slot.filename.Terminated ∧ ∀ j : Fin MAX_ARGS, j.val < 3 → (slot.argv j).Terminated := by
  simp only [handleCall_submitted, Option.mem_def, Option.some.injEq, forall_eq', Event.safe_iff]
  refine ⟨fun h => h.2, fun h => ⟨callRecord_argc_le call k slot, h⟩⟩

theorem handleExecve_safe (filename : Option UserString) (argv : Nat → ArgPtr) (k : Kernel)
    (task : Task) (hk : k.currentTask = some task) (slot : Event) :
    (∀ e ∈ (handleExecve filename argv k (some slot)).submitted, e.Safe) ↔
      execveArgc argv slot ≤ MAX_ARGS ∧ ∀ j : Fin MAX_ARGS, j.val < execveArgc argv slot →
        writes argv j = false → (slot.argv j).Terminated := by
  simp only [handleExecve_submitted filename argv k task hk slot, Option.mem_def, Option.some.injEq,
    forall_eq', Event.safe_iff]
  refine ⟨fun ⟨hargc, _, hargs⟩ => ⟨hargc, fun j hj hw => ?_⟩,
    fun ⟨hargc, hargs⟩ => ⟨hargc, (probeReadUserStr_string (by decide) _ _).2, fun j hj => ?_⟩⟩
  · have h := hargs j hj
    rw [execveRecord_argv, writeArgs_kept slot hw] at h
    exact h
  · rw [execveRecord_argv]
    cases hw : writes argv j
    · rw [writeArgs_kept slot hw]
      exact hargs j hj hw
    · exact (writeArgs_written slot hw).2

/-- A firing submits a safe record, or none, exactly when its slot is safe for it. -/
theorem Firing.safe_iff (f : Firing) : (∀ e ∈ f.op.submitted, e.Safe) ↔ f.SlotSafe := by
  obtain ⟨tp, k, slot⟩ := f
  cases slot with
  | none =>
    have hnone : (tp.handle k none).submitted = none := by
      cases tp with
      | sendto => rfl
      | socket => rfl
      | openat filename => rfl
      | execve filename argv =>
        show (handleExecve filename argv k none).submitted = none
        unfold handleExecve
        cases k.currentTask <;> rfl
    simp [op, SlotSafe, hnone]
  | some slot =>
    have hslot : (⟨tp, k, some slot⟩ : Firing).SlotSafe ↔ tp.SlotSafe k slot := by
      simp [SlotSafe]
    rw [hslot]
    cases tp with
    | sendto => exact handleCall_safe .SENDTO k slot
    | socket => exact handleCall_safe .SOCKET k slot
    | openat filename => simp [op, Tracepoint.handle, handleOpen, RingOp.submitted, Tracepoint.SlotSafe]
    | execve filename argv =>
      cases hk : k.currentTask with
      | none => simp [op, Tracepoint.handle, handleExecve, hk, RingOp.submitted, Tracepoint.SlotSafe]
      | some task =>
        simp only [Tracepoint.SlotSafe, hk, reduceCtorEq, false_or]
        exact handleExecve_safe filename argv k task hk slot

/-- A batch is read inside its records exactly when they are all safe. -/
theorem readBatch_isSome_iff (batch : List Event) :
    (batch.mapM readEvent).isSome = true ↔ ∀ e ∈ batch, e.Safe := by
  rw [mapM_isSome_iff]
  exact forall₂_congr fun e _ => readEvent_isSome_iff e

/-- **The records of a run are safe, and every batch of them is read inside its
records, exactly when every firing got a slot that is safe for it.** -/
theorem run_safe_iff (run : List Firing) :
    ((∀ e ∈ submitted run, e.Safe) ∧
      ∀ batch : List Event, batch ⊆ submitted run → (batch.mapM readEvent).isSome = true) ↔
    ∀ f ∈ run, f.SlotSafe := by
  have hrun : (∀ e ∈ submitted run, e.Safe) ↔ ∀ f ∈ run, f.SlotSafe := by
    simp only [submitted, List.mem_filterMap, forall_exists_index, and_imp, ← Firing.safe_iff]
    exact ⟨fun h f hf e he => h e f hf he, fun h e f hf he => h f hf e he⟩
  rw [← hrun]
  refine ⟨And.left, fun h => ⟨h, fun batch hbatch => ?_⟩⟩
  rw [readBatch_isSome_iff]
  exact fun e he => h e (hbatch he)

/-- An `execve` with thirteen arguments. -/
def thirteenArgs : Tracepoint :=
  .execve none fun i => if i < 13 then .ptr (some ⟨[97], by decide⟩) else .null

/-- Two of them in one slot of a fresh ring buffer, one after the other. -/
def reusedSlot : List Firing :=
  let first : Firing := ⟨thirteenArgs, ⟨0, 0, some ⟨none⟩⟩, some .zero⟩
  [first, {first with slot := first.op.submitted}]

/-- The second record counts twenty-six arguments. -/
theorem reusedSlot_unsafe : ¬ ((∀ e ∈ submitted reusedSlot, e.Safe) ∧
    ∀ batch : List Event, batch ⊆ submitted reusedSlot → (batch.mapM readEvent).isSome = true) := by
  intro h
  have hcounts : (submitted reusedSlot).map Event.argc = [13, 26] := by decide
  have hmem : (26 : UInt32) ∈ (submitted reusedSlot).map Event.argc := by
    rw [hcounts]
    exact List.mem_cons_of_mem _ (List.mem_cons_self ..)
  obtain ⟨e, he, hargc⟩ := List.mem_map.mp hmem
  have hle := (h.1 e he).argc
  rw [hargc] at hle
  exact absurd hle (by decide)

/-! ### Two runs that differ in the slot -/

/-- The JSON object the reader makes of a record, if it can. -/
def eventJson (now : Timespec) (e : Event) : Option CJson := (readEvent e).map (eventObject now)

/-- Two outcomes of a handler are reported alike: both submit nothing, or the
records they submit give one JSON event. -/
def SameReport (now : Timespec) (a b : RingOp) : Prop :=
  match a.submitted, b.submitted with
  | none, none => True
  | some x, some y => ∃ j, eventJson now x = some j ∧ eventJson now y = some j
  | _, _ => False

/-- Two arrays hold one string. -/
def SameString {n : Nat} (a b : CArray n) : Prop := a.Terminated ∧ b.Terminated ∧ a.string = b.string

/-- The slots agree on what is read of them and not written. -/
def Tracepoint.SlotsAgree (k : Kernel) (s t : Event) : Tracepoint → Prop
  | .sendto | .socket =>
    SameString s.filename t.filename ∧ ∀ j : Fin MAX_ARGS, j.val < 3 → SameString (s.argv j) (t.argv j)
  | .openat _ => True
  | .execve _ argv => k.currentTask = none ∨
    (s.argc = t.argc ∧ execveArgc argv s ≤ MAX_ARGS ∧
      ∀ j : Fin MAX_ARGS, j.val < execveArgc argv s → writes argv j = false →
        SameString (s.argv j) (t.argv j))

theorem sameString_iff {n : Nat} (a b : CArray n) :
    SameString a b ↔ ∃ s, readString a = some s ∧ readString b = some s := by
  simp only [readString_eq_some, SameString]
  exact ⟨fun ⟨ha, hb, h⟩ => ⟨_, ⟨ha, rfl⟩, hb, h.symm⟩,
    fun ⟨s, ⟨ha, hs⟩, hb, ht⟩ => ⟨ha, hb, hs.trans ht.symm⟩⟩

/-- Records that agree on what a handler always writes are reported alike exactly
when they hold the same strings and the same count, and can be read. -/
theorem sameJson_iff (now : Timespec) {x y : Event} (htime : x.timestamp = y.timestamp)
    (hcall : x.call = y.call) (hpid : x.pid = y.pid) (hppid : x.ppid = y.ppid) :
    (∃ j, eventJson now x = some j ∧ eventJson now y = some j) ↔
      SameString x.filename y.filename ∧ x.argc = y.argc ∧ x.argc.toNat ≤ MAX_ARGS ∧
        ∀ j : Fin MAX_ARGS, j.val < x.argc.toNat → SameString (x.argv j) (y.argv j) := by
  have hreadArg : ∀ (e : Event) (j : Fin MAX_ARGS), readArg e j = readString (e.argv j) :=
    fun e j => dif_pos j.isLt
  refine ⟨fun ⟨j, hx, hy⟩ => ?_, fun ⟨hfile, hargc, hle, hargs⟩ => ?_⟩
  · obtain ⟨r, hr, hrj⟩ := Option.map_eq_some_iff.mp hx
    obtain ⟨s, hs, hsj⟩ := Option.map_eq_some_iff.mp hy
    obtain ⟨hfile, hargc, hargv⟩ := eventObject_inj (hrj.trans hsj.symm)
    have hsafe := (readEvent_isSome_iff x).mp (hr ▸ rfl)
    obtain ⟨fx, ax, hfx, hax, rfl⟩ := readEvent_eq_some.mp hr
    obtain ⟨fy, ay, hfy, hay, rfl⟩ := readEvent_eq_some.mp hs
    obtain rfl : fx = fy := hfile
    obtain rfl : ax = ay := hargv
    have hcount : x.argc = y.argc := hargc
    rw [← hcount] at hay
    have hsame := mapM_eq_mapM hax hay
    refine ⟨(sameString_iff _ _).mpr ⟨fx, hfx, hfy⟩, hcount, hsafe.argc, fun j hj => ?_⟩
    have harg := hsame j (List.mem_range.mpr hj)
    have hsome := mapM_isSome_iff.mp (Option.isSome_iff_exists.mpr ⟨_, hax⟩) j (List.mem_range.mpr hj)
    rw [hreadArg, hreadArg] at harg
    rw [hreadArg] at hsome
    obtain ⟨s, hs⟩ := Option.isSome_iff_exists.mp hsome
    exact (sameString_iff _ _).mpr ⟨s, hs, harg ▸ hs⟩
  · obtain ⟨f, hfx, hfy⟩ := (sameString_iff _ _).mp hfile
    have hsafe : x.Safe := ⟨hle, hfile.1, fun j hj => (hargs j hj).1⟩
    obtain ⟨r, hr⟩ := Option.isSome_iff_exists.mp ((readEvent_isSome_iff x).mpr hsafe)
    obtain ⟨fx, ax, hfx', hax, rfl⟩ := readEvent_eq_some.mp hr
    obtain rfl : f = fx := Option.some.inj (hfx.symm.trans hfx')
    have hay : (List.range y.argc.toNat).mapM (readArg y) = some ax := by
      rw [← hargc, ← hax]
      apply mapM_congr
      intro j hj
      have hlt : j < MAX_ARGS := Nat.lt_of_lt_of_le (List.mem_range.mp hj) hle
      obtain ⟨s, hs, ht⟩ := (sameString_iff _ _).mp (hargs ⟨j, hlt⟩ (List.mem_range.mp hj))
      have hxj := hreadArg x ⟨j, hlt⟩
      have hyj := hreadArg y ⟨j, hlt⟩
      rw [hxj, hyj, hs, ht]
    have hreadY : readEvent y = some ⟨x.timestamp, x.call, x.pid, x.ppid, f, x.argc, ax⟩ :=
      readEvent_eq_some.mpr ⟨f, ax, hfy, hay, by rw [htime, hcall, hpid, hppid, hargc]⟩
    exact ⟨_, congrArg (Option.map _) hr, congrArg (Option.map _) hreadY⟩

theorem handleCall_sameReport (now : Timespec) (call : Syscalls) (k : Kernel) (s t : Event) :
    SameReport now (handleCall call k (some s)) (handleCall call k (some t)) ↔
      SameString s.filename t.filename ∧
        ∀ j : Fin MAX_ARGS, j.val < 3 → SameString (s.argv j) (t.argv j) := by
  have hjson := sameJson_iff now (x := callRecord call k s) (y := callRecord call k t) rfl rfl rfl rfl
  simp only [SameReport, handleCall_submitted, hjson]
  refine ⟨fun ⟨hfile, _, _, hargs⟩ => ⟨hfile, hargs⟩,
    fun ⟨hfile, hargs⟩ => ⟨hfile, rfl, callRecord_argc_le call k s, hargs⟩⟩

theorem handleExecve_sameReport (now : Timespec) (filename : Option UserString)
    (argv : Nat → ArgPtr) (k : Kernel) (task : Task) (hk : k.currentTask = some task) (s t : Event) :
    SameReport now (handleExecve filename argv k (some s)) (handleExecve filename argv k (some t)) ↔
      s.argc = t.argc ∧ execveArgc argv s ≤ MAX_ARGS ∧
        ∀ j : Fin MAX_ARGS, j.val < execveArgc argv s → writes argv j = false →
          SameString (s.argv j) (t.argv j) := by
  have hfile : SameString (probeReadUserStr s.filename filename).2
      (probeReadUserStr t.filename filename).2 := by
    obtain ⟨hs, hsT⟩ := probeReadUserStr_string (n := PATH_LEN) (by decide) s.filename filename
    obtain ⟨ht, htT⟩ := probeReadUserStr_string (n := PATH_LEN) (by decide) t.filename filename
    exact ⟨hsT, htT, hs.trans ht.symm⟩
  have hjson := sameJson_iff now (x := execveRecord filename argv k task s)
    (y := execveRecord filename argv k task t) rfl rfl rfl rfl
  simp only [SameReport, handleExecve_submitted filename argv k task hk, hjson]
  refine ⟨fun ⟨_, hargc, hle, hargs⟩ => ⟨?_, hle, fun j hj hw => ?_⟩,
    fun ⟨hargc, hle, hargs⟩ => ⟨hfile, ?_, hle, fun j hj => ?_⟩⟩
  · exact (UInt32.add_left_inj (UInt32.ofNat (captured argv))).mp hargc
  · have h := hargs j hj
    rw [execveRecord_argv, execveRecord_argv, writeArgs_kept s hw, writeArgs_kept t hw] at h
    exact h
  · show s.argc + _ = t.argc + _
    rw [hargc]
  · rw [execveRecord_argv, execveRecord_argv]
    cases hw : writes argv j
    · rw [writeArgs_kept s hw, writeArgs_kept t hw]
      exact hargs j hj hw
    · obtain ⟨hs, hsT⟩ := writeArgs_written s hw
      obtain ⟨ht, htT⟩ := writeArgs_written t hw
      exact ⟨hsT, htT, hs.trans ht.symm⟩

/-- **What is reported for a call depends on the call alone exactly between slots
that agree on what is read of them and not written.** -/
theorem sameReport_iff (now : Timespec) (tp : Tracepoint) (k : Kernel) (s t : Event) :
    SameReport now (tp.handle k (some s)) (tp.handle k (some t)) ↔ tp.SlotsAgree k s t := by
  cases tp with
  | sendto => exact handleCall_sameReport now .SENDTO k s t
  | socket => exact handleCall_sameReport now .SOCKET k s t
  | openat filename =>
    simp [Tracepoint.handle, handleOpen, SameReport, RingOp.submitted, Tracepoint.SlotsAgree]
  | execve filename argv =>
    cases hk : k.currentTask with
    | none =>
      simp [Tracepoint.handle, handleExecve, hk, SameReport, RingOp.submitted, Tracepoint.SlotsAgree]
    | some task =>
      simp only [Tracepoint.SlotsAgree, hk, reduceCtorEq, false_or]
      exact handleExecve_sameReport now filename argv k task hk s t

/-- An `execve` without arguments. -/
def noArgs : Tracepoint := .execve none fun _ => .null

/-- The slot an `execve` with one argument leaves behind. -/
def secondHand : Event :=
  ((Tracepoint.execve none fun i => if i = 0 then .ptr (some ⟨[115], by decide⟩) else .null).handle
    ⟨0, 0, some ⟨none⟩⟩ (some .zero)).submitted.getD .zero

/-- Without arguments of its own, a process is reported with those of the process
whose record was in the slot before. -/
theorem noArgs_leaks : ¬ SameReport ⟨1700000000, 0⟩
    (noArgs.handle ⟨0, 0, some ⟨none⟩⟩ (some .zero))
    (noArgs.handle ⟨0, 0, some ⟨none⟩⟩ (some secondHand)) := by
  intro h
  have hargc := ((handleExecve_sameReport _ none (fun _ => .null) ⟨0, 0, some ⟨none⟩⟩ ⟨none⟩ rfl
    .zero secondHand).mp h).1
  exact absurd hargc (by decide)

end EndpointSecurity.Agent
