import EndpointSecurity.Library.CString

/-! The record both sides of the ring buffer share: `struct event`.

A slot of the ring buffer is a record too, with whatever bytes an earlier record
left in it. -/
namespace EndpointSecurity.Agent
open Library

abbrev MAX_ARGS : Nat := 25
abbrev ARG_LEN : Nat := 128
abbrev PATH_LEN : Nat := 256

inductive Syscalls where
  | EXECVE
  | OPENAT
  | SOCKET
  | SENDTO
deriving DecidableEq

/-- The `int` behind an enumerator. -/
def Syscalls.value : Syscalls → Int32
  | EXECVE => 0
  | OPENAT => 1
  | SOCKET => 2
  | SENDTO => 3

@[ext] structure Event where
  timestamp : UInt64
  pid : UInt32
  call : Int32
  ppid : UInt32
  filename : CArray PATH_LEN
  argc : UInt32
  argv : Fin MAX_ARGS → CArray ARG_LEN

/-- A slot of a ring buffer nothing was written to. -/
def Event.zero : Event := ⟨0, 0, 0, 0, .zero PATH_LEN, 0, fun _ => .zero ARG_LEN⟩

/-- What the reader in user space relies on: the count stays inside `argv`, and
every string it will read ends inside its own array. -/
structure Event.Safe (e : Event) : Prop where
  argc : e.argc.toNat ≤ MAX_ARGS
  filename : e.filename.Terminated
  argv : ∀ j : Fin MAX_ARGS, j.val < e.argc.toNat → (e.argv j).Terminated

theorem Event.safe_iff (e : Event) : e.Safe ↔ e.argc.toNat ≤ MAX_ARGS ∧ e.filename.Terminated ∧
    ∀ j : Fin MAX_ARGS, j.val < e.argc.toNat → (e.argv j).Terminated :=
  ⟨fun h => ⟨h.argc, h.filename, h.argv⟩, fun h => ⟨h.1, h.2.1, h.2.2⟩⟩

instance (e : Event) : Decidable e.Safe := decidable_of_iff' _ e.safe_iff

end EndpointSecurity.Agent
