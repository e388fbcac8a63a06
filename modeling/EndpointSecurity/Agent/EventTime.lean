import EndpointSecurity.Agent.Submit

/-! The times a batch is reported with.

A record carries nanoseconds since boot, and `submit_events` reads only the realtime
clock. Subtracting the one from the other gives the boot time plus the age of the
event, where the time of the event is the boot time plus its time since boot: the
report runs backwards, and is right only for an event whose age falls in the same
second as its time since boot (`timesReported_iff`). -/
namespace EndpointSecurity.Agent
open Library

/-- A reading of the realtime clock, in nanoseconds. -/
def Timespec.nanoseconds (now : Timespec) : Nat := now.tvSec.toNat * 1000000000 + now.tvNsec.toNat

/-! ### What the JSON says -/

def CJson.member (name : String) : CJson → Option CJson
  | .object members => members.lookup (lit name)
  | _ => none

def CJson.items : CJson → List CJson
  | .array items => items
  | _ => []

def CJson.toInt : CJson → Option Int
  | .number d => some d.val
  | _ => none

/-- The timestamps in the JSON of a batch. -/
def reportedTimes (root : CJson) : List (Option Int) :=
  ((root.member "events").elim [] CJson.items).map fun event =>
    (event.member "timestamp").bind CJson.toInt

theorem eventObject_timestamp (now : Timespec) (r : Reading) :
    ((eventObject now r).member "timestamp").bind CJson.toInt =
      some ((convertNsToUnix now r.timestamp).toNat : Int) := by
  rw [eventObject, CJson.member, List.lookup_cons_self, Option.bind_some]
  rfl

theorem reportedTimes_batchObject (id : List UInt8) (clock : Nat → Timespec) (batch : List Reading) :
    reportedTimes (batchObject id clock batch) =
      batch.mapIdx fun i r => some ((convertNsToUnix (clock i) r.timestamp).toNat : Int) := by
  have hevents : (batchObject id clock batch).member "events" =
      some (.array (batch.mapIdx fun i r => eventObject (clock i) r)) := by
    have hname : (lit "events" == lit "id") = false := by decide
    rw [batchObject, CJson.member, List.lookup_cons, hname, List.lookup_cons_self]
  rw [reportedTimes, hevents, Option.elim_some, CJson.items]
  apply List.ext_getElem?
  intro i
  rw [List.getElem?_map, List.getElem?_mapIdx, List.getElem?_mapIdx, Option.map_map]
  cases batch[i]? with
  | none => rfl
  | some r => simp only [Option.map_some, Function.comp_apply, eventObject_timestamp]

/-! ### The conversion -/

/-- What `convert_ns_to_unix` computes of readings that make sense. -/
theorem convertNsToUnix_toNat {now : Timespec} {a : UInt64} (hnow : now.nanoseconds < 2 ^ 64)
    (ha : a.toNat ≤ now.nanoseconds) :
    (convertNsToUnix now a).toNat = (now.nanoseconds - a.toNat) / 10 ^ 9 := by
  have hcurrent : (now.tvSec * 1000000000 + now.tvNsec).toNat = now.nanoseconds := by
    rw [UInt64.toNat_add, UInt64.toNat_mul, Nat.mod_add_mod]
    exact Nat.mod_eq_of_lt hnow
  unfold convertNsToUnix
  rw [UInt64.toNat_div, UInt64.toNat_sub_of_le _ _ (by rw [UInt64.le_iff_toNat_le, hcurrent]; exact ha),
    hcurrent]
  rfl

/-! ### A batch -/

/-- The clocks when a record is converted: `m i` is the monotonic one, which has
passed the record, and the realtime one is ahead of it and fits 64 bits. -/
structure ClockReadings (clock : Nat → Timespec) (m : Nat → Nat) (batch : List Reading) : Prop where
  passed : ∀ i (h : i < batch.length), batch[i].timestamp.toNat ≤ m i
  booted : ∀ i, i < batch.length → m i ≤ (clock i).nanoseconds
  fits : ∀ i, i < batch.length → (clock i).nanoseconds < 2 ^ 64

/-- Records in the order they were made, converted one after another by clocks that
are not set meanwhile. -/
structure InSequence (clock : Nat → Timespec) (m : Nat → Nat) (batch : List Reading) : Prop where
  records : ∀ i (hi : i < batch.length) j (hj : j < batch.length), i ≤ j →
    batch[i].timestamp ≤ batch[j].timestamp
  conversions : ∀ i j, i ≤ j → j < batch.length → m i ≤ m j
  boot : ∀ i j, i < batch.length → j < batch.length →
    (clock i).nanoseconds - m i = (clock j).nanoseconds - m j

/-- The events are reported with their own times, and so in their order. -/
structure TimesReported (id : List UInt8) (clock : Nat → Timespec) (m : Nat → Nat)
    (batch : List Reading) : Prop where
  exact : reportedTimes (batchObject id clock batch) = batch.mapIdx fun i r =>
    some ((((clock i).nanoseconds - (m i - r.timestamp.toNat)) / 10 ^ 9 : Nat) : Int)
  ordered : InSequence clock m batch →
    (reportedTimes (batchObject id clock batch)).Pairwise fun x y => ∀ s ∈ x, ∀ t ∈ y, s ≤ t

/-- Readings in the same second. -/
def SameSecond (x y : Nat) : Prop := x / 10 ^ 9 = y / 10 ^ 9

/-- The time of an event is the boot time plus its time since boot. -/
theorem eventTime_eq {R m a : Nat} (ha : a ≤ m) (hm : m ≤ R) : R - (m - a) = (R - m) + a := by
  omega

/-- Events with their own times are in their order. -/
theorem exact_ordered {clock : Nat → Timespec} {m : Nat → Nat} {batch : List Reading}
    (h : ClockReadings clock m batch) (hseq : InSequence clock m batch) :
    (batch.mapIdx fun i r => some
      ((((clock i).nanoseconds - (m i - r.timestamp.toNat)) / 10 ^ 9 : Nat) : Int)).Pairwise
        fun x y => ∀ s ∈ x, ∀ t ∈ y, s ≤ t := by
  rw [List.pairwise_iff_getElem]
  intro i j hi hj hij s hs t ht
  rw [List.length_mapIdx] at hi hj
  rw [List.getElem_mapIdx] at hs ht
  obtain rfl := Option.some.inj hs
  obtain rfl := Option.some.inj ht
  have hrecords := UInt64.le_iff_toNat_le.mp (hseq.records i hi j hj (Nat.le_of_lt hij))
  have hboot := hseq.boot i j hi hj
  rw [eventTime_eq (h.passed i hi) (h.booted i hi), eventTime_eq (h.passed j hj) (h.booted j hj), hboot]
  have hle : (clock j).nanoseconds - m j + batch[i].timestamp.toNat ≤
      (clock j).nanoseconds - m j + batch[j].timestamp.toNat := Nat.add_le_add_left hrecords _
  exact Int.ofNat_le.mpr (Nat.div_le_div_right hle)

/-- **A batch is reported with the times of its events exactly when for each of them
the time of the event and the realtime clock less its time since boot fall in one
second.** -/
theorem timesReported_iff (id : List UInt8) {clock : Nat → Timespec} {m : Nat → Nat}
    {batch : List Reading} (h : ClockReadings clock m batch) :
    TimesReported id clock m batch ↔ ∀ i (hi : i < batch.length),
      SameSecond ((clock i).nanoseconds - batch[i].timestamp.toNat)
        ((clock i).nanoseconds - (m i - batch[i].timestamp.toNat)) := by
  have hexact : reportedTimes (batchObject id clock batch) = batch.mapIdx (fun i r =>
      some ((((clock i).nanoseconds - (m i - r.timestamp.toNat)) / 10 ^ 9 : Nat) : Int)) ↔
      ∀ i (hi : i < batch.length), SameSecond ((clock i).nanoseconds - batch[i].timestamp.toNat)
        ((clock i).nanoseconds - (m i - batch[i].timestamp.toNat)) := by
    rw [reportedTimes_batchObject, List.mapIdx_eq_mapIdx_iff]
    refine forall₂_congr fun i hi => ?_
    have hle : batch[i].timestamp.toNat ≤ (clock i).nanoseconds :=
      Nat.le_trans (h.passed i hi) (h.booted i hi)
    rw [convertNsToUnix_toNat (h.fits i hi) hle, Option.some.injEq, Int.natCast_inj]
    rfl
  refine ⟨fun hreport => hexact.mp hreport.exact, fun hsame => ⟨hexact.mpr hsame, fun hseq => ?_⟩⟩
  rw [hexact.mpr hsame]
  exact exact_ordered h hseq

/-- A `socket` call at a time since boot. -/
def calledAt (timestamp : UInt64) : Reading := ⟨timestamp, 2, 1, 0, [], 0, []⟩

/-- Two events five seconds after boot are reported in time five seconds later. -/
theorem timesReported_middle :
    TimesReported (lit "1") (fun i => ⟨1700000000, if i = 0 then 0 else 400⟩)
      (fun i => if i = 0 then 10000000000 else 10000000400) [calledAt 5000000000, calledAt 5000000200] :=
  (timesReported_iff (lit "1") ⟨by decide, by decide, by decide⟩).mpr
    (by unfold SameSecond; decide)

/-- An event at boot and one five seconds later, converted there and then: the later
one is reported five seconds before the other. -/
theorem timesReported_reversed :
    ClockReadings (fun _ => ⟨1700000000, 0⟩) (fun _ => 5000000000) [calledAt 0, calledAt 5000000000] ∧
      InSequence (fun _ => ⟨1700000000, 0⟩) (fun _ => 5000000000) [calledAt 0, calledAt 5000000000] ∧
      ¬ TimesReported (lit "1") (fun _ => ⟨1700000000, 0⟩) (fun _ => 5000000000)
        [calledAt 0, calledAt 5000000000] := by
  have hseq : InSequence (fun _ => ⟨1700000000, 0⟩) (fun _ => 5000000000)
      [calledAt 0, calledAt 5000000000] :=
    ⟨by decide, fun _ _ _ _ => Nat.le_refl _, fun _ _ _ _ => rfl⟩
  have hreported : reportedTimes (batchObject (lit "1") (fun _ => ⟨1700000000, 0⟩)
      [calledAt 0, calledAt 5000000000]) = [some 1700000000, some 1699999995] := by
    rw [reportedTimes_batchObject]
    decide
  refine ⟨⟨by decide, by decide, by decide⟩, hseq, fun h => ?_⟩
  have hordered := h.ordered hseq
  rw [hreported] at hordered
  have hle := (List.pairwise_cons.mp hordered).1 _ (List.mem_singleton_self _) 1700000000 rfl
    1699999995 rfl
  exact absurd hle (by decide)

end EndpointSecurity.Agent
