import EndpointSecurity.Agent.DeliveryOrder

/-! What the buffer holds and hands over.

A property of all events that arrive is one of all events in the buffer (`BufferHolds`), and
of every batch handed to `submit_events` (`handleEvent_holds`). For safe records the
call reads all of the batch (`submitEvents_safe`). -/
namespace EndpointSecurity.Agent
open Library

/-- The buffer counts right, stays within the slot behind its last one, and everything
in it is `P`. -/
structure BufferHolds (c : Config) (P : Event → Prop) (s : AgentState) : Prop where
  counting : Counting s
  most : s.eventCount ≤ c.bufferSize + 1
  all : ∀ e ∈ s.contents, P e

/-- A batch out of such a buffer. -/
structure HandedOver (c : Config) (P : Event → Prop) (b : Batch) : Prop where
  all : ∀ e ∈ b.events, P e
  least : c.batchSize ≤ b.events.length
  most : b.events.length ≤ c.bufferSize + 1

section Buffer
variable {c : Config} {P : Event → Prop} {s : AgentState}

theorem initial_holds (hc : 0 ≤ c.bufferSize) (memory : Int → Event) : BufferHolds c P (.initial memory) where
  counting := initial_counting memory
  most := by show (0 : Int) ≤ _; omega
  all e he := absurd he List.not_mem_nil

theorem received_holds (hc : c.bufferSize < INT_MAX) (hs : BufferHolds c P s) (a : Arrival) (ha : P a.event) :
    BufferHolds c P (s.received c a.event) where
  counting := received_counting hs.counting (Int.lt_trans hc (by decide)) (fun h => by have := h.1; omega) a.event
  most := by
    have hmost := hs.most
    unfold AgentState.received
    split
    · exact hmost
    · show s.eventCount + 1 ≤ _
      omega
  all := by
    rw [contents_received hs.counting.1 a, kept]
    refine List.forall_mem_append.mpr ⟨hs.all, ?_⟩
    split
    · exact fun e he => absurd he List.not_mem_nil
    · exact List.forall_mem_singleton.mpr ha

/-- What a call leaves in the buffer, and what it hands over. -/
theorem handleEvent_holds (hc : c.bufferSize < INT_MAX) (hs : BufferHolds c P s) (a : Arrival) (ha : P a.event) :
    BufferHolds c P (handleEvent c s a).2 ∧ ∀ b ∈ (handleEvent c s a).1.submitted, HandedOver c P b := by
  have hin := received_holds hc hs a ha
  obtain ⟨hsubmitted, hafter⟩ := handleEvent_received hs.counting (Int.lt_trans hc (by decide))
    (fun h => by have := h.1; omega) a
  rw [hsubmitted, hafter]
  refine ⟨?_, fun b hb => ?_⟩
  · split
    · have hmost := hs.most
      have hlow := hs.counting.1
      exact ⟨⟨Int.le_refl 0, Int.natCast_nonneg _⟩, by show (0 : Int) ≤ _; omega,
        fun e he => absurd he List.not_mem_nil⟩
    · exact hin
  · split at hb
    · rename_i hge
      obtain rfl := Option.some.inj hb
      have hlength := contents_length (s.received c a.event)
      have hlow := hin.counting.1
      have hmost := hin.most
      refine ⟨hin.all, ?_, ?_⟩
      · show c.batchSize ≤ ((s.received c a.event).contents.length : Int)
        omega
      · show ((s.received c a.event).contents.length : Int) ≤ _
        omega
    · cases hb

end Buffer

/-! ### Batches that are safe to read -/

section Batch
variable {events : List Event}

theorem readBatch_safe (hsafe : ∀ e ∈ events, e.Safe) :
    events.mapM readEvent = some (events.map Event.reading) := by
  rw [mapM_congr fun e he => readEvent_safe (hsafe e he)]
  exact List.mapM_pure

/-- The post of a batch that is safe to read. -/
theorem submitEvents_safe (c : Config) (clock : Nat → Timespec) (hsafe : ∀ e ∈ events, e.Safe) (res : Nat) :
    submitEvents c clock (.performs res) events = some ⟨0, some {
      url := c.api.string
      headers := [lit "Content-Type: application/json", authHeader c]
      body := printUnformatted (batchObject c.id.string clock (events.map Event.reading)) }⟩ := by
  unfold submitEvents
  rw [readBatch_safe hsafe]
  rfl

end Batch

end EndpointSecurity.Agent
