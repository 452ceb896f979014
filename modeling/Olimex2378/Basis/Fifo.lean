import Mathlib.Data.List.Basic

/-!
# Bounded queues

A first-in first-out queue of limited size, as its client sees it: operations on an opaque
queue, and the list of items that the operations read and change. The laws are fields, so a
client that takes a `Fifo` takes every implementation that keeps them. `Fifo.ofList` is one.
-/

namespace Olimex2378

/-- A bounded first-in first-out queue: its operations, the items a queue holds from the
oldest to the newest, and what each operation does to them. A refused operation returns no
queue, so its caller keeps the queue it had. -/
structure Fifo (α : Type) where
  /-- A queue, with everything the operations need of it. -/
  Queue : Type
  /-- Empty a queue. -/
  init : Queue → Queue
  /-- Add a newest item, or refuse it. -/
  put : Queue → α → Option Queue
  /-- Take the oldest item, or refuse. -/
  get : Queue → Option (α × Queue)
  /-- Number of items that can be taken. -/
  avail : Queue → Nat
  /-- Number of items that can be added. -/
  free : Queue → Nat
  /-- Number of items a queue can hold. -/
  capacity : Nat
  /-- The items held, oldest first. -/
  items : Queue → List α
  /-- An emptied queue holds nothing. -/
  items_init : ∀ queue, items (init queue) = []
  /-- Only a full queue refuses an item. -/
  put_refuses : ∀ queue item, put queue item = none ↔ capacity ≤ (items queue).length
  /-- An item added is the newest. -/
  put_items : ∀ queue item next, put queue item = some next → items next = items queue ++ [item]
  /-- Only an empty queue has no item to take. -/
  get_refuses : ∀ queue, get queue = none ↔ items queue = []
  /-- The item taken is the oldest. -/
  get_items : ∀ queue item next, get queue = some (item, next) → items queue = item :: items next

namespace Fifo

variable {α : Type}

/-- The two counters of a queue agree with the items it holds. -/
structure Counted (fifo : Fifo α) : Prop where
  /-- The number of items to take is the number held. -/
  avail_items : ∀ queue, fifo.avail queue = (fifo.items queue).length
  /-- The number of items to add is the room left. -/
  free_items : ∀ queue, fifo.free queue = fifo.capacity - (fifo.items queue).length

variable (fifo : Fifo α)

/-- A queue with room takes an item. -/
theorem put_accepts {queue : fifo.Queue} (item : α)
    (room : (fifo.items queue).length < fifo.capacity) :
    ∃ next, fifo.put queue item = some next ∧ fifo.items next = fifo.items queue ++ [item] := by
  cases result : fifo.put queue item with
  | none =>
    have full := (fifo.put_refuses queue item).mp result
    omega
  | some next => exact ⟨next, rfl, fifo.put_items queue item next result⟩

/-- A queue has room exactly when it takes an item. -/
theorem put_isSome (queue : fifo.Queue) (item : α) :
    (fifo.put queue item).isSome = true ↔ (fifo.items queue).length < fifo.capacity := by
  have refuses := fifo.put_refuses queue item
  cases result : fifo.put queue item with
  | none => simpa [result] using refuses
  | some next => simpa [result] using refuses

/-- A queue with a counter of its items is nonempty when the counter is not zero. -/
theorem Counted.avail_ne_zero {fifo : Fifo α} (counted : fifo.Counted) (queue : fifo.Queue) :
    fifo.avail queue ≠ 0 ↔ fifo.items queue ≠ [] := by
  rw [counted.avail_items, Ne, List.length_eq_zero_iff]

/-- The queue kept as the list of its items. -/
def ofList (α : Type) (capacity : Nat) : Fifo α where
  Queue := { items : List α // items.length ≤ capacity }
  init _ := ⟨[], Nat.zero_le _⟩
  put queue item :=
    if room : queue.val.length < capacity then
      some ⟨queue.val ++ [item], by simpa using Nat.succ_le_of_lt room⟩
    else none
  get queue :=
    match queue with
    | ⟨[], _⟩ => none
    | ⟨item :: rest, bound⟩ => some (item, ⟨rest, Nat.le_of_succ_le bound⟩)
  avail queue := queue.val.length
  free queue := capacity - queue.val.length
  capacity := capacity
  items queue := queue.val
  items_init _ := rfl
  put_refuses queue item := by
    split <;> simp <;> omega
  put_items queue item next accepted := by
    split at accepted
    · obtain rfl := Option.some.inj accepted
      rfl
    · contradiction
  get_refuses queue := by
    obtain ⟨items, bound⟩ := queue
    cases items <;> simp
  get_items queue item next taken := by
    obtain ⟨items, bound⟩ := queue
    cases items with
    | nil => simp at taken
    | cons first rest =>
      simp only [Option.some.injEq, Prod.mk.injEq] at taken
      obtain ⟨rfl, rfl⟩ := taken
      rfl

/-- The counters of the list queue agree with its items. -/
theorem ofList_counted (α : Type) (capacity : Nat) : (ofList α capacity).Counted :=
  ⟨fun _ => rfl, fun _ => rfl⟩

/-- The list queue with nothing in it. -/
def empty (α : Type) (capacity : Nat) : (ofList α capacity).Queue := ⟨[], Nat.zero_le _⟩

end Fifo

end Olimex2378
