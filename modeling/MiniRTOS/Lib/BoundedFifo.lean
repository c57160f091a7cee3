/-! # Bounded first-in-first-out queues

The queue as its users see it: a list of at most `cap` items, oldest first. A queue of capacity one can
also be used as a mailbox, whose only item is overwritten.

* **`step`** — one operation and its answer. -/

namespace BoundedFifo

universe u

variable {α : Type u}

/-- The operations on a queue of items of type `α`. -/
inductive Op (α : Type u)
  /-- Append an item. -/
  | send (x : α)
  /-- Take the first item. -/
  | receive
  /-- Look at the first item. -/
  | peek
  /-- Put an item in the place of the only one. -/
  | overwrite (x : α)
  /-- Drop all items. -/
  | reset

/-- What an operation answers. -/
inductive Answer (α : Type u)
  /-- The call was accepted. -/
  | accepted
  /-- It returned an item. -/
  | item (x : α)
  /-- There was no room. -/
  | full
  /-- There was no item. -/
  | empty
  /-- The call is not for this queue. -/
  | refused

/-- **One operation.** -/
def step (cap : Nat) (l : List α) : Op α → List α × Answer α
  | .send x => if l.length < cap then (l ++ [x], .accepted) else (l, .full)
  | .receive =>
      match l with
      | [] => ([], .empty)
      | x :: r => (r, .item x)
  | .peek =>
      match l with
      | [] => ([], .empty)
      | x :: r => (x :: r, .item x)
  | .overwrite x => if cap = 1 then ([x], .accepted) else (l, .refused)
  | .reset => ([], .accepted)

end BoundedFifo
