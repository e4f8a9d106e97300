/-!
# Worklists

A worklist hands out items in the order they were offered and accepts each item once, even after it
has been handed out. Items may be added between two takes, so a worklist can explore a graph.
-/

namespace ServiceBindings

/-- The items ever accepted, in order of acceptance, and the position of the next one to hand
out. -/
structure Worklist (α : Type) where
  items : List α := []
  next : Nat := 0
  next_le : next ≤ items.length := by exact Nat.zero_le _
  deriving Repr

namespace Worklist

variable {α : Type}

/-- The items handed out so far, in order of acceptance. -/
def taken (work : Worklist α) : List α :=
  work.items.take work.next

/-- The items still pending, in order of acceptance. -/
def pending (work : Worklist α) : List α :=
  work.items.drop work.next

/-- Whether an item was ever accepted. -/
def contains [DecidableEq α] (work : Worklist α) (item : α) : Bool :=
  item ∈ work.items

/-- Accepts a new item, behind all others. -/
def append (work : Worklist α) (item : α) : Worklist α where
  items := work.items ++ [item]
  next := work.next
  next_le := by
    rw [List.length_append]
    apply Nat.le_add_right_of_le work.next_le

/-- Accepts an item unless it was accepted before. -/
def add [DecidableEq α] (work : Worklist α) (item : α) : Worklist α :=
  if item ∈ work.items then work else work.append item

/-- Accepts the new ones among several items, in order. -/
def addAll [DecidableEq α] (work : Worklist α) (items : List α) : Worklist α :=
  items.foldl add work

/-- The worklist that was offered the items of a list. -/
def ofList [DecidableEq α] (items : List α) : Worklist α :=
  addAll {} items

/-- Hands out the oldest pending item. -/
def take? (work : Worklist α) : Option (α × Worklist α) :=
  if h : work.next < work.items.length then
    some (work.items[work.next], { work with next := work.next + 1, next_le := h })
  else
    none

/-- Whether no item is pending. -/
def isEmpty (work : Worklist α) : Bool :=
  work.items.length ≤ work.next

/-- The number of items ever accepted. -/
def size (work : Worklist α) : Nat :=
  work.items.length

/-! ### Requests -/

/-- What a worklist can be asked for. -/
inductive Request (α : Type) where
  /-- To accept an item. -/
  | add (item : α)
  /-- To accept several items. -/
  | addAll (items : List α)
  /-- To hand out the oldest pending item. -/
  | take
  /-- To tell whether an item was ever accepted. -/
  | contains (item : α)
  deriving DecidableEq, Repr

/-- What a worklist replies. -/
inductive Reply (α : Type) where
  /-- Whether the item is accepted now, or was ever accepted. -/
  | verdict (holds : Bool)
  /-- The item that is handed out, if one is pending. -/
  | item (handed : Option α)
  /-- Nothing. -/
  | done
  deriving DecidableEq, Repr

/-- The reply to a request, and the worklist after it. -/
def serve [DecidableEq α] (work : Worklist α) : Request α → Reply α × Worklist α
  | .add item => (.verdict (!work.contains item), work.add item)
  | .addAll items => (.done, work.addAll items)
  | .take =>
    match work.take? with
    | some (item, rest) => (.item (some item), rest)
    | none => (.item none, work)
  | .contains item => (.verdict (work.contains item), work)

end Worklist

end ServiceBindings
