import Mathlib.Data.List.Nodup
import Mathlib.Tactic.Use
import ServiceBindings.Worklist

/-!
# What a worklist accepts

Offering an item accepts it unless it was accepted before, so no item is accepted twice.  Handing
out an item only moves the position of the next one past it.  So whatever is asked of a worklist,
the items handed out so far and then the pending ones are the first occurrences of the items that
were offered so far.
-/

namespace ServiceBindings

namespace Worklist

variable {α : Type} {work rest : Worklist α} {item : α}

/-- What was handed out and then what is pending is all that was accepted. -/
theorem taken_append_pending (work : Worklist α) :
  work.taken ++ work.pending = work.items :=
  List.take_append_drop work.next work.items

section Append

variable (work) (item : α)

theorem taken_append : (work.append item).taken = work.taken :=
  List.take_append_of_le_length work.next_le

theorem pending_append : (work.append item).pending = work.pending ++ [item] :=
  List.drop_append_of_le_length work.next_le

end Append

section

variable [DecidableEq α]

/-- An item that was accepted before is not accepted again. -/
theorem add_of_mem (h : item ∈ work.items) : work.add item = work :=
  if_pos h

theorem add_of_not_mem (h : item ∉ work.items) : work.add item = work.append item :=
  if_neg h

/-- Offering an item accepts it and takes nothing back. -/
theorem mem_items_add (work : Worklist α) (item other : α) :
  other ∈ (work.add item).items ↔ other ∈ work.items ∨ other = item
  := by
  by_cases h : item ∈ work.items
  · rw [add_of_mem h]
    constructor
    · apply Or.inl
    · rintro (hother | rfl)
      · apply hother
      · apply h
  · rw [add_of_not_mem h]
    simp [append]

/-- Each item is accepted once. -/
theorem items_add_nodup (item : α) (h : work.items.Nodup) :
  (work.add item).items.Nodup
  := by
  by_cases hitem : item ∈ work.items
  · rw [add_of_mem hitem]
    apply h
  · rw [add_of_not_mem hitem]
    apply List.Nodup.append h (List.nodup_singleton item)
    rw [List.disjoint_singleton]
    apply hitem

/-- Offering an item hands out none. -/
theorem taken_add (work : Worklist α) (item : α) : (work.add item).taken = work.taken := by
  unfold add
  split
  case isTrue => rfl
  case isFalse => apply taken_append

end

/-- The oldest pending item is handed out. -/
theorem take?_eq_some (h : work.take? = some (item, rest)) :
  work.pending = item :: rest.pending ∧ rest.taken = work.taken ++ [item]
  := by
  rw [take?] at h
  split at h
  case isTrue hnext =>
    cases h
    exact ⟨List.drop_eq_getElem_cons hnext, (List.take_append_getElem hnext).symm⟩
  case isFalse => cases h

/-- Handing out an item accepts nothing. -/
theorem items_take? (h : work.take? = some (item, rest)) : rest.items = work.items := by
  obtain ⟨hpending, htaken⟩ := take?_eq_some h
  rw [← taken_append_pending rest, ← taken_append_pending work, hpending, htaken,
    List.append_assoc]
  rfl

theorem take?_eq_none : work.take? = none ↔ work.pending = [] := by
  rw [take?, pending, List.drop_eq_nil_iff]
  split
  case isTrue hnext => simp [hnext]
  case isFalse hnext => simp [Nat.le_of_not_lt hnext]

/-! ### Histories -/

/-- The items that a request offers. -/
def Request.offered : Request α → List α
  | .add item => [item]
  | .addAll items => items
  | .take | .contains _ => []

/-- The items that a reply hands out. -/
def Reply.handed : Reply α → List α
  | .item (some handed) => [handed]
  | .item none | .verdict _ | .done => []

variable [DecidableEq α]

/-- The replies to requests that are made one after the other, and the worklist after them. -/
def serveAll (work : Worklist α) : List (Request α) → List (Reply α) × Worklist α
  | [] => ([], work)
  | request :: requests =>
    let (reply, next) := work.serve request
    let (replies, last) := next.serveAll requests
    (reply :: replies, last)

/-- Whether a worklist is what a history leaves, in which some items were offered and some handed
out. -/
structure Records (work : Worklist α) (offered handed : List α) : Prop where
  items : work.items = offered.eraseDups
  taken : work.taken = handed

/-- An item at the end is a first occurrence if it does not occur before. -/
theorem eraseDups_concat (items : List α) (item : α) :
  (items ++ [item]).eraseDups
    = if item ∈ items then items.eraseDups else items.eraseDups ++ [item]
  := by
  rw [List.eraseDups_append]
  split
  case isTrue h => simp [List.removeAll, h]
  case isFalse h => simp [List.removeAll, h, List.eraseDups_cons]

namespace Records

variable {offered handed : List α}

theorem mem_items (h : work.Records offered handed) :
  item ∈ work.items ↔ item ∈ offered
  := by
  rw [h.items, List.mem_eraseDups]

theorem contains_eq (h : work.Records offered handed) (item : α) :
  work.contains item = decide (item ∈ offered)
  := by
  rw [contains, decide_eq_decide]
  apply h.mem_items

/-- The pending items are the first occurrences that were not handed out yet. -/
theorem handed_append_pending (h : work.Records offered handed) :
  handed ++ work.pending = offered.eraseDups
  := by
  rw [← h.taken, ← h.items, taken_append_pending]

theorem add (h : work.Records offered handed) (item : α) :
  (work.add item).Records (offered ++ [item]) handed
  := by
  constructor
  case items =>
    rw [eraseDups_concat, ← h.items]
    split
    case isTrue hmem => rw [add_of_mem (h.mem_items.mpr hmem)]
    case isFalse hmem => rw [add_of_not_mem (h.mem_items.not.mpr hmem), append]
  case taken => rw [taken_add, h.taken]

theorem addAll (h : work.Records offered handed) (items : List α) :
  (work.addAll items).Records (offered ++ items) handed
  := by
  induction items generalizing work offered with
  | nil =>
      rw [List.append_nil]
      apply h
  | cons item items ih =>
      rw [List.append_cons]
      apply ih (h.add item)

theorem ofList (items : List α) : (Worklist.ofList items).Records items [] := by
  have hempty : Records ({} : Worklist α) [] [] := ⟨rfl, rfl⟩
  apply hempty.addAll

theorem take? (h : work.Records offered handed) (htake : work.take? = some (item, rest)) :
  rest.Records offered (handed ++ [item])
  := by
  constructor
  case items => rw [items_take? htake, h.items]
  case taken => rw [(take?_eq_some htake).2, h.taken]

/-- A request is recorded with what it offers and what the reply hands out. -/
theorem serve (h : work.Records offered handed) (request : Request α) :
  (work.serve request).2.Records (offered ++ request.offered)
    (handed ++ (work.serve request).1.handed)
  := by
  cases request with
  | add item => simpa [Worklist.serve, Request.offered, Reply.handed] using h.add item
  | addAll items => simpa [Worklist.serve, Request.offered, Reply.handed] using h.addAll items
  | take =>
      rw [Request.offered, List.append_nil, Worklist.serve]
      split
      case h_1 htake => exact h.take? htake
      case h_2 =>
        rw [Reply.handed, List.append_nil]
        apply h
  | contains item => simpa [Worklist.serve, Request.offered, Reply.handed] using h

/-- So are requests that are made one after the other. -/
theorem serveAll (h : work.Records offered handed) (requests : List (Request α)) :
  (work.serveAll requests).2.Records (offered ++ requests.flatMap Request.offered)
    (handed ++ (work.serveAll requests).1.flatMap Reply.handed)
  := by
  induction requests generalizing work offered handed with
  | nil => simpa [Worklist.serveAll] using h
  | cons request requests ih =>
      simpa [Worklist.serveAll, List.append_assoc] using ih (h.serve request)

end Records

/-- Whatever is asked of a worklist, the items handed out so far are the beginning of the first
occurrences of the items offered so far, and the pending items are the rest of them.  An item is
accepted if it was never offered before and known if it was, nothing is handed out only if nothing
is pending, and every item that was accepted has been handed out or is pending. -/
theorem serveAll_first_occurrences {initial : List α} {requests : List (Request α)}
    {replies : List (Reply α)} (h : (ofList initial).serveAll requests = (replies, work)) :
  let offered := initial ++ requests.flatMap Request.offered
  let handed := replies.flatMap Reply.handed
  handed ++ work.pending = offered.eraseDups
    ∧ (∀ item, (work.serve (.add item)).1 = .verdict (item ∉ offered))
    ∧ (∀ item, (work.serve (.contains item)).1 = .verdict (item ∈ offered))
    ∧ ((work.serve .take).1 = .item none ↔ work.pending = [])
    ∧ work.size = handed.length + work.pending.length
  := by
  intro offered handed
  have hrecords : work.Records offered handed := by
    simpa [h] using (Records.ofList initial).serveAll requests
  refine ⟨hrecords.handed_append_pending, ?_, ?_, ?_, ?_⟩
  · intro item
    rw [serve, hrecords.contains_eq, decide_not]
  · intro item
    rw [serve, hrecords.contains_eq]
  · rw [← take?_eq_none, serve]
    split
    case h_1 htake => simp [htake]
    case h_2 htake => simp [htake]
  · rw [size, ← taken_append_pending, hrecords.taken, List.length_append]

/-- Items are offered again after they were handed out and while they are pending. -/
theorem serveAll_first_occurrences_again :
  let work : Worklist Nat := { items := [2, 3, 1], next := 2, next_le := by decide }
  (ofList [2]).serveAll [.add 3, .take, .addAll [1, 3, 2, 1], .take, .contains 3, .add 2]
      = ([.verdict true, .item (some 2), .done, .item (some 3), .verdict true, .verdict false], work)
    ∧ [2, 3] ++ work.pending = [2, 3, 1]
    ∧ (work.serve (.add 3)).1 = .verdict false
    ∧ (work.serve (.contains 4)).1 = .verdict false
    ∧ ¬(work.serve .take).1 = .item none
    ∧ work.size = 2 + work.pending.length
  := by
  intro work
  refine (and_iff_left_of_imp ?_).mpr rfl
  intro hrun
  obtain ⟨hpending, hadd, hcontains, htake, hsize⟩ := serveAll_first_occurrences hrun
  exact ⟨hpending, hadd 3, hcontains 4, htake.not.mpr (List.cons_ne_nil 1 []), hsize⟩

end Worklist

end ServiceBindings
