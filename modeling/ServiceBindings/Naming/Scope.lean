/-!
# Name scopes

A scope holds the names taken in one place of the generated code, such as the variants of an enum.
A name asked for a second time gets a number, the smallest from `2` on that makes it free.
-/

namespace ServiceBindings

/-- The names taken in one place, the latest first. -/
structure NameScope where
  taken : List String := []
  deriving Repr

namespace NameScope

/-- The first among `candidate n`, `candidate (n + 1)`, ... that is not taken, looking at `tries` of
them before the next one is accepted unseen. -/
def firstFree {α : Type} (isTaken : α → Bool) (candidate : Nat → α) : Nat → Nat → α
  | 0, n => candidate n
  | tries + 1, n =>
    if isTaken (candidate n) then firstFree isTaken candidate tries (n + 1) else candidate n

/-- The name that `base` gets: `base` itself, or the first free one of `base2`, `base3`, ... -/
def nameFor (scope : NameScope) (base : String) : String :=
  if base ∈ scope.taken then
    firstFree (· ∈ scope.taken) (fun n => base ++ toString n) scope.taken.length 2
  else
    base

/-- Reserves a name for `base`. -/
def assign (scope : NameScope) (base : String) : String × NameScope :=
  let name := scope.nameFor base
  (name, ⟨name :: scope.taken⟩)

/-- The names that a list of bases gets, one after the other. -/
def assignAll (scope : NameScope) : List String → List String × NameScope
  | [] => ([], scope)
  | base :: bases =>
    let (name, scope) := scope.assign base
    let (names, scope) := scope.assignAll bases
    (name :: names, scope)

end NameScope

end ServiceBindings
