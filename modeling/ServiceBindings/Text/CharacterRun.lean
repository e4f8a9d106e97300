/-!
# Runs of characters

Properties of characters beyond ASCII are given as lists of runs: the code points from a first to a
last one at a fixed distance from each other. A shifted run also says by how much its members move
when they are mapped to another character.
-/

namespace ServiceBindings.Text

/-- A first code point, a last one, and the distance between neighbours. -/
abbrev CharacterRun := Nat × Nat × Nat

/-- A run whose members are all moved by the same distance. -/
abbrev ShiftedRun := Nat × Nat × Nat × Int

/-- Whether a code point lies in a run. -/
def CharacterRun.holds (run : CharacterRun) (n : Nat) : Bool :=
  run.1 ≤ n && n ≤ run.2.1 && (n - run.1) % run.2.2 == 0

/-- Whether a code point lies in one of the runs. -/
def inRuns (runs : List CharacterRun) (n : Nat) : Bool :=
  runs.any fun run => run.holds n

/-- Where a run moves a code point, if the run holds it. -/
def ShiftedRun.move (run : ShiftedRun) (n : Nat) : Option Nat :=
  if CharacterRun.holds (run.1, run.2.1, run.2.2.1) n then
    some (Int.ofNat n + run.2.2.2).toNat
  else
    none

/-- Where the first run that holds a code point moves it. -/
def moveBy (runs : List ShiftedRun) (n : Nat) : Option Nat :=
  runs.findSome? fun run => run.move n

end ServiceBindings.Text
