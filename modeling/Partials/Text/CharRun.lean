/-!
# Runs of characters

A class of characters is a list of runs, and membership is a search through them.
-/

namespace Partials

/-- The code points from `first` to `last`, all of them or every second one. -/
structure CharRun where
  first : Nat
  last : Nat
  step : Nat
  deriving DecidableEq, Repr

namespace CharRun

/-- Every code point from `first` to `last`. -/
def all (first last : Nat) : CharRun := ⟨first, last, 1⟩

/-- Every second code point, as where the two cases of a letter take turns. -/
def second (first last : Nat) : CharRun := ⟨first, last, 2⟩

def holds (run : CharRun) (n : Nat) : Bool :=
  run.first ≤ n && n ≤ run.last && (n - run.first) % run.step == 0

end CharRun

end Partials
