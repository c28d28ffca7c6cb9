import Partials.Number

/-!
# Wraps

A wrap is the text before and after a block. It can be written in several shapes, by an annotation
or by the options of a run; `Wrap.Spec.formalize` brings each of them to a pair.
-/

namespace Partials.Wrap

/-- The text before and after a block. -/
structure Pair where
  before : Text
  after : Text
  deriving DecidableEq, Repr

def Pair.empty : Pair := ⟨[], []⟩

def Pair.isEmpty (p : Pair) : Bool := p.before.isEmpty && p.after.isEmpty

/-- A wrap as it is written. -/
inductive Spec
  | text (t : Text)
  | number (n : Number)
  | sequence (items : List Text)
  | fields (before after : Option Text)
  deriving DecidableEq, Repr

/-- Why a wrap cannot be used. -/
inductive Error
  /-- A sequence of more than two parts. -/
  | tooManyParts (found : Nat)
  deriving DecidableEq, Repr

def Error.message : Error → Text
  | .tooManyParts found =>
    "Invalid wrap: expected at most two parts, found ".toList ++ Decimal.digitsText found

/-- The pair that a wrap stands for. One value serves for both sides, and in a table a missing side
takes the value of the other. -/
def Spec.formalize : Spec → Except Error Pair
  | .text t => .ok ⟨t, t⟩
  | .number n => .ok ⟨n.text, n.text⟩
  | .sequence [] => .ok Pair.empty
  | .sequence [both] => .ok ⟨both, both⟩
  | .sequence [before, after] => .ok ⟨before, after⟩
  | .sequence items => .error (.tooManyParts items.length)
  | .fields before after =>
    let first := (before.or after).getD []
    .ok ⟨first, after.getD first⟩

/-- Only a sequence of three or more parts is refused. -/
theorem Spec.formalize_eq_error_iff {s : Spec} {e : Error} :
    s.formalize = .error e ↔
      ∃ items, s = .sequence items ∧ 2 < items.length ∧ e = .tooManyParts items.length := by
  constructor
  · intro h
    match s, h with
    | .sequence (a :: b :: c :: rest), h =>
      refine ⟨_, rfl, ?_, ?_⟩
      · simp
      · simpa [Spec.formalize, eq_comm] using h
  · rintro ⟨items, rfl, hlen, rfl⟩
    match items, hlen with
    | a :: b :: c :: rest, _ => rfl

end Partials.Wrap
