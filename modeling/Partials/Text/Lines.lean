import Partials.Text

/-!
# Lines of a text

Line endings and line counts. A line ends at a line feed; a carriage return directly before it
belongs to the ending.
-/

namespace Partials.Text

/-- Every carriage return that stands directly before a line feed is dropped. -/
def normalizeLineEndings : Text → Text
  | [] => []
  | [c] => [c]
  | c :: d :: cs =>
    if c = '\r' ∧ d = '\n' then '\n' :: normalizeLineEndings cs
    else c :: normalizeLineEndings (d :: cs)

/-- The number of line feeds. -/
def newlines (t : Text) : Nat := t.count '\n'

@[simp]
theorem newlines_append (s t : Text) : newlines (s ++ t) = newlines s + newlines t :=
  List.count_append

/-- Dropping carriage returns leaves every line where it was. -/
theorem newlines_normalizeLineEndings (t : Text) :
    newlines (normalizeLineEndings t) = newlines t := by
  fun_induction normalizeLineEndings t with
  | case1 => rfl
  | case2 => rfl
  | case3 c d cs h ih => simp_all [newlines]
  | case4 c d cs h ih =>
    simp only [newlines, List.count_cons] at ih ⊢
    omega

/-- A text without carriage returns is its own normal form. -/
theorem normalizeLineEndings_of_not_mem {t : Text} (h : '\r' ∉ t) :
    normalizeLineEndings t = t := by
  fun_induction normalizeLineEndings t with
  | case1 => rfl
  | case2 => rfl
  | case3 c d cs hc ih => simp_all
  | case4 c d cs hc ih => simp_all

end Partials.Text
