import Partials.Text

/-!
# Margins

The margin of a line is the blanks at its start. A fragment cut out of a page carries the page's
nesting as a margin that all its lines share; `normalizeLines` takes it off and keeps what one line
is deeper than another.
-/

namespace Partials.Margin

/-- The line with each tab of its margin written as `indent`. -/
def expandTabs (indent line : Text) : Text :=
  Text.replaceChar '\t' indent (Text.lead line) ++ Text.trimStart line

/-- The number of characters in the margin; none for a line of blanks only, which has no say in
what is shared. -/
def width? (line : Text) : Option Nat :=
  if Text.trimStart line = [] then none else some (Text.lead line).length

/-- The smaller of two widths. -/
def narrower : Option Nat → Option Nat → Option Nat
  | none, w => w
  | w, none => w
  | some v, some w => some (min v w)

/-- The width that all lines with a margin share; none if every line is blank. -/
def sharedWidth? : List Text → Option Nat
  | [] => none
  | line :: lines => narrower (width? line) (sharedWidth? lines)

/-- The lines without their first `width` characters; with no width they stay as they are. -/
def crop (lines : List Text) : (width : Option Nat) → List Text
  | none => lines
  | some width => lines.map (·.drop width)

/-- The lines with `offset` in front; empty lines stay empty. -/
def raise (offset : Text) (lines : List Text) : List Text :=
  lines.map fun line => if line = [] then [] else offset ++ line

/-- The lines of `content` without blanks at their ends and without the margin they share. -/
def normalizeLines (indent content : Text) : List Text :=
  let lines := (Text.split '\n' content).map fun line => expandTabs indent (Text.trimEnd line)
  crop lines (sharedWidth? lines)

/-- The normalized lines, with `separator` between them. -/
def normalize (indent separator content : Text) : Text :=
  Text.join separator (normalizeLines indent content)

theorem length_crop (lines : List Text) (width : Option Nat) :
    (crop lines width).length = lines.length := by
  cases width <;> simp [crop]

theorem narrower_eq_none_iff {v w : Option Nat} : narrower v w = none ↔ v = none ∧ w = none := by
  cases v <;> cases w <;> simp [narrower]

/-- Nothing is shared only among blank lines. -/
theorem sharedWidth?_eq_none_iff {lines : List Text} :
    sharedWidth? lines = none ↔ ∀ line ∈ lines, width? line = none := by
  induction lines with
  | nil => simp [sharedWidth?]
  | cons first lines ih => simp [sharedWidth?, narrower_eq_none_iff, ih]

theorem narrower_le_left {v : Nat} {w : Option Nat} {u : Nat} (h : narrower (some v) w = some u) :
    u ≤ v := by
  cases w <;> simp [narrower] at h <;> omega

theorem narrower_le_right {v : Option Nat} {w u : Nat} (h : narrower v (some w) = some u) :
    u ≤ w := by
  cases v <;> simp [narrower] at h <;> omega

/-- No line has a narrower margin than the shared one. -/
theorem sharedWidth?_le {lines : List Text} {w v : Nat} {line : Text}
    (hw : sharedWidth? lines = some w) (hl : line ∈ lines) (hv : width? line = some v) : w ≤ v := by
  induction lines generalizing w with
  | nil => simp at hl
  | cons first lines ih =>
    rw [sharedWidth?] at hw
    rcases List.mem_cons.1 hl with rfl | hl
    · exact narrower_le_left (hv ▸ hw)
    · cases hs : sharedWidth? lines with
      | none => simp [sharedWidth?_eq_none_iff.1 hs line hl] at hv
      | some u => exact Nat.le_trans (narrower_le_right (hs ▸ hw)) (ih hs hl)

end Partials.Margin
