import Partials.Text.Blank

/-!
# Texts

A text is the list of its characters. This module holds the operations on texts that the rest of
the library is written in: splitting and joining, trimming, and replacing.
-/

namespace Partials

/-- A text is the list of its characters. -/
abbrev Text := List Char

namespace Text

/-- The pieces between the characters satisfying `p`: always one more than there are such
characters. -/
def splitWhere (p : Char → Bool) : Text → List Text
  | [] => [[]]
  | c :: cs =>
    if p c then [] :: splitWhere p cs
    else match splitWhere p cs with
      | [] => [[c]]
      | piece :: pieces => (c :: piece) :: pieces

/-- The pieces between the occurrences of `sep`. -/
def split (sep : Char) (t : Text) : List Text := splitWhere (· == sep) t

/-- The maximal runs of non-blank characters, in order. -/
def words (t : Text) : List Text := (splitWhere isBlank t).filter (!·.isEmpty)

/-- The pieces one after the other, with `sep` between neighbours. -/
def join (sep : Text) : List Text → Text
  | [] => []
  | [piece] => piece
  | piece :: next :: pieces => piece ++ sep ++ join sep (next :: pieces)

theorem splitWhere_ne_nil (p : Char → Bool) (t : Text) : splitWhere p t ≠ [] := by
  cases t with
  | nil => simp [splitWhere]
  | cons c cs =>
    rw [splitWhere]
    split
    · simp
    · split <;> simp

/-- No piece holds a character at which the text was split. -/
theorem eq_false_of_mem_splitWhere {p : Char → Bool} {t piece : Text}
    (h : piece ∈ splitWhere p t) : ∀ c ∈ piece, p c = false := by
  induction t generalizing piece with
  | nil => simp_all [splitWhere]
  | cons c cs ih =>
    rw [splitWhere] at h
    split at h
    · rcases List.mem_cons.1 h with rfl | h
      · simp
      · exact ih h
    · next hc =>
      split at h
      · simp_all
      · next q qs hq =>
        rcases List.mem_cons.1 h with rfl | h
        · have := ih (hq ▸ List.mem_cons_self)
          simp_all
        · exact ih (hq ▸ List.mem_cons_of_mem _ h)

/-- Joining the pieces with the separator gives the text back. -/
theorem join_split (sep : Char) (t : Text) : join [sep] (split sep t) = t := by
  unfold split
  induction t with
  | nil => rfl
  | cons c cs ih =>
    obtain ⟨q, qs, hq⟩ := List.exists_cons_of_ne_nil (splitWhere_ne_nil (· == sep) cs)
    rw [hq] at ih
    rw [splitWhere, hq]
    split
    · next h => simp_all [join]
    · cases qs <;> simp_all [join]

/-- The text without its longest end of characters satisfying `p`. -/
def dropEndWhile (p : Char → Bool) (t : Text) : Text :=
  (t.reverse.dropWhile p).reverse

def trimStart (t : Text) : Text := t.dropWhile isBlank

def trimEnd (t : Text) : Text := dropEndWhile isBlank t

def trim (t : Text) : Text := trimEnd (trimStart t)

/-- The blanks that `trimStart` takes off. -/
def lead (t : Text) : Text := t.takeWhile isBlank

theorem lead_append_trimStart (t : Text) : lead t ++ trimStart t = t :=
  List.takeWhile_append_dropWhile

theorem isBlank_of_mem_lead {t : Text} : ∀ c ∈ lead t, isBlank c = true :=
  List.all_eq_true.1 List.all_takeWhile

/-- What follows `pre` in the text, if the text starts with it. -/
def after? : (pre : Text) → Text → Option Text
  | [], t => some t
  | _ :: _, [] => none
  | p :: ps, c :: cs => if c = p then after? ps cs else none

/-- What stands before `suf` in the text, if the text ends with it. -/
def before? (suf t : Text) : Option Text :=
  (after? suf.reverse t.reverse).map List.reverse

theorem after?_eq_some_iff {pre t rest : Text} : after? pre t = some rest ↔ t = pre ++ rest := by
  induction pre generalizing t with
  | nil => simp [after?, eq_comm]
  | cons p ps ih =>
    cases t with
    | nil => simp [after?]
    | cons c cs =>
      rw [after?]
      split
      · next h => simp [ih, h]
      · next h => simp [h]

theorem after?_append (pre rest : Text) : after? pre (pre ++ rest) = some rest :=
  after?_eq_some_iff.2 rfl

/-- Walks a text in which `skip` characters are still part of a replaced occurrence. -/
def replaceFrom (old new : Text) : (skip : Nat) → Text → Text
  | _, [] => []
  | skip + 1, _ :: cs => replaceFrom old new skip cs
  | 0, c :: cs =>
    if (after? old (c :: cs)).isSome then new ++ replaceFrom old new (old.length - 1) cs
    else c :: replaceFrom old new 0 cs

/-- Every occurrence of the non-empty `old`, found from left to right, gives way to `new`. -/
def replaceAll (old new t : Text) : Text := replaceFrom old new 0 t

/-- Every character `old` gives way to the text `new`. -/
def replaceChar (old : Char) (new t : Text) : Text :=
  t.flatMap fun c => if c = old then new else [c]

end Text

end Partials
