import Partials.Path
import Partials.Proofs.Text.Joining

/-!
# Walking the segments of a path

The place of a path is found by one step for each of its segments. This module says how segments
behave when paths are put together (`segments_append_slash`, `foldl_step_stripHere`) and when such a
walk stays below the place where it starts (`foldl_step_append`, `staysBelow_of_descend?`).
-/

namespace Partials

namespace Path

theorem segments_append_slash (s t : Text) :
    segments (s ++ '/' :: t) = segments s ++ segments t :=
  Text.split_append_cons '/' s t

theorem segments_ne_nil (t : Text) : segments t ≠ [] := Text.splitWhere_ne_nil _ t

/-- A path starts at the root if its first segment is empty and not its last. -/
theorem head?_eq_slash_iff {t last : Text} {front : List Text}
    (h : segments t = front ++ [last]) : t.head? = some '/' ↔ front.head? = some [] := by
  cases t with
  | nil =>
      have hfront : front = [] := by
        cases front with
        | nil => rfl
        | cons first rest => simp [segments, Text.split, Text.splitWhere] at h
      simp [hfront]
  | cons c cs =>
      by_cases hc : c = '/'
      · subst hc
        have hsplit : segments ('/' :: cs) = [] :: segments cs := segments_append_slash [] cs
        rw [hsplit] at h
        cases front with
        | nil => exact absurd (List.cons.inj h).2 (segments_ne_nil cs)
        | cons first rest => simp [← (List.cons.inj h).1]
      · obtain ⟨piece, pieces, hpieces⟩ := List.exists_cons_of_ne_nil (segments_ne_nil cs)
        have hsplit : segments (c :: cs) = (c :: piece) :: pieces := by
          rw [segments, Text.split] at hpieces ⊢
          simp [Text.splitWhere, hc, hpieces]
        rw [hsplit] at h
        cases front with
        | nil => simp [hc]
        | cons first rest => simp [← (List.cons.inj h).1, hc]

@[simp]
theorem slashes_slashes (t : Text) : slashes (slashes t) = slashes t := by
  induction t with
  | nil => rfl
  | cons c cs ih =>
      rw [slashes] at ih ⊢
      by_cases h : c = '\\' <;> simp_all [slashes]

theorem slashes_ofText (t : Text) : slashes (ofText t).text = (ofText t).text := slashes_slashes t

theorem step_idle (place : List Text) {segment : Text} (h : segment = [] ∨ segment = ['.']) :
    step place segment = place := if_pos h

theorem step_up (place : List Text) : step place ['.', '.'] = place.dropLast := by
  simp [step]

theorem step_name (place : List Text) {segment : Text}
    (hidle : ¬ (segment = [] ∨ segment = ['.'])) (hup : segment ≠ ['.', '.']) :
    step place segment = place ++ [segment] := by
  rw [step, if_neg hidle, if_neg hup]

/-- A leading `./` leads nowhere. -/
theorem foldl_step_stripHere (place : List Text) (t : Text) :
    (segments (stripHere t)).foldl step place = (segments t).foldl step place := by
  fun_induction stripHere t with
  | case1 t ih =>
      have hsplit : segments ('.' :: '/' :: t) = ['.'] :: segments t :=
        segments_append_slash ['.'] t
      rw [ih, hsplit, List.foldl_cons, step_idle place (Or.inr rfl)]
  | case2 t => rfl

/-- Wherever the walk along `segments` gets from `root`, it is below `root`. -/
def StaysBelow (root : List Text) (segments : List Text) : Prop :=
  ∀ visited, visited <+: segments → root <+: visited.foldl step root

theorem descend?_cons (depth : Nat) (segment : Text) (rest : List Text) :
    descend? depth (segment :: rest) =
      if segment = [] ∨ segment = ['.'] then descend? depth rest
      else if segment = ['.', '.'] then
        match depth with
        | 0 => none
        | depth + 1 => descend? depth rest
      else descend? (depth + 1) rest := by
  cases depth <;> simp only [descend?]

/-- A walk that never climbs above its start does not see what the start is below of. -/
theorem foldl_step_append (root below : List Text) {segments : List Text} {depth : Nat}
    (h : descend? below.length segments = some depth) :
    segments.foldl step (root ++ below) = root ++ segments.foldl step below := by
  induction segments generalizing below with
  | nil => rfl
  | cons segment rest ih =>
      rw [descend?_cons] at h
      rw [List.foldl_cons, List.foldl_cons]
      split at h
      · next hidle =>
        rw [step_idle _ hidle, step_idle _ hidle]
        exact ih below h
      · next hidle =>
        split at h
        · next hup =>
          subst hup
          rw [step_up, step_up]
          split at h
          · simp at h
          · next depth' hlength =>
            have hne : below ≠ [] := by
              rintro rfl
              simp at hlength
            rw [List.dropLast_append_of_ne_nil hne]
            apply ih
            rw [List.length_dropLast, hlength]
            exact h
        · next hup =>
          rw [step_name _ hidle hup, step_name _ hidle hup, List.append_assoc]
          apply ih
          rw [List.length_append, List.length_singleton]
          exact h

/-- What never climbs too far has not done so on the way. -/
theorem descend?_isSome_of_isPrefix {depth : Nat} {visited segments : List Text}
    (hvisited : visited <+: segments) (h : (descend? depth segments).isSome) :
    (descend? depth visited).isSome := by
  induction visited generalizing depth segments with
  | nil => rfl
  | cons segment rest ih =>
      obtain ⟨behind, rfl⟩ := hvisited
      rw [List.cons_append, descend?_cons] at h
      rw [descend?_cons]
      have hrest : rest <+: rest ++ behind := List.prefix_append rest behind
      split at h
      · next hidle =>
        rw [if_pos hidle]
        exact ih hrest h
      · next hidle =>
        rw [if_neg hidle]
        split at h
        · next hup =>
          rw [if_pos hup]
          cases depth with
          | zero => simp at h
          | succ depth => exact ih hrest h
        · next hup =>
          rw [if_neg hup]
          exact ih hrest h

theorem staysBelow_of_descend? {segments : List Text} (h : (descend? 0 segments).isSome)
    (root : List Text) : StaysBelow root segments := by
  intro visited hvisited
  obtain ⟨depth, hdepth⟩ := Option.isSome_iff_exists.mp (descend?_isSome_of_isPrefix hvisited h)
  have hwalk := foldl_step_append root [] hdepth
  rw [List.append_nil] at hwalk
  rw [hwalk]
  exact List.prefix_append root _

end Path

end Partials
