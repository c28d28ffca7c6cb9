import Mathlib.Data.List.Forall2
import Partials.Path

/-!
# Two spellings of a path

A path may be written with backslashes for some of its slashes. Read as paths the two spellings are
one text; as texts they are the same only if no slash was touched.
-/

namespace Partials.Path

/-- The second text is the first with some of its slashes written as backslashes. -/
def Respells (t t' : Text) : Prop :=
  List.Forall₂ (fun c c' => c' = c ∨ c = '/' ∧ c' = '\\') t t'

instance (t t' : Text) : Decidable (Respells t t') :=
  inferInstanceAs (Decidable (List.Forall₂ _ t t'))

theorem slashes_eq_of_respells {t t' : Text} (h : Respells t t') : slashes t' = slashes t := by
  unfold slashes
  induction h with
  | nil => rfl
  | cons hchar _ ih =>
      rw [List.map_cons, List.map_cons, ih]
      rcases hchar with rfl | ⟨rfl, rfl⟩
      · rfl
      · rfl

/-- A front without slashes is spelled in one way. -/
theorem Respells.of_append {front t u : Text} (hfront : '/' ∉ front)
    (h : Respells (front ++ t) u) : ∃ t', u = front ++ t' ∧ Respells t t' := by
  induction front generalizing u with
  | nil => exact ⟨u, rfl, h⟩
  | cons c front ih =>
      cases h with
      | cons hchar hrest =>
          obtain ⟨t', rfl, ht⟩ := ih (List.not_mem_of_not_mem_cons hfront) hrest
          rcases hchar with rfl | ⟨rfl, -⟩
          · exact ⟨t', rfl, ht⟩
          · exact absurd List.mem_cons_self hfront

/-- A front without backslashes is the spelling of itself only. -/
theorem Respells.append_of {front t' u : Text} (hfront : '\\' ∉ front)
    (h : Respells u (front ++ t')) : ∃ t, u = front ++ t ∧ Respells t t' := by
  induction front generalizing u with
  | nil => exact ⟨u, rfl, h⟩
  | cons c front ih =>
      cases h with
      | cons hchar hrest =>
          obtain ⟨t, rfl, ht⟩ := ih (List.not_mem_of_not_mem_cons hfront) hrest
          rcases hchar with rfl | ⟨-, rfl⟩
          · exact ⟨t, rfl, ht⟩
          · exact absurd List.mem_cons_self hfront

/-- What keeps the backslash apart from the slash tells two spellings apart. -/
theorem Respells.eq_of_map_eq {f : Char → Char} (hf : f '\\' ≠ f '/') {t t' : Text}
    (h : Respells t t') (hmap : t'.map f = t.map f) : t' = t := by
  induction h with
  | nil => rfl
  | cons hchar _ ih =>
      obtain ⟨hhead, htail⟩ := List.cons.inj hmap
      rcases hchar with rfl | ⟨rfl, rfl⟩
      · rw [ih htail]
      · exact absurd hhead hf

end Partials.Path
