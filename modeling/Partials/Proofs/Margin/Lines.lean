import Mathlib.Data.List.Forall2
import Partials.Margin
import Partials.Proofs.Text.Joining
import Partials.Proofs.Text.Trimming

/-!
# The lines of a fragment

Normalizing a fragment gives at least one line, and none of them holds a line feed unless the
indentation does. The lines can therefore be read back from the fragment that they make up.
-/

namespace Partials.Margin

theorem normalizeLines_ne_nil (indent content : Text) : normalizeLines indent content ≠ [] := by
  intro hnil
  have hlength := congrArg List.length hnil
  unfold normalizeLines at hlength
  rw [length_crop, List.length_map] at hlength
  exact Text.splitWhere_ne_nil _ _ (List.length_eq_zero_iff.mp hlength)

theorem mem_of_mem_replaceChar {old c : Char} {new t : Text}
    (h : c ∈ Text.replaceChar old new t) : c ∈ new ∨ c ∈ t := by
  obtain ⟨d, hd, hc⟩ := List.mem_flatMap.mp h
  split at hc
  · exact .inl hc
  · obtain rfl := List.mem_singleton.mp hc
    exact .inr hd

theorem mem_of_mem_expandTabs {indent line : Text} {c : Char} (h : c ∈ expandTabs indent line) :
    c ∈ indent ∨ c ∈ line := by
  rcases List.mem_append.mp h with h | h
  · exact (mem_of_mem_replaceChar h).imp_right Text.mem_of_mem_lead
  · exact .inr (Text.mem_of_mem_trimStart h)

theorem exists_of_mem_crop {lines : List Text} {width : Option Nat} {line : Text}
    (h : line ∈ crop lines width) : ∃ whole ∈ lines, ∀ c ∈ line, c ∈ whole := by
  cases width with
  | none => exact ⟨line, h, fun c hc => hc⟩
  | some width =>
      obtain ⟨whole, hwhole, rfl⟩ := List.mem_map.mp h
      exact ⟨whole, hwhole, fun c hc => List.mem_of_mem_drop hc⟩

theorem newline_not_mem_of_mem_normalizeLines {indent content line : Text}
    (hindent : '\n' ∉ indent) (h : line ∈ normalizeLines indent content) : '\n' ∉ line := by
  intro hc
  obtain ⟨whole, hwhole, hsub⟩ := exists_of_mem_crop h
  obtain ⟨piece, hpiece, rfl⟩ := List.mem_map.mp hwhole
  rcases mem_of_mem_expandTabs (hsub _ hc) with hc | hc
  · exact hindent hc
  · exact Text.not_mem_of_mem_split hpiece (Text.mem_of_mem_trimEnd hc)

/-- The lines of a fragment are those that its text splits into. -/
theorem split_join_normalizeLines {indent : Text} (hindent : '\n' ∉ indent) (content : Text) :
    Text.split '\n' (Text.join ['\n'] (normalizeLines indent content)) =
      normalizeLines indent content :=
  Text.split_join (normalizeLines_ne_nil indent content) fun _ hline =>
    newline_not_mem_of_mem_normalizeLines hindent hline

theorem exists_of_mem_of_forall₂ {R : Text → Text → Prop} {out : Text} {lines outs : List Text}
    (h : List.Forall₂ R lines outs) (hout : out ∈ outs) : ∃ line ∈ lines, R line out := by
  induction h with
  | nil => cases hout
  | @cons line first lines outs hline _ ih =>
      rcases List.mem_cons.mp hout with rfl | hout
      · exact ⟨line, List.mem_cons_self, hline⟩
      · obtain ⟨line', hline', hrelated⟩ := ih hout
        exact ⟨line', List.mem_cons_of_mem _ hline', hrelated⟩

theorem expandTabs_blanks {indent blanks : Text} (hblanks : ∀ c ∈ blanks, isBlank c = true) :
    expandTabs indent (Text.trimEnd blanks) = [] := by
  rw [Text.trimEnd_blanks hblanks]
  rfl

theorem replaceChar_append (old : Char) (new s t : Text) :
    Text.replaceChar old new (s ++ t) = Text.replaceChar old new s ++ Text.replaceChar old new t :=
  List.flatMap_append

/-- The tabs in front of the text of a line are expanded. -/
theorem expandTabs_append_solid (indent : Text) {lead body : Text}
    (hlead : ∀ c ∈ lead, isBlank c = true) (hbody : body.Solid) :
    expandTabs indent (Text.trimEnd (lead ++ body)) = Text.replaceChar '\t' indent lead ++ body := by
  rw [Text.trimEnd_append_solid lead hbody, expandTabs, Text.lead_append hlead hbody,
    Text.trimStart_append hlead hbody.trimStart_eq]

theorem sharedWidth?_replicate_append (n : Nat) (lines : List Text) :
    sharedWidth? (List.replicate n [] ++ lines) = sharedWidth? lines := by
  induction n with
  | zero => rfl
  | succ n ih =>
      rw [List.replicate_succ, List.cons_append, sharedWidth?, ih]
      rfl

theorem crop_replicate_append (n : Nat) (lines : List Text) (width : Option Nat) :
    crop (List.replicate n [] ++ lines) width = List.replicate n [] ++ crop lines width := by
  cases width with
  | none => rfl
  | some width => simp [crop]

/-- Empty lines in front have no say in what is taken off the others. -/
theorem normalizeLines_of_map_trimEnd {n : Nat} {t t' : Text}
    (h : (Text.split '\n' t).map Text.trimEnd =
      List.replicate n [] ++ (Text.split '\n' t').map Text.trimEnd) (indent : Text) :
    normalizeLines indent t = List.replicate n [] ++ normalizeLines indent t' := by
  have hlines : ∀ t : Text, normalizeLines indent t =
      let lines := ((Text.split '\n' t).map Text.trimEnd).map (expandTabs indent)
      crop lines (sharedWidth? lines) := by
    intro t
    rw [List.map_map]
    rfl
  have hempty : (List.replicate n []).map (expandTabs indent) = List.replicate n [] := by
    rw [List.map_replicate]
    rfl
  rw [hlines, hlines, h, List.map_append, hempty]
  dsimp only
  rw [sharedWidth?_replicate_append, crop_replicate_append]

theorem raise_ne_nil {offset : Text} {lines : List Text} (h : lines ≠ []) :
    raise offset lines ≠ [] :=
  mt List.map_eq_nil_iff.mp h

/-- Raising makes each line that is not empty longer by the offset. -/
theorem length_join_raise (sep offset : Text) {lines : List Text} (h : lines ≠ []) :
    (Text.join sep (raise offset lines)).length =
      (Text.join sep lines).length + offset.length * Text.filled lines := by
  induction lines with
  | nil => exact absurd rfl h
  | cons line lines ih =>
      have hraise : raise offset (line :: lines) =
          (if line = [] then [] else offset ++ line) :: raise offset lines := rfl
      have hline : (if line = [] then [] else offset ++ line).length =
          line.length + offset.length * Text.filled [line] := by
        by_cases hempty : line = []
        · simp [hempty, Text.filled]
        · simp [hempty, Text.filled, Nat.add_comm]
      have hfilled : Text.filled (line :: lines) = Text.filled [line] + Text.filled lines := by
        rw [← List.singleton_append]
        exact List.countP_append
      rw [hraise]
      by_cases hlast : lines = []
      · subst hlast
        exact hline
      · rw [Text.join_cons (raise_ne_nil hlast), Text.join_cons hlast, hfilled, Nat.mul_add]
        simp only [List.length_append, hline, ih hlast]
        omega

end Partials.Margin
