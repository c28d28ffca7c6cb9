import Partials.Proofs.Text.Joining
import Partials.Text.Lines

/-!
# Places in a text and in its normal form

Wherever the normal form of a text is cut, the text itself can be cut so that the halves have the
normal forms of the two parts. Lines can therefore be counted in either of them. The other way
round, halves can be normalized one by one unless a line ending stands across the cut.

The texts that have a given text without carriage returns as their normal form are those that write
some of its line feeds with a carriage return (`returnsAdded_iff`).
-/

namespace Partials.Text

theorem exists_append_of_normalizeLineEndings {t before behind : Text}
    (h : normalizeLineEndings t = before ++ behind) :
    ∃ before' behind', t = before' ++ behind' ∧ normalizeLineEndings before' = before ∧
      normalizeLineEndings behind' = behind := by
  fun_induction normalizeLineEndings t generalizing before with
  | case1 =>
      obtain ⟨rfl, rfl⟩ := List.append_eq_nil_iff.mp h.symm
      exact ⟨[], [], rfl, rfl, rfl⟩
  | case2 c =>
      cases before with
      | nil => exact ⟨[], [c], rfl, rfl, h⟩
      | cons d ds =>
          obtain ⟨rfl, hnil⟩ := List.cons.inj h
          obtain ⟨rfl, rfl⟩ := List.append_eq_nil_iff.mp hnil.symm
          exact ⟨[c], [], rfl, rfl, rfl⟩
  | case3 c d cs hending ih =>
      obtain ⟨rfl, rfl⟩ := hending
      cases before with
      | nil =>
          refine ⟨[], '\r' :: '\n' :: cs, rfl, rfl, ?_⟩
          rw [← h.trans (List.nil_append behind)]
          simp [normalizeLineEndings]
      | cons x xs =>
          obtain ⟨rfl, hcs⟩ := List.cons.inj h
          obtain ⟨before', behind', rfl, rfl, rfl⟩ := ih hcs
          exact ⟨'\r' :: '\n' :: before', behind', rfl, by simp [normalizeLineEndings], rfl⟩
  | case4 c d cs hending ih =>
      cases before with
      | nil =>
          refine ⟨[], c :: d :: cs, rfl, rfl, ?_⟩
          rw [← h.trans (List.nil_append behind), normalizeLineEndings, if_neg hending]
      | cons x xs =>
          obtain ⟨rfl, hcs⟩ := List.cons.inj h
          obtain ⟨before', behind', heq, rfl, rfl⟩ := ih hcs
          refine ⟨c :: before', behind', by simp [heq], ?_, rfl⟩
          cases before' with
          | nil => rfl
          | cons e es =>
              obtain ⟨rfl, -⟩ := List.cons.inj heq
              rw [normalizeLineEndings, if_neg hending]

theorem mem_of_mem_normalizeLineEndings {t : Text} {c : Char} (h : c ∈ normalizeLineEndings t) :
    c ∈ t := by
  fun_induction normalizeLineEndings t with
  | case1 => exact h
  | case2 d => exact h
  | case3 d e cs hending ih =>
      rcases List.mem_cons.mp h with rfl | h
      · exact hending.2 ▸ List.mem_cons_of_mem _ List.mem_cons_self
      · exact List.mem_cons_of_mem _ (List.mem_cons_of_mem _ (ih h))
  | case4 d e cs hending ih =>
      rcases List.mem_cons.mp h with rfl | h
      · exact List.mem_cons_self
      · exact List.mem_cons_of_mem _ (ih h)

theorem normalizeLineEndings_of_newline_not_mem {t : Text} (h : '\n' ∉ t) :
    normalizeLineEndings t = t := by
  fun_induction normalizeLineEndings t with
  | case1 => rfl
  | case2 c => rfl
  | case3 c d cs hending ih =>
      refine absurd ?_ h
      rw [hending.2]
      exact List.mem_cons_of_mem _ List.mem_cons_self
  | case4 c d cs hending ih => rw [ih fun hmem => h (List.mem_cons_of_mem _ hmem)]

theorem normalizeLineEndings_append {s t : Text}
    (h : s.getLast? = some '\r' → t.head? ≠ some '\n') :
    normalizeLineEndings (s ++ t) = normalizeLineEndings s ++ normalizeLineEndings t := by
  fun_induction normalizeLineEndings s with
  | case1 => rfl
  | case2 c =>
      cases t with
      | nil => rfl
      | cons d ds =>
          have hnot : ¬ (c = '\r' ∧ d = '\n') := by
            rintro ⟨rfl, rfl⟩
            exact h rfl rfl
          rw [List.singleton_append, normalizeLineEndings, if_neg hnot]
          rfl
  | case3 c d cs hending ih =>
      rw [List.cons_append, List.cons_append, normalizeLineEndings, if_pos hending, ih]
      · rfl
      · intro hlast
        exact h (by rw [List.getLast?_cons, List.getLast?_cons, hlast]; rfl)
  | case4 c d cs hending ih =>
      rw [List.cons_append, List.cons_append, normalizeLineEndings, if_neg hending,
        ← List.cons_append, ih]
      · rfl
      · intro hlast
        exact h (by rw [List.getLast?_cons, hlast]; rfl)

theorem getLast?_normalizeLineEndings (t : Text) :
    (normalizeLineEndings t).getLast? = t.getLast? := by
  fun_induction normalizeLineEndings t with
  | case1 => rfl
  | case2 c => rfl
  | case3 c d cs hending ih =>
      rw [hending.2, List.getLast?_cons, List.getLast?_cons, List.getLast?_cons, ih]
      cases cs.getLast? with
      | none => rfl
      | some e => rfl
  | case4 c d cs hending ih => rw [List.getLast?_cons, List.getLast?_cons, ih]

/-- What stands in the normal form of a text stands in that of every continuation, unless a line
ending may be completed behind it. -/
theorem exists_normalizeLineEndings_append {t before behind : Text}
    (h : normalizeLineEndings t = before ++ behind) (hlast : before.getLast? ≠ some '\r')
    (u : Text) : ∃ behind', normalizeLineEndings (t ++ u) = before ++ behind' := by
  obtain ⟨front, rest, rfl, rfl, -⟩ := exists_append_of_normalizeLineEndings h
  rw [getLast?_normalizeLineEndings] at hlast
  refine ⟨normalizeLineEndings (rest ++ u), ?_⟩
  rw [List.append_assoc]
  apply normalizeLineEndings_append
  intro hreturn
  exact absurd hreturn hlast

/-- Lines without line endings of their own are left as they are. -/
theorem normalizeLineEndings_join {lines : List Text}
    (h : ∀ line ∈ lines, '\n' ∉ line ∧ line.getLast? ≠ some '\r') :
    normalizeLineEndings (join ['\n'] lines) = join ['\n'] lines := by
  fun_induction join ['\n'] lines with
  | case1 => rfl
  | case2 line =>
      exact normalizeLineEndings_of_newline_not_mem (h line List.mem_cons_self).1
  | case3 first next rest ih =>
      obtain ⟨hfirst, hlast⟩ := h first List.mem_cons_self
      rw [List.append_assoc, normalizeLineEndings_append fun hreturn => absurd hreturn hlast,
        normalizeLineEndings_append (by simp), normalizeLineEndings_of_newline_not_mem hfirst,
        ih fun line hline => h line (List.mem_cons_of_mem _ hline)]
      rfl

/-- What the normal form holds on one line, the text holds. -/
theorem infix_of_infix_normalizeLineEndings {pat t : Text} (hpat : '\n' ∉ pat)
    (h : pat <:+: normalizeLineEndings t) : pat <:+: t := by
  obtain ⟨before, behind, heq⟩ := h
  obtain ⟨front, rest, rfl, hfront, -⟩ := exists_append_of_normalizeLineEndings heq.symm
  obtain ⟨start, found, rfl, -, hfound⟩ := exists_append_of_normalizeLineEndings hfront
  have hlines : '\n' ∉ found := by
    have hcount := newlines_normalizeLineEndings found
    rw [hfound, newlines, List.count_eq_zero.mpr hpat] at hcount
    exact List.count_eq_zero.mp hcount.symm
  rw [normalizeLineEndings_of_newline_not_mem hlines] at hfound
  exact ⟨start, rest, by rw [hfound]⟩

/-- The second text is the first with a carriage return before some of its line feeds. -/
inductive ReturnsAdded : Text → Text → Prop
  | nil : ReturnsAdded [] []
  | keep (c : Char) {t t' : Text} : ReturnsAdded t t' → ReturnsAdded (c :: t) (c :: t')
  | add {t t' : Text} : ReturnsAdded t t' → ReturnsAdded ('\n' :: t) ('\r' :: '\n' :: t')

theorem normalizeLineEndings_cons {c : Char} (hc : c ≠ '\r') (t : Text) :
    normalizeLineEndings (c :: t) = c :: normalizeLineEndings t := by
  cases t with
  | nil => rfl
  | cons d ds => rw [normalizeLineEndings, if_neg fun hending => hc hending.1]

theorem normalizeLineEndings_of_returnsAdded {t t' : Text} (h : ReturnsAdded t t')
    (hreturn : '\r' ∉ t) : normalizeLineEndings t' = t := by
  induction h with
  | nil => rfl
  | keep c _ ih =>
      have hc : c ≠ '\r' := (List.ne_of_not_mem_cons hreturn).symm
      rw [normalizeLineEndings_cons hc, ih (List.not_mem_of_not_mem_cons hreturn)]
  | add _ ih =>
      rw [normalizeLineEndings, if_pos ⟨rfl, rfl⟩, ih (List.not_mem_of_not_mem_cons hreturn)]

theorem returnsAdded_normalizeLineEndings (t : Text) :
    ReturnsAdded (normalizeLineEndings t) t := by
  fun_induction normalizeLineEndings t with
  | case1 => exact .nil
  | case2 c => exact .keep c .nil
  | case3 c d cs hending ih =>
      obtain ⟨rfl, rfl⟩ := hending
      exact .add ih
  | case4 c d cs hending ih => exact .keep c ih

theorem returnsAdded_iff {t t' : Text} (hreturn : '\r' ∉ t) :
    ReturnsAdded t t' ↔ normalizeLineEndings t' = t := by
  constructor
  · intro h
    exact normalizeLineEndings_of_returnsAdded h hreturn
  · rintro rfl
    exact returnsAdded_normalizeLineEndings t'

end Partials.Text
