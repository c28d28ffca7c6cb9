import Mathlib.Data.List.Basic
import Partials.Text.Capital

/-!
# Capitals hold no space

The capital of a character is one character or more, and none of them is a space unless the
character is: `capital_ne_nil`, `space_not_mem_capital`.
-/

namespace Partials

theorem eq_of_ofNat_eq_space {n : Nat} (h : Char.ofNat n = ' ') : n = 0x20 := by
  by_cases hvalid : n.isValidChar
  · have hchar : Char.ofNat n = Char.ofNatAux n hvalid := dif_pos hvalid
    exact congrArg Char.toNat (hchar.symm.trans h)
  · have hchar : Char.ofNat n = _ := dif_neg hvalid
    exact absurd (hchar.symm.trans h) (by decide)

theorem eq_space_of_toUpper {c : Char} (hc : c.toNat < 0x80) (h : c.toUpper = ' ') : c = ' ' := by
  have hall : ∀ n < 0x80, (Char.ofNat n).toUpper = ' ' → Char.ofNat n = ' ' := by decide
  have hchar := hall c.toNat hc
  rw [Char.ofNat_toNat] at hchar
  exact hchar h

theorem capitalSequences_hold_no_space :
    ∀ entry ∈ capitalSequences, entry.2 ≠ [] ∧ 0x20 ∉ entry.2 := by
  decide

theorem capitalRuns_above_space :
    ∀ entry ∈ capitalRuns, 0x20 < (entry.1.first : Int) + entry.2 := by
  decide +kernel

theorem mem_of_lookup_capitalSequences {n : Nat} {codes : List Nat}
    (h : capitalSequences.lookup n = some codes) : (n, codes) ∈ capitalSequences := by
  obtain ⟨front, behind, hsplit, -⟩ := List.lookup_eq_some_iff.mp h
  rw [hsplit]
  exact List.mem_append_right front List.mem_cons_self

theorem capitalBeyondAscii_ne_nil (c : Char) : capitalBeyondAscii c ≠ [] := by
  unfold capitalBeyondAscii
  split
  · next codes hlookup =>
    have hentry := capitalSequences_hold_no_space _ (mem_of_lookup_capitalSequences hlookup)
    exact mt List.map_eq_nil_iff.mp hentry.1
  · split
    · exact List.cons_ne_nil _ _
    · exact List.cons_ne_nil _ _

theorem space_not_mem_capitalBeyondAscii {c : Char} (hc : c ≠ ' ') :
    ' ' ∉ capitalBeyondAscii c := by
  unfold capitalBeyondAscii
  split
  · next codes hlookup =>
    have hentry := capitalSequences_hold_no_space _ (mem_of_lookup_capitalSequences hlookup)
    intro hmem
    obtain ⟨n, hn, hspace⟩ := List.mem_map.mp hmem
    exact hentry.2 (eq_of_ofNat_eq_space hspace ▸ hn)
  · split
    · next run distance hfind =>
      have habove := capitalRuns_above_space _ (List.mem_of_find?_eq_some hfind)
      have hholds := List.find?_some hfind
      simp only [CharRun.holds, Bool.and_eq_true, decide_eq_true_eq] at hholds
      intro hmem
      have hcode := eq_of_ofNat_eq_space (List.mem_singleton.mp hmem).symm
      dsimp only at habove
      omega
    · intro hmem
      exact hc (List.mem_singleton.mp hmem).symm

theorem capital_ne_nil (c : Char) : capital c ≠ [] := by
  unfold capital
  split
  · exact List.cons_ne_nil _ _
  · exact capitalBeyondAscii_ne_nil c

theorem space_not_mem_capital {c : Char} (hc : c ≠ ' ') : ' ' ∉ capital c := by
  unfold capital
  split
  · next hascii =>
    intro hmem
    exact hc (eq_space_of_toUpper hascii (List.mem_singleton.mp hmem).symm)
  · exact space_not_mem_capitalBeyondAscii hc

end Partials
