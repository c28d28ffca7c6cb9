import Partials.Number.Numeral

/-!
# Reading integers back

The digits of an integer are read as a numeral that stands for it (`ofText?_integerText`,
`value?_integer`), whatever follows them but a character that would go on with the numeral.
-/

namespace Partials

namespace Decimal

theorem digitsText_ne_nil (n : Nat) : digitsText n ≠ [] := Nat.toDigits_ne_nil

theorem isDigit_of_mem_digitsText {n : Nat} {c : Char} (hc : c ∈ digitsText n) :
    c.isDigit = true := Nat.isDigit_of_mem_toDigits (by decide) (by decide) hc

/-- A number is written from a digit on, and 0 comes first only where it is alone. -/
theorem digitsText_cases (n : Nat) :
    digitsText n = ['0'] ∨ ∃ c cs, digitsText n = c :: cs ∧ c.isDigit = true ∧ c ≠ '0' := by
  induction n using Nat.strongRecOn with
  | ind n ih =>
      by_cases hsmall : n < 10
      · have hone : digitsText n = [n.digitChar] := Nat.toDigits_of_lt_base hsmall
        by_cases hzero : n = 0
        · subst hzero
          exact .inl rfl
        · refine .inr ⟨n.digitChar, [], hone, ?_, ?_⟩
          · rw [Nat.isDigit_digitChar, decide_eq_true hsmall]
          · exact fun h => hzero (Nat.digitChar_eq_zero.mp h)
      · have hsplit : digitsText n = digitsText (n / 10) ++ [(n % 10).digitChar] :=
          Nat.toDigits_of_base_le (by decide) (by omega)
        have hpositive : digitsText (n / 10) ≠ ['0'] := by
          intro hzero
          have hvalue := Nat.ofDigitChars_ten_toDigits (n := n / 10)
          change Nat.ofDigitChars 10 (digitsText (n / 10)) 0 = n / 10 at hvalue
          rw [hzero] at hvalue
          change 0 = n / 10 at hvalue
          omega
        obtain ⟨c, cs, hcons, hdigit, hne⟩ := (ih (n / 10) (by omega)).resolve_left hpositive
        exact .inr ⟨c, cs ++ [(n % 10).digitChar], by rw [hsplit, hcons, List.cons_append],
          hdigit, hne⟩

end Decimal

namespace Number

theorem exists_integerText_eq_cons (n : Int) :
    ∃ c cs, integerText n = c :: cs ∧ (c = '-' ∨ c.isDigit = true) := by
  unfold integerText
  split
  · exact ⟨'-', _, rfl, .inl rfl⟩
  · rcases Decimal.digitsText_cases n.natAbs with hzero | ⟨c, cs, hcons, hdigit, -⟩
    · exact ⟨'0', [], hzero, .inr rfl⟩
    · exact ⟨c, cs, hcons, .inr hdigit⟩

end Number

namespace Numeral

open Decimal (digitsText digitsText_ne_nil digitsText_cases isDigit_of_mem_digitsText)
open Number (integerText)

theorem ofDigits_digitsText (n : Nat) : ofDigits (digitsText n) = n := by
  have hfold : ofDigits (digitsText n) = Nat.ofDigitChars 10 (digitsText n) 0 := by
    rw [Nat.ofDigitChars_eq_foldl, ofDigits]
    congr 1
    funext sum c
    rw [digitValue, Nat.mul_comm]
    rfl
  rw [hfold]
  exact Nat.ofDigitChars_ten_toDigits

/-- What follows a numeral does not go on with it. -/
def Ends (rest : Text) : Prop :=
  ∀ c ∈ rest.head?, c.isDigit = false ∧ c ≠ '.' ∧ c ≠ 'e' ∧ c ≠ 'E'

theorem ends_nil : Ends [] := nofun

theorem ends_cons {c : Char} {rest : Text}
    (hc : c.isDigit = false ∧ c ≠ '.' ∧ c ≠ 'e' ∧ c ≠ 'E') : Ends (c :: rest) := by
  rintro d hd
  obtain rfl := Option.some.inj hd
  exact hc

variable {digits rest : Text}

theorem digits?_append (hne : digits ≠ []) (hdigits : ∀ c ∈ digits, c.isDigit = true)
    (hrest : Ends rest) : digits? (digits ++ rest) = some (digits, rest) := by
  have hnone : rest.takeWhile Char.isDigit = [] ∧ rest.dropWhile Char.isDigit = rest := by
    cases rest with
    | nil => exact ⟨rfl, rfl⟩
    | cons c rest =>
        have hc := (hrest c rfl).1
        exact ⟨List.takeWhile_cons_of_neg (by simp [hc]), List.dropWhile_cons_of_neg (by simp [hc])⟩
  unfold digits?
  rw [List.takeWhile_append_of_pos hdigits, List.dropWhile_append_of_pos hdigits, hnone.1, hnone.2,
    List.append_nil]
  cases digits with
  | nil => exact absurd rfl hne
  | cons c cs => rfl

theorem whole?_digitsText (n : Nat) (hrest : Ends rest) :
    whole? (digitsText n ++ rest) = some (digitsText n, rest) := by
  unfold whole?
  rw [digits?_append (digitsText_ne_nil n) (fun c hc => isDigit_of_mem_digitsText hc) hrest]
  rcases digitsText_cases n with hzero | ⟨c, cs, hcons, -, hne⟩
  · rw [hzero]
    rfl
  · rw [hcons]
    split
    · next heq =>
      injection heq with hpair
      injection hpair with hcons _
      injection hcons with hc _
      exact absurd hc hne
    · rfl

theorem fraction?_of_ends (hrest : Ends rest) : fraction? rest = some (none, rest) := by
  unfold fraction?
  split
  · exact absurd rfl (hrest '.' rfl).2.1
  · rfl

theorem exponent?_of_ends (hrest : Ends rest) : exponent? rest = some (none, rest) := by
  unfold exponent?
  split
  · exact absurd rfl (hrest 'e' rfl).2.2.1
  · exact absurd rfl (hrest 'E' rfl).2.2.2
  · rfl

/-- The numeral of an integer. -/
def ofInt (n : Int) : Numeral := ⟨decide (n < 0), digitsText n.natAbs, none, none⟩

theorem ofText?_integerText (n : Int) (hrest : Ends rest) :
    ofText? (integerText n ++ rest) = some (ofInt n, rest) := by
  have hwhole := whole?_digitsText n.natAbs hrest
  unfold ofText? integerText ofInt
  by_cases hn : n < 0
  · rw [if_pos hn, decide_eq_true hn]
    change (whole? (digitsText n.natAbs ++ rest)).bind _ = _
    simp [hwhole, fraction?_of_ends hrest, exponent?_of_ends hrest]
  · rw [if_neg hn, decide_eq_false hn]
    have hsign : ∀ t, digitsText n.natAbs ++ rest ≠ '-' :: t := by
      intro t ht
      rcases digitsText_cases n.natAbs with hzero | ⟨c, cs, hcons, hdigit, -⟩
      · rw [hzero] at ht
        injection ht with hc _
        exact absurd hc (by decide)
      · rw [hcons] at ht
        injection ht with hc _
        rw [hc] at hdigit
        exact absurd hdigit (by decide)
    split
    next negative t ht =>
      split at ht
      · next heq => exact absurd heq (hsign _)
      · obtain ⟨rfl, rfl⟩ := Prod.mk.inj ht
        simp [hwhole, fraction?_of_ends hrest, exponent?_of_ends hrest]

/-- An integer of 64 bits, with or without sign. -/
def Fits (n : Int) : Prop := -(Nat.pow 2 63 : Nat) ≤ n ∧ n < (Nat.pow 2 64 : Nat)

instance (n : Int) : Decidable (Fits n) := inferInstanceAs (Decidable (_ ∧ _))

theorem value?_ofInt {n : Int} (h : Fits n) : (ofInt n).value? = some (.integer n) := by
  have hinteger : (ofInt n).integer? = some n := by
    unfold integer? ofInt
    obtain ⟨hlow, hhigh⟩ := h
    rw [Nat.pow_eq] at hlow hhigh
    simp only [ofDigits_digitsText, Option.isSome_none, Bool.or_self, Bool.false_eq_true, if_false,
      Nat.pow_eq, decide_eq_true_eq]
    split
    · rw [if_pos (by omega)]
      congr 1
      omega
    · rw [if_pos (by omega)]
      congr 1
      omega
  rw [value?, hinteger]

end Numeral

end Partials
