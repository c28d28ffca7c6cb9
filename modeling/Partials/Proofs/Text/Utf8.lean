import Partials.Text.Utf8

/-!
# Reading UTF-8 back

The bytes of a text are read as that text (`decode?_encode`).
-/

namespace Partials.Utf8

theorem toNat_byte {n : Nat} (h : n < 256) : (UInt8.ofNat n).toNat = n := by
  rw [UInt8.toNat_ofNat', Nat.mod_eq_of_lt h]

theorem between_iff {low high b : UInt8} :
    (low ≤ b && b ≤ high) = true ↔ low.toNat ≤ b.toNat ∧ b.toNat ≤ high.toNat := by
  rw [Bool.and_eq_true, decide_eq_true_iff, decide_eq_true_iff, UInt8.le_iff_toNat_le,
    UInt8.le_iff_toNat_le]

theorem not_between_of_lt {low high b : UInt8} (h : high.toNat < b.toNat) :
    ¬ (low ≤ b && b ≤ high) = true :=
  fun hb => Nat.not_le.mpr h (between_iff.mp hb).2

/-- A byte behind the first one of a form holds six bits. -/
theorem isContinuation_tail (n : Nat) : isContinuation (UInt8.ofNat (n % 64 + 128)) = true := by
  rw [isContinuation, between_iff, toNat_byte (by omega)]
  change 128 ≤ _ ∧ _ ≤ 191
  omega

theorem payload_tail (n : Nat) : payload (UInt8.ofNat (n % 64 + 128)) = n % 64 := by
  rw [payload, toNat_byte (by omega)]
  omega

section

variable {first b c d : UInt8} {rest : Bytes}

theorem not_lt_of_le_toNat (h : 0x80 ≤ first.toNat) : ¬ first < 0x80 :=
  fun hlt => Nat.not_lt.mpr h (UInt8.lt_iff_toNat_lt.mp hlt)

theorem unit_one (hfirst : first.toNat < 0x80) :
    unit first rest = (some (Char.ofNat first.toNat), rest) := by
  have hlow : first < 0x80 := UInt8.lt_iff_toNat_lt.mpr hfirst
  unfold unit
  rw [if_pos hlow]

theorem unit_two (hlow : 0xC2 ≤ first.toNat) (hhigh : first.toNat ≤ 0xDF)
    (hb : isContinuation b = true) :
    unit first (b :: rest) = (some (Char.ofNat (first.toNat % 32 * 64 + payload b)), rest) := by
  have htwo : (0xC2 ≤ first && first ≤ 0xDF) = true := between_iff.mpr ⟨hlow, hhigh⟩
  unfold unit
  rw [if_neg (not_lt_of_le_toNat (by omega)), if_pos htwo]
  simp only [hb, if_true]

theorem unit_three (hlow : 0xE0 ≤ first.toNat) (hhigh : first.toNat ≤ 0xEF)
    (hb : secondOfThree first b = true) (hc : isContinuation c = true) :
    unit first (b :: c :: rest) =
      (some (Char.ofNat ((first.toNat % 16 * 64 + payload b) * 64 + payload c)), rest) := by
  have htwo : ¬ (0xC2 ≤ first && first ≤ 0xDF) = true :=
    not_between_of_lt (Nat.lt_of_lt_of_le (by decide) hlow)
  have hthree : (0xE0 ≤ first && first ≤ 0xEF) = true := between_iff.mpr ⟨hlow, hhigh⟩
  unfold unit
  rw [if_neg (not_lt_of_le_toNat (by omega)), if_neg htwo, if_pos hthree]
  simp only [hb, hc, if_true]

theorem unit_four (hlow : 0xF0 ≤ first.toNat) (hhigh : first.toNat ≤ 0xF4)
    (hb : secondOfFour first b = true) (hc : isContinuation c = true)
    (hd : isContinuation d = true) :
    unit first (b :: c :: d :: rest) =
      (some (Char.ofNat
        (((first.toNat % 8 * 64 + payload b) * 64 + payload c) * 64 + payload d)), rest) := by
  have htwo : ¬ (0xC2 ≤ first && first ≤ 0xDF) = true :=
    not_between_of_lt (Nat.lt_of_lt_of_le (by decide) hlow)
  have hthree : ¬ (0xE0 ≤ first && first ≤ 0xEF) = true :=
    not_between_of_lt (Nat.lt_of_lt_of_le (by decide) hlow)
  have hfour : (0xF0 ≤ first && first ≤ 0xF4) = true := between_iff.mpr ⟨hlow, hhigh⟩
  unfold unit
  rw [if_neg (not_lt_of_le_toNat (by omega)), if_neg htwo, if_neg hthree, if_pos hfour]
  simp only [hb, hc, hd, if_true]

/-- The second byte of three rules out a form that is too long and the codes of surrogates. -/
theorem secondOfThree_of (hb : 0x80 ≤ b.toNat ∧ b.toNat ≤ 0xBF)
    (hlong : first.toNat = 0xE0 → 0xA0 ≤ b.toNat)
    (hsurrogate : first.toNat = 0xED → b.toNat ≤ 0x9F) : secondOfThree first b = true := by
  unfold secondOfThree
  split
  · next h =>
    obtain rfl := beq_iff_eq.mp h
    exact between_iff.mpr ⟨hlong rfl, hb.2⟩
  · split
    · next h =>
      obtain rfl := beq_iff_eq.mp h
      exact between_iff.mpr ⟨hb.1, hsurrogate rfl⟩
    · exact between_iff.mpr hb

/-- The second byte of four rules out a form that is too long and codes beyond the last one. -/
theorem secondOfFour_of (hb : 0x80 ≤ b.toNat ∧ b.toNat ≤ 0xBF)
    (hlong : first.toNat = 0xF0 → 0x90 ≤ b.toNat)
    (hlast : first.toNat = 0xF4 → b.toNat ≤ 0x8F) : secondOfFour first b = true := by
  unfold secondOfFour
  split
  · next h =>
    obtain rfl := beq_iff_eq.mp h
    exact between_iff.mpr ⟨hlong rfl, hb.2⟩
  · split
    · next h =>
      obtain rfl := beq_iff_eq.mp h
      exact between_iff.mpr ⟨hb.1, hlast rfl⟩
    · exact between_iff.mpr hb

end

/-- The form of a character, whatever bytes follow it, is read as that character. -/
theorem unit_utf8EncodeChar (c : Char) (rest : Bytes) :
    ∃ first more, String.utf8EncodeChar c = first :: more ∧
      unit first (more ++ rest) = (some c, rest) := by
  -- No character is a surrogate, so the second byte of three is in its range.
  have hvalid : c.toNat < 0xD800 ∨ (0xDFFF < c.toNat ∧ c.toNat < 0x110000) := c.valid
  have hcode : c.val.toNat = c.toNat := rfl
  have hchar : ∀ {n : Nat}, n = c.toNat → Char.ofNat n = c := by
    rintro n rfl
    exact Char.ofNat_toNat c
  unfold String.utf8EncodeChar
  simp only [hcode]
  split
  · next hone =>
    refine ⟨_, _, rfl, ?_⟩
    have hfirst : (UInt8.ofNat c.toNat).toNat = c.toNat := toNat_byte (by omega)
    rw [List.nil_append, unit_one (by omega), hchar hfirst]
  · split
    · next htwo =>
      refine ⟨_, _, rfl, ?_⟩
      have hfirst : (UInt8.ofNat (c.toNat / 64 % 0x20 + 0xC0)).toNat =
          c.toNat / 64 % 0x20 + 0xC0 := toNat_byte (by omega)
      change unit _ (_ :: rest) = _
      rw [unit_two (by omega) (by omega) (isContinuation_tail _), payload_tail, hfirst,
        hchar (by omega)]
    · split
      · next hthree =>
        refine ⟨_, _, rfl, ?_⟩
        have hfirst : (UInt8.ofNat (c.toNat / 4096 % 0x10 + 0xE0)).toNat =
            c.toNat / 4096 % 0x10 + 0xE0 := toNat_byte (by omega)
        have hsecond : (UInt8.ofNat (c.toNat / 64 % 0x40 + 0x80)).toNat =
            c.toNat / 64 % 0x40 + 0x80 := toNat_byte (by omega)
        change unit _ (_ :: _ :: rest) = _
        rw [unit_three (by omega) (by omega) (secondOfThree_of (by omega) (by omega) (by omega))
          (isContinuation_tail _), payload_tail, payload_tail, hfirst, hchar (by omega)]
      · next hfour =>
        refine ⟨_, _, rfl, ?_⟩
        have hfirst : (UInt8.ofNat (c.toNat / 262144 % 0x08 + 0xF0)).toNat =
            c.toNat / 262144 % 0x08 + 0xF0 := toNat_byte (by omega)
        have hsecond : (UInt8.ofNat (c.toNat / 4096 % 0x40 + 0x80)).toNat =
            c.toNat / 4096 % 0x40 + 0x80 := toNat_byte (by omega)
        change unit _ (_ :: _ :: _ :: rest) = _
        rw [unit_four (by omega) (by omega) (secondOfFour_of (by omega) (by omega) (by omega))
          (isContinuation_tail _) (isContinuation_tail _), payload_tail, payload_tail, payload_tail,
          hfirst, hchar (by omega)]

theorem units_encode (t : Text) : units (encode t) = t.map some := by
  induction t with
  | nil => rw [encode, List.flatMap_nil, units, List.map_nil]
  | cons c cs ih =>
      obtain ⟨first, more, hform, hunit⟩ := unit_utf8EncodeChar c (encode cs)
      have hbytes : encode (c :: cs) = first :: (more ++ encode cs) := by
        rw [encode, List.flatMap_cons, hform]
        rfl
      rw [hbytes, units, hunit, ih, List.map_cons]

/-- The bytes of a text are read as that text. -/
theorem decode?_encode (t : Text) : decode? (encode t) = some t := by
  rw [decode?, units_encode]
  induction t with
  | nil => rfl
  | cons c cs ih => rw [List.map_cons, List.mapM_cons, ih]; rfl

end Partials.Utf8
