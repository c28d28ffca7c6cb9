import Mathlib.Tactic.SplitIfs
import Partials.Json.Quoted
import Partials.Json.Reader

/-!
# Reading quoted texts back

The escapes of a text, read up to the closing quote, are its characters again
(`readPieces_escape`), so no two texts have the same escapes. They hold no control character.
-/

namespace Partials

namespace Text

/-- No character of the text stands before the space. -/
def ControlFree (t : Text) : Prop := ∀ c ∈ t, 0x20 ≤ c.toNat

theorem controlFree_of_all {t : Text} (h : (t.all fun c => 0x20 ≤ c.toNat) = true) :
    t.ControlFree := by
  intro c hc
  exact of_decide_eq_true (List.all_eq_true.mp h c hc)

theorem ControlFree.append {s t : Text} (hs : s.ControlFree) (ht : t.ControlFree) :
    (s ++ t).ControlFree := by
  intro c hc
  rcases List.mem_append.mp hc with hc | hc
  · exact hs c hc
  · exact ht c hc

theorem ControlFree.cons {c : Char} {t : Text} (hc : 0x20 ≤ c.toNat) (ht : t.ControlFree) :
    ControlFree (c :: t) := by
  intro d hd
  rcases List.mem_cons.mp hd with rfl | hd
  · exact hc
  · exact ht d hd

theorem ControlFree.null_not_mem {t : Text} (ht : t.ControlFree) : '\x00' ∉ t := by
  intro hmem
  exact absurd (ht _ hmem) (by decide)

end Text

namespace Json

/-- A character between quotes is written by a letter, by its code, or as it is. -/
theorem escapeChar_cases (c : Char) :
    (∃ d, escapeChar c = ['\\', d] ∧ shortEscape? d = some c ∧ d ≠ 'u') ∨
    (c.toNat < 0x20 ∧ escapeChar c =
      ['\\', 'u', '0', '0', Hex.digit (c.toNat / 16), Hex.digit (c.toNat % 16)]) ∨
    (c ≠ '"' ∧ c ≠ '\\' ∧ 0x20 ≤ c.toNat ∧ escapeChar c = [c]) := by
  unfold escapeChar
  split_ifs with hquote hslash hn hr ht hb hf hcontrol
  · subst hquote
    exact .inl ⟨'"', rfl, rfl, by decide⟩
  · subst hslash
    exact .inl ⟨'\\', rfl, rfl, by decide⟩
  · exact .inl ⟨'n', rfl, hn ▸ rfl, by decide⟩
  · exact .inl ⟨'r', rfl, hr ▸ rfl, by decide⟩
  · exact .inl ⟨'t', rfl, ht ▸ rfl, by decide⟩
  · exact .inl ⟨'b', rfl, hb ▸ rfl, by decide⟩
  · exact .inl ⟨'f', rfl, hf ▸ rfl, by decide⟩
  · exact .inr (.inl ⟨hcontrol, rfl⟩)
  · exact .inr (.inr ⟨hquote, hslash, by omega, rfl⟩)

variable {t rest : Text} {pieces : List Piece}

theorem readPieces_short {c d : Char} (hd : d ≠ 'u') (hc : shortEscape? d = some c)
    (ht : readPieces t = some (pieces, rest)) :
    readPieces ('\\' :: d :: t) = some (.char c :: pieces, rest) := by
  rw [readPieces]
  · simp [hc, ht]
  · intro a b c' d' t' heq
    exact fun _ => hd heq

theorem readPieces_plain {c : Char} (hquote : c ≠ '"') (hslash : c ≠ '\\') (hc : 0x20 ≤ c.toNat)
    (ht : readPieces t = some (pieces, rest)) :
    readPieces (c :: t) = some (.char c :: pieces, rest) := by
  have hplain : ¬ (c = '\\' ∨ c.toNat < 0x20) := by
    rintro (h | h)
    · exact hslash h
    · omega
  rw [readPieces]
  · simp [hplain, ht]
  · exact hquote
  · intro a b c' d' t' heq
    exact fun _ => hslash heq
  · intro c' t' heq
    exact fun _ => hslash heq

/-- A control character is written with four digits, the first two of them 0. -/
theorem readPieces_control {c : Char} (hc : c.toNat < 0x20)
    (ht : readPieces t = some (pieces, rest)) :
    readPieces ('\\' :: 'u' :: '0' :: '0' :: Hex.digit (c.toNat / 16) ::
      Hex.digit (c.toNat % 16) :: t) = some (.char c :: pieces, rest) := by
  have hhigh : Hex.value? (Hex.digit (c.toNat / 16)) = some (c.toNat / 16) :=
    Hex.value?_digit (by omega)
  have hlow : Hex.value? (Hex.digit (c.toNat % 16)) = some (c.toNat % 16) :=
    Hex.value?_digit (by omega)
  have hzero : Hex.value? '0' = some 0 := rfl
  have hcode : Hex.ofDigits? ['0', '0', Hex.digit (c.toNat / 16), Hex.digit (c.toNat % 16)] =
      some c.toNat := by
    simp only [Hex.ofDigits?, List.mapM_cons, List.mapM_nil, hzero, hhigh, hlow, Option.pure_def,
      Option.bind_eq_bind, Option.bind_some, List.foldl_cons, List.foldl_nil, Option.some.injEq]
    omega
  have hunit : Piece.ofUnit c.toNat = .char c := by
    rw [Piece.ofUnit, if_neg (by omega), Char.ofNat_toNat]
  rw [readPieces]
  simp [hcode, ht, hunit]

theorem readPieces_escapeChar (c : Char) (ht : readPieces t = some (pieces, rest)) :
    readPieces (escapeChar c ++ t) = some (.char c :: pieces, rest) := by
  rcases escapeChar_cases c with ⟨d, hescape, hc, hd⟩ | ⟨hc, hescape⟩ |
    ⟨hquote, hslash, hc, hescape⟩
  · rw [hescape]
    exact readPieces_short hd hc ht
  · rw [hescape]
    exact readPieces_control hc ht
  · rw [hescape]
    exact readPieces_plain hquote hslash hc ht

/-- The escapes of a text are read as its characters. -/
theorem readPieces_escape (t rest : Text) :
    readPieces (escape t ++ '"' :: rest) = some (t.map .char, rest) := by
  induction t with
  | nil => rfl
  | cons c cs ih =>
      rw [escape_cons, List.append_assoc]
      exact readPieces_escapeChar c ih

theorem assemble_map_char (t : Text) : assemble (t.map .char) = some t := by
  induction t with
  | nil => rfl
  | cons c cs ih =>
      rw [List.map_cons, assemble, ih]
      rfl

theorem readText_escape (t rest : Text) :
    readText (escape t ++ '"' :: rest) = some (.ofText t, rest) := by
  rw [readText, readPieces_escape]
  change some (((assemble (t.map .char)).map Scalar.ofText).getD {}, rest) = _
  rw [assemble_map_char]
  rfl

/-- A quoted text is a value, whatever follows it. -/
theorem readValue_quote (fuel : Nat) (t rest : Text) :
    readValue (fuel + 1) (quote t ++ rest) = some (.text t, rest) := by
  have hquote : quote t ++ rest = '"' :: (escape t ++ '"' :: rest) := by simp [quote]
  rw [hquote]
  change (readText (escape t ++ '"' :: rest)).map _ = _
  rw [readText_escape]
  rfl

/-- A quoted text is read as that text. -/
theorem read?_quote (t : Text) : read? (quote t) = some (.text t) := by
  have hvalue := readValue_quote (2 * (quote t).length + 1) t []
  rw [List.append_nil] at hvalue
  rw [read?, fuelFor, hvalue]
  rfl

theorem escape_injective {s t : Text} (h : escape s = escape t) : s = t := by
  have hs := readPieces_escape s []
  rw [h, readPieces_escape t []] at hs
  have hpieces : t.map Piece.char = s.map Piece.char := (Prod.mk.inj (Option.some.inj hs)).1
  refine (List.map_inj_right ?_).mp hpieces.symm
  intro c d hcd
  exact Piece.char.inj hcd

theorem controlFree_escapeChar (c : Char) : Text.ControlFree (escapeChar c) := by
  rcases escapeChar_cases c with ⟨d, hescape, hc, -⟩ | ⟨hc, hescape⟩ | ⟨-, -, hc, hescape⟩
  · have hd : 0x20 ≤ d.toNat := by
      unfold shortEscape? at hc
      split_ifs at hc with hplain hb hf hn hr ht
      · rcases hplain with rfl | rfl | rfl <;> decide
      all_goals
        subst d
        decide
    rw [hescape]
    exact .cons (by decide) (.cons hd nofun)
  · have hdigit : ∀ n < 16, 0x20 ≤ (Hex.digit n).toNat := by decide
    rw [hescape]
    exact .append (s := ['\\', 'u', '0', '0']) (Text.controlFree_of_all rfl)
      (.cons (hdigit _ (by omega)) (.cons (hdigit _ (by omega)) nofun))
  · rw [hescape]
    exact .cons hc nofun

theorem controlFree_escape (t : Text) : (escape t).ControlFree := by
  intro c hc
  obtain ⟨d, -, hd⟩ := List.mem_flatMap.mp hc
  exact controlFree_escapeChar d c hd

theorem controlFree_quote (t : Text) : (quote t).ControlFree :=
  .cons (by decide) (.append (controlFree_escape t) (.cons (by decide) nofun))

theorem quote_not_mem_escapeChar {c : Char} (hc : c ≠ '"') : '"' ∉ escapeChar c := by
  rcases escapeChar_cases c with ⟨d, hescape, hd, -⟩ | ⟨hlow, hescape⟩ | ⟨hquote, -, -, hescape⟩
  · have hne : d ≠ '"' := by
      rintro rfl
      exact hc (Option.some.inj hd).symm
    simp [hescape, Ne.symm hne]
  · have hdigit : ∀ n < 16, Hex.digit n ≠ '"' := by decide
    simp [hescape, Ne.symm (hdigit (c.toNat / 16) (by omega)),
      Ne.symm (hdigit (c.toNat % 16) (by omega))]
  · simp [hescape, Ne.symm hquote]

theorem head?_escape_ne_quote (t : Text) : (escape t).head? ≠ some '"' := by
  cases t with
  | nil => simp
  | cons c cs =>
      rcases escapeChar_cases c with ⟨d, hescape, -, -⟩ | ⟨-, hescape⟩ | ⟨hquote, -, -, hescape⟩
      · simp [hescape]
      · simp [hescape]
      · simp [hescape, hquote]

end Json

end Partials
