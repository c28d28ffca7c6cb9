import Mathlib.Data.List.DropRight
import Partials.Json.Printer
import Partials.Proofs.Json.Quoted
import Partials.Proofs.Number.Integers

/-!
# Reading records back

The pretty JSON text of a record whose numbers are integers of 64 bits is read as the data of that
record, whatever it holds (`read?_pretty`).
-/

namespace Partials

namespace Record

mutual

/-- The data of a record, in a format that tells texts, flags and numbers apart. -/
def datum : Record → Datum
  | .flag b => .flag b
  | .text t => .text t
  | .number n => .scalar (.ofNumber (some n))
  | .list items => .list false (datumItems items)
  | .table entries => .table false (datumEntries entries)

def datumItems : List Record → List Datum
  | [] => []
  | item :: items => item.datum :: datumItems items

def datumEntries : List (Text × Record) → List (Datum × Datum)
  | [] => []
  | (key, value) :: entries => (.text key, value.datum) :: datumEntries entries

end

mutual

/-- The numbers of the record are integers of 64 bits. -/
def HoldsIntegers : Record → Prop
  | .flag _ => True
  | .text _ => True
  | .number n => ∃ i, n = .integer i ∧ Numeral.Fits i
  | .list items => HoldIntegers items
  | .table entries => EntriesHoldIntegers entries

def HoldIntegers : List Record → Prop
  | [] => True
  | item :: items => item.HoldsIntegers ∧ HoldIntegers items

def EntriesHoldIntegers : List (Text × Record) → Prop
  | [] => True
  | (_, value) :: entries => value.HoldsIntegers ∧ EntriesHoldIntegers entries

end

end Record

namespace Json

open Record (prettyBreak)

variable {fuel : Nat} {t t' rest : Text}

theorem skipGap_skipGap (t : Text) : skipGap (skipGap t) = skipGap t :=
  List.dropWhile_idempotent _ _

theorem skipGap_prettyBreak (depth : Nat) (t : Text) :
    skipGap (prettyBreak depth ++ t) = skipGap t := by
  apply List.dropWhile_append_of_pos
  intro c hc
  rcases List.mem_cons.mp hc with rfl | hc
  · rfl
  · rw [(List.mem_replicate.mp hc).2]
    rfl

/-- What is read depends on nothing before the first character that is no gap. -/
theorem readValue_of_skipGap (h : skipGap t = skipGap t') :
    readValue fuel t = readValue fuel t' := by
  cases fuel with
  | zero => rw [readValue, readValue]
  | succ fuel => rw [readValue, readValue, h]

theorem readItems_of_skipGap (h : skipGap t = skipGap t') :
    readItems fuel t = readItems fuel t' := by
  cases fuel with
  | zero => rw [readItems, readItems]
  | succ fuel => rw [readItems, readItems, readValue_of_skipGap h]

theorem readEntries_of_skipGap (h : skipGap t = skipGap t') :
    readEntries fuel t = readEntries fuel t' := by
  cases fuel with
  | zero => rw [readEntries, readEntries]
  | succ fuel => rw [readEntries, readEntries, h]

/-- A number is told from the other values by its first character. -/
theorem readValue_integerText {n : Int} (hfits : Numeral.Fits n) (hrest : Numeral.Ends rest) :
    readValue (fuel + 1) (Number.integerText n ++ rest) =
      some (.scalar (.ofNumber (some (.integer n))), rest) := by
  obtain ⟨c, cs, hcons, hfirst⟩ := Number.exists_integerText_eq_cons n
  have hother : ∀ d ∈ [' ', '\n', '\t', '\r', '[', '\x7b', '"', 'n', 't', 'f'], c ≠ d := by
    rintro d hd rfl
    rcases hfirst with rfl | hdigit
    · exact absurd hd (by decide)
    · simp only [List.mem_cons, List.not_mem_nil, or_false] at hd
      rcases hd with rfl | rfl | rfl | rfl | rfl | rfl | rfl | rfl | rfl | rfl <;> cases hdigit
  have hgap : skipGap (Number.integerText n ++ rest) = Number.integerText n ++ rest := by
    rw [hcons]
    apply List.dropWhile_cons_of_neg
    simp only [isGap, Bool.or_eq_true, beq_iff_eq]
    simp [hother]
  have hscalar : readScalar (Number.integerText n ++ rest) =
      some (.ofNumber (some (.integer n)), rest) := by
    have hnumeral := Numeral.ofText?_integerText n hrest
    unfold readScalar
    rw [hcons] at hnumeral ⊢
    split
    · next heq => exact absurd (List.cons.inj heq).1 (hother _ (by decide))
    · next heq => exact absurd (List.cons.inj heq).1 (hother _ (by decide))
    · next heq => exact absurd (List.cons.inj heq).1 (hother _ (by decide))
    · next heq => exact absurd (List.cons.inj heq).1 (hother _ (by decide))
    · rw [hnumeral, Option.map_some]
      simp only [Numeral.value?_ofInt hfits]
  rw [readValue, hgap]
  split
  · next heq =>
    rw [hcons] at heq
    exact absurd (List.cons.inj heq).1 (hother _ (by decide))
  · next heq =>
    rw [hcons] at heq
    exact absurd (List.cons.inj heq).1 (hother _ (by decide))
  · rw [hscalar]
    rfl

theorem follow?_more (close : Char) (t : Text) : follow? close (',' :: t) = some (.more, t) := rfl

theorem follow?_prettyBreak (depth : Nat) {close : Char} (hclose : close = ']' ∨ close = '\x7d')
    (t : Text) : follow? close (prettyBreak depth ++ close :: t) = some (.done, t) := by
  rw [follow?, skipGap_prettyBreak]
  rcases hclose with rfl | rfl <;> rfl

theorem readItems_done {item : Datum} (hitem : readValue fuel t = some (item, t'))
    (hfollow : follow? ']' t' = some (.done, rest)) :
    readItems (fuel + 1) t = some ([item], rest) := by
  rw [readItems, hitem]
  simp [hfollow]

theorem readItems_more {item : Datum} {items : List Datum} {after : Text}
    (hitem : readValue fuel t = some (item, t')) (hfollow : follow? ']' t' = some (.more, after))
    (hitems : readItems fuel after = some (items, rest)) :
    readItems (fuel + 1) t = some (item :: items, rest) := by
  rw [readItems, hitem]
  simp [hfollow, hitems]

/-- Where items are read, no bracket comes first that closes their list. -/
theorem readItems_not_closed {items : List Datum} (h : readItems fuel t = some (items, rest))
    (u : Text) : skipGap t ≠ ']' :: u := by
  intro hclosed
  have hnone : readItems fuel t = none := by
    have hsame : skipGap t = skipGap (']' :: u) := hclosed
    rw [readItems_of_skipGap hsame]
    rcases fuel with _ | _ | fuel
    · rw [readItems]
    · rw [readItems, readValue]
      rfl
    · rw [readItems, readValue]
      rfl
  rw [hnone] at h
  cases h

theorem readValue_list {items : List Datum} (h : readItems fuel t = some (items, rest)) :
    readValue (fuel + 1) ('[' :: t) = some (.list false items, rest) := by
  have hgap : skipGap ('[' :: t) = '[' :: t := rfl
  rw [readValue, hgap]
  split
  · next u hsame =>
    obtain ⟨-, rfl⟩ := List.cons.inj hsame
    split
    · next hclosed => exact absurd hclosed (readItems_not_closed h _)
    · rw [readItems_of_skipGap (skipGap_skipGap t), h]
      rfl
  · next hsame => exact absurd (List.cons.inj hsame).1 (by decide)
  · next hother _ => exact absurd rfl (hother t)

theorem readEntries_not_closed {entries : List (Datum × Datum)}
    (h : readEntries fuel t = some (entries, rest)) (u : Text) : skipGap t ≠ '\x7d' :: u := by
  intro hclosed
  cases fuel with
  | zero => cases h
  | succ fuel =>
      rw [readEntries, hclosed] at h
      cases h

theorem readValue_table {entries : List (Datum × Datum)}
    (h : readEntries fuel t = some (entries, rest)) :
    readValue (fuel + 1) ('\x7b' :: t) = some (.table false entries, rest) := by
  have hgap : skipGap ('\x7b' :: t) = '\x7b' :: t := rfl
  rw [readValue, hgap]
  split
  · next hsame => exact absurd (List.cons.inj hsame).1 (by decide)
  · next u hsame =>
    obtain ⟨-, rfl⟩ := List.cons.inj hsame
    split
    · next hclosed => exact absurd hclosed (readEntries_not_closed h _)
    · rw [readEntries_of_skipGap (skipGap_skipGap t), h]
      rfl
  · next _ hother => exact absurd rfl (hother t)

/-- The key of an entry, and what is left to read of the entries. -/
theorem readEntries_key (key : Text) (t : Text) :
    readEntries (fuel + 1) (quote key ++ [':', ' '] ++ t) = (do
      let (value, t) ← readValue fuel t
      match ← follow? '\x7d' t with
      | (.done, rest) => return ([(.text key, value)], rest)
      | (.more, t) =>
        let (entries, rest) ← readEntries fuel t
        return ((.text key, value) :: entries, rest)) := by
  have hquote : quote key ++ [':', ' '] ++ t = '"' :: (escape key ++ '"' :: ':' :: ' ' :: t) := by
    simp [quote]
  have hgap : ∀ u, skipGap ('"' :: u) = '"' :: u := fun _ => rfl
  have hcolon : ∀ u, skipGap (':' :: u) = ':' :: u := fun _ => rfl
  rw [hquote, readEntries, hgap]
  simp only [readText_escape, Option.bind_eq_bind, Option.bind_some, hcolon]
  have hblank : skipGap (' ' :: t) = skipGap t := rfl
  rw [readValue_of_skipGap hblank]
  rfl

open Record (HoldsIntegers HoldIntegers EntriesHoldIntegers datumItems datumEntries prettyItems
  prettyEntries)

theorem ends_prettyBreak (depth : Nat) (t : Text) : Numeral.Ends (prettyBreak depth ++ t) :=
  Numeral.ends_cons (by decide)

theorem ends_comma (t : Text) : Numeral.Ends (',' :: t) := Numeral.ends_cons (by decide)

theorem length_prettyBreak (depth : Nat) : (prettyBreak depth).length = 2 * depth + 1 := by
  rw [prettyBreak, List.length_cons, List.length_replicate]

mutual

/-- A printed record is read as its data. Each value, item and entry has a character of its own, so
two steps for each character are enough. -/
theorem readValue_pretty : (r : Record) → r.HoldsIntegers → (depth fuel : Nat) → (rest : Text) →
    Numeral.Ends rest → 2 * (r.pretty depth).length < fuel →
    readValue fuel (r.pretty depth ++ rest) = some (r.datum, rest)
  | .flag b, _, _, fuel + 1, rest, _, _ => by cases b <;> rfl
  | .text t, _, _, fuel + 1, rest, _, _ => readValue_quote fuel t rest
  | .number n, h, _, fuel + 1, rest, hrest, _ => by
      obtain ⟨i, rfl, hfits⟩ := h
      exact readValue_integerText hfits hrest
  | .list [], _, _, fuel + 1, rest, _, _ => rfl
  | .table [], _, _, fuel + 1, rest, _, _ => rfl
  | .list (item :: items), h, depth, fuel + 1, rest, _, hfuel => by
      have htext : (Record.list (item :: items)).pretty depth ++ rest =
          '[' :: (prettyItems (depth + 1) (item :: items) ++
            (prettyBreak depth ++ ']' :: rest)) := by
        simp [Record.pretty]
      have hlength := congrArg List.length htext
      simp only [List.length_append, List.length_cons, length_prettyBreak] at hlength
      rw [htext]
      apply readValue_list
      exact readItems_pretty (item :: items) (List.cons_ne_nil _ _) h (depth + 1) fuel _ rest
        (ends_prettyBreak depth _) (follow?_prettyBreak depth (.inl rfl) rest) (by omega)
  | .table (entry :: entries), h, depth, fuel + 1, rest, _, hfuel => by
      have htext : (Record.table (entry :: entries)).pretty depth ++ rest =
          '\x7b' :: (prettyEntries (depth + 1) (entry :: entries) ++
            (prettyBreak depth ++ '\x7d' :: rest)) := by
        simp [Record.pretty]
      have hlength := congrArg List.length htext
      simp only [List.length_append, List.length_cons, length_prettyBreak] at hlength
      rw [htext]
      apply readValue_table
      exact readEntries_pretty (entry :: entries) (List.cons_ne_nil _ _) h (depth + 1) fuel _ rest
        (ends_prettyBreak depth _) (follow?_prettyBreak depth (.inr rfl) rest) (by omega)

theorem readItems_pretty : (items : List Record) → items ≠ [] → HoldIntegers items →
    (depth fuel : Nat) → (rest after : Text) → Numeral.Ends rest →
    follow? ']' rest = some (.done, after) → 2 * (prettyItems depth items).length ≤ fuel →
    readItems fuel (prettyItems depth items ++ rest) = some (datumItems items, after)
  | [item], _, h, depth, fuel, rest, after, hrest, hdone, hfuel => by
      have htext : prettyItems depth [item] ++ rest =
          prettyBreak depth ++ (item.pretty depth ++ rest) := by
        simp [prettyItems]
      have hlength := congrArg List.length htext
      simp only [List.length_append, length_prettyBreak] at hlength
      obtain ⟨fuel, rfl⟩ := Nat.exists_eq_add_one_of_ne_zero (n := fuel) (by omega)
      rw [htext, readItems_of_skipGap (skipGap_prettyBreak depth _)]
      apply readItems_done _ hdone
      exact readValue_pretty item h.1 depth fuel rest hrest (by omega)
  | item :: next :: items, _, h, depth, fuel, rest, after, hrest, hdone, hfuel => by
      have htext : prettyItems depth (item :: next :: items) ++ rest =
          prettyBreak depth ++ (item.pretty depth ++
            (',' :: (prettyItems depth (next :: items) ++ rest))) := by
        simp [prettyItems]
      have hlength := congrArg List.length htext
      simp only [List.length_append, List.length_cons, length_prettyBreak] at hlength
      obtain ⟨fuel, rfl⟩ := Nat.exists_eq_add_one_of_ne_zero (n := fuel) (by omega)
      rw [htext, readItems_of_skipGap (skipGap_prettyBreak depth _)]
      apply readItems_more _ (follow?_more ']' _)
      · exact readItems_pretty (next :: items) (List.cons_ne_nil _ _) h.2 depth fuel rest after
          hrest hdone (by omega)
      · exact readValue_pretty item h.1 depth fuel _ (ends_comma _) (by omega)

theorem readEntries_pretty : (entries : List (Text × Record)) → entries ≠ [] →
    EntriesHoldIntegers entries → (depth fuel : Nat) → (rest after : Text) → Numeral.Ends rest →
    follow? '\x7d' rest = some (.done, after) → 2 * (prettyEntries depth entries).length ≤ fuel →
    readEntries fuel (prettyEntries depth entries ++ rest) = some (datumEntries entries, after)
  | [(key, value)], _, h, depth, fuel, rest, after, hrest, hdone, hfuel => by
      have htext : prettyEntries depth [(key, value)] ++ rest =
          prettyBreak depth ++ (quote key ++ [':', ' '] ++ (value.pretty depth ++ rest)) := by
        simp [prettyEntries]
      have hlength := congrArg List.length htext
      simp only [List.length_append, length_prettyBreak] at hlength
      obtain ⟨fuel, rfl⟩ := Nat.exists_eq_add_one_of_ne_zero (n := fuel) (by omega)
      have hvalue := readValue_pretty value h.1 depth fuel rest hrest (by omega)
      rw [htext, readEntries_of_skipGap (skipGap_prettyBreak depth _), readEntries_key, hvalue]
      simp [hdone, datumEntries]
  | (key, value) :: next :: entries, _, h, depth, fuel, rest, after, hrest, hdone, hfuel => by
      have htext : prettyEntries depth ((key, value) :: next :: entries) ++ rest =
          prettyBreak depth ++ (quote key ++ [':', ' '] ++ (value.pretty depth ++
            (',' :: (prettyEntries depth (next :: entries) ++ rest)))) := by
        simp [prettyEntries]
      have hlength := congrArg List.length htext
      simp only [List.length_append, List.length_cons, length_prettyBreak] at hlength
      obtain ⟨fuel, rfl⟩ := Nat.exists_eq_add_one_of_ne_zero (n := fuel) (by omega)
      have hvalue := readValue_pretty value h.1 depth fuel _
        (ends_comma (prettyEntries depth (next :: entries) ++ rest)) (by omega)
      have hentries := readEntries_pretty (next :: entries) (List.cons_ne_nil _ _) h.2 depth fuel
        rest after hrest hdone (by omega)
      rw [htext, readEntries_of_skipGap (skipGap_prettyBreak depth _), readEntries_key, hvalue]
      simp [follow?_more, hentries, datumEntries]

end

/-- The text of a record, with gaps behind it, is read as the data of the record. -/
theorem read?_pretty {r : Record} (h : r.HoldsIntegers) (depth : Nat) (gap : Text)
    (hgap : ∀ c ∈ gap, isGap c = true) : read? (r.pretty depth ++ gap) = some r.datum := by
  have hends : Numeral.Ends gap := by
    cases gap with
    | nil => exact Numeral.ends_nil
    | cons c gap =>
        apply Numeral.ends_cons
        have hc := hgap c List.mem_cons_self
        simp only [isGap, Bool.or_eq_true, beq_iff_eq] at hc
        rcases hc with ((rfl | rfl) | rfl) | rfl <;> decide
  have hfuel : 2 * (r.pretty depth).length < fuelFor (r.pretty depth ++ gap) := by
    rw [fuelFor, List.length_append]
    omega
  have hskip : skipGap gap = [] := List.dropWhile_eq_nil_iff.mpr hgap
  rw [read?, readValue_pretty r h depth _ gap hends hfuel]
  simp [hskip]

end Json

end Partials
