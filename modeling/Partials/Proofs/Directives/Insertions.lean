import Mathlib.Data.List.Nodup
import Partials.Proofs.Directives.Entries

/-!
# Setting entries

A present key is replaced in place and a new one goes to the end. Of entries set one after the
other, each key therefore keeps the place where it was set first and the value that was set last
(`keys_insertAll`, `get?_insertAll`).

What an annotation says is such a list of entries. A word sets at most one, and which one depends
on nothing but the word and the key that the word before it left pending
(`readWords_eq_insertAll`, `readings_append`).
-/

namespace Partials.Directives

variable {d : Directives} {key key' : Text} {value value' : Value}

/-- Entries of other keys are passed over. -/
theorem insertEntry_append {front : List (Text × Value)} (h : key ∉ front.map Prod.fst)
    (value : Value) (behind : List (Text × Value)) :
    insertEntry key value (front ++ behind) = front ++ insertEntry key value behind := by
  induction front with
  | nil => rfl
  | cons first front ih =>
      rw [List.map_cons, List.mem_cons, not_or] at h
      rw [List.cons_append, insertEntry, if_neg (Ne.symm h.1), ih h.2, List.cons_append]

theorem insertEntry_of_not_mem {entries : List (Text × Value)} (h : key ∉ entries.map Prod.fst)
    (value : Value) : insertEntry key value entries = entries ++ [(key, value)] := by
  have happend := insertEntry_append h value []
  rwa [List.append_nil] at happend

theorem insertEntry_insertEntry (entries : List (Text × Value)) :
    insertEntry key value' (insertEntry key value entries) = insertEntry key value' entries := by
  induction entries with
  | nil => simp [insertEntry]
  | cons entry entries ih =>
      by_cases hkey : entry.1 = key
      · simp [insertEntry, hkey]
      · simp [insertEntry, hkey, ih]

/-- The second of two insertions of a key wins. -/
theorem insert_insert : (d.insert key value).insert key value' = d.insert key value' :=
  congrArg Directives.mk (insertEntry_insertEntry d.entries)

theorem insertEntry_comm {entries : List (Text × Value)} (hmem : key ∈ entries.map Prod.fst)
    (hne : key' ≠ key) :
    insertEntry key' value' (insertEntry key value entries) =
      insertEntry key value (insertEntry key' value' entries) := by
  induction entries with
  | nil => cases hmem
  | cons entry entries ih =>
      by_cases hkey : entry.1 = key
      · simp [insertEntry, hkey, hne.symm]
      · have hrest : key ∈ entries.map Prod.fst :=
          (List.mem_cons.mp hmem).resolve_left (Ne.symm hkey)
        by_cases hkey' : entry.1 = key'
        · simp [insertEntry, hkey', hne]
        · simp [insertEntry, hkey, hkey', ih hrest]

/-- A present key is replaced in place, before or after another key is set. -/
theorem insert_comm (hmem : key ∈ d.keys) (hne : key' ≠ key) :
    (d.insert key value).insert key' value' = (d.insert key' value').insert key value :=
  congrArg Directives.mk (insertEntry_comm hmem hne)

theorem mem_keys_insert_iff : key' ∈ (d.insert key value).keys ↔ key' = key ∨ key' ∈ d.keys := by
  rw [keys_insert]
  split
  · next hmem =>
    constructor
    · exact .inr
    · rintro (rfl | h)
      · exact hmem
      · exact h
  · rw [List.mem_append, List.mem_singleton, or_comm]

theorem mem_keys_insert (h : key ∈ d.keys) : key ∈ (d.insert key' value').keys :=
  mem_keys_insert_iff.mpr (.inr h)

theorem mem_keys_insert_self : key ∈ (d.insert key value).keys :=
  mem_keys_insert_iff.mpr (.inl rfl)

theorem mem_keys_of_get? (h : d.get? key = some value) : key ∈ d.keys :=
  List.mem_map_of_mem (mem_entries_of_get? h)

/-- A value that is replaced stands between the same entries as before. -/
theorem exists_entries_insert (h : d.get? key = some value) (value' : Value) :
    ∃ front behind, d.entries = front ++ (key, value) :: behind ∧
      (d.insert key value').entries = front ++ (key, value') :: behind := by
  obtain ⟨front, behind, hentries, hfront⟩ := List.lookup_eq_some_iff.mp h
  have hnew : key ∉ front.map Prod.fst := by
    simp only [List.mem_map, not_exists, not_and]
    intro entry hentry heq
    exact absurd heq.symm (bne_iff_ne.mp (hfront entry hentry))
  refine ⟨front, behind, hentries, ?_⟩
  change insertEntry key value' d.entries = _
  rw [hentries, insertEntry_append hnew]
  simp [insertEntry]

theorem insert_of_get? (h : d.get? key = some value) : d.insert key value = d := by
  obtain ⟨front, behind, hentries, hinsert⟩ := exists_entries_insert h value
  exact congrArg Directives.mk (hinsert.trans hentries.symm)

/-- The map after the entries were set in it, one after the other. -/
def insertAll (d : Directives) (entries : List (Text × Value)) : Directives :=
  entries.foldl (fun d entry => d.insert entry.1 entry.2) d

variable {entries : List (Text × Value)}

theorem insertAll_append (d : Directives) (front behind : List (Text × Value)) :
    d.insertAll (front ++ behind) = (d.insertAll front).insertAll behind :=
  List.foldl_append

theorem nodup_keys_insertAll (h : d.keys.Nodup) (entries : List (Text × Value)) :
    (d.insertAll entries).keys.Nodup := by
  induction entries generalizing d with
  | nil => exact h
  | cons entry entries ih => exact ih (nodup_keys_insert h entry.1 entry.2)

/-- The keys that a map has stay in front of those that it gets. -/
theorem keys_isPrefix_insertAll (d : Directives) (entries : List (Text × Value)) :
    d.keys <+: (d.insertAll entries).keys := by
  induction entries generalizing d with
  | nil => exact List.prefix_refl d.keys
  | cons entry entries ih =>
      have hinsert : d.keys <+: (d.insert entry.1 entry.2).keys := by
        rw [keys_insert]
        split
        · exact List.prefix_refl d.keys
        · exact List.prefix_append _ _
      exact hinsert.trans (ih (d.insert entry.1 entry.2))

/-- Entries of new keys are added at the end as they are. -/
theorem insertAll_of_nodup (h : (d.keys ++ entries.map Prod.fst).Nodup) :
    d.insertAll entries = ⟨d.entries ++ entries⟩ := by
  induction entries generalizing d with
  | nil => rw [List.append_nil]; rfl
  | cons entry entries ih =>
      have hnew : entry.1 ∉ d.keys := fun hmem =>
        (List.disjoint_of_nodup_append h) hmem List.mem_cons_self
      have hentries : (d.insert entry.1 entry.2).entries = d.entries ++ [entry] :=
        insertEntry_of_not_mem hnew entry.2
      have hkeys : (d.insert entry.1 entry.2).keys = d.keys ++ [entry.1] := by
        rw [keys_insert, if_neg hnew]
      have hrest := ih (d := d.insert entry.1 entry.2) (by simpa [hkeys] using h)
      rw [hentries, List.append_assoc, List.singleton_append] at hrest
      exact hrest

/-- A present key may be replaced after all entries that do not set it. -/
theorem insertAll_insert (hmem : key ∈ d.keys) (hnew : key ∉ entries.map Prod.fst)
    (value : Value) :
    (d.insert key value).insertAll entries = (d.insertAll entries).insert key value := by
  induction entries generalizing d with
  | nil => rfl
  | cons entry entries ih =>
      simp only [List.map_cons, List.mem_cons, not_or] at hnew
      change ((d.insert key value).insert entry.1 entry.2).insertAll entries = _
      rw [insert_comm hmem (Ne.symm hnew.1)]
      exact ih (mem_keys_insert hmem) hnew.2

/-- Entries that do not set a key say nothing of its value. -/
theorem get?_insertAll_of_not_mem (hnew : key ∉ entries.map Prod.fst) :
    (d.insertAll entries).get? key = d.get? key := by
  induction entries generalizing d with
  | nil => rfl
  | cons entry entries ih =>
      simp only [List.map_cons, List.mem_cons, not_or] at hnew
      have hentry : (d.insert entry.1 entry.2).get? key = d.get? key := by
        rw [get?_insert, if_neg hnew.1]
      exact (ih hnew.2).trans hentry

section

variable (d : Directives) (front : List (Text × Value)) {behind : List (Text × Value)}

theorem insertAll_append_cons_eq_insertAll_insert (value : Value) :
    d.insertAll (front ++ (key, value) :: behind) =
      ((d.insertAll front).insert key value).insertAll behind :=
  insertAll_append d front ((key, value) :: behind)

/-- The last entry of a key gives its value. -/
theorem get?_insertAll_append_cons (hlast : key ∉ behind.map Prod.fst) (value : Value) :
    (d.insertAll (front ++ (key, value) :: behind)).get? key = some value := by
  rw [insertAll_append_cons_eq_insertAll_insert, get?_insertAll_of_not_mem hlast, get?_insert,
    if_pos rfl]

/-- Another value for the last entry of a key changes nothing else. -/
theorem insertAll_append_cons (hlast : key ∉ behind.map Prod.fst) (value value' : Value) :
    d.insertAll (front ++ (key, value') :: behind) =
      (d.insertAll (front ++ (key, value) :: behind)).insert key value' := by
  rw [insertAll_append_cons_eq_insertAll_insert, insertAll_append_cons_eq_insertAll_insert,
    ← insertAll_insert mem_keys_insert_self hlast, insert_insert]

end

/-- Setting the entries of a map in which a key was set is setting the key last. -/
theorem insertAll_insertEntry (d : Directives) (h : (entries.map Prod.fst).Nodup) :
    d.insertAll (insertEntry key value entries) = (d.insertAll entries).insert key value := by
  induction entries generalizing d with
  | nil => rfl
  | cons entry entries ih =>
      obtain ⟨hnew, hrest⟩ := List.nodup_cons.mp h
      rw [insertEntry]
      split
      · next hkey =>
        subst hkey
        change (d.insert entry.1 value).insertAll entries =
          ((d.insert entry.1 entry.2).insertAll entries).insert entry.1 value
        rw [← insertAll_insert mem_keys_insert_self hnew, insert_insert]
      · exact ih (d.insert entry.1 entry.2) hrest

/-- Entries may first be set in an empty map. -/
theorem insertAll_entries_insertAll (d : Directives) (entries : List (Text × Value)) :
    d.insertAll (empty.insertAll entries).entries = d.insertAll entries := by
  induction entries using List.reverseRecOn with
  | nil => rfl
  | append_singleton entries entry ih =>
      have hempty : empty.keys.Nodup := List.nodup_nil
      have hnodup := nodup_keys_insertAll hempty entries
      rw [insertAll_append, insertAll_append, ← ih]
      exact insertAll_insertEntry d hnodup

/-- Keys that are present keep their places, and new ones follow in the order in which they are
set. -/
theorem keys_insertAll (d : Directives) (h : (entries.map Prod.fst).Nodup) :
    (d.insertAll entries).keys = d.keys ++ (entries.map Prod.fst).filter (· ∉ d.keys) := by
  induction entries generalizing d with
  | nil => simp [insertAll]
  | cons entry entries ih =>
      obtain ⟨hnew, hrest⟩ := List.nodup_cons.mp h
      refine (ih (d.insert entry.1 entry.2) hrest).trans ?_
      rw [keys_insert]
      split
      · next hmem => simp [hmem]
      · next hmem =>
        have hother : (entries.map Prod.fst).filter (· ∉ d.keys ++ [entry.1]) =
            (entries.map Prod.fst).filter (· ∉ d.keys) := by
          apply List.filter_congr
          intro key hkey
          have hne : key ≠ entry.1 := fun heq => hnew (heq ▸ hkey)
          simp [hne]
        rw [hother]
        simp [hmem]

/-- A value that is set wins over one that is present. -/
theorem get?_insertAll (d : Directives) (h : (entries.map Prod.fst).Nodup) (key : Text) :
    (d.insertAll entries).get? key = (entries.lookup key).or (d.get? key) := by
  induction entries generalizing d with
  | nil => rfl
  | cons entry entries ih =>
      obtain ⟨hnew, hrest⟩ := List.nodup_cons.mp h
      refine (ih (d.insert entry.1 entry.2) hrest).trans ?_
      rw [get?_insert, List.lookup_cons]
      by_cases hkey : key = entry.1
      · subst hkey
        have hnone : entries.lookup entry.1 = none := get?_eq_none_iff (d := ⟨entries⟩).mpr hnew
        simp [hnone]
      · simp [hkey, beq_eq_false_iff_ne.mpr hkey]

/-- The key that a word leaves pending. -/
def Word.leaves? : Word → Option Text
  | .directive key [] => some key
  | _ => none

/-- The entry that a word sets, given the key that the word before it left pending. A pending key
has the empty value until a bare word gives it another one. -/
def Word.reading? (pending : Option Text) : Word → Option (Text × Value)
  | .directive key value => some (key, valueOf key value)
  | .bare t => pending.map fun key => (key, valueOf key t)

/-- The entries that words set, one after the other. -/
def readings : (pending : Option Text) → List Word → List (Text × Value)
  | _, [] => []
  | pending, word :: words => (word.reading? pending).toList ++ readings word.leaves? words

/-- Reading words is setting their entries. -/
theorem readWords_eq_insertAll (d : Directives) (pending : Option Text) (words : List Word) :
    d.readWords pending words = (d.flush pending).insertAll (readings pending words) := by
  fun_induction readWords d pending words with
  | case1 d pending => rfl
  | case2 d pending key words ih =>
      rw [ih]
      change _ = ((d.flush pending).insert key (valueOf key [])).insertAll _
      rw [valueOf_nil]
      rfl
  | case3 d pending key value words hne ih =>
      have hleaves : (Word.directive key value).leaves? = none := by
        cases value with
        | nil => exact absurd rfl hne
        | cons c cs => rfl
      rw [ih, readings, hleaves]
      rfl
  | case4 d key t words ih =>
      rw [ih]
      change (d.insert key (valueOf key t)).insertAll (readings none words) =
        ((d.insert key (.text [])).insert key (valueOf key t)).insertAll (readings none words)
      rw [insert_insert]
  | case5 d t words ih => exact ih

/-- The key that words leave pending. -/
def leftBy (pending : Option Text) (words : List Word) : Option Text :=
  words.foldl (fun _ word => word.leaves?) pending

/-- Of the words in front, nothing but the key that the last of them leaves pending says how the
words behind them are read. -/
theorem readings_append (pending : Option Text) (front behind : List Word) :
    readings pending (front ++ behind) =
      readings pending front ++ readings (leftBy pending front) behind := by
  induction front generalizing pending with
  | nil => rfl
  | cons word front ih =>
      change (word.reading? pending).toList ++ readings word.leaves? (front ++ behind) =
        (word.reading? pending).toList ++ readings word.leaves? front ++
          readings (leftBy word.leaves? front) behind
      rw [ih, List.append_assoc]

theorem mem_keys_readings {pending : Option Text} {words : List Word}
    (h : key ∈ (readings pending words).map Prod.fst) :
    pending = some key ∨ ∃ t, .directive key t ∈ words := by
  induction words generalizing pending with
  | nil => cases h
  | cons word words ih =>
      have hleaves : word.leaves? = some key → ∃ t, .directive key t ∈ word :: words := by
        intro hword
        match word, hword with
        | .directive _ [], rfl => exact ⟨[], List.mem_cons_self⟩
      simp only [readings, List.map_append, List.mem_append, List.mem_map, Option.mem_toList] at h
      rcases h with ⟨entry, hentry, rfl⟩ | h
      · cases word with
        | directive key value =>
            obtain rfl := Option.some.inj hentry
            exact .inr ⟨value, List.mem_cons_self⟩
        | bare t =>
            obtain ⟨key, hkey, rfl⟩ := Option.map_eq_some_iff.mp hentry
            exact .inl hkey
      · rcases ih (List.mem_map.mpr h) with hword | ⟨t, ht⟩
        · exact .inr (hleaves hword)
        · exact .inr ⟨t, List.mem_cons_of_mem word ht⟩

end Partials.Directives
