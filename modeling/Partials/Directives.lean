import Partials.Wrap
import Partials.Record

/-!
# Directives

The directives of an annotation: an ordered map from keys to values. Setting a key that is present
replaces its value in place; a new key goes to the end, so keys are never repeated
(`nodup_keys_insert`).
-/

namespace Partials

/-- The value of a directive. -/
inductive Value
  | text (t : Text)
  | list (items : List Text)
  /-- A formalized wrap. -/
  | wrap (pair : Wrap.Pair)
  deriving DecidableEq, Repr

namespace Value

/-- The separator of a list's parts. -/
def separator : Char := ':'

/-- The value as one text; a wrap has none. -/
def asText? : Value → Option Text
  | text t => some t
  | list items => some (Text.join [separator] items)
  | wrap _ => none

/-- The wrap that the value stands for. -/
def wrapSpec : Value → Wrap.Spec
  | text t => .text t
  | list items => .sequence items
  | wrap pair => .fields (some pair.before) (some pair.after)

end Value

/-- The table of a pair. -/
def Wrap.Pair.toRecord (p : Wrap.Pair) : Record :=
  .table [("before".toList, .text p.before), ("after".toList, .text p.after)]

def Value.toRecord : Value → Record
  | text t => .text t
  | list items => Record.texts items
  | wrap pair => pair.toRecord

/-- The directives of an annotation, in the order in which their keys were first set. -/
structure Directives where
  entries : List (Text × Value)
  deriving DecidableEq, Repr

namespace Directives

def empty : Directives := ⟨[]⟩

def keys (d : Directives) : List Text := d.entries.map Prod.fst

def size (d : Directives) : Nat := d.entries.length

def isEmpty (d : Directives) : Bool := d.entries.isEmpty

def get? (d : Directives) (key : Text) : Option Value := d.entries.lookup key

def contains (d : Directives) (key : Text) : Bool := (d.get? key).isSome

/-- The value of `key` as one text. -/
def text? (d : Directives) (key : Text) : Option Text := (d.get? key).bind Value.asText?

/-- Replaces the first entry of `key`, or adds one at the end. -/
def insertEntry (key : Text) (value : Value) : List (Text × Value) → List (Text × Value)
  | [] => [(key, value)]
  | (k, v) :: entries =>
    if k = key then (k, value) :: entries else (k, v) :: insertEntry key value entries

def insert (d : Directives) (key : Text) (value : Value) : Directives :=
  ⟨insertEntry key value d.entries⟩

/-- The map as a table. -/
def toRecord (d : Directives) : Record := .table (d.entries.map fun (k, v) => (k, v.toRecord))

theorem keys_insertEntry (key : Text) (value : Value) (entries : List (Text × Value)) :
    (insertEntry key value entries).map Prod.fst =
      if key ∈ entries.map Prod.fst then entries.map Prod.fst
      else entries.map Prod.fst ++ [key] := by
  induction entries with
  | nil => simp [insertEntry]
  | cons entry entries ih =>
    obtain ⟨k, v⟩ := entry
    rw [insertEntry]
    split
    · next h => simp [h]
    · next h =>
      have h' : key ≠ k := Ne.symm h
      simp only [List.map_cons, ih, List.mem_cons, h', false_or]
      split <;> simp

/-- An insertion keeps the order of the keys and adds a new one at the end. -/
theorem keys_insert (d : Directives) (key : Text) (value : Value) :
    (d.insert key value).keys = if key ∈ d.keys then d.keys else d.keys ++ [key] :=
  keys_insertEntry key value d.entries

theorem nodup_keys_insert {d : Directives} (h : d.keys.Nodup) (key : Text) (value : Value) :
    (d.insert key value).keys.Nodup := by
  rw [keys_insert]
  split
  · exact h
  · next hk =>
    refine List.nodup_append.2 ⟨h, by simp, ?_⟩
    intro a ha b hb hab
    rw [List.mem_singleton] at hb
    exact hk (hb ▸ hab ▸ ha)

/-- A key reads back the value it was set to; the others keep theirs. -/
theorem get?_insert (d : Directives) (key key' : Text) (value : Value) :
    (d.insert key value).get? key' = if key' = key then some value else d.get? key' := by
  unfold insert get?
  induction d.entries with
  | nil =>
    by_cases h : key' = key <;> simp [insertEntry, List.lookup_cons, h, beq_eq_false_iff_ne.2]
  | cons entry entries ih =>
    obtain ⟨k, v⟩ := entry
    rw [insertEntry]
    by_cases hk : k = key
    · by_cases h : key' = key <;> simp_all [List.lookup_cons, beq_eq_false_iff_ne.2]
    · by_cases h : key' = k
      · simp_all
      · simpa [List.lookup_cons, hk, beq_eq_false_iff_ne.2 h] using ih

end Directives

end Partials
