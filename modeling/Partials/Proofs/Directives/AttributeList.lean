import Mathlib.Data.List.Forall2
import Partials.Proofs.Directives.AttributeText

/-!
# The list of attributes

The attributes of a block are assignments, one space apart. No value holds the quote that ends it,
so the text says which assignments it was made of (`assignments_injective`), and the values of texts
read back as what they were but for their double quotes (`attributes_eq_assignments`).
-/

namespace Partials.Directives

/-- One attribute with its key and what stands between its quotes. -/
def assignment (pair : Text × Text) : Text :=
  "data-".toList ++ pair.1 ++ ['=', '"'] ++ pair.2 ++ ['"']

def assignments (pairs : List (Text × Text)) : Text :=
  Text.join [' '] (pairs.map assignment)

/-- The key is one, and the value does not end its attribute. -/
structure Closed (pair : Text × Text) : Prop where
  isKey : IsKey pair.1
  quote_not_mem : '"' ∉ pair.2

instance (pair : Text × Text) : Decidable (Closed pair) :=
  decidable_of_iff (IsKey pair.1 ∧ '"' ∉ pair.2)
    ⟨fun ⟨hkey, hquote⟩ => ⟨hkey, hquote⟩, fun h => ⟨h.isKey, h.quote_not_mem⟩⟩

/-- What follows the first of several assignments. -/
def behind : List (Text × Text) → Text
  | [] => []
  | pair :: pairs => ' ' :: assignments (pair :: pairs)

theorem assignments_cons (pair : Text × Text) (pairs : List (Text × Text)) :
    assignments (pair :: pairs) =
      "data-".toList ++ (pair.1 ++ '=' :: '"' :: (pair.2 ++ '"' :: behind pairs)) := by
  have hcut : ∀ tail : Text, assignment pair ++ tail =
      "data-".toList ++ (pair.1 ++ '=' :: '"' :: (pair.2 ++ '"' :: tail)) := by
    intro tail
    unfold assignment
    generalize "data-".toList = data
    simp only [List.append_assoc, List.cons_append, List.nil_append]
  cases pairs with
  | nil => exact (List.append_nil _).symm.trans (hcut [])
  | cons next rest =>
      have hne : (next :: rest).map assignment ≠ [] := List.cons_ne_nil _ _
      rw [← hcut, assignments, List.map_cons, Text.join_cons hne, List.append_assoc]
      rfl

theorem IsKey.equals_not_mem {key : Text} (h : IsKey key) : '=' ∉ key := by
  intro hmem
  exact absurd (h.2 _ hmem) (by decide)

theorem behind_injective {pairs pairs' : List (Text × Text)}
    (h : assignments pairs = assignments pairs' → pairs = pairs')
    (heq : behind pairs = behind pairs') : pairs = pairs' := by
  cases pairs with
  | nil =>
      cases pairs' with
      | nil => rfl
      | cons pair' pairs' => cases heq
  | cons pair pairs =>
      cases pairs' with
      | nil => cases heq
      | cons pair' pairs' => exact h (List.cons.inj heq).2

/-- No two lists of assignments have the same text. -/
theorem assignments_injective {pairs pairs' : List (Text × Text)}
    (hpairs : ∀ pair ∈ pairs, Closed pair) (hpairs' : ∀ pair ∈ pairs', Closed pair)
    (h : assignments pairs = assignments pairs') : pairs = pairs' := by
  induction pairs generalizing pairs' with
  | nil =>
      cases pairs' with
      | nil => rfl
      | cons pair' pairs' =>
          rw [assignments_cons] at h
          cases h
  | cons pair pairs ih =>
      cases pairs' with
      | nil =>
          rw [assignments_cons] at h
          cases h
      | cons pair' pairs' =>
          have hpair := hpairs pair List.mem_cons_self
          have hpair' := hpairs' pair' List.mem_cons_self
          rw [assignments_cons, assignments_cons] at h
          obtain ⟨hkey, hrest⟩ := Text.append_cons_inj_of_first hpair.isKey.equals_not_mem
            hpair'.isKey.equals_not_mem (List.append_cancel_left h)
          obtain ⟨hvalue, htail⟩ := Text.append_cons_inj_of_first hpair.quote_not_mem
            hpair'.quote_not_mem (List.cons.inj hrest).2
          have hsame : pairs = pairs' := by
            refine behind_injective (ih ?_ ?_) htail
            · exact fun other hother => hpairs other (List.mem_cons_of_mem _ hother)
            · exact fun other hother => hpairs' other (List.mem_cons_of_mem _ hother)
          rw [Prod.ext hkey hvalue, hsame]

/-- The entry is the block's formalized wrap. -/
def isFormalWrap : Text × Value → Bool
  | (key, .wrap _) => key == wrapKey
  | _ => false

/-- Between quotes, the value is the JSON of the text with its double quotes made single. -/
def ReadsBack (value t : Text) : Prop :=
  Json.read? ('"' :: value ++ ['"']) = some (.text (t.map softened))

/-- The assignment is that of the entry. -/
def Shows (entry : Text × Value) (pair : Text × Text) : Prop :=
  pair.1 = entry.1 ∧ pair.2 = attributeValue entry.2.toRecord ∧
    ∀ t, entry.2 = .text t → ReadsBack pair.2 t

theorem readsBack_attributeValue (t : Text) : ReadsBack (attributeValue (.text t)) t := by
  rw [ReadsBack, attributeValue_text]
  exact Json.read?_quote _

/-- The key and the attribute's value of an entry. -/
def entryPair (entry : Text × Value) : Text × Text :=
  (entry.1, attributeValue entry.2.toRecord)

/-- The assignments of the entries that stand at their own places. -/
def ownPairs (d : Directives) : List (Text × Text) :=
  (d.entries.filter (!isFormalWrap ·)).map entryPair

/-- The assignments of the two sides of the block's wrap. -/
def sidePairs (d : Directives) : List (Text × Text) :=
  match d.get? wrapKey with
  | some (.wrap pair) =>
    [(wrapBeforeKey, attributeValue (.text pair.before)),
      (wrapAfterKey, attributeValue (.text pair.after))]
  | _ => []

theorem entryAttributes_eq (entry : Text × Value) :
    entryAttributes entry = if isFormalWrap entry then [] else [assignment (entryPair entry)] := by
  obtain ⟨key, value⟩ := entry
  cases value with
  | text t => rfl
  | list items => rfl
  | wrap pair =>
      simp only [entryAttributes, isFormalWrap, beq_iff_eq]
      rfl

theorem flatMap_entryAttributes (entries : List (Text × Value)) :
    entries.flatMap entryAttributes =
      ((entries.filter (!isFormalWrap ·)).map entryPair).map assignment := by
  induction entries with
  | nil => rfl
  | cons entry entries ih =>
      rw [List.flatMap_cons, ih, entryAttributes_eq]
      cases hwrap : isFormalWrap entry with
      | true => rw [List.filter_cons_of_neg (by simp [hwrap])]; rfl
      | false => rw [List.filter_cons_of_pos (by simp [hwrap])]; rfl

theorem attributes_eq (d : Directives) :
    d.attributes = assignments (d.ownPairs ++ d.sidePairs) := by
  rw [attributes, flatMap_entryAttributes, assignments, List.map_append]
  unfold sidePairs
  cases d.get? wrapKey with
  | none => rfl
  | some value =>
      cases value with
      | text t => rfl
      | list items => rfl
      | wrap pair => rfl

theorem forall₂_shows_ownPairs (d : Directives) :
    List.Forall₂ Shows (d.entries.filter (!isFormalWrap ·)) d.ownPairs := by
  rw [ownPairs, List.forall₂_map_right_iff, List.forall₂_same]
  rintro ⟨key, value⟩ -
  refine ⟨rfl, rfl, ?_⟩
  rintro t rfl
  exact readsBack_attributeValue t

theorem closed_of_mem_ownPairs {d : Directives} (hkeys : ∀ key ∈ d.keys, IsKey key)
    {pair : Text × Text} (hpair : pair ∈ d.ownPairs) : Closed pair ∧ pair.2.ControlFree := by
  obtain ⟨entry, hentry, rfl⟩ := List.mem_map.mp hpair
  have hkey : IsKey entry.1 := hkeys entry.1 (List.mem_map_of_mem (List.mem_of_mem_filter hentry))
  exact ⟨⟨hkey, quote_not_mem_singleQuotes _⟩,
    controlFree_attributeValue (controlFree_toRecord entry.2)⟩

theorem closed_of_mem_sidePairs {d : Directives} {pair : Text × Text}
    (hpair : pair ∈ d.sidePairs) : Closed pair ∧ pair.2.ControlFree := by
  have hside : ∀ key t : Text, IsKey key →
      Closed (key, attributeValue (.text t)) ∧ (attributeValue (.text t)).ControlFree :=
    fun key t hkey => ⟨⟨hkey, quote_not_mem_singleQuotes _⟩,
      controlFree_attributeValue (Json.controlFree_quote t)⟩
  unfold sidePairs at hpair
  split at hpair
  · rcases List.mem_cons.mp hpair with rfl | hpair
    · exact hside _ _ ⟨List.cons_ne_nil _ _, List.all_eq_true.mp rfl⟩
    · obtain rfl := List.mem_singleton.mp hpair
      exact hside _ _ ⟨List.cons_ne_nil _ _, List.all_eq_true.mp rfl⟩
  · cases hpair

/-- The attributes of a map with distinct keys are one assignment for each entry, in order, with
those of the wrap's sides at the end. The text says which assignments they are, and the value of a
text says which text it is but for its double quotes. -/
theorem attributes_eq_assignments {d : Directives} (hnodup : d.keys.Nodup)
    (hkeys : ∀ key ∈ d.keys, IsKey key) :
    ∃ own sides : List (Text × Text),
      d.attributes = assignments (own ++ sides) ∧
      List.Forall₂ Shows (d.entries.filter (!isFormalWrap ·)) own ∧
      (∀ pair, (wrapKey, .wrap pair) ∈ d.entries →
        ∃ before after, sides = [(wrapBeforeKey, before), (wrapAfterKey, after)] ∧
          ReadsBack before pair.before ∧ ReadsBack after pair.after) ∧
      ((∀ pair, (wrapKey, .wrap pair) ∉ d.entries) → sides = []) ∧
      (∀ pair ∈ own ++ sides, Closed pair ∧ pair.2.ControlFree) ∧
      ∀ pairs, (∀ pair ∈ pairs, Closed pair) → assignments pairs = d.attributes →
        pairs = own ++ sides := by
  have hclosed : ∀ pair ∈ d.ownPairs ++ d.sidePairs, Closed pair ∧ pair.2.ControlFree := by
    intro pair hpair
    rcases List.mem_append.mp hpair with hpair | hpair
    · exact closed_of_mem_ownPairs hkeys hpair
    · exact closed_of_mem_sidePairs hpair
  refine ⟨d.ownPairs, d.sidePairs, d.attributes_eq, d.forall₂_shows_ownPairs, ?_, ?_, hclosed, ?_⟩
  · intro pair hentry
    refine ⟨_, _, ?_, readsBack_attributeValue _, readsBack_attributeValue _⟩
    rw [sidePairs, get?_of_mem_entries hnodup hentry]
  · intro hnone
    unfold sidePairs
    split
    · next pair hget => exact absurd (mem_entries_of_get? hget) (hnone pair)
    · rfl
  · intro pairs hpairs heq
    exact assignments_injective hpairs (fun pair hpair => (hclosed pair hpair).1)
      (heq.trans d.attributes_eq)

/-- A backslash before a quote, a wrap with quotes, and a list behind it. -/
def quotedMap : Directives :=
  ⟨[("title".toList, .text ['\\', '"']),
    (wrapKey, .wrap ⟨"<ul class=\"x\">".toList, "</ul>".toList⟩),
    ("tags".toList, .list [['a'], ['b']])]⟩

/-- The assignments of `quotedMap`. -/
def quotedPairs : List (Text × Text) :=
  [("title".toList, ['\\', '\\', '\'']), ("tags".toList, "['a','b']".toList),
    (wrapBeforeKey, "<ul class='x'>".toList), (wrapAfterKey, "</ul>".toList)]

theorem attributes_eq_assignments_quoted :
    quotedMap.keys.Nodup ∧ (∀ key ∈ quotedMap.keys, IsKey key) ∧
      assignments quotedPairs = quotedMap.attributes ∧
      ∀ pairs, (∀ pair ∈ pairs, Closed pair) → assignments pairs = quotedMap.attributes →
        pairs = quotedPairs := by
  have hnodup : quotedMap.keys.Nodup := by decide +kernel
  have hkeys : ∀ key ∈ quotedMap.keys, IsKey key := by decide +kernel
  have hquoted : assignments quotedPairs = quotedMap.attributes := by decide +kernel
  obtain ⟨own, sides, -, -, -, -, -, hunique⟩ := attributes_eq_assignments hnodup hkeys
  refine ⟨hnodup, hkeys, hquoted, ?_⟩
  intro pairs hpairs heq
  rw [hunique pairs hpairs heq, hunique quotedPairs (by decide +kernel) hquoted]

end Partials.Directives
