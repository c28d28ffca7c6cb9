import Partials.Proofs.Block.Identity
import Partials.Proofs.Directives.AttributeList
import Partials.Proofs.Directives.Insertions

/-!
# The names of a block's attributes

A block's template holds one attribute for each of its directives but the wrap, and two for the sides
of the wrap at the end. The keys of directives are distinct; the names of the two sides are keys as
well, which an annotation may set, and then the template holds that name twice
(`attributeNames_of_ofSpan`).
-/

namespace Partials.Directives

variable {d : Directives} {pair : Wrap.Pair}

theorem isFormalWrap_iff (hnodup : d.keys.Nodup) (hget : d.get? wrapKey = some (.wrap pair))
    {entry : Text × Value} (hentry : entry ∈ d.entries) :
    isFormalWrap entry = true ↔ entry.1 = wrapKey := by
  obtain ⟨key, value⟩ := entry
  constructor
  · intro h
    cases value with
    | text t => cases h
    | list items => cases h
    | wrap other => exact beq_iff_eq.mp h
  · rintro rfl
    have hfound := get?_of_mem_entries hnodup hentry
    rw [hget] at hfound
    obtain rfl := Option.some.inj hfound
    exact beq_self_eq_true wrapKey

/-- The names of the attributes are the keys but that of the wrap, and those of its sides. -/
theorem names_eq (hnodup : d.keys.Nodup) (hget : d.get? wrapKey = some (.wrap pair)) :
    (d.ownPairs ++ d.sidePairs).map Prod.fst =
      d.keys.filter (· ≠ wrapKey) ++ [wrapBeforeKey, wrapAfterKey] := by
  have hown : d.entries.filter (!isFormalWrap ·) =
      d.entries.filter fun entry => entry.1 ≠ wrapKey := by
    apply List.filter_congr
    intro entry hentry
    have hiff := isFormalWrap_iff hnodup hget hentry
    by_cases hkey : entry.1 = wrapKey
    · simp [hkey, hiff.mpr hkey]
    · simp [hkey, Bool.eq_false_iff.mpr (mt hiff.mp hkey)]
  rw [List.map_append, ownPairs, sidePairs, hget, hown, keys, List.filter_map, List.map_map]
  rfl

/-- Of two lists without repetitions, what is in both is repeated. -/
theorem one_lt_count_append {l l' : List Text} (h : l.Nodup) (h' : l'.Nodup) (name : Text) :
    1 < (l ++ l').count name ↔ name ∈ l ∧ name ∈ l' := by
  rw [List.count_append, h.count, h'.count]
  split <;> split <;> simp_all

theorem nodup_iff_of_one_lt_count {l : List Text} {P : Text → Prop}
    (h : ∀ name, 1 < l.count name ↔ P name) : l.Nodup ↔ ∀ name, ¬ P name := by
  simp only [List.nodup_iff_count_le_one, ← h, Nat.not_lt]

/-- The assignments of a map can be told apart in its attributes. -/
theorem closed_of_mem_pairs (hkeys : ∀ entry ∈ d.entries, IsKey entry.1) :
    ∀ assigned ∈ d.ownPairs ++ d.sidePairs, Closed assigned := by
  intro assigned hassigned
  rcases List.mem_append.mp hassigned with hown | hside
  · refine (closed_of_mem_ownPairs (fun key hkey => ?_) hown).1
    obtain ⟨entry, hentry, rfl⟩ := List.mem_map.mp hkey
    exact hkeys entry hentry
  · exact (closed_of_mem_sidePairs hside).1

end Partials.Directives

namespace Partials.Block

open Directives

variable {d : Directives} {name : Text}

theorem nodup_keys_applyDefaults (h : d.keys.Nodup) (defaults : BlockDefaults) :
    (applyDefaults defaults d).keys.Nodup :=
  applyDefaults_of_insert (P := fun d => d.keys.Nodup)
    (fun _ key _ value hd => nodup_keys_insert hd key value) h defaults

/-- Defaults and the wrap are set under keys of their own. -/
theorem mem_keys_iff_of_not_mem (hname : name ∉ [wrapKey, brandKey, groupKey, idKey])
    (defaults : BlockDefaults) (wrap : Wrap.Pair) :
    name ∈ ((applyDefaults defaults d).insert wrapKey (.wrap wrap)).keys ↔ name ∈ d.keys := by
  rw [List.mem_cons, not_or] at hname
  rw [mem_keys_insert_iff, or_iff_right hname.1]
  apply applyDefaults_of_insert (P := fun d' => name ∈ d'.keys ↔ name ∈ d.keys)
  · intro d' key hkey value hd
    have hne : name ≠ key := fun heq => hname.2 (heq ▸ hkey)
    rw [mem_keys_insert_iff, or_iff_right hne, hd]
  · rfl

/-- Among the keys of a block, the name of a side is one that its annotation sets. -/
theorem mem_keys_filter_iff (hname : name = wrapBeforeKey ∨ name = wrapAfterKey)
    (defaults : BlockDefaults) (wrap : Wrap.Pair) :
    name ∈ ((applyDefaults defaults d).insert wrapKey (.wrap wrap)).keys.filter (· ≠ wrapKey) ↔
      name ∈ d.keys := by
  have hother : name ∉ [wrapKey, brandKey, groupKey, idKey] := by
    rcases hname with rfl | rfl
    · decide
    · decide
  have hne : name ≠ wrapKey := fun heq => hother (heq ▸ List.mem_cons_self)
  rw [List.mem_filter, mem_keys_iff_of_not_mem hother]
  simp [hne]

/-- The attributes of a valid block are those of its directives but the wrap, in order, and those of
the wrap's sides, and the text says so. A name stands in it twice exactly if it is that of a side and
the annotation sets it as a key; so all names differ exactly if the annotation sets neither. -/
theorem attributeNames_of_ofSpan {p : Processor} {span : Span} {origin : Text} {block : Block}
    (h : ofSpan p span origin = .ok block) :
    (∃ lines, block.template = renderTemplate p.options block.directives.attributes lines) ∧
    ∃ pairs, assignments pairs = block.directives.attributes ∧
      (∀ pair ∈ pairs, Closed pair) ∧
      (∀ pairs', (∀ pair ∈ pairs', Closed pair) →
        assignments pairs' = block.directives.attributes → pairs' = pairs) ∧
      pairs.map Prod.fst =
        block.directives.keys.filter (· ≠ wrapKey) ++ [wrapBeforeKey, wrapAfterKey] ∧
      (∀ name, 1 < (pairs.map Prod.fst).count name ↔
        (name = wrapBeforeKey ∨ name = wrapAfterKey) ∧ name ∈ (parse span.label).keys) ∧
      ((pairs.map Prod.fst).Nodup ↔
        wrapBeforeKey ∉ (parse span.label).keys ∧ wrapAfterKey ∉ (parse span.label).keys) := by
  obtain ⟨written, wrap, -, -, -, rfl⟩ := ofSpan_eq_ok_iff.mp h
  let d := (applyDefaults p.options.defaults (parse span.label)).insert wrapKey (.wrap wrap)
  have hnodup : d.keys.Nodup :=
    nodup_keys_insert (nodup_keys_applyDefaults (nodup_keys_parse span.label) _) _ _
  have hget : d.get? wrapKey = some (.wrap wrap) := by rw [get?_insert, if_pos rfl]
  have hclosed : ∀ pair ∈ d.ownPairs ++ d.sidePairs, Closed pair :=
    closed_of_mem_pairs (isKey_of_mem_entries span.label p.options.defaults wrap)
  have hsides : [wrapBeforeKey, wrapAfterKey].Nodup := by decide
  -- The keys are distinct and so are the two names, so a repeated name is among both.
  have htwice : ∀ name, 1 < ((d.ownPairs ++ d.sidePairs).map Prod.fst).count name ↔
      (name = wrapBeforeKey ∨ name = wrapAfterKey) ∧ name ∈ (parse span.label).keys := by
    intro name
    rw [names_eq hnodup hget, one_lt_count_append (hnodup.filter _) hsides, List.mem_pair,
      and_comm]
    exact and_congr_right fun hname => mem_keys_filter_iff hname _ wrap
  refine ⟨⟨_, rfl⟩, d.ownPairs ++ d.sidePairs, d.attributes_eq.symm, hclosed, ?_,
    names_eq hnodup hget, htwice, ?_⟩
  · intro pairs' hpairs' heq
    exact assignments_injective hpairs' hclosed (heq.trans d.attributes_eq)
  · rw [nodup_iff_of_one_lt_count htwice]
    simp only [not_and, or_imp, forall_and, forall_eq]

/-- Options with a default brand. -/
def marked : Processor := ⟨{ defaults := { brand := ['m'] } }, Wrap.Pair.empty⟩

/-- A wrap among other directives. -/
def titled : Span := ⟨"extract:a wrap:<b>:</b> title:x".toList, ['x'], 1, 1, true⟩

theorem attributeNames_of_ofSpan_titled :
    ∃ block pairs, ofSpan marked titled [] = .ok block ∧
      assignments pairs = block.directives.attributes ∧
      pairs.map Prod.fst =
        [extractKey, "title".toList, brandKey, wrapBeforeKey, wrapAfterKey] ∧
      (pairs.map Prod.fst).Nodup := by
  have hread : (ofSpan marked titled []).toOption.map (fun block => block.directives.keys) =
      some [extractKey, wrapKey, "title".toList, brandKey] := by
    decide +kernel
  obtain ⟨block, hok, hkeys⟩ := exists_ok_of_map_toOption hread
  obtain ⟨-, pairs, hpairs, -, -, hnames, -, hnodup⟩ := attributeNames_of_ofSpan hok
  refine ⟨block, pairs, hok, hpairs, ?_, hnodup.mpr (by decide +kernel)⟩
  rw [hnames, show block.directives.keys = _ from hkeys]
  decide +kernel

/-- An annotation that sets the name of the wrap's first side. -/
def clashing : Span := ⟨"extract:a wrap-before:x".toList, ['x'], 1, 1, true⟩

def clashingPairs : List (Text × Text) :=
  [(extractKey, ['a']), (wrapBeforeKey, ['x']), (wrapBeforeKey, []), (wrapAfterKey, [])]

def clashingTemplate : Text :=
  "<div class=\"partial\" ".toList ++ assignments clashingPairs ++ ">\nx\n</div>".toList

/-- The template of a valid block holds one name twice. -/
theorem clashing_attributes :
    ∃ block, ofSpan ⟨{}, Wrap.Pair.empty⟩ clashing "page.html".toList = .ok block ∧
      block.template = clashingTemplate ∧
      block.directives.attributes = assignments clashingPairs ∧
      (∀ pair ∈ clashingPairs, Closed pair) ∧ ¬ (clashingPairs.map Prod.fst).Nodup := by
  have hread : (ofSpan ⟨{}, Wrap.Pair.empty⟩ clashing "page.html".toList).toOption.map
        (fun block => (block.template, block.directives.attributes)) =
      some (clashingTemplate, assignments clashingPairs) := by
    decide +kernel
  obtain ⟨block, hok, hblock⟩ := exists_ok_of_map_toOption hread
  obtain ⟨htemplate, hattributes⟩ := Prod.mk.inj hblock
  exact ⟨block, hok, htemplate, hattributes, by decide +kernel, by decide +kernel⟩

end Partials.Block
