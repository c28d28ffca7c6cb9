import Mathlib.Data.List.Induction
import Mathlib.Data.List.Nodup
import Partials.Inventory

/-!
# First wins

What a stream of valid blocks comes to: the first block of each destination stays, and every later
one repeats it or conflicts with it.
-/

namespace Partials.Block

/-- For each destination, in the order of first appearance, the first block with it. -/
def firstWins (blocks : List Block) : List Block :=
  (blocks.map Block.destination).eraseDups.filterMap fun destination =>
    blocks.find? (·.destination == destination)

/-- The first block with the destination of `block`. -/
def owner? (before : List Block) (block : Block) : Option Block :=
  before.find? (·.destination == block.destination)

/-- How a block is reported that comes after `before`, unless its destination is new. -/
def repeatIssue? (before : List Block) (line : Nat) (block : Block) : Option Issue :=
  (owner? before block).map fun owner =>
    if block.id = owner.id then .duplicate line block.destination block.id
    else .conflict line block.destination

theorem mem_of_owner? {before : List Block} {block owner : Block}
    (howner : owner? before block = some owner) :
    owner ∈ before ∧ owner.destination = block.destination :=
  ⟨List.mem_of_find?_eq_some howner, by simpa using List.find?_some howner⟩

theorem owner?_eq_none_iff {before : List Block} {block : Block} :
    owner? before block = none ↔ block.destination ∉ before.map Block.destination := by
  simp only [owner?, List.find?_eq_none, List.mem_map, beq_iff_eq, not_exists, not_and]

theorem repeatIssue?_eq_none_iff {before : List Block} {line : Nat} {block : Block} :
    repeatIssue? before line block = none ↔
      block.destination ∉ before.map Block.destination := by
  rw [repeatIssue?, Option.map_eq_none_iff, owner?_eq_none_iff]

private theorem find?_append_of_mem {before : List Block} (block : Block) {destination : Text}
    (hmem : destination ∈ before.map Block.destination) :
    (before ++ [block]).find? (·.destination == destination) =
      before.find? (·.destination == destination) := by
  obtain ⟨b, hb, rfl⟩ := List.mem_map.1 hmem
  have hfound : (before.find? (·.destination == b.destination)).isSome := by
    rw [List.find?_isSome]
    exact ⟨b, hb, by simp⟩
  obtain ⟨owner, howner⟩ := Option.isSome_iff_exists.1 hfound
  rw [List.find?_append, howner, Option.some_or]

private theorem filterMap_find?_append (before : List Block) (block : Block) :
    (before.map Block.destination).eraseDups.filterMap
        (fun destination => (before ++ [block]).find? (·.destination == destination)) =
      firstWins before := by
  apply List.filterMap_congr
  intro destination hdestination
  exact find?_append_of_mem block (List.mem_eraseDups.1 hdestination)

theorem firstWins_append_of_mem {before : List Block} {block : Block}
    (hmem : block.destination ∈ before.map Block.destination) :
    firstWins (before ++ [block]) = firstWins before := by
  have hno : [block.destination].removeAll (before.map Block.destination) = [] := by
    simpa [List.removeAll] using hmem
  rw [firstWins, List.map_append, List.map_singleton, List.eraseDups_append, hno,
    List.eraseDups_nil, List.append_nil, filterMap_find?_append]

theorem firstWins_append_of_not_mem {before : List Block} {block : Block}
    (hmem : block.destination ∉ before.map Block.destination) :
    firstWins (before ++ [block]) = firstWins before ++ [block] := by
  have hnew : [block.destination].removeAll (before.map Block.destination) =
      [block.destination] := by
    simpa [List.removeAll] using hmem
  have hfind : (before ++ [block]).find? (·.destination == block.destination) = some block := by
    have hnone : before.find? (·.destination == block.destination) = none :=
      owner?_eq_none_iff.2 hmem
    rw [List.find?_append, hnone, Option.none_or]
    simp
  rw [firstWins, List.map_append, List.map_singleton, List.eraseDups_append, hnew,
    List.eraseDups_cons, List.filter_nil, List.eraseDups_nil, List.filterMap_append,
    filterMap_find?_append]
  simp only [List.filterMap_cons, hfind, List.filterMap_nil]

/-- The blocks that stay have the destinations of the stream, each once. -/
theorem map_destination_firstWins (blocks : List Block) :
    (firstWins blocks).map Block.destination =
      (blocks.map Block.destination).eraseDups := by
  have hfind : ∀ destination ∈ (blocks.map Block.destination).eraseDups,
      (blocks.find? (·.destination == destination)).map Block.destination =
        some destination := by
    intro destination hdestination
    obtain ⟨b, hb, rfl⟩ := List.mem_map.1 (List.mem_eraseDups.1 hdestination)
    cases howner : owner? blocks b with
    | none => exact absurd (List.mem_map_of_mem hb) (owner?_eq_none_iff.1 howner)
    | some owner =>
      rw [show blocks.find? (·.destination == b.destination) = some owner from howner,
        Option.map_some, (mem_of_owner? howner).2]
  rw [firstWins, List.map_filterMap, List.filterMap_congr hfind, List.filterMap_some]

theorem mem_map_destination_firstWins {blocks : List Block} {destination : Text} :
    destination ∈ (firstWins blocks).map Block.destination ↔
      destination ∈ blocks.map Block.destination := by
  rw [map_destination_firstWins, List.mem_eraseDups]

theorem nodup_map_destination_firstWins (blocks : List Block) :
    ((firstWins blocks).map Block.destination).Nodup := by
  induction blocks using List.reverseRecOn with
  | nil => exact List.nodup_nil
  | append_singleton before block ih =>
      by_cases hmem : block.destination ∈ before.map Block.destination
      · rw [firstWins_append_of_mem hmem]
        exact ih
      · rw [firstWins_append_of_not_mem hmem, List.map_append, List.map_singleton]
        refine List.nodup_append.mpr ⟨ih, List.nodup_singleton _, ?_⟩
        rintro destination hbefore _ hlast rfl
        obtain rfl := List.mem_singleton.mp hlast
        exact hmem (mem_map_destination_firstWins.mp hbefore)

theorem mem_of_mem_firstWins {blocks : List Block} {block : Block}
    (hblock : block ∈ firstWins blocks) : block ∈ blocks := by
  obtain ⟨destination, -, hfind⟩ := List.mem_filterMap.1 hblock
  exact List.mem_of_find?_eq_some hfind

theorem owner?_eq_some_of_mem_firstWins {blocks : List Block} {owner block : Block}
    (howner : owner ∈ firstWins blocks) (hdestination : owner.destination = block.destination) :
    owner? blocks block = some owner := by
  obtain ⟨destination, -, hfind⟩ := List.mem_filterMap.1 howner
  have hsame : owner.destination = destination := by simpa using List.find?_some hfind
  rw [owner?, ← hdestination, hsame, hfind]

theorem mem_firstWins_of_owner? {blocks : List Block} {owner block : Block}
    (howner : owner? blocks block = some owner) : owner ∈ firstWins blocks := by
  obtain ⟨hmem, hdestination⟩ := mem_of_owner? howner
  apply List.mem_filterMap.2
  refine ⟨block.destination, List.mem_eraseDups.2 ?_, howner⟩
  exact List.mem_map.2 ⟨owner, hmem, hdestination⟩

end Partials.Block
