import Partials.Proofs.Block.Identity
import Partials.Proofs.Directives.Respelling
import Partials.Proofs.Inventory.Offers

/-!
# Blocks whose destinations are spelled differently

Backslashes in a destination are read as slashes wherever the destination is read as a path. The
directives keep it as it is written, though, and with them the template and the identity of the
block: a fragment that is offered once with slashes and once with backslashes goes to one place
under two identities (`ofSpan_respelled`).
-/

namespace Partials.Block

section

variable {d : Directives} {key key' : Text} {value : Value}

theorem text?_insert (hne : key' ≠ key) : (d.insert key value).text? key' = d.text? key' := by
  unfold Directives.text?
  rw [Directives.get?_insert, if_neg hne]

theorem mem_keys_applyDefault (hmem : key ∈ d.keys) (key' default : Text) :
    key ∈ (applyDefault d key' default).keys := by
  unfold applyDefault
  split
  · exact hmem
  · exact Directives.mem_keys_insert hmem

/-- A default does not depend on the values of other keys. -/
theorem applyDefault_insert (hmem : key ∈ d.keys) (hne : key' ≠ key) (default : Text) :
    applyDefault (d.insert key value) key' default =
      (applyDefault d key' default).insert key value := by
  have hcontains : (d.insert key value).contains key' = d.contains key' := by
    unfold Directives.contains
    rw [Directives.get?_insert, if_neg hne]
  unfold applyDefault
  rw [hcontains]
  split
  · rfl
  · exact Directives.insert_comm hmem hne

theorem mem_keys_applyDefaults (hmem : key ∈ d.keys) (defaults : BlockDefaults) :
    key ∈ (applyDefaults defaults d).keys :=
  mem_keys_applyDefault (mem_keys_applyDefault (mem_keys_applyDefault hmem _ _) _ _) _ _

theorem applyDefaults_insert_extract (hmem : Directives.extractKey ∈ d.keys)
    (defaults : BlockDefaults) :
    applyDefaults defaults (d.insert Directives.extractKey value) =
      (applyDefaults defaults d).insert Directives.extractKey value := by
  have hbrand := mem_keys_applyDefault hmem brandKey defaults.brand
  have hgroup := mem_keys_applyDefault hbrand groupKey defaults.group
  simp only [applyDefaults]
  rw [applyDefault_insert hmem (by decide), applyDefault_insert hbrand (by decide),
    applyDefault_insert hgroup (by decide)]

theorem wrapOf_insert_extract (p : Processor) :
    wrapOf p (d.insert Directives.extractKey value) = wrapOf p d := by
  unfold wrapOf
  rw [Directives.get?_insert, if_neg (by decide)]

/-- Of a block, the value of `extract` has a say in the directives, the template and the identity
only, once it is known where the block goes. -/
theorem assemble_insert_extract (hmem : Directives.extractKey ∈ d.keys) (value : Value)
    (o : Options) (origin content : Text) (target : Target) (wrap : Wrap.Pair) :
    assemble o origin content target (d.insert Directives.extractKey value) wrap =
      { assemble o origin content target d wrap with
        id := (assemble o origin content target (d.insert Directives.extractKey value) wrap).id
        directives := (assemble o origin content target d wrap).directives.insert
          Directives.extractKey value
        template := (assemble o origin content target (d.insert Directives.extractKey value)
          wrap).template } := by
  have hwrap : ((applyDefaults o.defaults d).insert Directives.extractKey value).insert
        Directives.wrapKey (.wrap wrap) =
      ((applyDefaults o.defaults d).insert Directives.wrapKey (.wrap wrap)).insert
        Directives.extractKey value :=
    Directives.insert_comm (mem_keys_applyDefaults hmem _) (by decide)
  have hname : nameKey ≠ Directives.extractKey := by decide
  have hcategory : categoryKey ≠ Directives.extractKey := by decide
  have hbrand : brandKey ≠ Directives.extractKey := by decide
  have hgroup : groupKey ≠ Directives.extractKey := by decide
  simp only [assemble, applyDefaults_insert_extract hmem, text?_insert hname,
    text?_insert hcategory, text?_insert hbrand, text?_insert hgroup, hwrap]

end

theorem Target.of_respelled {written written' : Text} (h : Path.Respells written written')
    (flatten : Bool) : Target.of flatten written' = Target.of flatten written := by
  unfold Target.of Path.ofText
  rw [Path.slashes_eq_of_respells h]

theorem get?_extract_assemble {d : Directives} {value : Value}
    (hget : d.get? Directives.extractKey = some value) (o : Options) (origin content : Text)
    (target : Target) (wrap : Wrap.Pair) :
    (assemble o origin content target d wrap).directives.get? Directives.extractKey =
      some value := by
  have hsame : assemble o origin content target d wrap =
      assemble o origin content target (d.insert Directives.extractKey value) wrap := by
    rw [Directives.insert_of_get? hget]
  rw [hsame, assemble_insert_extract (Directives.mem_keys_of_get? hget), Directives.get?_insert,
    if_pos rfl]

/-- The second block is the first with the value of `extract` spelled otherwise. -/
structure Respelled (block block' : Block) (written written' : Text) : Prop where
  get?_extract : block.directives.get? Directives.extractKey = some (.text written)
  respells : Path.Respells written written'
  eq_with : block' = { block with
    id := block'.id
    directives := block.directives.insert Directives.extractKey (.text written')
    template := block'.template }
  eq_of_eq : written' = written → block' = block

/-- A destination and its other spelling are refused for one reason, or make two blocks of which
one is the other, spelled otherwise. -/
theorem ofSpan_respelled_cases {label label' : Text} (h : Directives.RespellsExtract label label')
    (p : Processor) (span : Span) (origin : Text) :
    (∃ issue, ofSpan p { span with label } origin = .error issue ∧
      ofSpan p { span with label := label' } origin = .error issue) ∨
    ∃ block block' written written',
      ofSpan p { span with label } origin = .ok block ∧
      ofSpan p { span with label := label' } origin = .ok block' ∧
      Respelled block block' written written' := by
  obtain ⟨hnone, hsome⟩ := Directives.destination?_respelled h
  cases hwritten : (Directives.parse label).destination? with
  | none =>
      refine .inl ⟨.missingDestination span.startLine, ?_, ?_⟩
      · simp only [ofSpan, hwritten]
      · simp only [ofSpan, hnone hwritten, hwritten]
  | some written =>
      obtain ⟨written', hrespells, hwritten', hparse⟩ := hsome written hwritten
      have hget := (Directives.destination?_eq_some_iff.mp hwritten).1
      have hmem := Directives.mem_keys_of_get? hget
      rw [hparse] at hwritten'
      simp only [ofSpan, hwritten, hwritten', hparse, Target.of_respelled hrespells,
        applyDefaults_insert_extract hmem, wrapOf_insert_extract]
      split
      · cases hwrap : wrapOf p (applyDefaults p.options.defaults (Directives.parse label)) with
        | error cause => exact .inl ⟨_, rfl, rfl⟩
        | ok wrap =>
            refine .inr ⟨_, _, written, written', rfl, rfl, ?_, hrespells, ?_, ?_⟩
            · exact get?_extract_assemble hget _ _ _ _ _
            · exact assemble_insert_extract hmem _ _ _ _ _ _
            · rintro rfl
              rw [Directives.insert_of_get? hget]
      · exact .inl ⟨_, rfl, rfl⟩

/-- The hashed bytes show how the value is spelled. -/
theorem Respelled.eq_of_message_eq {p : Processor} {span span' : Span} {origin : Text}
    {block block' : Block} {written written' : Text} (h : Respelled block block' written written')
    (hok : ofSpan p span origin = .ok block) (hok' : ofSpan p span' origin = .ok block')
    (hmessage : Checksum.message block'.parts = Checksum.message block.parts) :
    written' = written := by
  obtain ⟨-, hattributes, -⟩ := parts_of_message_eq hok' hok hmessage
  have hdirectives : block'.directives =
      block.directives.insert Directives.extractKey (.text written') :=
    congrArg Block.directives h.eq_with
  rw [hdirectives] at hattributes
  have hsoftened := Directives.map_softened_eq_of_attributes_eq h.get?_extract hattributes
  exact h.respells.eq_of_map_eq (by decide) hsoftened

/-- A span and the same span with some slashes of its last `extract` value written as backslashes
are refused for one reason, or become blocks that agree in everything but that directive, the
template and the identity. The bytes behind the identity show the spelling: they are the same only
if no slash was touched, and then the blocks are. So two spellings have two identities unless the
hash collides, and where one of them was accepted the other is a conflict. -/
theorem ofSpan_respelled {label label' : Text} (h : Directives.RespellsExtract label label')
    (p : Processor) (span : Span) (origin : Text) :
    (∀ issue, ofSpan p { span with label } origin = .error issue ↔
      ofSpan p { span with label := label' } origin = .error issue) ∧
    ∀ block, ofSpan p { span with label } origin = .ok block →
      ∃ block' written written',
        ofSpan p { span with label := label' } origin = .ok block' ∧
        Respelled block block' written written' ∧
        (Checksum.message block'.parts = Checksum.message block.parts → written' = written) ∧
        (block'.id = block.id → written' = written ∨
          (Checksum.message block'.parts ≠ Checksum.message block.parts ∧
            Sha256.digest (Checksum.message block'.parts) =
              Sha256.digest (Checksum.message block.parts))) ∧
        ∀ (b : Builder) (line : Nat), block'.id ≠ block.id → block'.id ∉ b.seen →
          (b.accept block).objection? line block' = some (.conflict line block'.destination) := by
  rcases ofSpan_respelled_cases h p span origin with ⟨issue, herror, herror'⟩ |
    ⟨block, block', written, written', hok, hok', hrespelled⟩
  · rw [herror, herror']
    exact ⟨fun _ => Iff.rfl, nofun⟩
  · have hmessage := hrespelled.eq_of_message_eq hok hok'
    have hdestination : block'.destination = block.destination := by rw [hrespelled.eq_with]
    rw [hok, hok']
    refine ⟨fun issue => ⟨nofun, nofun⟩, ?_⟩
    rintro _ ⟨⟩
    refine ⟨block', written, written', rfl, hrespelled, hmessage, ?_, ?_⟩
    · intro hid
      by_cases hsame : written' = written
      · exact .inl hsame
      · exact .inr ⟨fun hequal => hsame (hmessage hequal), digest_eq_of_id_eq hok' hok hid⟩
    · intro b line hid hseen
      exact Builder.objection?_accept_of_destination hid hseen hdestination

/-- A fragment for the partial `b` in the directory `a`. -/
def slashed : Span := ⟨"extract:a/b".toList, ['x'], 1, 1, true⟩

def backslashedLabel : Text := "extract:a\\b".toList

theorem respellsExtract_slashed : Directives.RespellsExtract slashed.label backslashedLabel :=
  ⟨[], slashed.label, backslashedLabel, [], by decide +kernel, by decide +kernel,
    ⟨.inl ⟨"a/b".toList, rfl⟩, nofun⟩, by decide⟩

theorem ofSpan_respelled_slashed :
    Directives.RespellsExtract slashed.label backslashedLabel ∧
    ∃ block block', ofSpan bare slashed [] = .ok block ∧
      ofSpan bare { slashed with label := backslashedLabel } [] = .ok block' ∧
      block'.destination = block.destination ∧ block'.name = block.name ∧
      Checksum.message block'.parts ≠ Checksum.message block.parts := by
  have hlabels := respellsExtract_slashed
  have hspellings :
      (ofSpan bare slashed []).toOption.map (fun block =>
        block.directives.get? Directives.extractKey) = some (some (.text "a/b".toList)) ∧
      (ofSpan bare { slashed with label := backslashedLabel } []).toOption.map (fun block =>
        block.directives.get? Directives.extractKey) = some (some (.text "a\\b".toList)) := by
    decide +kernel
  obtain ⟨-, hblocks⟩ := ofSpan_respelled hlabels bare slashed []
  refine ⟨hlabels, ?_⟩
  cases hok : ofSpan bare slashed [] with
  | error issue =>
      rw [hok] at hspellings
      cases hspellings.1
  | ok block =>
      obtain ⟨block', written, written', hok', hrespelled, hmessage, -⟩ := hblocks block hok
      refine ⟨block, block', rfl, hok', ?_, ?_, ?_⟩
      · rw [hrespelled.eq_with]
      · rw [hrespelled.eq_with]
      · intro hequal
        rw [hok, hok', hrespelled.eq_of_eq (hmessage hequal)] at hspellings
        exact absurd (hspellings.1.symm.trans hspellings.2) (by decide)

end Partials.Block

namespace Partials.Builder

/-- One fragment, offered with a slash and with a backslash. -/
def twoSpellings : List Document :=
  [⟨['1'], "<!-- extract:a/b -->x<!-- endextract -->".toList⟩,
    ⟨['2'], "<!-- extract:a\\b -->x<!-- endextract -->".toList⟩]

/-- The second spelling is turned down as a different block at the destination of the first. -/
theorem twoSpellings_conflict :
    Directives.RespellsExtract "extract:a/b".toList "extract:a\\b".toList ∧
      twoSpellings.map (fun document => (Scan.ofText .discard document.text).spans) =
        [[⟨"extract:a/b".toList, ['x'], 1, 1, true⟩],
          [⟨"extract:a\\b".toList, ['x'], 1, 1, true⟩]] ∧
      (addDocuments (m := Id) (Sink.none : Sink Id Unit) (ofProcessor ⟨{}, Wrap.Pair.empty⟩)
          twoSpellings).2.map (fun outcome => outcome.toOption.map Report.issues) =
        [some [], some [.conflict 1 "a/b".toList]] :=
  ⟨Block.respellsExtract_slashed, by decide +kernel, by decide +kernel⟩

end Partials.Builder
