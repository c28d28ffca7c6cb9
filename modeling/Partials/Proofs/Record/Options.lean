import Partials.Proofs.Json.RoundTrip

/-!
# Options as records

The record of options, read as data, gives the options again (`Options.ofDatum?_toRecord`), whatever
they hold: no shape of a wrap is taken for another one.
-/

namespace Partials

namespace Record

theorem datumItems_texts (items : List Text) :
    datumItems (items.map .text) = items.map Datum.text := by
  induction items with
  | nil => rfl
  | cons item items ih => rw [List.map_cons, datumItems, ih, List.map_cons]; rfl

/-- A table with all of the names gives a value for each of them. -/
theorem fields?_datum {rules : Rules} (names : List Text) {entries : List (Text × Record)}
    (hkeys : entries.map Prod.fst = names) (hnodup : names.Nodup) :
    fields? rules names (Record.table entries).datum =
      some (entries.map fun entry => (entry.1, entry.2.datum)) := by
  have hkeyed : ((datumEntries entries).mapM fun entry =>
      entry.1.text?.bind fun key => some (key, entry.2)) =
        some (entries.map fun entry => (entry.1, entry.2.datum)) := by
    clear hkeys
    induction entries with
    | nil => rfl
    | cons entry entries ih =>
        rw [datumEntries, List.mapM_cons, ih]
        rfl
  have hfields : (entries.map fun entry => (entry.1, entry.2.datum)).map Prod.fst = names := by
    rw [List.map_map]
    exact hkeys
  have hknown : (entries.map fun entry => (entry.1, entry.2.datum)).filter
      (fun field => names.contains field.1) =
        entries.map fun entry => (entry.1, entry.2.datum) := by
    apply List.filter_eq_self.mpr
    intro field hfield
    have hname := List.mem_map_of_mem (f := Prod.fst) hfield
    rw [hfields] at hname
    simpa using hname
  change ((datumEntries entries).mapM fun entry : Datum × Datum =>
      entry.1.text?.bind fun key => some (key, entry.2)).bind (fun keyed =>
        if ((keyed.filter fun field => names.contains field.1).map Prod.fst).Nodup then
          some (keyed.filter fun field => names.contains field.1)
        else none) = _
  rw [hkeyed, Option.bind_some, hknown, hfields, if_pos hnodup]

end Record

open Record (Rules fields? field fields?_datum)

theorem Policy.ofDatum?_name (rules : Rules) (policy : Policy) :
    Policy.ofDatum? rules (Record.text policy.name).datum = some policy := by
  cases policy <;> rfl

theorem BlockDefaults.ofDatum?_toRecord (rules : Rules) (d : BlockDefaults) :
    BlockDefaults.ofDatum? rules d.toRecord.datum = some d := by
  unfold ofDatum?
  rw [toRecord, fields?_datum names]
  · rfl
  · rfl
  · decide

namespace Wrap

theorem Pair.ofDatum?_toRecord (rules : Rules) (p : Pair) :
    Pair.ofDatum? rules p.toRecord.datum = some p := by
  unfold ofDatum?
  rw [toRecord, fields?_datum [beforeKey, afterKey]]
  · rfl
  · rfl
  · decide

/-- The shapes of a wrap are told apart, whatever they hold. -/
theorem Spec.ofDatum?_toRecord (s : Spec) : Spec.ofDatum? s.toRecord.datum = some s := by
  cases s with
  | text t => rfl
  | number n => rfl
  | sequence items =>
      have htexts : (items.map Datum.text).mapM plainText? = some items := by
        induction items with
        | nil => rfl
        | cons item items ih => rw [List.map_cons, List.mapM_cons, ih]; rfl
      change Spec.ofDatum? (.list false (Record.datumItems (items.map .text))) = _
      rw [Record.datumItems_texts, ofDatum?, htexts]
  | fields before after => cases before <;> cases after <;> rfl

end Wrap

theorem Options.ofDatum?_toRecord (rules : Rules) (o : Options) :
    Options.ofDatum? rules o.toRecord.datum = some o := by
  unfold ofDatum?
  rw [toRecord, fields?_datum names]
  · change (do
      let templateWrap ← Wrap.Pair.ofDatum? rules o.templateWrap.toRecord.datum
      let viewWrap ← Wrap.Spec.ofDatum? o.viewWrap.toRecord.datum
      let unterminated ← Policy.ofDatum? rules (Record.text o.unterminated.name).datum
      let defaults ← BlockDefaults.ofDatum? rules o.defaults.toRecord.datum
      return { o with templateWrap, viewWrap, unterminated, defaults }) = some o
    rw [Wrap.Pair.ofDatum?_toRecord, Wrap.Spec.ofDatum?_toRecord, Policy.ofDatum?_name,
      BlockDefaults.ofDatum?_toRecord]
    rfl
  · rfl
  · decide

end Partials
