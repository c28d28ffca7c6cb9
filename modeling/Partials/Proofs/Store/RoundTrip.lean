import Partials.Proofs.Files.AtomicWrite
import Partials.Proofs.Record.Options
import Partials.Proofs.Text.Utf8
import Partials.Store

/-!
# Options saved and loaded

A record file that was saved in JSON loads as the record that was saved
(`load_of_save_json`); options come back as they were (`Options.surviveJson`).
-/

namespace Partials

namespace Store

/-- The text of a record in JSON, with a line end or without, is read as the data of the record. -/
theorem read?_endLine_pretty {r : Record} (h : r.HoldsIntegers) :
    Record.Format.json.read? (endLine (r.pretty 0)) = some r.datum := by
  change Json.read? _ = _
  unfold endLine
  split
  · have hread := Json.read?_pretty h 0 [] nofun
    rwa [List.append_nil] at hread
  · apply Json.read?_pretty h 0 ['\n']
    intro c hc
    rw [List.mem_singleton.mp hc]
    rfl

theorem load_of_save_json {α : Type} {decode : Record.Rules → Datum → Option α} {a : α}
    {r : Record} (hintegers : r.HoldsIntegers) (hdecode : decode Json.rules r.datum = some a)
    {cwd : Place} {tag : Text} {path : Path} {t t' : Tree}
    (hpath : Record.Format.ofPath path = .ok .json)
    (hsave : (save (Tree.disk cwd) tag path r).run t = (.ok (), t')) :
    (load (Tree.disk cwd) path decode).run t' = (.ok a, t') := by
  have hwrite : (Files.writeAtomic (Tree.disk cwd) tag path
      (Utf8.encode (endLine (r.pretty 0)))).run t = (.ok (), t') := by
    unfold save at hsave
    rw [hpath] at hsave
    exact hsave
  have hread := Files.readText_of_writeAtomic hwrite (Utf8.decode?_encode _)
  unfold load
  rw [hpath]
  apply Files.run_bind_eq_ok_iff.mpr
  refine ⟨_, t', rfl, ?_⟩
  apply Files.run_bind_eq_ok_iff.mpr
  refine ⟨_, t', hread, ?_⟩
  have hfound : (Record.Format.json.read? (endLine (r.pretty 0))).bind
      (decode Record.Format.json.rules) = some a := by
    rw [read?_endLine_pretty hintegers]
    exact hdecode
  rw [hfound]
  rfl

end Store

namespace Options

theorem holdsIntegers_toRecord {o : Options}
    (h : ∀ n, o.viewWrap = .number n → ∃ i, n = .integer i ∧ Numeral.Fits i) :
    o.toRecord.HoldsIntegers := by
  have htexts : ∀ items : List Text, Record.HoldIntegers (items.map .text) := by
    intro items
    induction items with
    | nil => trivial
    | cons item items ih => exact ⟨trivial, ih⟩
  have hwrap : o.viewWrap.toRecord.HoldsIntegers := by
    cases hwrap : o.viewWrap with
    | text t => trivial
    | number n => exact h n hwrap
    | sequence items => exact htexts items
    | fields before after =>
        cases before <;> cases after <;>
          simp [Wrap.Spec.toRecord, Record.HoldsIntegers, Record.EntriesHoldIntegers]
  simp [toRecord, Record.HoldsIntegers, Record.EntriesHoldIntegers, hwrap, Wrap.Pair.toRecord,
    BlockDefaults.toRecord]

/-- The options are what their JSON text is read as, and what is loaded from a file to which they
were saved. -/
structure SurviveJson (o : Options) : Prop where
  read : ∃ text, Record.Format.json.print? o.toRecord = some text ∧
    (Record.Format.json.read? text).bind (ofDatum? Record.Format.json.rules) = some o
  load : ∀ (cwd : Place) (tag : Text) (path : Path) (t t' : Tree),
    Record.Format.ofPath path = .ok .json →
    (Store.save (Tree.disk cwd) tag path o.toRecord).run t = (.ok (), t') →
    (Store.load (Tree.disk cwd) path ofDatum?).run t' = (.ok o, t')

/-- Whatever options hold, they survive JSON, if the number of their wrap is an integer of 64 bits
with or without sign. -/
theorem surviveJson {o : Options}
    (h : ∀ n, o.viewWrap = .number n → ∃ i, n = .integer i ∧ Numeral.Fits i) :
    o.SurviveJson := by
  have hintegers := holdsIntegers_toRecord h
  constructor
  · refine ⟨o.toRecord.pretty 0, rfl, ?_⟩
    have hread := Json.read?_pretty hintegers 0 [] nofun
    rw [List.append_nil] at hread
    change (Json.read? _).bind _ = _
    rw [hread]
    exact ofDatum?_toRecord Json.rules o
  · intro cwd tag path t t' hpath hsave
    exact Store.load_of_save_json hintegers (ofDatum?_toRecord Json.rules o) hpath hsave

/-- With the least integer that is taken as one, and with texts that JSON writes by escapes. -/
theorem surviveJson_leastInteger :
    SurviveJson { lineSeparator := ['\r', '\n'], base := "C:\\\"π\"".toList,
                  viewWrap := .number (.integer (-9223372036854775808)) } := by
  apply surviveJson
  intro n hn
  obtain rfl := Wrap.Spec.number.inj hn
  exact ⟨-9223372036854775808, rfl, by decide⟩

end Options

end Partials
