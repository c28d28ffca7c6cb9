import Partials.Proofs.Block.Respelling
import Partials.Proofs.Directives.Appending

/-!
# A wrap in the annotation and in the options

A wrap at the end of an annotation makes the block that the same wrap in the options makes
(`ofSpan_inlineWrap`). Only the place of the wrap among the directives tells the two apart: the
annotation sets it before the defaults are filled in, the options do so after them.
-/

namespace Partials

namespace Directives

variable {d d' : Directives} {key : Text} {value : Value}

/-- The first map is the second with a wrap among its entries. -/
def WrapAmid (value : Value) (d d' : Directives) : Prop :=
  ∃ front behind, d.entries = front ++ (wrapKey, value) :: behind ∧
    d'.entries = front ++ behind ∧ wrapKey ∉ (front ++ behind).map Prod.fst

/-- The maps have the same entries in one order, but for the wrap, which is last in the second. -/
def DifferInWrapPlace (d d' : Directives) : Prop :=
  ∃ pair front behind, d.entries = front ++ (wrapKey, .wrap pair) :: behind ∧
    d'.entries = front ++ behind ++ [(wrapKey, .wrap pair)] ∧
    wrapKey ∉ (front ++ behind).map Prod.fst

theorem wrapAmid_insert (h : d.get? wrapKey = none) (value : Value) :
    WrapAmid value (d.insert wrapKey value) d := by
  have hkeys : wrapKey ∉ d.entries.map Prod.fst := get?_eq_none_iff.mp h
  refine ⟨d.entries, [], insertEntry_of_not_mem hkeys value, (List.append_nil _).symm, ?_⟩
  rwa [List.append_nil]

theorem get?_wrap_of_entries {front behind : List (Text × Value)}
    (hentries : d.entries = front ++ (wrapKey, value) :: behind)
    (hnew : wrapKey ∉ front.map Prod.fst) : d.get? wrapKey = some value := by
  refine List.lookup_eq_some_iff.mpr ⟨front, behind, hentries, ?_⟩
  intro entry hentry
  exact bne_iff_ne.mpr fun heq => hnew (heq ▸ List.mem_map_of_mem hentry)

namespace WrapAmid

theorem get?_eq (h : WrapAmid value d d') (hkey : key ≠ wrapKey) : d.get? key = d'.get? key := by
  obtain ⟨front, behind, hentries, hentries', -⟩ := h
  have hskip : List.lookup key ((wrapKey, value) :: behind) = List.lookup key behind := by
    rw [List.lookup_cons, beq_eq_false_iff_ne.mpr hkey]
  rw [get?, get?, hentries, hentries', List.lookup_append, List.lookup_append, hskip]

theorem text?_eq (h : WrapAmid value d d') (hkey : key ≠ wrapKey) :
    d.text? key = d'.text? key := by
  rw [text?, text?, h.get?_eq hkey]

theorem get?_wrap (h : WrapAmid value d d') : d.get? wrapKey = some value := by
  obtain ⟨front, behind, hentries, -, hnew⟩ := h
  rw [List.map_append, List.mem_append, not_or] at hnew
  exact get?_wrap_of_entries hentries hnew.1

theorem get?_wrap_eq_none (h : WrapAmid value d d') : d'.get? wrapKey = none := by
  obtain ⟨front, behind, -, hentries', hnew⟩ := h
  rw [get?_eq_none_iff, keys, hentries']
  exact hnew

/-- A new key goes behind the wrap. -/
theorem insert (h : WrapAmid value d d') (hkey : key ≠ wrapKey) (hnone : d'.get? key = none)
    (added : Value) : WrapAmid value (d.insert key added) (d'.insert key added) := by
  have hkeys : key ∉ d.entries.map Prod.fst :=
    get?_eq_none_iff.mp ((h.get?_eq hkey).trans hnone)
  have hkeys' : key ∉ d'.entries.map Prod.fst := get?_eq_none_iff.mp hnone
  obtain ⟨front, behind, hentries, hentries', hnew⟩ := h
  refine ⟨front, behind ++ [(key, added)], ?_, ?_, ?_⟩
  · change insertEntry key added d.entries = _
    rw [insertEntry_of_not_mem hkeys, hentries, List.append_assoc, List.cons_append]
  · change insertEntry key added d'.entries = _
    rw [insertEntry_of_not_mem hkeys', hentries', List.append_assoc]
  · rw [← List.append_assoc, List.map_append, List.mem_append, not_or]
    exact ⟨hnew, fun hmem => hkey (List.mem_singleton.mp hmem).symm⟩

/-- Set in both maps, the wrap stays in its place in the first and comes last in the second. -/
theorem insert_wrap (h : WrapAmid value d d') (pair : Wrap.Pair) :
    DifferInWrapPlace (d.insert wrapKey (.wrap pair)) (d'.insert wrapKey (.wrap pair)) := by
  obtain ⟨front, behind, hentries, hentries', hnew⟩ := h
  refine ⟨pair, front, behind, ?_, ?_, hnew⟩
  · rw [List.map_append, List.mem_append, not_or] at hnew
    change insertEntry wrapKey (.wrap pair) d.entries = _
    rw [hentries, insertEntry_append hnew.1, insertEntry, if_pos rfl]
  · change insertEntry wrapKey (.wrap pair) d'.entries = _
    rw [hentries', insertEntry_of_not_mem hnew]

end WrapAmid

/-- The attributes show the wrap at their end, wherever it stands. -/
theorem DifferInWrapPlace.attributes_eq (h : DifferInWrapPlace d d') :
    d.attributes = d'.attributes := by
  obtain ⟨pair, front, behind, hentries, hentries', hnew⟩ := h
  have hget' : d'.get? wrapKey = some (.wrap pair) := get?_wrap_of_entries hentries' hnew
  rw [List.map_append, List.mem_append, not_or] at hnew
  have hget : d.get? wrapKey = some (.wrap pair) := get?_wrap_of_entries hentries hnew.1
  have hnone : entryAttributes (wrapKey, .wrap pair) = [] := rfl
  simp only [attributes, hget, hget', hentries, hentries', List.flatMap_append, List.flatMap_cons,
    List.flatMap_nil, hnone, List.nil_append, List.append_nil]

end Directives

namespace Block

open Directives (WrapAmid DifferInWrapPlace wrapKey valueOf)

variable {d d' : Directives} {value : Value}

theorem applyDefault_wrapAmid (h : WrapAmid value d d') {key : Text} (hkey : key ≠ wrapKey)
    (default : Text) :
    WrapAmid value (applyDefault d key default) (applyDefault d' key default) := by
  have hcontains : d.contains key = d'.contains key := by
    rw [Directives.contains, Directives.contains, h.get?_eq hkey]
  unfold applyDefault
  rw [hcontains]
  split
  · exact h
  · next hnew =>
    rw [not_or, Directives.contains, Bool.not_eq_true, Option.isSome_eq_false_iff,
      Option.isNone_iff_eq_none] at hnew
    exact h.insert hkey hnew.1 _

theorem applyDefaults_wrapAmid (h : WrapAmid value d d') (defaults : BlockDefaults) :
    WrapAmid value (applyDefaults defaults d) (applyDefaults defaults d') :=
  applyDefault_wrapAmid (applyDefault_wrapAmid (applyDefault_wrapAmid h (by decide) _)
    (by decide) _) (by decide) _

theorem destination?_wrapAmid (h : WrapAmid value d d') : d.destination? = d'.destination? := by
  rw [Directives.destination?, Directives.destination?, h.get?_eq (by decide)]

/-- The annotation with the wrap at its end. -/
def inlineWrap (label wrap : Text) : Text := label ++ ' ' :: (wrapKey ++ ':' :: wrap)

/-- The wrap as options have it: a text, or the list of its parts. -/
def configuredWrap (wrap : Text) : Wrap.Spec :=
  if ':' ∈ wrap then .sequence (Text.split ':' wrap) else .text wrap

/-- One issue, or two blocks that are the same but for the place of the wrap among their
directives; their attributes are the same. -/
def SameButWrapPlace : Except Issue Block → Except Issue Block → Prop
  | .error issue, .error issue' => issue = issue'
  | .ok block, .ok block' =>
    DifferInWrapPlace block.directives block'.directives ∧
      block.directives.attributes = block'.directives.attributes ∧
      block' = { block with directives := block'.directives }
  | _, _ => False

theorem assemble_wrapAmid (h : WrapAmid value d d') (o : Options) (origin content : Text)
    (target : Target) (wrap : Wrap.Pair) :
    SameButWrapPlace (.ok (assemble o origin content target d wrap))
      (.ok (assemble o origin content target d' wrap)) := by
  have hdefaults := applyDefaults_wrapAmid h o.defaults
  have hplace := hdefaults.insert_wrap wrap
  have hattributes := hplace.attributes_eq
  have hname : nameKey ≠ wrapKey := by decide
  have hcategory : categoryKey ≠ wrapKey := by decide
  have hbrand : brandKey ≠ wrapKey := by decide
  have hgroup : groupKey ≠ wrapKey := by decide
  refine ⟨hplace, hattributes, ?_⟩
  simp only [assemble, h.text?_eq hname, h.text?_eq hcategory, hdefaults.text?_eq hbrand,
    hdefaults.text?_eq hgroup, hattributes]

/-- As a value of the annotation and as one of the options, the wrap is the same. -/
theorem wrapSpec_valueOf (wrap : Text) : (valueOf wrapKey wrap).wrapSpec = configuredWrap wrap := by
  have hkey : wrapKey ≠ Directives.extractKey := by decide
  unfold valueOf configuredWrap
  by_cases hcolon : ':' ∈ wrap
  · rw [if_pos ⟨hkey, hcolon⟩, if_pos hcolon]
    rfl
  · rw [if_neg fun h => hcolon h.2, if_neg hcolon]
    rfl

/-- With one colon at most, the wrap has two parts at most. -/
theorem exists_formalize_configuredWrap {wrap : Text} (hcolon : wrap.count ':' ≤ 1) :
    ∃ pair, (configuredWrap wrap).formalize = .ok pair := by
  cases hformalize : (configuredWrap wrap).formalize with
  | ok pair => exact ⟨pair, rfl⟩
  | error e =>
      obtain ⟨items, hitems, hlength, -⟩ := Wrap.Spec.formalize_eq_error_iff.mp hformalize
      unfold configuredWrap at hitems
      split at hitems
      · obtain rfl := Wrap.Spec.sequence.inj hitems
        rw [Text.length_split] at hlength
        omega
      · cases hitems

theorem options_of_ofOptions {o : Options} {p : Processor} (h : Processor.ofOptions o = .ok p) :
    p.options = o := by
  unfold Processor.ofOptions at h
  cases hviewWrap : o.viewWrap.formalize with
  | error e =>
      rw [hviewWrap] at h
      cases h
  | ok viewWrap =>
      rw [hviewWrap] at h
      rw [← Except.ok.inj h]

/-- A wrap at the end of an annotation, and the same wrap in the options for the annotation without
it: the span is refused for one reason, or its two blocks agree in everything but the place of the
wrap among the directives. -/
theorem ofSpan_inlineWrap {o : Options} {p : Processor} {label wrap : Text}
    (ho : Processor.ofOptions o = .ok p) (hstart : ¬ Marker.commentStart <:+: label)
    (hend : ¬ Marker.commentEnd <:+: label)
    (hlast : ∀ key, ((Text.words label).map Directives.Word.ofText).getLast? ≠
      some (.directive key []))
    (hnone : (Directives.parse label).get? wrapKey = none) (htight : wrap.Tight)
    (hcolon : wrap.count ':' ≤ 1) (hwrapEnd : ¬ Marker.commentEnd <:+: wrap) :
    ∃ p', Processor.ofOptions { o with viewWrap := configuredWrap wrap } = .ok p' ∧
      ∀ (span : Span) (origin : Text),
        SameButWrapPlace (ofSpan p { span with label := inlineWrap label wrap } origin)
          (ofSpan p' { span with label } origin) := by
  obtain ⟨pair, hpair⟩ := exists_formalize_configuredWrap hcolon
  refine ⟨⟨{ o with viewWrap := configuredWrap wrap }, pair⟩, ?_, ?_⟩
  · rw [Processor.ofOptions, hpair]
    rfl
  intro span origin
  have hparse : Directives.parse (inlineWrap label wrap) =
      (Directives.parse label).insert wrapKey (valueOf wrapKey wrap) :=
    Directives.parse_append_directive (by decide) htight hstart hend hwrapEnd hlast
  have hamid := Directives.wrapAmid_insert hnone (valueOf wrapKey wrap)
  have hdefaults := applyDefaults_wrapAmid hamid o.defaults
  rw [← hparse] at hamid hdefaults
  simp only [ofSpan, options_of_ofOptions ho, destination?_wrapAmid hamid]
  cases (Directives.parse label).destination? with
  | none => rfl
  | some written =>
      dsimp only
      split
      · have hinline : wrapOf p
            (applyDefaults o.defaults (Directives.parse (inlineWrap label wrap))) = .ok pair := by
          rw [wrapOf, hdefaults.get?_wrap]
          exact (congrArg Wrap.Spec.formalize (wrapSpec_valueOf wrap)).trans hpair
        have hconfigured : wrapOf ⟨{ o with viewWrap := configuredWrap wrap }, pair⟩
            (applyDefaults o.defaults (Directives.parse label)) = .ok pair := by
          rw [wrapOf, hdefaults.get?_wrap_eq_none]
        rw [hinline, hconfigured]
        exact assemble_wrapAmid hamid o origin span.content _ pair
      · rfl

/-- Options that give each block a brand, which comes behind the wrap of its annotation and before
that of the options. -/
def branded : Options := { defaults := { brand := ['m'] } }

theorem ofSpan_inlineWrap_branded :
    ∃ p' block block',
      Processor.ofOptions { branded with
        viewWrap := .sequence ["<b>".toList, "</b>".toList] } = .ok p' ∧
      ofSpan ⟨branded, Wrap.Pair.empty⟩
        ⟨"extract:a/b wrap:<b>:</b>".toList, ['x'], 1, 1, true⟩ [] = .ok block ∧
      ofSpan p' ⟨"extract:a/b".toList, ['x'], 1, 1, true⟩ [] = .ok block' ∧
      block'.id = block.id ∧ block.view = "<b>\n\n    x\n\n</b>".toList ∧
      block.directives.keys = [Directives.extractKey, wrapKey, brandKey] ∧
      block'.directives.keys = [Directives.extractKey, brandKey, wrapKey] := by
  have hword : ((Text.words "extract:a/b".toList).map Directives.Word.ofText).getLast? =
      some (.directive Directives.extractKey "a/b".toList) := by
    decide +kernel
  have hlast : ∀ key, ((Text.words "extract:a/b".toList).map Directives.Word.ofText).getLast? ≠
      some (.directive key []) := by
    intro key hkey
    rw [hword] at hkey
    cases hkey
  obtain ⟨p', hp', hsame⟩ := @ofSpan_inlineWrap branded ⟨branded, Wrap.Pair.empty⟩
    "extract:a/b".toList "<b>:</b>".toList rfl (by decide +kernel) (by decide +kernel) hlast
    (by decide +kernel) (by decide +kernel) (by decide +kernel) (by decide +kernel)
  have hsequence : configuredWrap "<b>:</b>".toList =
      .sequence ["<b>".toList, "</b>".toList] := by
    decide +kernel
  rw [hsequence] at hp'
  have hp : p' = ⟨{ branded with viewWrap := .sequence ["<b>".toList, "</b>".toList] },
      ⟨"<b>".toList, "</b>".toList⟩⟩ := (Except.ok.inj hp').symm
  have hlabel : inlineWrap "extract:a/b".toList "<b>:</b>".toList =
      "extract:a/b wrap:<b>:</b>".toList := by
    decide +kernel
  have hsame := hsame ⟨[], ['x'], 1, 1, true⟩ []
  rw [hlabel] at hsame
  have hblock : (ofSpan ⟨branded, Wrap.Pair.empty⟩
      ⟨"extract:a/b wrap:<b>:</b>".toList, ['x'], 1, 1, true⟩ []).toOption.map
        (fun block => (block.view, block.directives.keys)) =
      some ("<b>\n\n    x\n\n</b>".toList, [Directives.extractKey, wrapKey, brandKey]) := by
    decide +kernel
  have hblock' : (ofSpan p' ⟨"extract:a/b".toList, ['x'], 1, 1, true⟩ []).toOption.map
      (fun block => block.directives.keys) = some [Directives.extractKey, brandKey, wrapKey] := by
    rw [hp]
    decide +kernel
  cases hinline : ofSpan ⟨branded, Wrap.Pair.empty⟩
      ⟨"extract:a/b wrap:<b>:</b>".toList, ['x'], 1, 1, true⟩ [] with
  | error issue =>
      rw [hinline] at hblock
      cases hblock
  | ok block =>
      cases hconfigured : ofSpan p' ⟨"extract:a/b".toList, ['x'], 1, 1, true⟩ [] with
      | error issue =>
          rw [hconfigured] at hblock'
          cases hblock'
      | ok block' =>
          rw [hinline] at hblock
          rw [hconfigured] at hblock'
          obtain ⟨hview, hkeys⟩ := Prod.mk.inj (Option.some.inj hblock)
          simp only [hinline, hconfigured] at hsame
          refine ⟨p', block, block', hp', rfl, hconfigured, ?_, hview, hkeys,
            Option.some.inj hblock'⟩
          rw [hsame.2.2]

end Block

end Partials
