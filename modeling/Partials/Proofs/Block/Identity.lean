import Partials.Proofs.Block.Acceptance
import Partials.Proofs.Directives.AttributeText
import Partials.Proofs.Margin.Lines

/-!
# What the identity of a block determines

The identity of a block is the digest of five texts with null characters between them, and any of
the five but the attributes can hold null characters itself. The text that is hashed still
determines all five: a destination holds no space and the attributes hold one, so the first space
finds the attributes, which hold no null character and show how long the sides of the wrap are. The
view and the template grow with the content, so three texts of a given length in all have one
content at their start.
-/

namespace Partials

/-- The two blocks render to the same texts and go to the same place. -/
structure Block.RendersLike (b b' : Block) : Prop where
  destination : b.destination = b'.destination
  attributes : b.directives.attributes = b'.directives.attributes
  content : b.content = b'.content
  view : b.view = b'.view
  template : b.template = b'.template

/-- The texts that the identity of the block stands for. -/
def Block.parts (b : Block) : List Text :=
  identityParts b.destination b.directives.attributes b.content b.view b.template

namespace Text

theorem Tight.space_not_mem {t : Text} (ht : t.Tight) : ' ' ∉ t := by
  intro hmem
  exact absurd (ht _ hmem) (by decide)

/-- The first space finds the part that holds it, and null characters stand around that part. -/
theorem null_append_inj {d d' a a' rest rest' : Text} (hd : ' ' ∉ d) (hd' : ' ' ∉ d')
    (hspace : ' ' ∈ a) (hspace' : ' ' ∈ a') (hnull : '\x00' ∉ a) (hnull' : '\x00' ∉ a')
    (h : d ++ '\x00' :: (a ++ '\x00' :: rest) = d' ++ '\x00' :: (a' ++ '\x00' :: rest')) :
    d = d' ∧ a = a' ∧ rest = rest' := by
  obtain ⟨s, t, rfl, hs⟩ := List.eq_append_cons_of_mem hspace
  obtain ⟨s', t', rfl, hs'⟩ := List.eq_append_cons_of_mem hspace'
  have hfront : ∀ {d s : Text}, ' ' ∉ d → ' ' ∉ s → ' ' ∉ d ++ '\x00' :: s := by
    intro d s hd hs hmem
    rcases List.mem_append.mp hmem with hmem | hmem
    · exact hd hmem
    · rcases List.mem_cons.mp hmem with hmem | hmem
      · exact absurd hmem (by decide)
      · exact hs hmem
  have hwhole : (d ++ '\x00' :: s) ++ ' ' :: (t ++ '\x00' :: rest) =
      (d' ++ '\x00' :: s') ++ ' ' :: (t' ++ '\x00' :: rest') := by
    simpa only [List.append_assoc, List.cons_append] using h
  obtain ⟨hbefore, hbehind⟩ :=
    append_cons_inj_of_first (hfront hd hs) (hfront hd' hs') hwhole
  rw [List.mem_append, List.mem_cons, not_or, not_or] at hnull hnull'
  obtain ⟨rfl, rfl⟩ := append_cons_inj_of_last hnull.1 hnull'.1 hbefore
  obtain ⟨rfl, rfl⟩ := append_cons_inj_of_first hnull.2.2 hnull'.2.2 hbehind
  exact ⟨rfl, rfl, rfl⟩

end Text

namespace Block

theorem tight_slashes {t : Text} (ht : t.Tight) : (Path.slashes t).Tight := by
  intro c hc
  obtain ⟨d, hd, rfl⟩ := List.mem_map.mp hc
  split
  · rfl
  · exact ht d hd

theorem mem_of_mem_fileName {p : Path} {last : Text} (h : p.fileName? = some last) {c : Char}
    (hc : c ∈ last) : c ∈ p.text := by
  unfold Path.fileName? at h
  split at h
  · cases h
  · have hne : Text.split '/' p.trimmed ≠ [] := Text.splitWhere_ne_nil _ _
    have hpiece : last ∈ Text.split '/' p.trimmed := by
      rw [← Option.some.inj h, List.getLastD_eq_getLast?, List.getLast?_eq_some_getLast hne]
      exact List.getLast_mem hne
    exact (Text.dropEndWhile_isPrefix _ _).subset (Text.mem_of_mem_split hpiece hc)

/-- A destination holds no blank, whether it is flattened or not. -/
theorem tight_destination {written : Text} (hwritten : written.Tight) (flatten : Bool) :
    (Target.of flatten written).destination.Tight := by
  have hpath : (Path.ofText written).text.Tight := tight_slashes hwritten
  cases flatten with
  | false => exact hpath
  | true =>
      change Text.Tight ((Path.ofText written).fileName?.getD (Path.ofText written).text)
      cases hlast : (Path.ofText written).fileName? with
      | none => exact hpath
      | some last => exact fun c hc => hpath c (mem_of_mem_fileName hlast hc)

/-- Every directive of a block has a key that an annotation can set. -/
theorem isKey_of_mem_entries (label : Text) (defaults : BlockDefaults) (wrap : Wrap.Pair) :
    ∀ entry ∈ ((applyDefaults defaults (Directives.parse label)).insert
      Directives.wrapKey (.wrap wrap)).entries, Directives.IsKey entry.1 := by
  have hparse : ∀ entry ∈ (Directives.parse label).entries, Directives.IsKey entry.1 :=
    fun entry hentry => (Directives.isRead_of_mem_parse entry hentry).1
  have hdefaults : ∀ key ∈ [brandKey, groupKey, idKey], Directives.IsKey key := by decide
  have hwrap : Directives.IsKey Directives.wrapKey := by decide
  refine Directives.forall_mem_entries_insert ?_ hwrap
  apply applyDefaults_of_insert (P := fun d => ∀ entry ∈ d.entries, Directives.IsKey entry.1)
  · intro d key hkey value hd
    exact Directives.forall_mem_entries_insert hd (hdefaults key hkey)
  · exact hparse

variable {o : Options} {wrap wrap' : Wrap.Pair} {lines lines' : List Text}

/-- With wraps of equal lengths, lines that make up more give the longer view. -/
theorem length_renderView_le (hseparator : o.lineSeparator = ['\n'])
    (hbefore : wrap.before.length = wrap'.before.length)
    (hafter : wrap.after.length = wrap'.after.length) (hlines : lines ≠ []) (hlines' : lines' ≠ [])
    (hlength : (Text.join ['\n'] lines).length ≤ (Text.join ['\n'] lines').length)
    (hfilled : Text.filled lines ≤ Text.filled lines') :
    (renderView o wrap lines).length ≤ (renderView o wrap' lines').length := by
  unfold renderView
  rw [hseparator]
  by_cases hempty : wrap.before = []
  · have hempty' : wrap'.before = [] := by
      rw [hempty] at hbefore
      exact List.length_eq_zero_iff.mp hbefore.symm
    rw [if_pos hempty, if_pos hempty']
    exact hlength
  · have hempty' : wrap'.before ≠ [] := by
      intro heq
      rw [heq] at hbefore
      exact hempty (List.length_eq_zero_iff.mp hbefore)
    have hview : ∀ {wrap : Wrap.Pair} {lines : List Text}, lines ≠ [] →
        (Text.join ['\n'] ([wrap.before, []] ++ Margin.raise o.indent lines ++
          [[], wrap.after])).length =
        wrap.before.length + wrap.after.length + 4 +
          ((Text.join ['\n'] lines).length + o.indent.length * Text.filled lines) := by
      intro wrap lines hlines
      rw [List.append_assoc, Text.join_append (List.cons_ne_nil _ _) (by simp),
        Text.join_append (Margin.raise_ne_nil hlines) (List.cons_ne_nil _ _)]
      simp only [List.length_append, Margin.length_join_raise _ _ hlines, Text.join,
        List.length_cons, List.length_nil]
      omega
    rw [if_neg hempty, if_neg hempty', hview hlines, hview hlines']
    have hindent := Nat.mul_le_mul_left o.indent.length hfilled
    omega

theorem length_renderTemplate_le (hseparator : o.lineSeparator = ['\n']) (attributes : Text)
    (hlines : lines ≠ []) (hlines' : lines' ≠ [])
    (hlength : (Text.join ['\n'] lines).length ≤ (Text.join ['\n'] lines').length) :
    (renderTemplate o attributes lines).length ≤ (renderTemplate o attributes lines').length := by
  unfold renderTemplate
  rw [hseparator]
  split
  · exact hlength
  · have htemplate : ∀ {before after : Text} {lines : List Text}, lines ≠ [] →
        (Text.join ['\n'] ([before] ++ lines ++ [after])).length =
          before.length + after.length + 2 + (Text.join ['\n'] lines).length := by
      intro before after lines hlines
      rw [List.append_assoc, Text.join_append (List.cons_ne_nil _ _) (by simp),
        Text.join_append hlines (List.cons_ne_nil _ _)]
      simp only [List.length_append, Text.join, List.length_cons, List.length_nil]
      omega
    dsimp only
    rw [htemplate hlines, htemplate hlines']
    omega

/-- A content that starts with another and stands in no longer a text is that other one. -/
theorem lines_eq_of_isPrefix (hseparator : o.lineSeparator = ['\n']) (attributes : Text)
    (hbefore : wrap.before.length = wrap'.before.length)
    (hafter : wrap.after.length = wrap'.after.length) (hlines : lines ≠ []) (hlines' : lines' ≠ [])
    (hsplit : Text.split '\n' (Text.join ['\n'] lines) = lines)
    (hsplit' : Text.split '\n' (Text.join ['\n'] lines') = lines')
    (hstarts : Text.join ['\n'] lines <+: Text.join ['\n'] lines')
    (hlength : (Text.join ['\n'] lines').length + (renderView o wrap' lines').length +
        (renderTemplate o attributes lines').length ≤
      (Text.join ['\n'] lines).length + (renderView o wrap lines).length +
        (renderTemplate o attributes lines).length) :
    lines = lines' := by
  have hfilled : Text.filled lines ≤ Text.filled lines' := by
    obtain ⟨more, hmore⟩ := hstarts
    have hle := Text.filled_split_le '\n' (Text.join ['\n'] lines) more
    rwa [hmore, hsplit, hsplit'] at hle
  have hcontent := hstarts.length_le
  have hview := length_renderView_le hseparator hbefore hafter hlines hlines' hcontent hfilled
  have htemplate := length_renderTemplate_le hseparator attributes hlines hlines' hcontent
  have heq := hstarts.eq_of_length (by omega)
  rw [← hsplit, heq, hsplit']

/-- Content, view and template can be told apart in the text that they make up. -/
theorem rendered_eq (hseparator : o.lineSeparator = ['\n']) {attributes : Text}
    (hbefore : wrap.before.length = wrap'.before.length)
    (hafter : wrap.after.length = wrap'.after.length) (hlines : lines ≠ []) (hlines' : lines' ≠ [])
    (hsplit : Text.split '\n' (Text.join ['\n'] lines) = lines)
    (hsplit' : Text.split '\n' (Text.join ['\n'] lines') = lines')
    (h : Text.join ['\n'] lines ++ '\x00' :: (renderView o wrap lines ++
        '\x00' :: renderTemplate o attributes lines) =
      Text.join ['\n'] lines' ++ '\x00' :: (renderView o wrap' lines' ++
        '\x00' :: renderTemplate o attributes lines')) :
    lines = lines' ∧ renderView o wrap lines = renderView o wrap' lines' := by
  have hlength := congrArg List.length h
  simp only [List.length_append, List.length_cons] at hlength
  have heq : lines = lines' := by
    have hstarts := List.prefix_append (Text.join ['\n'] lines)
      ('\x00' :: (renderView o wrap lines ++ '\x00' :: renderTemplate o attributes lines))
    rw [h] at hstarts
    rcases List.prefix_or_prefix_of_prefix hstarts (List.prefix_append _ _) with hle | hle
    · exact lines_eq_of_isPrefix hseparator attributes hbefore hafter hlines hlines' hsplit hsplit'
        hle (by omega)
    · exact (lines_eq_of_isPrefix hseparator attributes hbefore.symm hafter.symm hlines' hlines
        hsplit' hsplit hle (by omega)).symm
  subst heq
  have htail := List.append_cancel_left h
  exact ⟨rfl, List.append_cancel_right (List.cons.inj htail).2⟩

theorem controlFree_attributes_assemble (label : Text) (defaults : BlockDefaults)
    (wrap : Wrap.Pair) : ((applyDefaults defaults (Directives.parse label)).insert
      Directives.wrapKey (.wrap wrap)).attributes.ControlFree := by
  refine Directives.controlFree_attributes fun key hkey => ?_
  obtain ⟨entry, hentry, rfl⟩ := List.mem_map.mp hkey
  exact Directives.controlFree_of_isKey (isKey_of_mem_entries label defaults wrap entry hentry)

/-- The attributes of the wrap are a space apart. -/
theorem space_mem_attributes (d : Directives) (wrap : Wrap.Pair) :
    ' ' ∈ (d.insert Directives.wrapKey (.wrap wrap)).attributes := by
  obtain ⟨front, hfront⟩ := Directives.attributes_insert_wrap d wrap
  rw [hfront]
  exact List.mem_append_left _ (List.mem_append_right _ (List.mem_singleton_self _))

theorem id_eq_ofParts {p : Processor} {span : Span} {origin : Text} {block : Block}
    (h : ofSpan p span origin = .ok block) : block.id = Checksum.ofParts block.parts := by
  obtain ⟨written, wrap, -, -, -, rfl⟩ := ofSpan_eq_ok_iff.mp h
  rfl

section

variable {p : Processor} {span span' : Span} {origin origin' : Text} {block block' : Block}

theorem digest_eq_of_id_eq (h : ofSpan p span origin = .ok block)
    (h' : ofSpan p span' origin' = .ok block') (hid : block.id = block'.id) :
    Sha256.digest (Checksum.message block.parts) =
      Sha256.digest (Checksum.message block'.parts) := by
  rw [id_eq_ofParts h, id_eq_ofParts h'] at hid
  exact List.append_cancel_left hid

/-- The hashed bytes determine the destination and the attributes, under all options. -/
theorem parts_of_message_eq (h : ofSpan p span origin = .ok block)
    (h' : ofSpan p span' origin' = .ok block')
    (hmessage : Checksum.message block.parts = Checksum.message block'.parts) :
    block.destination = block'.destination ∧
      block.directives.attributes = block'.directives.attributes ∧
      block.content ++ '\x00' :: (block.view ++ '\x00' :: block.template) =
        block'.content ++ '\x00' :: (block'.view ++ '\x00' :: block'.template) := by
  obtain ⟨written, wrap, hwritten, -, -, rfl⟩ := ofSpan_eq_ok_iff.mp h
  obtain ⟨written', wrap', hwritten', -, -, rfl⟩ := ofSpan_eq_ok_iff.mp h'
  have hparts := Utf8.encode_injective hmessage
  simp only [parts, identityParts, Text.join, List.append_assoc, List.singleton_append] at hparts
  exact Text.null_append_inj
    (tight_destination (Directives.tight_of_destination? hwritten) _).space_not_mem
    (tight_destination (Directives.tight_of_destination? hwritten') _).space_not_mem
    (space_mem_attributes _ wrap) (space_mem_attributes _ wrap')
    (controlFree_attributes_assemble span.label p.options.defaults wrap).null_not_mem
    (controlFree_attributes_assemble span'.label p.options.defaults wrap').null_not_mem hparts

theorem rendersLike_of_message_eq (hseparator : p.options.lineSeparator = ['\n'])
    (hindent : '\n' ∉ p.options.indent) (h : ofSpan p span origin = .ok block)
    (h' : ofSpan p span' origin' = .ok block')
    (hmessage : Checksum.message block.parts = Checksum.message block'.parts) :
    block.RendersLike block' := by
  obtain ⟨hdestination, hattributes, hrest⟩ := parts_of_message_eq h h' hmessage
  obtain ⟨written, wrap, -, -, -, rfl⟩ := ofSpan_eq_ok_iff.mp h
  obtain ⟨written', wrap', -, -, -, rfl⟩ := ofSpan_eq_ok_iff.mp h'
  obtain ⟨hbefore, hafter⟩ := Directives.wrap_of_attributes_eq hattributes
  have hbefore := congrArg List.length hbefore
  have hafter := congrArg List.length hafter
  rw [List.length_map, List.length_map] at hbefore hafter
  simp only [assemble, hseparator] at hrest hattributes
  rw [hattributes] at hrest
  obtain ⟨hlines, hview⟩ := rendered_eq hseparator hbefore hafter
    (Margin.normalizeLines_ne_nil _ _) (Margin.normalizeLines_ne_nil _ _)
    (Margin.split_join_normalizeLines hindent _) (Margin.split_join_normalizeLines hindent _) hrest
  refine ⟨hdestination, hattributes, ?_, hview, ?_⟩
  · simp only [assemble, hlines]
  · simp only [assemble, hlines, hattributes]

/-- The bytes that are hashed for a block determine what it renders to and where it goes, so two
blocks with one identity render alike unless their bytes are a collision of the hash. -/
theorem identity_separates (hseparator : p.options.lineSeparator = ['\n'])
    (hindent : '\n' ∉ p.options.indent) (h : ofSpan p span origin = .ok block)
    (h' : ofSpan p span' origin' = .ok block') :
    (block.id = Checksum.ofParts block.parts ∧ block'.id = Checksum.ofParts block'.parts) ∧
    (Checksum.message block.parts = Checksum.message block'.parts → block.RendersLike block') ∧
    (block.id = block'.id → block.RendersLike block' ∨
      (Checksum.message block.parts ≠ Checksum.message block'.parts ∧
        Sha256.digest (Checksum.message block.parts) =
          Sha256.digest (Checksum.message block'.parts))) := by
  have hlike := rendersLike_of_message_eq hseparator hindent h h'
  refine ⟨⟨id_eq_ofParts h, id_eq_ofParts h'⟩, hlike, ?_⟩
  intro hid
  by_cases hmessage : Checksum.message block.parts = Checksum.message block'.parts
  · exact .inl (hlike hmessage)
  · exact .inr ⟨hmessage, digest_eq_of_id_eq h h' hid⟩

end

/-- A text that holds null characters does not pass for the parts of another block. -/
theorem identity_separates_null :
    ∃ block block', ofSpan bare (toOneFile ['x', '\x00', 'x', '\x00', 'x']) [] = .ok block ∧
      ofSpan bare (toOneFile ['x']) [] = .ok block' ∧
      Checksum.message block.parts ≠ Checksum.message block'.parts := by
  have h := ofSpan_toOneFile ['x', '\x00', 'x', '\x00', 'x']
  have h' := ofSpan_toOneFile ['x']
  refine ⟨_, _, h, h', ?_⟩
  intro hmessage
  have hlike := (identity_separates rfl (by decide) h h').2.1 hmessage
  exact absurd hlike.content (by decide +kernel)

end Block

end Partials
