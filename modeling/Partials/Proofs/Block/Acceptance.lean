import Partials.Block

/-!
# What makes a span a valid block

`Block.ofSpan_eq_ok_iff` lists what a span must have to become a block, and which block it becomes.
-/

namespace Partials.Block

/-- A span becomes a block exactly when it names a destination that stays inside and its wrap is
one; the block is then assembled from these. -/
theorem ofSpan_eq_ok_iff {p : Processor} {span : Span} {origin : Text} {block : Block} :
    ofSpan p span origin = .ok block ↔
      ∃ written wrap,
        (Directives.parse span.label).destination? = some written ∧
        (Path.ofText (Target.of p.options.flatten written).destination).isContained = true ∧
        wrapOf p (applyDefaults p.options.defaults (Directives.parse span.label)) = .ok wrap ∧
        block = assemble p.options origin span.content (Target.of p.options.flatten written)
          (Directives.parse span.label) wrap := by
  constructor
  · intro h
    cases hwritten : (Directives.parse span.label).destination? with
    | none => simp [ofSpan, hwritten] at h
    | some written =>
        simp only [ofSpan, hwritten] at h
        by_cases hinside :
            (Path.ofText (Target.of p.options.flatten written).destination).isContained = true
        · rw [if_pos hinside] at h
          cases hwrap : wrapOf p (applyDefaults p.options.defaults (Directives.parse span.label)) with
          | error cause => simp [hwrap] at h
          | ok wrap =>
              simp only [hwrap, Except.ok.injEq] at h
              exact ⟨written, wrap, rfl, hinside, rfl, h.symm⟩
        · simp [hinside] at h
  · rintro ⟨written, wrap, hwritten, hinside, hwrap, rfl⟩
    simp only [ofSpan, hwritten, hinside, if_true, hwrap]

/-- A span is turned down for its destination or for its wrap, at the line of its marker. -/
theorem ofSpan_error_cases {p : Processor} {span : Span} {origin : Text} {issue : Issue}
    (h : ofSpan p span origin = .error issue) :
    issue = .missingDestination span.startLine ∨
      (∃ destination, issue = .unsafeDestination span.startLine destination) ∨
      ∃ cause, issue = .invalidWrap span.startLine cause := by
  cases hwritten : (Directives.parse span.label).destination? with
  | none =>
      simp only [ofSpan, hwritten, Except.error.injEq] at h
      exact .inl h.symm
  | some written =>
      simp only [ofSpan, hwritten] at h
      split at h
      · split at h
        · exact .inr (.inr ⟨_, (Except.error.inj h).symm⟩)
        · cases h
      · exact .inr (.inl ⟨_, (Except.error.inj h).symm⟩)

/-- A span is turned down for its destination exactly when its annotation names none. -/
theorem ofSpan_eq_missingDestination_iff {p : Processor} {span : Span} {origin : Text}
    {line : Nat} :
    ofSpan p span origin = .error (.missingDestination line) ↔
      (Directives.parse span.label).destination? = none ∧ line = span.startLine := by
  constructor
  · intro h
    cases hwritten : (Directives.parse span.label).destination? with
    | none =>
        simp only [ofSpan, hwritten, Except.error.injEq, Issue.missingDestination.injEq] at h
        exact ⟨rfl, h.symm⟩
    | some written =>
        simp only [ofSpan, hwritten] at h
        split at h
        · split at h <;> cases h
        · cases h
  · rintro ⟨hwritten, rfl⟩
    simp only [ofSpan, hwritten]

/-- The destination of a valid block stays inside the directory it is written to. -/
theorem isContained_of_ofSpan_eq_ok {p : Processor} {span : Span} {origin : Text} {block : Block}
    (h : ofSpan p span origin = .ok block) :
    (Path.ofText block.destination).isContained = true := by
  obtain ⟨written, wrap, -, hinside, -, rfl⟩ := ofSpan_eq_ok_iff.mp h
  exact hinside

/-- What is read off the outcome is read off a valid block. -/
theorem exists_ok_of_map_toOption {α : Type} {outcome : Except Issue Block} {f : Block → α}
    {value : α} (h : outcome.toOption.map f = some value) :
    ∃ block, outcome = .ok block ∧ f block = value := by
  cases outcome with
  | error issue => cases h
  | ok block => exact ⟨block, rfl, Option.some.inj h⟩

/-- Defaults change the directives by insertions of three keys. -/
theorem applyDefaults_of_insert {P : Directives → Prop}
    (hinsert : ∀ d, ∀ key ∈ [brandKey, groupKey, idKey], ∀ value, P d → P (d.insert key value))
    {d : Directives} (h : P d) (defaults : BlockDefaults) : P (applyDefaults defaults d) := by
  have hstep : ∀ d, ∀ key ∈ [brandKey, groupKey, idKey], ∀ default,
      P d → P (applyDefault d key default) := by
    intro d key hkey default h
    unfold applyDefault
    split
    · exact h
    · exact hinsert d key hkey _ h
  have hbrand := hstep d brandKey (by decide) defaults.brand h
  have hgroup := hstep _ groupKey (by decide) defaults.group hbrand
  exact hstep _ idKey (by decide) defaults.id hgroup

/-- Options under which content, view and template are the same text. -/
def bare : Processor := ⟨{ templateWrap := Wrap.Pair.empty }, Wrap.Pair.empty⟩

/-- The given text, to be put into the file `a`. -/
def toOneFile (content : Text) : Span := ⟨Directives.extractKey ++ [':', 'a'], content, 1, 1, true⟩

theorem ofSpan_toOneFile (content : Text) : ofSpan bare (toOneFile content) [] =
    .ok (assemble bare.options [] content (Target.of false ['a'])
      ⟨[(Directives.extractKey, .text ['a'])]⟩ Wrap.Pair.empty) := by
  have hparse : Directives.parse (toOneFile content).label =
      ⟨[(Directives.extractKey, .text ['a'])]⟩ := by
    change Directives.parse (Directives.extractKey ++ [':', 'a']) = _
    decide +kernel
  refine ofSpan_eq_ok_iff.mpr ⟨['a'], Wrap.Pair.empty, ?_, by decide +kernel, ?_, ?_⟩
  · rw [hparse]
    rfl
  · rw [hparse]
    rfl
  · rw [hparse]
    rfl

end Partials.Block
