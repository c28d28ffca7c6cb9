import Partials.Proofs.Inventory.Runs

/-!
# Offers to a builder

A call offers the valid blocks of its document to the builder, one after the other, up to the first
whose write fails. `feed` is what they make of a builder as long as no write fails, and
`addDocument_cases` says that a call with any sink does this: to all of its blocks, or to those
before the one that the sink refuses.
-/

namespace Partials

variable {σ ε : Type}

namespace Builder

/-- Neither the identity nor the destination of the block is taken. -/
def IsFree (b : Builder) (block : Block) : Prop :=
  block.id ∉ b.seen ∧ block.destination ∉ b.owners.map Prod.fst

instance (b : Builder) (block : Block) : Decidable (b.IsFree block) :=
  inferInstanceAs (Decidable (_ ∧ _))

/-- The builder after a valid block whose write, if there is one, succeeds. -/
def offer (b : Builder) (block : Block) : Builder :=
  if b.IsFree block then b.countValid.accept block else b.countValid

/-- The builder after valid blocks of which no write fails. -/
def feed (b : Builder) (blocks : List Block) : Builder := blocks.foldl offer b

/-- The blocks that the builder accepts when it is fed with these. -/
def accepted : Builder → List Block → List Block
  | _, [] => []
  | b, block :: blocks =>
    if b.IsFree block then block :: accepted (b.offer block) blocks
    else accepted (b.offer block) blocks

theorem objection?_eq_none_iff {b : Builder} {line : Nat} {block : Block} :
    b.objection? line block = none ↔ b.IsFree block := by
  unfold objection? IsFree
  by_cases hid : block.id ∈ b.seen
  · simp [hid]
  · by_cases hdestination : block.destination ∈ b.owners.map Prod.fst
    · simp [hid, hdestination]
    · simp [hid, hdestination]

/-- Behind an accepted block, another identity at its destination is a conflict. -/
theorem objection?_accept_of_destination {b : Builder} {line : Nat} {block block' : Block}
    (hid : block'.id ≠ block.id) (hseen : block'.id ∉ b.seen)
    (hdestination : block'.destination = block.destination) :
    (b.accept block).objection? line block' = some (.conflict line block'.destination) := by
  have hnew : block'.id ∉ (b.accept block).seen := by
    change block'.id ∉ b.seen ++ [block.id]
    rw [List.mem_append, List.mem_singleton, not_or]
    exact ⟨hseen, hid⟩
  have htaken : block'.destination ∈ (b.accept block).owners.map Prod.fst := by
    change block'.destination ∈ (b.owners ++ [(block.destination, block.id)]).map Prod.fst
    rw [List.map_append, hdestination]
    exact List.mem_append_right _ List.mem_cons_self
  rw [objection?, if_neg hnew, if_pos htaken]

theorem offer_of_isFree {b : Builder} {block : Block} (h : b.IsFree block) :
    b.offer block = b.countValid.accept block := if_pos h

theorem offer_of_not_isFree {b : Builder} {block : Block} (h : ¬ b.IsFree block) :
    b.offer block = b.countValid := if_neg h

theorem accepted_cons_of_isFree {b : Builder} {block : Block} (h : b.IsFree block)
    (blocks : List Block) :
    b.accepted (block :: blocks) = block :: (b.offer block).accepted blocks := by
  rw [accepted, if_pos h]

theorem accepted_cons_of_not_isFree {b : Builder} {block : Block} (h : ¬ b.IsFree block)
    (blocks : List Block) :
    b.accepted (block :: blocks) = (b.offer block).accepted blocks := by
  rw [accepted, if_neg h]

@[simp]
theorem feed_nil (b : Builder) : b.feed [] = b := rfl

@[simp]
theorem feed_cons (b : Builder) (block : Block) (blocks : List Block) :
    b.feed (block :: blocks) = (b.offer block).feed blocks := rfl

theorem feed_append (b : Builder) (first rest : List Block) :
    b.feed (first ++ rest) = (b.feed first).feed rest := List.foldl_append

@[simp]
theorem processor_offer (b : Builder) (block : Block) :
    (b.offer block).processor = b.processor := by
  unfold offer
  split
  · rfl
  · rfl

@[simp]
theorem total_offer (b : Builder) (block : Block) : (b.offer block).total = b.total + 1 := by
  unfold offer
  split
  · rfl
  · rfl

theorem items_feed (b : Builder) (blocks : List Block) :
    (b.feed blocks).items = b.items ++ b.accepted blocks := by
  induction blocks generalizing b with
  | nil => simp [accepted]
  | cons block blocks ih =>
      rw [feed_cons, ih]
      by_cases hfree : b.IsFree block
      · rw [accepted_cons_of_isFree hfree, offer_of_isFree hfree]
        simp [accept, countValid]
      · rw [accepted_cons_of_not_isFree hfree, offer_of_not_isFree hfree]
        rfl

@[simp]
theorem processor_feed (b : Builder) (blocks : List Block) :
    (b.feed blocks).processor = b.processor := by
  induction blocks generalizing b with
  | nil => rfl
  | cons block blocks ih => rw [feed_cons, ih, processor_offer]

theorem total_feed (b : Builder) (blocks : List Block) :
    (b.feed blocks).total = b.total + blocks.length := by
  induction blocks generalizing b with
  | nil => rfl
  | cons block blocks ih =>
      rw [feed_cons, ih, total_offer, List.length_cons]
      omega

theorem accepted_append (b : Builder) (first rest : List Block) :
    b.accepted (first ++ rest) = b.accepted first ++ (b.feed first).accepted rest := by
  induction first generalizing b with
  | nil => rfl
  | cons block first ih =>
      by_cases hfree : b.IsFree block
      · rw [List.cons_append, accepted_cons_of_isFree hfree, accepted_cons_of_isFree hfree, ih]
        rfl
      · rw [List.cons_append, accepted_cons_of_not_isFree hfree,
          accepted_cons_of_not_isFree hfree, ih]
        rfl

/-- The valid blocks of a document, in their order. -/
def validOf (p : Processor) (document : Document) : List Block :=
  (offers p document).map Prod.snd

/-- The blocks are fed to the builder, and the sink takes all that it accepts. -/
def FeedsAll (sink : Sink (StateM σ) ε) (b : Builder) (s : σ) (blocks : List Block)
    (b' : Builder) (s' : σ) : Prop :=
  b' = b.feed blocks ∧ sink.Takes s (b.accepted blocks) s'

/-- The blocks `before` are fed to the builder; `block` is the next one that it would accept, and
the sink refuses it. -/
structure FailsAt (sink : Sink (StateM σ) ε) (b : Builder) (s : σ) (blocks : List Block)
    (b' : Builder) (e : ε) (s' : σ) (before : List Block) (block : Block)
    (after : List Block) : Prop where
  blocks_eq : blocks = before ++ block :: after
  isFree : (b.feed before).IsFree block
  builder_eq : b' = (b.feed before).countValid
  refused : ∃ mid, sink.Takes s (b.accepted before) mid ∧ sink block mid = (.error e, s')

section

variable {sink : Sink (StateM σ) ε} {b b' : Builder} {s mid s' : σ} {block : Block}
  {blocks : List Block}

theorem FeedsAll.cons_free (hfree : b.IsFree block) (hwrite : sink block s = (.ok (), mid))
    (h : FeedsAll sink (b.countValid.accept block) mid blocks b' s') :
    FeedsAll sink b s (block :: blocks) b' s' := by
  rw [← offer_of_isFree hfree] at h
  obtain ⟨hbuilder, htakes⟩ := h
  refine ⟨hbuilder, ?_⟩
  rw [accepted_cons_of_isFree hfree]
  exact ⟨mid, hwrite, htakes⟩

theorem FeedsAll.cons_taken (htaken : ¬ b.IsFree block)
    (h : FeedsAll sink b.countValid s blocks b' s') :
    FeedsAll sink b s (block :: blocks) b' s' := by
  rw [← offer_of_not_isFree htaken] at h
  obtain ⟨hbuilder, htakes⟩ := h
  refine ⟨hbuilder, ?_⟩
  rw [accepted_cons_of_not_isFree htaken]
  exact htakes

variable {e : ε} {before after : List Block} {refused : Block}

theorem FailsAt.cons_free (hfree : b.IsFree block) (hwrite : sink block s = (.ok (), mid))
    (h : FailsAt sink (b.countValid.accept block) mid blocks b' e s' before refused after) :
    FailsAt sink b s (block :: blocks) b' e s' (block :: before) refused after := by
  rw [← offer_of_isFree hfree] at h
  obtain ⟨last, htakes, hrefused⟩ := h.refused
  refine ⟨by simp [h.blocks_eq], h.isFree, h.builder_eq, last, ?_, hrefused⟩
  rw [accepted_cons_of_isFree hfree]
  exact ⟨mid, hwrite, htakes⟩

theorem FailsAt.cons_taken (htaken : ¬ b.IsFree block)
    (h : FailsAt sink b.countValid s blocks b' e s' before refused after) :
    FailsAt sink b s (block :: blocks) b' e s' (block :: before) refused after := by
  rw [← offer_of_not_isFree htaken] at h
  obtain ⟨last, htakes, hrefused⟩ := h.refused
  refine ⟨by simp [h.blocks_eq], h.isFree, h.builder_eq, last, ?_, hrefused⟩
  rw [accepted_cons_of_not_isFree htaken]
  exact htakes

end

/-- Spans are fed as far as the sink goes along. -/
theorem addSpans_cases (sink : Sink (StateM σ) ε) (origin : Text) (b : Builder) (r : Report)
    (spans : List Span) (s : σ) :
    (∃ b' r' s', addSpans sink origin b r spans s = ((b', .ok r'), s') ∧
      FeedsAll sink b s ((Block.offers b.processor origin spans).map Prod.snd) b' s') ∨
    ∃ b' e s' before block after, addSpans sink origin b r spans s = ((b', .error e), s') ∧
      FailsAt sink b s ((Block.offers b.processor origin spans).map Prod.snd) b' e s'
        before block after := by
  induction spans generalizing b r s with
  | nil => exact .inl ⟨b, r, s, rfl, rfl, rfl⟩
  | cons span spans ih =>
      cases hspan : Block.ofSpan b.processor span origin with
      | error issue =>
          rw [addSpans_of_error hspan, Block.offers_cons_of_error hspan]
          exact ih b (r.note issue) s
      | ok block =>
          rw [Block.offers_cons_of_ok hspan, List.map_cons]
          cases hobjection : b.objection? span.startLine block with
          | some issue =>
              have htaken : ¬ b.IsFree block := by
                intro hfree
                rw [objection?_eq_none_iff.mpr hfree] at hobjection
                cases hobjection
              rw [addSpans_of_objection hspan hobjection]
              rcases ih b.countValid (r.note issue) s with
                ⟨b', r', s', hrun, hfeeds⟩ | ⟨b', e, s', before, refused, after, hrun, hfails⟩
              · exact .inl ⟨b', r', s', hrun, .cons_taken htaken hfeeds⟩
              · exact .inr ⟨b', e, s', _, refused, after, hrun, hfails.cons_taken htaken⟩
          | none =>
              have hfree : b.IsFree block := objection?_eq_none_iff.mp hobjection
              rw [addSpans_of_write hspan hobjection, bind_apply]
              cases hwrite : sink block s with
              | mk answer mid =>
                  cases answer with
                  | error e =>
                      have hfails : FailsAt sink b s
                          (block :: (Block.offers b.processor origin spans).map Prod.snd)
                          b.countValid e mid [] block _ :=
                        ⟨rfl, hfree, rfl, s, rfl, hwrite⟩
                      exact .inr ⟨_, e, mid, [], block, _, rfl, hfails⟩
                  | ok _ =>
                      rcases ih (b.countValid.accept block) r.countAdded mid with
                        ⟨b', r', s', hrun, hfeeds⟩ |
                        ⟨b', e, s', before, refused, after, hrun, hfails⟩
                      · exact .inl ⟨b', r', s', hrun, .cons_free hfree hwrite hfeeds⟩
                      · exact .inr ⟨b', e, s', _, refused, after, hrun,
                          hfails.cons_free hfree hwrite⟩

/-- A call feeds the valid blocks of its document as far as the sink goes along. -/
theorem addDocument_cases (sink : Sink (StateM σ) ε) (b : Builder) (document : Document) (s : σ) :
    (∃ b' report s', b.addDocument sink document s = ((b', .ok report), s') ∧
      FeedsAll sink b s (validOf b.processor document) b' s') ∨
    ∃ b' e s' before block after, b.addDocument sink document s = ((b', .error e), s') ∧
      FailsAt sink b s (validOf b.processor document) b' e s' before block after :=
  addSpans_cases sink document.origin b _ _ s

theorem feedsAll_of_addDocument_ok {sink : Sink (StateM σ) ε} {b b' : Builder}
    {document : Document} {s s' : σ} {report : Report}
    (h : b.addDocument sink document s = ((b', .ok report), s')) :
    FeedsAll sink b s (validOf b.processor document) b' s' := by
  rcases addDocument_cases sink b document s with
    ⟨b'', report', s'', hrun, hfeeds⟩ | ⟨b'', e, s'', before, block, after, hrun, -⟩
  · rw [h] at hrun
    obtain ⟨hfed, rfl⟩ := Prod.mk.inj hrun
    obtain ⟨rfl, -⟩ := Prod.mk.inj hfed
    exact hfeeds
  · rw [h] at hrun
    cases (Prod.mk.inj (Prod.mk.inj hrun).1).2

theorem failsAt_of_addDocument_error {sink : Sink (StateM σ) ε} {b b' : Builder}
    {document : Document} {s s' : σ} {e : ε}
    (h : b.addDocument sink document s = ((b', .error e), s')) :
    ∃ before block after,
      FailsAt sink b s (validOf b.processor document) b' e s' before block after := by
  rcases addDocument_cases sink b document s with
    ⟨b'', report, s'', hrun, -⟩ | ⟨b'', e'', s'', before, block, after, hrun, hfails⟩
  · rw [h] at hrun
    cases (Prod.mk.inj (Prod.mk.inj hrun).1).2
  · rw [h] at hrun
    obtain ⟨hfed, rfl⟩ := Prod.mk.inj hrun
    obtain ⟨rfl, herror⟩ := Prod.mk.inj hfed
    obtain rfl := Except.error.inj herror
    exact ⟨before, block, after, hfails⟩

end Builder

end Partials
