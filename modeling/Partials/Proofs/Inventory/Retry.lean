import Partials.Proofs.Inventory.History

/-!
# Calling again after a failure

A call that the sink ends leaves the builder with the blocks before the refused one. When the same
document is fed again, these count as repeats, and the rest is fed as if nothing had happened:
`addDocument_again`.
-/

namespace Partials

variable {σ ε : Type}

/-- From the state on, the sink takes whatever it is given. -/
def Sink.Steady (sink : Sink (StateM σ) ε) (s : σ) : Prop :=
  ∀ blocks s', sink.Takes s blocks s' → ∀ block, (sink block s').1 = .ok ()

theorem Sink.steady_none (s : σ) : (Sink.none : Sink (StateM σ) ε).Steady s := by
  intro blocks s' _ block
  rfl

namespace Builder

/-- The builder as it stands, `n` valid blocks later. -/
def recount (b : Builder) (n : Nat) : Builder := { b with total := b.total + n }

theorem recount_recount (b : Builder) (n k : Nat) :
    (b.recount n).recount k = b.recount (n + k) := by
  simp [recount, Nat.add_assoc]

theorem isFree_recount {b : Builder} {n : Nat} {block : Block} :
    (b.recount n).IsFree block ↔ b.IsFree block := Iff.rfl

theorem offer_recount (b : Builder) (n : Nat) (block : Block) :
    (b.recount n).offer block = (b.offer block).recount n := by
  by_cases hfree : b.IsFree block
  · rw [offer_of_isFree hfree, offer_of_isFree (isFree_recount.mpr hfree)]
    simp [recount, countValid, accept, Nat.add_right_comm]
  · rw [offer_of_not_isFree hfree, offer_of_not_isFree (isFree_recount.not.mpr hfree)]
    simp [recount, countValid, Nat.add_right_comm]

/-- The number of valid blocks met before has no say in what becomes of later ones. -/
theorem feed_recount (b : Builder) (n : Nat) (blocks : List Block) :
    (b.recount n).feed blocks = (b.feed blocks).recount n := by
  induction blocks generalizing b with
  | nil => rfl
  | cons block blocks ih => rw [feed_cons, feed_cons, offer_recount, ih]

theorem accepted_recount (b : Builder) (n : Nat) (blocks : List Block) :
    (b.recount n).accepted blocks = b.accepted blocks := by
  induction blocks generalizing b with
  | nil => rfl
  | cons block blocks ih =>
      by_cases hfree : b.IsFree block
      · rw [accepted_cons_of_isFree hfree, accepted_cons_of_isFree (isFree_recount.mpr hfree),
          offer_recount, ih]
      · rw [accepted_cons_of_not_isFree hfree,
          accepted_cons_of_not_isFree (isFree_recount.not.mpr hfree), offer_recount, ih]

theorem not_isFree_offer_self (b : Builder) (block : Block) : ¬ (b.offer block).IsFree block := by
  by_cases hfree : b.IsFree block
  · rw [offer_of_isFree hfree]
    intro h
    apply h.1
    simp [accept]
  · rw [offer_of_not_isFree hfree]
    exact hfree

theorem isFree_of_isFree_offer {b : Builder} {block other : Block}
    (h : (b.offer other).IsFree block) : b.IsFree block := by
  by_cases hfree : b.IsFree other
  · rw [offer_of_isFree hfree] at h
    refine ⟨fun hid => h.1 ?_, fun hdestination => h.2 ?_⟩
    · exact List.mem_append_left _ hid
    · simp only [accept, countValid, List.map_append]
      exact List.mem_append_left _ hdestination
  · rw [offer_of_not_isFree hfree] at h
    exact h

theorem isFree_of_isFree_feed {b : Builder} {block : Block} {blocks : List Block}
    (h : (b.feed blocks).IsFree block) : b.IsFree block := by
  induction blocks generalizing b with
  | nil => exact h
  | cons other blocks ih => exact isFree_of_isFree_offer (ih h)

theorem not_isFree_feed_of_mem (b : Builder) {block : Block} {blocks : List Block}
    (hmem : block ∈ blocks) : ¬ (b.feed blocks).IsFree block := by
  induction blocks generalizing b with
  | nil => cases hmem
  | cons other blocks ih =>
      rcases List.mem_cons.mp hmem with rfl | hmem
      · exact fun h => not_isFree_offer_self b block (isFree_of_isFree_feed h)
      · exact ih (b.offer other) hmem

/-- Blocks that are not free are counted and change nothing else. -/
theorem feed_of_not_isFree {b : Builder} {blocks : List Block}
    (h : ∀ block ∈ blocks, ¬ b.IsFree block) :
    b.feed blocks = b.recount blocks.length ∧ b.accepted blocks = [] := by
  induction blocks generalizing b with
  | nil => exact ⟨rfl, rfl⟩
  | cons block blocks ih =>
      have htaken := h block List.mem_cons_self
      have hoffer : b.offer block = b.recount 1 := offer_of_not_isFree htaken
      obtain ⟨hfeed, haccepted⟩ : (b.recount 1).feed blocks = (b.recount 1).recount blocks.length ∧
          (b.recount 1).accepted blocks = [] :=
        ih fun other hother => h other (List.mem_cons_of_mem _ hother)
      constructor
      · rw [feed_cons, hoffer, hfeed, recount_recount, List.length_cons, Nat.add_comm]
      · rw [accepted_cons_of_not_isFree htaken, hoffer, haccepted]

/-- Feeding a stream of which the blocks `before` were fed already. -/
theorem feed_again (b : Builder) (before rest : List Block) (n : Nat) :
    ((b.feed before).recount n).feed (before ++ rest) =
        (b.feed (before ++ rest)).recount (n + before.length) ∧
      ((b.feed before).recount n).accepted (before ++ rest) = (b.feed before).accepted rest := by
  obtain ⟨hfeed, haccepted⟩ : (b.feed before).feed before = (b.feed before).recount before.length ∧
      (b.feed before).accepted before = [] :=
    feed_of_not_isFree fun block hmem => not_isFree_feed_of_mem b hmem
  constructor
  · rw [feed_recount, feed_append, feed_append, hfeed, feed_recount, recount_recount, Nat.add_comm]
  · rw [accepted_recount, accepted_append, haccepted, hfeed, accepted_recount, List.nil_append]

theorem addDocument_of_steady {sink : Sink (StateM σ) ε} {s : σ} (hsink : sink.Steady s)
    (b : Builder) (document : Document) :
    ∃ report s', b.addDocument sink document s =
        ((b.feed (validOf b.processor document), .ok report), s') ∧
      sink.Takes s (b.accepted (validOf b.processor document)) s' := by
  rcases addDocument_cases sink b document s with
    ⟨b', report, s', hrun, rfl, htakes⟩ | ⟨b', e, s', before, block, after, hrun, hfails⟩
  · exact ⟨report, s', hrun, htakes⟩
  · obtain ⟨mid, htakes, hrefused⟩ := hfails.refused
    have hok := hsink _ mid htakes block
    rw [hrefused] at hok
    cases hok

/-- After a call that failed at some valid block of a document, one call with a sink that takes
everything ends where a single such call would have ended. The two calls write what the single one
writes, no block twice, and only the total is higher: by the number of valid blocks up to the
refused one. -/
theorem addDocument_again {ρ δ τ κ υ ι : Type}
    {o : Options} {start b : Builder} (hstart : ofOptions o = .ok start)
    {earlier : Sink (StateM ρ) δ} {history : List Document} {outcomes : List (Except δ Report)}
    {r r' : ρ} (hreached : addDocuments earlier start history r = ((b, outcomes), r'))
    {sink : Sink (StateM σ) ε} {document : Document} {b₁ : Builder} {e : ε} {s s' : σ}
    (hfailed : b.addDocument sink document s = ((b₁, .error e), s'))
    {again : Sink (StateM τ) κ} {t : τ} (hagain : again.Steady t)
    {once : Sink (StateM υ) ι} {u : υ} (honce : once.Steady u) :
    ∃ (before : List Block) (block : Block) (after written rest : List Block) (mid : σ)
      (b₂ b₃ : Builder) (report₂ report₃ : Report) (t' : τ) (u' : υ),
      validOf b.processor document = before ++ block :: after ∧
      b₁.total = b.total + (before.length + 1) ∧
      sink.Takes s written mid ∧ sink block mid = (.error e, s') ∧
      b₁.addDocument again document t = ((b₂, .ok report₂), t') ∧ again.Takes t rest t' ∧
      b.addDocument once document u = ((b₃, .ok report₃), u') ∧
        once.Takes u (written ++ rest) u' ∧
      b₂ = { b₃ with total := b₃.total + (before.length + 1) } ∧
      b₃.items = b.items ++ written ++ rest ∧ (b₃.items.map Block.id).Nodup := by
  obtain ⟨before, block, after, hfails⟩ := failsAt_of_addDocument_error hfailed
  obtain ⟨mid, hwritten, hrefused⟩ := hfails.refused
  have hbuilder : b₁ = (b.feed before).recount 1 := hfails.builder_eq
  have hvalid : validOf b₁.processor document = before ++ block :: after := by
    rw [hbuilder, ← hfails.blocks_eq, show ((b.feed before).recount 1).processor = b.processor from
      processor_feed b before]
  obtain ⟨report₂, t', hcall₂, htakes₂⟩ := addDocument_of_steady hagain b₁ document
  obtain ⟨report₃, u', hcall₃, htakes₃⟩ := addDocument_of_steady honce b document
  obtain ⟨hfeed, haccepted⟩ := feed_again b before (block :: after) 1
  rw [hvalid, hbuilder, haccepted] at htakes₂
  rw [hfails.blocks_eq, accepted_append] at htakes₃
  refine ⟨before, block, after, b.accepted before, (b.feed before).accepted (block :: after), mid,
    _, _, report₂, report₃, t', u', hfails.blocks_eq, ?_, hwritten, hrefused, hcall₂, htakes₂,
    hcall₃, htakes₃, ?_, ?_, ?_⟩
  · rw [hbuilder, recount, total_feed, Nat.add_assoc]
  · rw [hvalid, hbuilder, hfeed, hfails.blocks_eq, Nat.add_comm]
    rfl
  · rw [hfails.blocks_eq, items_feed, accepted_append, List.append_assoc]
  · -- Reached builders have no two items of one identity.
    have hnew : start.Records ([] : List (Event δ)) := records_of_ofOptions hstart
    obtain ⟨b', outcomes', r'', events, hrun, hrecords, -, -⟩ :=
      hnew.addDocuments earlier history r
    rw [hreached] at hrun
    obtain rfl : b = b' := (Prod.mk.inj (Prod.mk.inj hrun).1).1
    obtain ⟨told, -, -, hfed, -⟩ := hrecords.feed (validOf b.processor document)
    exact hfed.nodup_ids

/-- A builder that has met one block, which was refused. -/
def metOne : Builder :=
  (addDocuments (refusing 0) (ofProcessor ⟨{}, Wrap.Pair.empty⟩) (offeredTwice.take 1) 0).1.1

/-- Two blocks, of which `refusing 1` refuses the second. -/
def twoBlocks : Document :=
  ⟨['3'], ("<!-- extract:a.html -->A<!-- endextract -->" ++
    "<!-- extract:b.html -->B<!-- endextract -->").toList⟩

theorem addDocument_again_twoBlocks :
    ∃ (outcomes : List (Except Unit Report)) (n : Nat) (b₁ b₂ b₃ : Builder)
      (report₂ report₃ : Report),
      ofOptions {} = .ok (ofProcessor ⟨{}, Wrap.Pair.empty⟩) ∧
      addDocuments (refusing 0) (ofProcessor ⟨{}, Wrap.Pair.empty⟩) (offeredTwice.take 1) 0 =
        ((metOne, outcomes), n) ∧
      metOne.addDocument (refusing 1) twoBlocks 0 = ((b₁, .error ()), 2) ∧
      (Sink.none : Sink (StateM Unit) Unit).Steady () ∧
      b₁.addDocument (Sink.none : Sink (StateM Unit) Unit) twoBlocks () =
        ((b₂, .ok report₂), ()) ∧
      metOne.addDocument (Sink.none : Sink (StateM Unit) Unit) twoBlocks () =
        ((b₃, .ok report₃), ()) ∧
      b₂ = { b₃ with total := b₃.total + 2 } := by
  have hstart : ofOptions {} = .ok (ofProcessor ⟨{}, Wrap.Pair.empty⟩) := rfl
  have hsteady : (Sink.none : Sink (StateM Unit) Unit).Steady () := Sink.steady_none ()
  have hfacts :
      (metOne.addDocument (refusing 1) twoBlocks 0).1.2.isOk = false ∧
      (metOne.addDocument (refusing 1) twoBlocks 0).2 = 2 ∧
      (metOne.addDocument (refusing 1) twoBlocks 0).1.1.total = metOne.total + 2 := by
    decide +kernel
  obtain ⟨outcomes, n, hreached⟩ : ∃ outcomes n,
      addDocuments (refusing 0) (ofProcessor ⟨{}, Wrap.Pair.empty⟩) (offeredTwice.take 1) 0 =
        ((metOne, outcomes), n) := ⟨_, _, rfl⟩
  cases hfailed : metOne.addDocument (refusing 1) twoBlocks 0 with
  | mk fed n' =>
      obtain ⟨b₁, outcome⟩ := fed
      rw [hfailed] at hfacts
      obtain ⟨herror, rfl, htotal⟩ := hfacts
      cases outcome with
      | ok report => cases herror
      | error e =>
          obtain ⟨before, block, after, written, rest, mid, b₂, b₃, report₂, report₃, t, u, -,
              hcount, -, -, hcall₂, -, hcall₃, -, hsame, -⟩ :=
            addDocument_again hstart hreached hfailed hsteady hsteady
          have hlength : before.length + 1 = 2 := Nat.add_left_cancel (hcount.symm.trans htotal)
          rw [hlength] at hsame
          exact ⟨outcomes, n, b₁, b₂, b₃, report₂, report₃, hstart, hreached, rfl, hsteady, hcall₂,
            hcall₃, hsame⟩

end Builder

end Partials
