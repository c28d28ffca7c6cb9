import Mathlib.Data.List.Nodup
import Partials.Proofs.Inventory.Offers

/-!
# The history of a run

Each valid block that a run meets is kept, turned down as a repeat, or refused by the sink. A
builder's state is a summary of this history, whatever the sink does and however many calls fail:
`addDocuments_history`.
-/

namespace Partials

variable {σ ε : Type}

/-- What became of a valid block. -/
inductive Fate (ε : Type)
  /-- It was written and is an item. -/
  | kept
  /-- An item has its identity. -/
  | duplicate
  /-- An item of another identity has its destination. -/
  | conflict
  /-- The sink refused it. -/
  | failed (cause : ε)

namespace Fate

def isDuplicate : Fate ε → Bool
  | .duplicate => true
  | _ => false

def isConflict : Fate ε → Bool
  | .conflict => true
  | _ => false

def isFailed : Fate ε → Bool
  | .failed _ => true
  | _ => false

end Fate

/-- A valid block that was met, and its fate. -/
structure Event (ε : Type) where
  block : Block
  fate : Fate ε

namespace Event

/-- The blocks that were kept. -/
def written (events : List (Event ε)) : List Block :=
  events.filterMap fun event =>
    match event.fate with
    | .kept => some event.block
    | _ => none

/-- What the sink was given, each time with its answer. -/
def attempts (events : List (Event ε)) : List (Block × Except ε Unit) :=
  events.filterMap fun event =>
    match event.fate with
    | .kept => some (event.block, .ok ())
    | .failed cause => some (event.block, .error cause)
    | _ => none

/-- The fate is due to the block once the blocks `before` are items. -/
def Fits (before : List Block) (event : Event ε) : Prop :=
  match event.fate with
  | .duplicate => event.block.id ∈ before.map Block.id
  | .conflict =>
    event.block.id ∉ before.map Block.id ∧
      event.block.destination ∈ before.map Block.destination
  | _ =>
    event.block.id ∉ before.map Block.id ∧
      event.block.destination ∉ before.map Block.destination

@[simp]
theorem written_append (first rest : List (Event ε)) :
    written (first ++ rest) = written first ++ written rest := List.filterMap_append

@[simp]
theorem attempts_append (first rest : List (Event ε)) :
    attempts (first ++ rest) = attempts first ++ attempts rest := List.filterMap_append

/-- Every event has one of four fates. -/
theorem length_eq_sum (events : List (Event ε)) :
    events.length = (written events).length + events.countP (·.fate.isDuplicate) +
      events.countP (·.fate.isConflict) + events.countP (·.fate.isFailed) := by
  induction events with
  | nil => rfl
  | cons event events ih =>
      rw [← List.singleton_append, List.length_append, written_append, List.length_append,
        List.countP_append, List.countP_append, List.countP_append, ih]
      have hone : 1 = (written [event]).length + [event].countP (·.fate.isDuplicate) +
          [event].countP (·.fate.isConflict) + [event].countP (·.fate.isFailed) := by
        obtain ⟨block, fate⟩ := event
        cases fate with
        | kept => rfl
        | duplicate => rfl
        | conflict => rfl
        | failed cause => rfl
      rw [List.length_singleton]
      omega

end Event

/-- The sink is given the blocks one after the other and gives these answers. -/
def Sink.Answers (sink : Sink (StateM σ) ε) : σ → List (Block × Except ε Unit) → σ → Prop
  | s, [], s' => s' = s
  | s, (block, answer) :: attempts, s' =>
    ∃ mid, sink block s = (answer, mid) ∧ Answers sink mid attempts s'

theorem Sink.Answers.append {sink : Sink (StateM σ) ε} {s mid s' : σ}
    {first rest : List (Block × Except ε Unit)} (hfirst : sink.Answers s first mid)
    (hrest : sink.Answers mid rest s') : sink.Answers s (first ++ rest) s' := by
  induction first generalizing s with
  | nil =>
      obtain rfl := hfirst
      exact hrest
  | cons attempt first ih =>
      obtain ⟨next, hwrite, hfirst⟩ := hfirst
      exact ⟨next, hwrite, ih hfirst⟩

theorem Sink.Takes.answers {sink : Sink (StateM σ) ε} {s s' : σ} {blocks : List Block}
    (h : sink.Takes s blocks s') :
    sink.Answers s (blocks.map fun block => (block, .ok ())) s' := by
  induction blocks generalizing s with
  | nil => exact h
  | cons block blocks ih =>
      obtain ⟨mid, hwrite, hrest⟩ := h
      exact ⟨mid, hwrite, ih hrest⟩

namespace Builder

/-- The identities and the destinations of a builder are those of its items, and no two items share
one. -/
structure Consistent (b : Builder) : Prop where
  seen_eq : b.seen = b.items.map Block.id
  owners_eq : b.owners = b.items.map fun block => (block.destination, block.id)
  nodup_ids : (b.items.map Block.id).Nodup
  nodup_destinations : (b.items.map Block.destination).Nodup

theorem consistent_ofProcessor (p : Processor) : (ofProcessor p).Consistent :=
  ⟨rfl, rfl, List.nodup_nil, List.nodup_nil⟩

theorem Consistent.countValid {b : Builder} (h : b.Consistent) : b.countValid.Consistent :=
  ⟨h.seen_eq, h.owners_eq, h.nodup_ids, h.nodup_destinations⟩

theorem Consistent.isFree_iff {b : Builder} (h : b.Consistent) {block : Block} :
    b.IsFree block ↔ block.id ∉ b.items.map Block.id ∧
      block.destination ∉ b.items.map Block.destination := by
  have howners : b.owners.map Prod.fst = b.items.map Block.destination := by
    rw [h.owners_eq, List.map_map]
    rfl
  rw [IsFree, h.seen_eq, howners]

theorem Consistent.accept {b : Builder} (h : b.Consistent) {block : Block}
    (hfree : b.IsFree block) : (b.accept block).Consistent := by
  obtain ⟨hid, hdestination⟩ := h.isFree_iff.mp hfree
  refine ⟨?_, ?_, ?_, ?_⟩
  · simp [Builder.accept, h.seen_eq]
  · simp [Builder.accept, h.owners_eq]
  · simp only [Builder.accept, List.map_append, List.map_singleton]
    rw [← List.concat_eq_append, List.nodup_concat]
    exact ⟨hid, h.nodup_ids⟩
  · simp only [Builder.accept, List.map_append, List.map_singleton]
    rw [← List.concat_eq_append, List.nodup_concat]
    exact ⟨hdestination, h.nodup_destinations⟩

/-- The builder is a summary of the events: they fit one another, the kept blocks are the items, and
each event counts once. -/
structure Records (b : Builder) (events : List (Event ε)) : Prop extends Consistent b where
  fits : ∀ before event after, events = before ++ event :: after → event.Fits (Event.written before)
  items_eq : b.items = Event.written events
  total_eq : b.total = events.length

theorem records_ofProcessor (p : Processor) : (ofProcessor p).Records ([] : List (Event ε)) := by
  refine ⟨consistent_ofProcessor p, ?_, rfl, rfl⟩
  intro before event after hevents
  simp at hevents

theorem records_of_ofOptions {o : Options} {b : Builder} (hb : ofOptions o = .ok b) :
    b.Records ([] : List (Event ε)) := by
  rw [eq_ofProcessor_of_ofOptions hb]
  exact records_ofProcessor b.processor

section

variable {b b' : Builder} {events : List (Event ε)}

/-- One more event. -/
theorem Records.snoc (h : b.Records events) {event : Event ε} (hconsistent : b'.Consistent)
    (hfits : event.Fits b.items) (hitems : b'.items = b.items ++ Event.written [event])
    (htotal : b'.total = b.total + 1) : b'.Records (events ++ [event]) := by
  refine ⟨hconsistent, ?_, ?_, ?_⟩
  · intro before other after hevents
    rcases List.eq_nil_or_concat' after with rfl | ⟨front, last, rfl⟩
    · obtain ⟨rfl, hlast⟩ := List.append_inj' hevents rfl
      obtain rfl := List.singleton_inj.mp hlast
      rw [← h.items_eq]
      exact hfits
    · rw [← List.cons_append, ← List.append_assoc] at hevents
      obtain ⟨hfront, -⟩ := List.append_inj' hevents rfl
      exact h.fits before other front hfront
  · rw [hitems, h.items_eq, Event.written_append]
  · rw [htotal, h.total_eq, List.length_append, List.length_singleton]

theorem Records.failed (h : b.Records events) {block : Block} (hfree : b.IsFree block)
    (cause : ε) : b.countValid.Records (events ++ [⟨block, .failed cause⟩]) := by
  apply h.snoc h.toConsistent.countValid
  · exact h.toConsistent.isFree_iff.mp hfree
  · simp [Event.written, countValid]
  · rfl

/-- One more offer, whose write, if there is one, succeeds. -/
theorem Records.offer (h : b.Records events) (block : Block) :
    ∃ fate : Fate ε, fate.isFailed = false ∧
      (b.offer block).Records (events ++ [⟨block, fate⟩]) ∧
      Event.attempts [⟨block, fate⟩] = (b.accepted [block]).map fun block => (block, .ok ()) := by
  have hfree : b.IsFree block ↔ block.id ∉ b.items.map Block.id ∧
      block.destination ∉ b.items.map Block.destination := h.toConsistent.isFree_iff
  by_cases hid : block.id ∈ b.items.map Block.id
  · have htaken : ¬ b.IsFree block := fun hfresh => (hfree.mp hfresh).1 hid
    refine ⟨.duplicate, rfl, ?_, ?_⟩
    · rw [offer_of_not_isFree htaken]
      exact h.snoc h.toConsistent.countValid hid (by simp [Event.written, countValid]) rfl
    · rw [accepted_cons_of_not_isFree htaken]
      rfl
  · by_cases hdestination : block.destination ∈ b.items.map Block.destination
    · have htaken : ¬ b.IsFree block := fun hfresh => (hfree.mp hfresh).2 hdestination
      refine ⟨.conflict, rfl, ?_, ?_⟩
      · rw [offer_of_not_isFree htaken]
        exact h.snoc h.toConsistent.countValid ⟨hid, hdestination⟩
          (by simp [Event.written, countValid]) rfl
      · rw [accepted_cons_of_not_isFree htaken]
        rfl
    · have hfresh : b.IsFree block := hfree.mpr ⟨hid, hdestination⟩
      refine ⟨.kept, rfl, ?_, ?_⟩
      · rw [offer_of_isFree hfresh]
        exact h.snoc (h.toConsistent.countValid.accept hfresh) ⟨hid, hdestination⟩ rfl rfl
      · rw [accepted_cons_of_isFree hfresh]
        rfl

end

/-- Blocks of which no write fails add one event each. -/
theorem Records.feed {b : Builder} {events : List (Event ε)} (h : b.Records events)
    (blocks : List Block) :
    ∃ told : List (Event ε), told.map Event.block = blocks ∧
      (∀ event ∈ told, event.fate.isFailed = false) ∧
      (b.feed blocks).Records (events ++ told) ∧
      Event.attempts told = (b.accepted blocks).map fun block => (block, .ok ()) := by
  induction blocks generalizing b events with
  | nil => exact ⟨[], rfl, by simp, by simpa using h, rfl⟩
  | cons block blocks ih =>
      obtain ⟨fate, hfate, hrecords, hattempt⟩ := h.offer block
      obtain ⟨told, hblocks, hfates, hrecords, hattempts⟩ := ih hrecords
      refine ⟨⟨block, fate⟩ :: told, by simp [hblocks], ?_, ?_, ?_⟩
      · intro event hevent
        rcases List.mem_cons.mp hevent with rfl | hevent
        · exact hfate
        · exact hfates event hevent
      · rw [List.append_assoc] at hrecords
        exact hrecords
      · have hsplit := accepted_append b [block] blocks
        rw [List.singleton_append] at hsplit
        rw [← List.singleton_append, Event.attempts_append, hattempt, hattempts, hsplit,
          List.map_append]
        rfl

/-- The events of one call are those of its document's valid blocks, in their order; where the call
fails, the refused block is the last of them. -/
def Tells (p : Processor) (document : Document) : Except ε Report → List (Event ε) → Prop
  | .ok _, told =>
    told.map Event.block = validOf p document ∧ ∀ event ∈ told, event.fate.isFailed = false
  | .error cause, told =>
    ∃ front block behind, told = front ++ [⟨block, .failed cause⟩] ∧
      validOf p document = front.map Event.block ++ block :: behind ∧
      ∀ event ∈ front, event.fate.isFailed = false

/-- The events of a run are those of its calls. -/
def TellsAll (p : Processor) : List Document → List (Except ε Report) → List (Event ε) → Prop
  | [], [], events => events = []
  | document :: documents, outcome :: outcomes, events =>
    ∃ told rest, events = told ++ rest ∧ Tells p document outcome told ∧
      TellsAll p documents outcomes rest
  | _, _, _ => False

/-- A call adds its events to the history. -/
theorem Records.addDocument {b : Builder} {events : List (Event ε)} (h : b.Records events)
    (sink : Sink (StateM σ) ε) (document : Document) (s : σ) :
    ∃ b' outcome s' told, b.addDocument sink document s = ((b', outcome), s') ∧
      b'.processor = b.processor ∧ b'.Records (events ++ told) ∧
      Tells b.processor document outcome told ∧ sink.Answers s (Event.attempts told) s' := by
  rcases addDocument_cases sink b document s with
    ⟨b', report, s', hrun, rfl, htakes⟩ |
    ⟨b', cause, s', before, block, after, hrun, hfails⟩
  · obtain ⟨told, hblocks, hfates, hrecords, hattempts⟩ := h.feed (validOf b.processor document)
    refine ⟨_, .ok report, s', told, hrun, processor_feed b _, hrecords, ⟨hblocks, hfates⟩, ?_⟩
    rw [hattempts]
    exact htakes.answers
  · obtain ⟨told, hblocks, hfates, hrecords, hattempts⟩ := h.feed before
    obtain ⟨mid, htakes, hrefused⟩ := hfails.refused
    obtain rfl := hfails.builder_eq
    have hrecords' := hrecords.failed hfails.isFree cause
    rw [List.append_assoc] at hrecords'
    refine ⟨_, .error cause, s', told ++ [⟨block, .failed cause⟩], hrun, processor_feed b _,
      hrecords', ⟨told, block, after, rfl, ?_, hfates⟩, ?_⟩
    · rw [hfails.blocks_eq, hblocks]
    · rw [Event.attempts_append, hattempts]
      exact htakes.answers.append ⟨s', hrefused, rfl⟩

/-- So do the calls of a run, whichever of them fail. -/
theorem Records.addDocuments {b : Builder} {events : List (Event ε)} (h : b.Records events)
    (sink : Sink (StateM σ) ε) (documents : List Document) (s : σ) :
    ∃ final outcomes s' told, Builder.addDocuments sink b documents s = ((final, outcomes), s') ∧
      final.Records (events ++ told) ∧ TellsAll b.processor documents outcomes told ∧
      sink.Answers s (Event.attempts told) s' := by
  induction documents generalizing b events s with
  | nil => exact ⟨b, [], s, [], rfl, by simpa using h, rfl, rfl⟩
  | cons document documents ih =>
      obtain ⟨next, outcome, mid, told, hcall, hprocessor, hrecords, htells, hanswers⟩ :=
        h.addDocument sink document s
      obtain ⟨final, outcomes, s', rest, hrun, hrecords, htellsRest, hanswersRest⟩ :=
        ih hrecords mid
      refine ⟨final, outcome :: outcomes, s', told ++ rest, ?_, ?_, ?_, ?_⟩
      · rw [Builder.addDocuments, bind_apply, hcall]
        simp only [bind_apply, hrun]
        rfl
      · rw [List.append_assoc] at hrecords
        exact hrecords
      · rw [hprocessor] at htellsRest
        exact ⟨told, rest, rfl, htells, htellsRest⟩
      · rw [Event.attempts_append]
        exact hanswers.append hanswersRest

theorem addDocuments_append (sink : Sink (StateM σ) ε) (b : Builder)
    (earlier later : List Document) (s : σ) :
    (addDocuments sink b (earlier ++ later) s).1.1 =
      (addDocuments sink (addDocuments sink b earlier s).1.1 later
        (addDocuments sink b earlier s).2).1.1 := by
  induction earlier generalizing b s with
  | nil => rfl
  | cons document earlier ih => exact ih _ _

/-- A refused block leaves its identity and its destination free. -/
theorem Records.isFree_of_getLast? {b : Builder} {events : List (Event ε)} (h : b.Records events)
    {block : Block} {cause : ε} (hlast : events.getLast? = some ⟨block, .failed cause⟩) :
    b.IsFree block := by
  obtain ⟨front, rfl⟩ := List.getLast?_eq_some_iff.mp hlast
  have hitems : b.items = Event.written front := by
    rw [h.items_eq, Event.written_append]
    exact List.append_nil _
  rw [h.toConsistent.isFree_iff, hitems]
  exact h.fits front _ [] rfl

/-- Whatever a sink does and whichever calls fail, a builder is a summary of its history: the items
are the blocks that the sink took, in their order, the identities and the destinations are those of
the items and no two items share one, items are only added at the end, and the total counts items,
duplicates, conflicts and refused blocks. A block that was just refused may be offered again. -/
theorem addDocuments_history {o : Options} {b : Builder} (hb : ofOptions o = .ok b)
    (sink : Sink (StateM σ) ε) (documents : List Document) (s : σ) :
    ∃ (final : Builder) (outcomes : List (Except ε Report)) (s' : σ) (events : List (Event ε)),
      addDocuments sink b documents s = ((final, outcomes), s') ∧
      TellsAll b.processor documents outcomes events ∧
      sink.Answers s (Event.attempts events) s' ∧
      final.Records events ∧
      final.total = final.items.length + events.countP (·.fate.isDuplicate) +
        events.countP (·.fate.isConflict) + events.countP (·.fate.isFailed) ∧
      (∀ earlier later, documents = earlier ++ later →
        (addDocuments sink b earlier s).1.1.items <+: final.items) ∧
      ∀ block cause line, events.getLast? = some ⟨block, .failed cause⟩ →
        final.objection? line block = none := by
  have hstart : b.Records ([] : List (Event ε)) := records_of_ofOptions hb
  obtain ⟨final, outcomes, s', events, hrun, hrecords, htells, hanswers⟩ :=
    hstart.addDocuments sink documents s
  rw [List.nil_append] at hrecords
  refine ⟨final, outcomes, s', events, hrun, htells, hanswers, hrecords, ?_, ?_, ?_⟩
  · rw [hrecords.total_eq, hrecords.items_eq]
    exact Event.length_eq_sum events
  · rintro earlier later rfl
    obtain ⟨mid, outcomes₁, s₁, events₁, hrun₁, hrecords₁, -⟩ :=
      hstart.addDocuments sink earlier s
    obtain ⟨last, outcomes₂, s₂, events₂, hrun₂, hrecords₂, -⟩ :=
      hrecords₁.addDocuments sink later s₁
    have hsame := addDocuments_append sink b earlier later s
    rw [hrun, hrun₁, hrun₂] at hsame
    obtain rfl : final = last := hsame
    rw [hrun₁, hrecords₂.items_eq, Event.written_append, ← hrecords₁.items_eq]
    exact List.prefix_append _ _
  · intro block cause line hlast
    exact objection?_eq_none_iff.mpr (hrecords.isFree_of_getLast? hlast)

/-- Refuses the block of the given number, counted from 0, and takes all others. -/
def refusing (k : Nat) : Sink (StateM Nat) Unit := fun _ n =>
  (if n = k then .error () else .ok (), n + 1)

/-- One block in two documents. -/
def offeredTwice : List Document :=
  [⟨['1'], "<!-- extract:a.html -->A<!-- endextract -->".toList⟩,
    ⟨['2'], "<!-- extract:a.html -->A<!-- endextract -->".toList⟩]

/-- The block is refused at first and an item in the end. -/
theorem addDocuments_history_offeredTwice :
    ∃ (final : Builder) (outcomes : List (Except Unit Report)) (events : List (Event Unit)),
      ofOptions {} = .ok (ofProcessor ⟨{}, Wrap.Pair.empty⟩) ∧
      addDocuments (refusing 0) (ofProcessor ⟨{}, Wrap.Pair.empty⟩) offeredTwice 0 =
        ((final, outcomes), 2) ∧
      final.Records events ∧ final.items.length = 1 ∧ final.total = 2 := by
  have hb : ofOptions {} = .ok (ofProcessor ⟨{}, Wrap.Pair.empty⟩) := rfl
  have hfacts :
      (addDocuments (refusing 0) (ofProcessor ⟨{}, Wrap.Pair.empty⟩) offeredTwice 0).2 = 2 ∧
      (addDocuments (refusing 0) (ofProcessor ⟨{}, Wrap.Pair.empty⟩) offeredTwice 0).1.1.items.length
        = 1 ∧
      (addDocuments (refusing 0) (ofProcessor ⟨{}, Wrap.Pair.empty⟩) offeredTwice 0).1.1.total
        = 2 := by
    decide +kernel
  obtain ⟨final, outcomes, n, events, hrun, -, -, hrecords, -⟩ :=
    addDocuments_history hb (refusing 0) offeredTwice 0
  rw [hrun] at hfacts
  obtain ⟨rfl, hitems, htotal⟩ := hfacts
  exact ⟨final, outcomes, events, hb, hrun, hrecords, hitems, htotal⟩

end Builder

end Partials
