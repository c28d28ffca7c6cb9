import Partials.Proofs.Inventory.Feeding

/-!
# Runs that succeed

Where every document of a run succeeds, the items it adds are the blocks that the sink took, in
their order.
-/

namespace Partials

variable {σ ε : Type}

theorem bind_apply {α β : Type} (x : StateM σ α) (f : α → StateM σ β) (s : σ) :
    (x >>= f) s = f (x s).1 (x s).2 := rfl

/-- The sink takes the blocks one after the other, from one state to another. -/
def Sink.Takes (sink : Sink (StateM σ) ε) : σ → List Block → σ → Prop
  | s, [], s' => s' = s
  | s, block :: blocks, s' => ∃ mid, sink block s = (.ok (), mid) ∧ Takes sink mid blocks s'

theorem Sink.Takes.append {sink : Sink (StateM σ) ε} {s mid s' : σ} {first rest : List Block}
    (hfirst : sink.Takes s first mid) (hrest : sink.Takes mid rest s') :
    sink.Takes s (first ++ rest) s' := by
  induction first generalizing s with
  | nil =>
      obtain rfl := hfirst
      exact hrest
  | cons block first ih =>
      obtain ⟨next, hblock, hfirst⟩ := hfirst
      exact ⟨next, hblock, ih hfirst⟩

namespace Builder

theorem exists_reports_of_all_isOk {outcomes : List (Except ε Report)}
    (h : outcomes.all Except.isOk = true) : ∃ reports, outcomes = List.map Except.ok reports := by
  induction outcomes with
  | nil => exact ⟨[], rfl⟩
  | cons outcome outcomes ih =>
      rw [List.all_cons, Bool.and_eq_true] at h
      obtain ⟨reports, rfl⟩ := ih h.2
      cases outcome with
      | error e => exact absurd h.1 Bool.false_ne_true
      | ok report => exact ⟨report :: reports, rfl⟩

theorem takes_of_addSpans {sink : Sink (StateM σ) ε} {origin : Text} {b b' : Builder}
    {r r' : Report} {spans : List Span} {s s' : σ}
    (h : addSpans sink origin b r spans s = ((b', .ok r'), s')) :
    ∃ written, b'.items = b.items ++ written ∧ sink.Takes s written s' := by
  induction spans generalizing b r s with
  | nil =>
      obtain ⟨houtcome, hstate⟩ := Prod.mk.inj h
      obtain ⟨rfl, -⟩ := Prod.mk.inj houtcome
      exact ⟨[], (List.append_nil _).symm, hstate.symm⟩
  | cons span spans ih =>
      cases hspan : Block.ofSpan b.processor span origin with
      | error issue =>
          rw [addSpans_of_error hspan] at h
          exact ih h
      | ok block =>
          cases hobjection : b.objection? span.startLine block with
          | some issue =>
              rw [addSpans_of_objection hspan hobjection] at h
              obtain ⟨written, hitems, htakes⟩ := ih h
              exact ⟨written, hitems, htakes⟩
          | none =>
              rw [addSpans_of_write hspan hobjection, bind_apply] at h
              cases hwrite : sink block s with
              | mk outcome mid =>
                  rw [hwrite] at h
                  cases outcome with
                  | error e => cases (Prod.mk.inj (Prod.mk.inj h).1).2
                  | ok _ =>
                      obtain ⟨written, hitems, htakes⟩ := ih h
                      refine ⟨block :: written, ?_, mid, hwrite, htakes⟩
                      rw [hitems]
                      simp [accept, countValid]

theorem takes_of_addDocuments {sink : Sink (StateM σ) ε} {b b' : Builder}
    {documents : List Document} {reports : List Report} {s s' : σ}
    (h : addDocuments sink b documents s = ((b', reports.map Except.ok), s')) :
    ∃ written, b'.items = b.items ++ written ∧ sink.Takes s written s' := by
  induction documents generalizing b reports s with
  | nil =>
      obtain ⟨houtcome, hstate⟩ := Prod.mk.inj h
      obtain ⟨rfl, -⟩ := Prod.mk.inj houtcome
      exact ⟨[], (List.append_nil _).symm, hstate.symm⟩
  | cons document documents ih =>
      cases hdocument : b.addDocument sink document s with
      | mk fed mid =>
          obtain ⟨next, outcome⟩ := fed
          cases hrest : addDocuments sink next documents mid with
          | mk fed last =>
              obtain ⟨final, outcomes⟩ := fed
              rw [addDocuments, bind_apply, hdocument] at h
              simp only [bind_apply, hrest] at h
              obtain ⟨hfed, rfl⟩ := Prod.mk.inj h
              obtain ⟨rfl, houtcomes⟩ := Prod.mk.inj hfed
              cases reports with
              | nil => cases houtcomes
              | cons report reports =>
                  obtain ⟨rfl, rfl⟩ := List.cons.inj houtcomes
                  obtain ⟨first, hfirst, hmid⟩ := takes_of_addSpans hdocument
                  obtain ⟨second, hsecond, hlast⟩ := ih hrest
                  exact ⟨first ++ second, by rw [hsecond, hfirst, List.append_assoc],
                    hmid.append hlast⟩

end Builder

end Partials
