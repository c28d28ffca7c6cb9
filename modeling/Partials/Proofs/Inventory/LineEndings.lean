import Partials.Proofs.Inventory.Feeding
import Partials.Proofs.Text.LineEndings

/-!
# Line endings and the inventory

A page may end its lines with a line feed, with a carriage return and a line feed, or now with one
and now with the other. Nothing that is read off the page tells which: neither the scan with its
line numbers nor what a run of documents leaves in the builder, in the reports and in the sink.
-/

namespace Partials

/-- The second document is the first, which has no carriage returns, with some of its line feeds
written with one. -/
structure Document.ReturnsAdded (document document' : Document) : Prop where
  origin_eq : document'.origin = document.origin
  plain : '\r' ∉ document.text
  text_returns : document.text.ReturnsAdded document'.text

theorem Scan.ofText_of_returnsAdded {t t' : Text} (hplain : '\r' ∉ t) (h : t.ReturnsAdded t')
    (policy : Policy) : Scan.ofText policy t' = Scan.ofText policy t := by
  unfold Scan.ofText
  rw [Text.normalizeLineEndings_of_returnsAdded h hplain,
    Text.normalizeLineEndings_of_not_mem hplain]

namespace Builder

variable {m : Type → Type} [Monad m] {ε : Type}

theorem addDocument_of_returnsAdded {document document' : Document}
    (h : document.ReturnsAdded document') (b : Builder) (sink : Sink m ε) :
    b.addDocument sink document' = b.addDocument sink document := by
  simp only [addDocument, openReport, Scan.ofText_of_returnsAdded h.plain h.text_returns,
    h.origin_eq]

theorem addDocuments_of_returnsAdded {documents documents' : List Document}
    (h : List.Forall₂ Document.ReturnsAdded documents documents') (sink : Sink m ε)
    (b : Builder) : addDocuments sink b documents' = addDocuments sink b documents := by
  induction h generalizing b with
  | nil => rfl
  | cons hdocument _ ih =>
      rw [addDocuments, addDocuments, addDocument_of_returnsAdded hdocument]
      apply bind_congr
      rintro ⟨fed, outcome⟩
      exact congrArg (· >>= _) (ih fed)

/-- Pages may write any of their line feeds with a carriage return: under either policy a page
keeps its scan, and a sequence of pages keeps its builder, its reports and what it does to the
sink. -/
theorem lineEndings_ignored (sink : Sink m ε) (b : Builder) :
    (∀ (policy : Policy) (t t' : Text), '\r' ∉ t → t.ReturnsAdded t' →
      Scan.ofText policy t' = Scan.ofText policy t) ∧
    ∀ documents documents' : List Document,
      List.Forall₂ Document.ReturnsAdded documents documents' →
        addDocuments sink b documents' = addDocuments sink b documents := by
  constructor
  · intro policy t t' hplain h
    exact Scan.ofText_of_returnsAdded hplain h policy
  · intro documents documents' h
    exact addDocuments_of_returnsAdded h sink b

/-- Line feeds before and in an opening marker, in a content, in a closing marker and at the end. -/
def spread : Document :=
  ⟨[], ("\n<!-- extract:a\nid:x -->A\n\nA<!--\nendextract -->\n" ++
    "<!-- extract:b -->B\n").toList⟩

/-- `spread` with a carriage return before every other line feed. -/
def spreadReturns : Document :=
  ⟨[], ("\r\n<!-- extract:a\nid:x -->A\r\n\nA<!--\r\nendextract -->\n" ++
    "<!-- extract:b -->B\r\n").toList⟩

theorem lineEndings_ignored_spread :
    '\r' ∉ spread.text ∧ spread.text.ReturnsAdded spreadReturns.text ∧
      Scan.ofText .closeAtEnd spreadReturns.text =
        ⟨[⟨"extract:a\nid:x".toList, "A\n\nA".toList, 2, 5, true⟩,
          ⟨"extract:b".toList, "B\n".toList, 7, 7, false⟩], some 7⟩ ∧
      List.Forall₂ Document.ReturnsAdded [spread, spread] [spread, spreadReturns] ∧
      addDocuments (m := Id) (Sink.none : Sink Id Unit) (ofProcessor ⟨{}, Wrap.Pair.empty⟩)
          [spread, spreadReturns] =
        addDocuments (m := Id) (Sink.none : Sink Id Unit) (ofProcessor ⟨{}, Wrap.Pair.empty⟩)
          [spread, spread] := by
  have hplain : '\r' ∉ spread.text := by decide
  have hreturns : spread.text.ReturnsAdded spreadReturns.text :=
    (Text.returnsAdded_iff hplain).mpr (by decide +kernel)
  have hsame : spread.text.ReturnsAdded spread.text :=
    (Text.returnsAdded_iff hplain).mpr (by decide +kernel)
  have hdocuments : List.Forall₂ Document.ReturnsAdded [spread, spread] [spread, spreadReturns] :=
    .cons ⟨rfl, hplain, hsame⟩ (.cons ⟨rfl, hplain, hreturns⟩ .nil)
  obtain ⟨hscan, hfeed⟩ := lineEndings_ignored (m := Id) (Sink.none : Sink Id Unit)
    (ofProcessor ⟨{}, Wrap.Pair.empty⟩)
  have hspread : Scan.ofText .closeAtEnd spread.text =
      ⟨[⟨"extract:a\nid:x".toList, "A\n\nA".toList, 2, 5, true⟩,
        ⟨"extract:b".toList, "B\n".toList, 7, 7, false⟩], some 7⟩ := by
    decide +kernel
  refine ⟨hplain, hreturns, ?_, hdocuments, hfeed _ _ hdocuments⟩
  exact (hscan .closeAtEnd _ _ hplain hreturns).trans hspread

end Builder

end Partials
