import Partials.Directives.Attributes
import Partials.Proofs.Directives.Entries
import Partials.Proofs.Json.Quoted
import Partials.Proofs.Text.Joining

/-!
# What attributes keep

The attributes of a block are one line of text: they hold no control character. They end in the two
attributes of the wrap, from which its sides can be read back except that a double quote cannot be
told from a single one (`wrap_of_attributes_eq`).
-/

namespace Partials.Directives

/-- The character as it is after double quotes were made single. -/
def softened (c : Char) : Char := if c = '"' then '\'' else c

theorem stripQuotes_quote (t : Text) : stripQuotes (Json.quote t) = Json.escape t := by
  simp [stripQuotes, Json.quote, isQuote]

theorem singleQuotes_cons {c : Char} {t : Text} (hc : c ≠ '"') (ht : t.head? ≠ some '"') :
    singleQuotes (c :: t) = c :: singleQuotes t := by
  rw [singleQuotes, if_neg hc]
  rintro rest rfl rfl
  exact ht rfl

theorem singleQuotes_append {s t : Text} (hs : '"' ∉ s) (ht : t.head? ≠ some '"') :
    singleQuotes (s ++ t) = s ++ singleQuotes t := by
  induction s with
  | nil => rfl
  | cons c cs ih =>
      rw [List.mem_cons, not_or] at hs
      have hhead : (cs ++ t).head? ≠ some '"' := by
        cases cs with
        | nil => exact ht
        | cons d ds =>
            intro heq
            exact hs.2 (Option.some.inj heq ▸ List.mem_cons_self)
      rw [List.cons_append, singleQuotes_cons (Ne.symm hs.1) hhead, ih hs.2]
      rfl

/-- Making the quotes of an escaped text single is escaping the text with single quotes. -/
theorem singleQuotes_escape (t : Text) :
    singleQuotes (Json.escape t) = Json.escape (t.map softened) := by
  induction t with
  | nil => rfl
  | cons c cs ih =>
      rw [List.map_cons, Json.escape_cons, Json.escape_cons, ← ih]
      by_cases hc : c = '"'
      · subst hc
        rfl
      · rw [softened, if_neg hc,
          singleQuotes_append (Json.quote_not_mem_escapeChar hc) (Json.head?_escape_ne_quote cs)]

theorem attributeValue_text (t : Text) :
    attributeValue (.text t) = Json.escape (t.map softened) := by
  rw [attributeValue, Record.compact, stripQuotes_quote, singleQuotes_escape]

theorem quote_not_mem_singleQuotes (t : Text) : '"' ∉ singleQuotes t := by
  fun_induction singleQuotes t with
  | case1 => nofun
  | case2 cs ih => simpa using ih
  | case3 c cs _ ih =>
      rw [List.mem_cons, not_or]
      refine ⟨?_, ih⟩
      split
      · decide
      · next hc => exact Ne.symm hc

theorem mem_of_mem_stripQuotes {t : Text} {c : Char} (h : c ∈ stripQuotes t) : c ∈ t := by
  unfold stripQuotes at h
  extract_lets u at h
  have hu : ∀ d ∈ u, d ∈ t := by
    intro d hd
    cases t with
    | nil => exact hd
    | cons e es =>
        dsimp only [u] at hd
        split at hd
        · exact List.mem_cons_of_mem _ hd
        · exact hd
  split at h
  · split at h
    · exact hu c (List.dropLast_subset u h)
    · exact hu c h
  · exact hu c h

theorem controlFree_singleQuotes {t : Text} (ht : t.ControlFree) :
    (singleQuotes t).ControlFree := by
  fun_induction singleQuotes t with
  | case1 => nofun
  | case2 cs ih =>
      refine .cons (by decide) (ih fun c hc => ht c ?_)
      exact List.mem_cons_of_mem _ (List.mem_cons_of_mem _ hc)
  | case3 c cs _ ih =>
      refine .cons ?_ (ih fun d hd => ht d (List.mem_cons_of_mem _ hd))
      split
      · decide
      · exact ht c List.mem_cons_self

theorem controlFree_attributeValue {r : Record} (hr : r.compact.ControlFree) :
    (attributeValue r).ControlFree :=
  controlFree_singleQuotes fun c hc => hr c (mem_of_mem_stripQuotes hc)

theorem controlFree_compactItems (items : List Text) :
    (Record.compactItems (items.map .text)).ControlFree := by
  induction items with
  | nil => nofun
  | cons item items ih =>
      cases items with
      | nil => exact Json.controlFree_quote item
      | cons next rest => exact .append (Json.controlFree_quote item) (.cons (by decide) ih)

theorem controlFree_toRecord (v : Value) : v.toRecord.compact.ControlFree := by
  cases v with
  | text t => exact Json.controlFree_quote t
  | list items =>
      exact .cons (by decide) (.append (controlFree_compactItems items) (.cons (by decide) nofun))
  | wrap pair =>
      have hside : ∀ key side : Text,
          (Json.quote key ++ ':' :: (Record.text side).compact).ControlFree := fun key side =>
        .append (Json.controlFree_quote key) (.cons (by decide) (Json.controlFree_quote side))
      have hsides := (hside "before".toList pair.before).append
        (.cons (c := ',') (by decide) (hside "after".toList pair.after))
      exact .cons (by decide) (.append hsides (.cons (by decide) nofun))

theorem controlFree_of_isKey {key : Text} (h : IsKey key) : key.ControlFree := by
  intro c hc
  have hcode := code_of_isKeyChar (h.2 c hc)
  omega

theorem controlFree_attributeText {key : Text} {r : Record} (hkey : key.ControlFree)
    (hr : r.compact.ControlFree) : (attributeText key r).ControlFree := by
  have hdata : Text.ControlFree "data-".toList := Text.controlFree_of_all rfl
  have hopen : Text.ControlFree ['=', '"'] := Text.controlFree_of_all rfl
  have hclose : Text.ControlFree ['"'] := Text.controlFree_of_all rfl
  exact (((hdata.append hkey).append hopen).append (controlFree_attributeValue hr)).append hclose

theorem eq_attributeText_of_mem {key piece : Text} {value : Value}
    (h : piece ∈ entryAttributes (key, value)) : piece = attributeText key value.toRecord := by
  cases value with
  | text t => exact List.mem_singleton.mp h
  | list items => exact List.mem_singleton.mp h
  | wrap pair =>
      simp only [entryAttributes] at h
      split at h
      · cases h
      · exact List.mem_singleton.mp h

/-- Attributes whose keys hold no control character hold none at all. -/
theorem controlFree_attributes {d : Directives} (hkeys : ∀ key ∈ d.keys, key.ControlFree) :
    d.attributes.ControlFree := by
  intro c hc
  rcases Text.mem_or_mem_of_mem_join hc with hc | ⟨piece, hpiece, hc⟩
  · obtain rfl := List.mem_singleton.mp hc
    decide
  · suffices h : piece.ControlFree from h c hc
    rcases List.mem_append.mp hpiece with hpiece | hpiece
    · obtain ⟨⟨key, value⟩, hentry, hpiece⟩ := List.mem_flatMap.mp hpiece
      rw [eq_attributeText_of_mem hpiece]
      exact controlFree_attributeText (hkeys key (List.mem_map_of_mem hentry))
        (controlFree_toRecord value)
    · split at hpiece
      · next pair _ =>
        rcases List.mem_cons.mp hpiece with rfl | hpiece
        · exact controlFree_attributeText (Text.controlFree_of_all rfl)
            (Json.controlFree_quote pair.before)
        · obtain rfl := List.mem_singleton.mp hpiece
          exact controlFree_attributeText (Text.controlFree_of_all rfl)
            (Json.controlFree_quote pair.after)
      · cases hpiece

/-- No value holds the quote that ends it, so the last attribute of a text can be read back. -/
theorem attributeValue_eq_of_append {front front' key : Text} {r r' : Record}
    (h : front ++ attributeText key r = front' ++ attributeText key r') :
    front = front' ∧ attributeValue r = attributeValue r' := by
  have hcut : ∀ (front : Text) (r : Record), front ++ attributeText key r =
      (front ++ ("data-".toList ++ key ++ ['='])) ++ '"' :: attributeValue r ++ ['"'] := by
    intro front r
    unfold attributeText
    generalize "data-".toList = data
    simp only [List.append_assoc, List.cons_append, List.nil_append]
  rw [hcut, hcut] at h
  have hinit := List.append_cancel_right h
  obtain ⟨hfront, hvalue⟩ := Text.append_cons_inj_of_last (c := '"')
    (quote_not_mem_singleQuotes _) (quote_not_mem_singleQuotes _) hinit
  exact ⟨List.append_cancel_right hfront, hvalue⟩

/-- The two attributes of the wrap come last. -/
theorem attributes_insert_wrap (d : Directives) (pair : Wrap.Pair) :
    ∃ front, (d.insert wrapKey (.wrap pair)).attributes =
      front ++ attributeText wrapBeforeKey (.text pair.before) ++ [' '] ++
        attributeText wrapAfterKey (.text pair.after) := by
  have hget : (d.insert wrapKey (.wrap pair)).get? wrapKey = some (.wrap pair) := by
    rw [get?_insert, if_pos rfl]
  have hwraps : Text.join [' '] (wrapAttributes pair) =
      attributeText wrapBeforeKey (.text pair.before) ++ [' '] ++
        attributeText wrapAfterKey (.text pair.after) := rfl
  rw [attributes, hget]
  dsimp only
  generalize (d.insert wrapKey (.wrap pair)).entries.flatMap entryAttributes = entries
  by_cases hentries : entries = []
  · refine ⟨[], ?_⟩
    rw [hentries, List.nil_append, hwraps, List.nil_append]
  · refine ⟨Text.join [' '] entries ++ [' '], ?_⟩
    have hne : wrapAttributes pair ≠ [] := List.cons_ne_nil _ _
    rw [Text.join_append hentries hne, hwraps]
    simp only [List.append_assoc]

/-- Equal attributes stand for wraps that differ in nothing but their quotes. -/
theorem wrap_of_attributes_eq {d d' : Directives} {pair pair' : Wrap.Pair}
    (h : (d.insert wrapKey (.wrap pair)).attributes =
      (d'.insert wrapKey (.wrap pair')).attributes) :
    pair.before.map softened = pair'.before.map softened ∧
      pair.after.map softened = pair'.after.map softened := by
  obtain ⟨front, hfront⟩ := attributes_insert_wrap d pair
  obtain ⟨front', hfront'⟩ := attributes_insert_wrap d' pair'
  rw [hfront, hfront'] at h
  obtain ⟨hinit, hafter⟩ := attributeValue_eq_of_append h
  obtain ⟨-, hbefore⟩ := attributeValue_eq_of_append (List.append_cancel_right hinit)
  rw [attributeValue_text, attributeValue_text] at hbefore hafter
  exact ⟨Json.escape_injective hbefore, Json.escape_injective hafter⟩

end Partials.Directives
