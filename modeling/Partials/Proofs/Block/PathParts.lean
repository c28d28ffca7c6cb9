import Partials.Proofs.Block.Destination

/-!
# The parts of a written destination

A block keeps the name of its file and the directories in front of it. Put together the two are the
path that the annotation has, unless that path ends in a slash: then the name is the one in front of
the slashes at the end, and the directories are the whole path (`pathParts_of_ofSpan`).
-/

namespace Partials

namespace Path

/-- A path is a directory, the name behind it, and the slashes at its end. -/
theorem exists_eq_append_name (p : Path) :
    ∃ behind : Text, (∀ c ∈ behind, c = '/') ∧
      p.text = directoryPart p.trimmed ++ lastSegment p.trimmed ++ behind := by
  obtain ⟨behind, hbehind, htext⟩ := Text.exists_dropEndWhile_append (· == '/') p.text
  refine ⟨behind, fun c hc => beq_iff_eq.mp (hbehind c hc), ?_⟩
  rw [directoryPart_append_lastSegment]
  exact htext

theorem directoryPart_of_getLast? {t : Text} (h : t.getLast? = some '/') : directoryPart t = t := by
  have hparts := directoryPart_append_lastSegment t
  rwa [lastSegment_eq_nil_iff.mpr (.inr h), List.append_nil] at hparts

theorem getLast?_append_slashes {behind : Text} (hbehind : ∀ c ∈ behind, c = '/')
    (hne : behind ≠ []) (front : Text) : (front ++ behind).getLast? = some '/' := by
  rw [List.getLast?_append_of_ne_nil _ hne, List.getLast?_eq_some_getLast hne]
  exact congrArg some (hbehind _ (List.getLast_mem hne))

end Path

namespace Block

/-- How a path is made up of the directories and the name that a block keeps of it. -/
structure MadeOf (written directories name : Text) : Prop where
  name_ne_nil : name ≠ []
  name_no_slash : '/' ∉ name
  directories_end : directories = [] ∨ directories.getLast? = some '/'
  /-- The name stands at the end of the path, with slashes behind it at most. -/
  split : ∃ front behind, written = front ++ name ++ behind ∧ (∀ c ∈ behind, c = '/') ∧
    (front = [] ∨ front.getLast? = some '/') ∧
    directories = if behind = [] then front else written

/-- The parts make up the path again exactly if it does not end in a slash. -/
theorem MadeOf.append_eq_iff {written directories name : Text}
    (h : MadeOf written directories name) :
    directories ++ name = written ↔ written.getLast? ≠ some '/' := by
  obtain ⟨front, behind, hwritten, hbehind, -, hdirectories⟩ := h.split
  by_cases hempty : behind = []
  · rw [hempty, List.append_nil] at hwritten
    rw [if_pos hempty] at hdirectories
    apply iff_of_true (hdirectories ▸ hwritten.symm)
    rw [hwritten, List.getLast?_append_of_ne_nil _ h.name_ne_nil]
    intro hlast
    exact h.name_no_slash (List.mem_of_getLast? hlast)
  · rw [if_neg hempty] at hdirectories
    apply iff_of_false
    · rw [hdirectories]
      intro hsame
      exact h.name_ne_nil (List.append_right_eq_self.mp hsame)
    · rw [hwritten, not_not]
      exact Path.getLast?_append_slashes hbehind hempty _

theorem Target.filename_eq {written : Text} (hname : lastPart true written ≠ []) (flatten : Bool) :
    (Target.of flatten written).filename = lastPart true written := by
  change (Target.of true written).destination = _
  rw [destination_flat, if_neg hname]

/-- What leads to a destination that stays inside is made up of the parts that are kept of it. -/
theorem Target.madeOf {flatten : Bool} {written : Text} (hne : written ≠ [])
    (hinside : (Path.ofText (Target.of flatten written).destination).isContained = true) :
    MadeOf (Path.slashes written) (Target.of flatten written).path
      (Target.of flatten written).filename := by
  have hname := lastPart_true_ne_nil hne hinside
  obtain ⟨behind, hbehind, htext⟩ := Path.exists_eq_append_name (Path.ofText written)
  rw [filename_eq hname]
  refine ⟨hname, Path.slash_not_mem_lastSegment _, Path.directoryPart_eq_nil_or _,
    _, behind, htext, hbehind, Path.directoryPart_eq_nil_or _, ?_⟩
  change Path.directoryPart (Path.ofText written).text = _
  by_cases hempty : behind = []
  · rw [if_pos hempty]
    rw [hempty, List.append_nil, Path.directoryPart_append_lastSegment] at htext
    rw [htext]
  · -- The last slash is the last character then, so all of the path stands up to it.
    rw [if_neg hempty]
    apply Path.directoryPart_of_getLast?
    rw [htext]
    exact Path.getLast?_append_slashes hbehind hempty _

/-- A valid block keeps of the path that its annotation has, slashes written for backslashes, a name
and directories. The destination is the name with flattening and the whole path without. The two
parts make up the path again exactly if it does not end in a slash; if it does, the directories are
the whole path, and the name in front of the slashes at its end is in both. -/
theorem pathParts_of_ofSpan {p : Processor} {span : Span} {origin : Text} {block : Block}
    (h : ofSpan p span origin = .ok block) :
    ∃ written, (Directives.parse span.label).destination? = some written ∧
      MadeOf (Path.slashes written) block.path block.filename ∧
      block.destination =
        (if p.options.flatten then block.filename else Path.slashes written) ∧
      (block.path ++ block.filename = Path.slashes written ↔
        (Path.slashes written).getLast? ≠ some '/') := by
  obtain ⟨written, wrap, hwritten, hinside, -, rfl⟩ := ofSpan_eq_ok_iff.mp h
  have hmade := Target.madeOf (destination?_ne_nil hwritten) hinside
  exact ⟨written, hwritten, hmade, rfl, hmade.append_eq_iff⟩

/-- A name behind two backslashes and in front of two slashes. -/
def slashedSpan : Span := ⟨"extract:a\\\\b//".toList, [], 1, 1, true⟩

theorem pathParts_of_ofSpan_slashed :
    ∃ block, ofSpan flat slashedSpan [] = .ok block ∧ block.filename = ['b'] ∧
      block.path = "a//b//".toList ∧ block.destination = ['b'] ∧
      MadeOf "a//b//".toList block.path block.filename ∧
      block.path ++ block.filename ≠ "a//b//".toList := by
  have hwritten : (Directives.parse slashedSpan.label).destination? = some "a\\\\b//".toList := by
    decide +kernel
  obtain ⟨block, hblock, hfilename, hpath⟩ :
      ∃ block, ofSpan flat slashedSpan [] = .ok block ∧ block.filename = ['b'] ∧
        block.path = "a//b//".toList := by
    refine ⟨_, ofSpan_eq_ok_iff.mpr ⟨_, Wrap.Pair.empty, hwritten, ?_, ?_, rfl⟩, ?_, ?_⟩
    · decide
    · decide +kernel
    · decide
    · decide
  obtain ⟨written, hsame, hmade, hdestination, hparts⟩ := pathParts_of_ofSpan hblock
  rw [hwritten] at hsame
  obtain rfl := Option.some.inj hsame
  have hslashes : Path.slashes "a\\\\b//".toList = "a//b//".toList := by decide
  rw [hslashes] at hmade hparts
  refine ⟨block, hblock, hfilename, hpath, hdestination.trans hfilename, hmade, ?_⟩
  rw [ne_eq, hparts]
  decide

/-- The name of a destination that ends in a slash is in both parts. -/
theorem pathParts_of_trailingSlash :
    ∃ block,
      ofSpan ⟨{}, Wrap.Pair.empty⟩ ⟨"extract:box/".toList, ['x'], 1, 1, true⟩ [] = .ok block ∧
      block.path ++ block.filename = "box/box".toList ∧ block.destination = "box/".toList := by
  refine ⟨_, ofSpan_eq_ok_iff.mpr ⟨"box/".toList, Wrap.Pair.empty, ?_, ?_, rfl, rfl⟩, ?_, rfl⟩
  · decide
  · decide
  · decide

end Block

end Partials
