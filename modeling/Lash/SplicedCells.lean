import Lash.TaggedLines
import Mathlib.Data.List.TakeWhile

/-!
# Reading a cell that was put together again

A cell that is rendered from the prose and the source of another one reads as that one, but
for a carriage return at the end of its source, which now seems part of a line terminator.
-/

namespace SplicedCells

open TurnProtocols LashlangCells TaggedLines List

variable (text : List Char)

def Blank : Prop := ∀ c ∈ text, isWhitespace c = true

theorem dropWhile_blank {text : List Char} (h : Blank text) : text.dropWhile isWhitespace = [] :=
  List.dropWhile_eq_nil_iff.mpr h

theorem trimEndChars_append {text rest : List Char} (h : Blank rest) :
    trimEndChars (text ++ rest) = trimEndChars text := by
  have hreverse : Blank rest.reverse := fun c hmem => h c (mem_reverse.mp hmem)
  unfold trimEndChars
  rw [reverse_append, dropWhile_append, dropWhile_blank hreverse]
  rfl

theorem trimChars_append {text rest : List Char} (h : Blank rest) :
    trimChars (text ++ rest) = trimChars text := by
  unfold trimChars
  rw [dropWhile_append]
  split
  next hempty =>
    rw [dropWhile_blank h, isEmpty_iff.mp hempty]
  · exact trimEndChars_append h

theorem exists_trimmed : ∃ rest, text = trimEndChars text ++ rest ∧ Blank rest := by
  refine ⟨(text.reverse.takeWhile isWhitespace).reverse, ?_, fun c hmem => ?_⟩
  · have hsplit := @List.takeWhile_append_dropWhile _ isWhitespace text.reverse
    rw [trimEndChars, ← reverse_append, hsplit, reverse_reverse]
  · exact mem_takeWhile_imp (mem_reverse.mp hmem)

theorem trimEndChars_idem : trimEndChars (trimEndChars text) = trimEndChars text := by
  obtain ⟨rest, htext, hblank⟩ := exists_trimmed text
  conv_rhs => rw [htext]
  exact (trimEndChars_append hblank).symm

/-! ## Prose without the white space at its end -/

theorem mem_of_complete_mem {lines : List (List Char)} {line : List Char}
    (h : complete line ∈ logicalLines (rawLines lines)) (hplain : Plain lines) :
    line ∈ lines := by
  have hlines := logicalLines_rawLines hplain []
  rw [append_nil] at hlines
  rw [hlines] at h
  rcases mem_append.mp h with h | h
  · obtain ⟨other, hmem, heq⟩ := mem_map.mp h
    cases heq
    exact hmem
  · cases mem_singleton.mp h

theorem noStart_trimmed {prose before : List (List Char)} {last : List Char}
    (hplain : Plain prose) (hnone : ∀ line ∈ prose, ¬ IsStart line) (hbefore : Plain before)
    (hlast : '\n' ∉ last) (heq : trimEndChars (rawLines prose) = rawLines before ++ last) :
    ∀ line ∈ before ++ [last], ¬ IsStart line := by
  obtain ⟨rest, htext, hblank⟩ := exists_trimmed (rawLines prose)
  rw [heq] at htext
  intro line hmem
  rcases mem_append.mp hmem with hmem | hmem
  · refine hnone line (mem_of_complete_mem ?_ hplain)
    rw [htext, append_assoc, logicalLines_rawLines hbefore]
    exact mem_append_left _ (mem_map_of_mem hmem)
  · obtain rfl := mem_singleton.mp hmem
    obtain ⟨restLines, restLast, hrestLines, hrestLast, hrest⟩ := exists_lines rest
    cases restLines with
    | nil =>
      have hwhole : '\n' ∉ line ++ restLast := fun h =>
        (mem_append.mp h).elim hlast hrestLast
      have hsame : logicalLines (rawLines prose) =
          before.map complete ++ [⟨line ++ restLast, false⟩] := by
        rw [htext, hrest, rawLines_nil, nil_append, append_assoc,
          logicalLines_rawLines hbefore, logicalLines_single hwhole]
      have hprose := logicalLines_rawLines hplain []
      rw [append_nil, hsame, logicalLines_single (not_mem_nil)] at hprose
      have hempty := (append_inj' hprose rfl).2
      simp only [cons.injEq, LogicalLine.mk.injEq, append_eq_nil_iff, and_true]
        at hempty
      rw [hempty.1]
      decide
    | cons first others =>
      have hfirst : Blank first := fun c hc => hblank c (by
        rw [hrest, rawLines_cons]
        simp [hc])
      have hplainFirst : '\n' ∉ line ++ first := fun h =>
        (mem_append.mp h).elim hlast (hrestLines first mem_cons_self)
      have hin : line ++ first ∈ prose := by
        refine mem_of_complete_mem ?_ hplain
        have hsplit : rawLines before ++ line ++ rest =
            rawLines before ++ ((line ++ first) ++ '\n' :: (rawLines others ++ restLast)) := by
          simp [hrest]
        rw [htext, hsplit, logicalLines_rawLines hbefore, logicalLines_line hplainFirst]
        exact mem_append_right _ mem_cons_self
      have hstart := hnone _ hin
      rw [IsStart, trimChars_append hfirst] at hstart
      exact hstart

/-! ## Source and its terminator -/

/-- A line feed is taken off, and a carriage return before it. -/
theorem strip_line :
    strip (text ++ ['\n']) = if text.getLast? = some '\r' then text.dropLast else text := by
  have hpos : ¬ (text ++ ['\n']).length ≤ 0 := by simp
  have hcrlf : ['\r', '\n'].isSuffixOf (text ++ ['\n']) = true ↔ text.getLast? = some '\r' := by
    rw [isSuffixOf_iff_suffix]
    constructor
    · rintro ⟨before, hbefore⟩
      have hsplit : before ++ ['\r'] ++ ['\n'] = text ++ ['\n'] := by simpa using hbefore
      rw [← append_cancel_right hsplit]
      exact getLast?_concat
    · intro h
      obtain ⟨before, hbefore⟩ := getLast?_eq_some_iff.mp h
      exact ⟨before, by rw [hbefore]; simp⟩
  unfold strip sourceBodyEnd
  rw [if_neg hpos, take_length]
  split
  next h =>
    have hlast := hcrlf.mp h
    obtain ⟨before, hbefore⟩ := getLast?_eq_some_iff.mp hlast
    rw [if_pos hlast, hbefore]
    simp
  next h =>
    rw [if_neg fun hlast => h (hcrlf.mpr hlast)]
    simp

theorem strip_line_eq_iff : strip (text ++ ['\n']) = text ↔ text.getLast? ≠ some '\r' := by
  rw [strip_line]
  constructor
  · intro h hlast
    rw [if_pos hlast] at h
    have hlength := congrArg length h
    obtain ⟨before, rfl⟩ := getLast?_eq_some_iff.mp hlast
    simp at hlength
  · intro h
    rw [if_neg h]

/-- The lines of a source that got its terminator back. -/
theorem exists_source_lines {body : List (List Char)} (hplain : Plain body)
    (hnone : ∀ line ∈ body, ¬ IsEnd line) :
    ∃ lines, Plain lines ∧ (∀ line ∈ lines, ¬ IsEnd line) ∧
      rawLines lines = strip (rawLines body) ++ ['\n'] := by
  rcases eq_nil_or_concat body with rfl | ⟨before, last, rfl⟩
  · refine ⟨[[]], Plain.singleton fun h => (nomatch h), fun line hmem => ?_, rfl⟩
    rw [mem_singleton.mp hmem]
    decide
  · rw [concat_eq_append] at hplain hnone ⊢
    obtain ⟨hbefore, hlasts⟩ := hplain.of_append
    have hlast := hlasts last mem_cons_self
    have hno : ∀ line ∈ before, ¬ IsEnd line := fun line hmem =>
      hnone line (mem_append_left _ hmem)
    have hlastEnd := hnone last (mem_append_right _ mem_cons_self)
    have hraw : rawLines (before ++ [last]) = (rawLines before ++ last) ++ ['\n'] := by simp
    rw [hraw, strip_line]
    rcases eq_nil_or_concat last with rfl | ⟨init, c, rfl⟩
    · have hnot : (rawLines before ++ []).getLast? ≠ some '\r' := by
        rw [append_nil]
        rcases eq_nil_or_concat before with rfl | ⟨first, line, rfl⟩
        · simp
        · rw [concat_eq_append]
          simp
      rw [if_neg hnot]
      refine ⟨before ++ [[]], hbefore.append (Plain.singleton hlast), fun line hmem => ?_, by simp⟩
      rcases mem_append.mp hmem with hmem | hmem
      · exact hno line hmem
      · exact mem_singleton.mp hmem ▸ hlastEnd
    · rw [concat_eq_append] at hlast hlastEnd ⊢
      have hconcat : (rawLines before ++ (init ++ [c])).getLast? = some c := by
        rw [← append_assoc, getLast?_concat]
      rw [hconcat]
      split
      next hc =>
        rw [Option.some.injEq] at hc
        subst hc
        have hinit : '\n' ∉ init := fun h => hlast (mem_append_left _ h)
        have hinitEnd : ¬ IsEnd init := by
          have hblank : Blank ['\r'] := fun c hmem => by
            rw [mem_singleton.mp hmem]
            decide
          rw [IsEnd, trimChars_append hblank] at hlastEnd
          exact hlastEnd
        refine ⟨before ++ [init], hbefore.append (Plain.singleton hinit), fun line hmem => ?_, ?_⟩
        · rcases mem_append.mp hmem with hmem | hmem
          · exact hno line hmem
          · exact mem_singleton.mp hmem ▸ hinitEnd
        · rw [← append_assoc, dropLast_concat]
          simp
      next hc =>
        refine ⟨before ++ [init ++ [c]], hbefore.append (Plain.singleton hlast),
          fun line hmem => ?_, by simp⟩
        rcases mem_append.mp hmem with hmem | hmem
        · exact hno line hmem
        · exact mem_singleton.mp hmem ▸ hlastEnd

/-! ## Rendered cells -/

/-- What is read of a cell that was rendered again. -/
theorem extract_rendered {prose body : List (List Char)} (hprose : Plain prose)
    (hnone : ∀ line ∈ prose, ¬ IsStart line) (hbody : Plain body)
    (hno : ∀ line ∈ body, ¬ IsEnd line) :
    extractLashlangCell (renderLashlangCellText (rawLines prose) (strip (rawLines body))) =
      .ok (some ⟨trimEndChars (rawLines prose), strip (strip (rawLines body) ++ ['\n']), 1⟩) := by
  obtain ⟨source, hsource, hsourceEnd, hsourceRaw⟩ := exists_source_lines hbody hno
  have hlead : ∃ lines, Plain lines ∧ (∀ line ∈ lines, ¬ IsStart line) ∧
      rawLines lines = (if (trimEndChars (rawLines prose)).isEmpty then []
        else trimEndChars (rawLines prose) ++ ['\n']) := by
    split
    · exact ⟨[], fun _ hmem => (nomatch hmem), fun _ hmem => (nomatch hmem), rfl⟩
    · obtain ⟨before, last, hbefore, hlast, heq⟩ := exists_lines (trimEndChars (rawLines prose))
      exact ⟨before ++ [last], hbefore.append (Plain.singleton hlast),
        noStart_trimmed hprose hnone hbefore hlast heq, by rw [heq]; simp⟩
  obtain ⟨lead, hleadPlain, hleadStart, hleadRaw⟩ := hlead
  have cell : ∃ cell : CellText, cell.prose = lead ∧ cell.body = source ∧ cell.tail = [] ∧
      cell.text = renderLashlangCellText (rawLines prose) (strip (rawLines body)) := by
    refine ⟨⟨lead, lashlangStartTag, source, lashlangEndTag, [], hleadPlain, hleadStart, by decide,
      by decide, hsource, hsourceEnd, by decide, by decide, .inl rfl⟩, rfl, rfl, rfl, ?_⟩
    rw [CellText.text, renderLashlangCellText]
    dsimp only
    rw [hleadRaw, hsourceRaw]
    simp
  obtain ⟨cell, hcellProse, hcellBody, hcellTail, htext⟩ := cell
  have hdrop : trimChars (cell.text.drop cell.span.endTagEnd) = [] := by
    have hnil : cell.text.drop cell.span.endTagEnd = [] := by
      refine drop_eq_nil_of_le ?_
      rw [CellText.text_length, CellText.endTagEnd_eq, hcellTail]
      simp
    rw [hnil]
    rfl
  rw [← htext, cell.extract_eq hdrop, CellText.code, hcellProse, hcellBody, hleadRaw, hsourceRaw]
  congr 3
  split
  next hempty =>
    rw [isEmpty_iff.mp hempty]
    rfl
  next =>
    have hblank : Blank ['\n'] := fun c hmem => by
      rw [mem_singleton.mp hmem]
      decide
    rw [trimEndChars_append hblank, trimEndChars_idem]

end SplicedCells
