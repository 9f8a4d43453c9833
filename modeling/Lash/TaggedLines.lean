import Lash.LashlangCells

/-!
# Texts as lines between tags

A text is a number of complete lines and a last one without a terminator. Its first cell is
told by the lines: prose without a start tag, the start tag, a body without an end tag, the
end tag.
-/

namespace TaggedLines

open LashlangCells List

/-- Complete lines, one after another. -/
def rawLines (lines : List (List Char)) : List Char := lines.flatMap fun line => line ++ ['\n']

def Plain (lines : List (List Char)) : Prop := ∀ line ∈ lines, '\n' ∉ line

abbrev IsStart (line : List Char) : Prop := trimChars line = lashlangStartTag

abbrev IsEnd (line : List Char) : Prop := trimChars line = lashlangEndTag

def complete (line : List Char) : LogicalLine := ⟨line, true⟩

@[simp] theorem rawLines_nil : rawLines [] = [] := rfl

@[simp] theorem rawLines_cons (line : List Char) (lines : List (List Char)) :
    rawLines (line :: lines) = line ++ '\n' :: rawLines lines := by
  simp [rawLines]

@[simp] theorem rawLines_append (first second : List (List Char)) :
    rawLines (first ++ second) = rawLines first ++ rawLines second :=
  List.flatMap_append

variable {first second : List (List Char)}

theorem Plain.of_append (h : Plain (first ++ second)) : Plain first ∧ Plain second :=
  ⟨fun line hmem => h line (List.mem_append_left _ hmem),
    fun line hmem => h line (List.mem_append_right _ hmem)⟩

theorem Plain.append (h : Plain first) (h' : Plain second) :
    Plain (first ++ second) := fun line hmem =>
  (List.mem_append.mp hmem).elim (h line) (h' line)

variable {line : List Char}

theorem Plain.singleton (h : '\n' ∉ line) : Plain [line] :=
  fun _ hmem => List.mem_singleton.mp hmem ▸ h

/-! ## Lines of a text -/

theorem logicalLines_single (h : '\n' ∉ line) : logicalLines line = [⟨line, false⟩] := by
  induction line with
  | nil => rfl
  | cons c rest ih =>
    have hc : c ≠ '\n' := fun heq => h (heq ▸ mem_cons_self)
    have hrest := ih fun hmem => h (mem_cons_of_mem _ hmem)
    rw [logicalLines, if_neg hc, hrest]

theorem logicalLines_line (h : '\n' ∉ line) (rest : List Char) :
    logicalLines (line ++ '\n' :: rest) = complete line :: logicalLines rest := by
  induction line with
  | nil => rfl
  | cons c line ih =>
    have hc : c ≠ '\n' := fun heq => h (heq ▸ mem_cons_self)
    have hline := ih fun hmem => h (mem_cons_of_mem _ hmem)
    rw [cons_append, logicalLines, if_neg hc, hline]
    rfl

variable {lines : List (List Char)}

theorem logicalLines_rawLines (h : Plain lines) (rest : List Char) :
    logicalLines (rawLines lines ++ rest) = lines.map complete ++ logicalLines rest := by
  induction lines with
  | nil => rfl
  | cons line lines ih =>
    have hlines := ih fun other hmem => h other (mem_cons_of_mem _ hmem)
    rw [rawLines_cons, append_assoc, cons_append, logicalLines_line (h line mem_cons_self), hlines]
    rfl

theorem exists_lines (text : List Char) :
    ∃ lines last, Plain lines ∧ '\n' ∉ last ∧ text = rawLines lines ++ last := by
  induction text with
  | nil => exact ⟨[], [], fun _ hmem => (nomatch hmem), fun hmem => (nomatch hmem), rfl⟩
  | cons c rest ih =>
    obtain ⟨lines, last, hplain, hlast, rfl⟩ := ih
    by_cases hc : c = '\n'
    · subst hc
      refine ⟨[] :: lines, last, fun line hmem => ?_, hlast, rfl⟩
      rcases mem_cons.mp hmem with rfl | hmem
      · exact fun h => nomatch h
      · exact hplain line hmem
    · have hfresh : ∀ line : List Char, '\n' ∉ line → '\n' ∉ c :: line := fun line hline hmem =>
        (mem_cons.mp hmem).elim (fun heq => hc heq.symm) hline
      cases lines with
      | nil => exact ⟨[], c :: last, hplain, hfresh last hlast, rfl⟩
      | cons line lines =>
        refine ⟨(c :: line) :: lines, last, fun other hmem => ?_, hlast, rfl⟩
        rcases mem_cons.mp hmem with rfl | hmem
        · exact hfresh line (hplain line mem_cons_self)
        · exact hplain other (mem_cons_of_mem _ hmem)

/-- The first line with a property, if there is one. -/
theorem first_or_none (P : List Char → Prop) [DecidablePred P] (lines : List (List Char)) :
    (∀ line ∈ lines, ¬ P line) ∨ ∃ before line after, lines = before ++ line :: after ∧ P line ∧
        ∀ earlier ∈ before, ¬ P earlier := by
  induction lines with
  | nil => exact .inl fun _ hmem => nomatch hmem
  | cons line lines ih =>
    by_cases hline : P line
    · exact .inr ⟨[], line, lines, rfl, hline, fun _ hmem => nomatch hmem⟩
    · rcases ih with hnone | ⟨before, found, after, rfl, hfound, hbefore⟩
      · refine .inl fun other hmem => ?_
        rcases mem_cons.mp hmem with rfl | hmem
        · exact hline
        · exact hnone other hmem
      · refine .inr ⟨line :: before, found, after, rfl, hfound, fun other hmem => ?_⟩
        rcases mem_cons.mp hmem with rfl | hmem
        · exact hline
        · exact hbefore other hmem

/-! ## Scans -/

theorem complete_raw (line : List Char) : (complete line).raw = line ++ ['\n'] := rfl

theorem firstEnd_skip (h : ∀ line ∈ lines, ¬ IsEnd line) (allowEof : Bool) (pos : Nat)
    (rest : List LogicalLine) :
    firstLashlangEndTagAfter allowEof pos (lines.map complete ++ rest) =
      firstLashlangEndTagAfter allowEof (pos + (rawLines lines).length) rest := by
  induction lines generalizing pos with
  | nil => rfl
  | cons line lines ih =>
    have hline := h line mem_cons_self
    rw [map_cons, cons_append, firstLashlangEndTagAfter, if_neg fun hboth => hline hboth.1,
      ih fun other hmem => h other (mem_cons_of_mem _ hmem), complete_raw, rawLines_cons]
    congr 1
    simp only [length_append, length_cons, length_nil]
    omega

theorem firstEnd_none {rest : List LogicalLine} (h : ∀ line ∈ rest, ¬ IsEnd line.text)
    (allowEof : Bool) (pos : Nat) : firstLashlangEndTagAfter allowEof pos rest = none := by
  induction rest generalizing pos with
  | nil => rfl
  | cons line rest ih =>
    rw [firstLashlangEndTagAfter, if_neg fun hboth => h line mem_cons_self hboth.1,
      ih fun other hmem => h other (mem_cons_of_mem _ hmem)]

theorem cellSpan_skip {text : List Char} (h : ∀ line ∈ lines, ¬ IsStart line) (pos : Nat)
    (rest : List LogicalLine) :
    firstLashlangCellSpanFrom text pos (lines.map complete ++ rest) =
      firstLashlangCellSpanFrom text (pos + (rawLines lines).length) rest := by
  induction lines generalizing pos with
  | nil => rfl
  | cons line lines ih =>
    have hline := h line mem_cons_self
    rw [map_cons, cons_append, firstLashlangCellSpanFrom, if_neg fun hboth => hline hboth.1]
    dsimp only
    rw [ih fun other hmem => h other (mem_cons_of_mem _ hmem), complete_raw, rawLines_cons]
    congr 1
    simp only [length_append, length_cons, length_nil]
    omega

theorem cellSpan_none {text : List Char} {rest : List LogicalLine}
    (h : ∀ line ∈ rest, ¬ IsEnd line.text) (pos : Nat) :
    firstLashlangCellSpanFrom text pos rest = none := by
  induction rest generalizing pos with
  | nil => rfl
  | cons line rest ih =>
    have hrest := fun other hmem => h other (mem_cons_of_mem line hmem)
    rw [firstLashlangCellSpanFrom, firstEnd_none hrest, ite_self]
    exact ih hrest _

/-! ## Cells -/

variable (body : List Char)

/-- A body without the terminator of its last line. -/
def strip : List Char := body.take (sourceBodyEnd body 0 body.length)

theorem sourceBodyEnd_le (text : List Char) (bodyStart endTagStart : Nat) :
    sourceBodyEnd text bodyStart endTagStart ≤ endTagStart := by
  unfold sourceBodyEnd
  split
  · exact Nat.le_refl _
  · split
    · exact Nat.sub_le _ _
    · split
      · exact Nat.sub_le _ _
      · exact Nat.le_refl _

theorem strip_length : (strip body).length = sourceBodyEnd body 0 body.length := by
  rw [strip, length_take]
  exact Nat.min_eq_left (sourceBodyEnd_le _ _ _)

theorem strip_length_le : (strip body).length ≤ body.length := by
  rw [strip_length]
  exact sourceBodyEnd_le _ _ _

variable {before : List Char}

theorem crlf_suffix {body : List Char} (hbody : body ≠ []) :
    ['\r', '\n'].isSuffixOf (before ++ '\n' :: body) = ['\r', '\n'].isSuffixOf body := by
  rw [Bool.eq_iff_iff, isSuffixOf_iff_suffix, isSuffixOf_iff_suffix]
  constructor
  · intro h
    by_cases hlength : 2 ≤ body.length
    · exact suffix_of_suffix_length_le h
        ((suffix_cons '\n' body).trans (suffix_append before _)) hlength
    · obtain ⟨c, rest, rfl⟩ := exists_cons_of_ne_nil hbody
      have hrest : rest = [] := by
        cases rest with
        | nil => rfl
        | cons d rest => simp at hlength
      subst hrest
      have hshort : ['\r', '\n'] <:+ ['\n', c] :=
        suffix_of_suffix_length_le h (suffix_append before _) (Nat.le_refl _)
      have heq : ['\r', '\n'] = ['\n', c] := hshort.eq_of_length rfl
      cases heq
  · exact fun h => h.trans ((suffix_cons '\n' body).trans (suffix_append before _))

theorem lf_suffix {body : List Char} (hbody : body ≠ []) :
    ['\n'].isSuffixOf (before ++ '\n' :: body) = ['\n'].isSuffixOf body := by
  rw [Bool.eq_iff_iff, isSuffixOf_iff_suffix, isSuffixOf_iff_suffix]
  constructor
  · intro h
    refine suffix_of_suffix_length_le h
      ((suffix_cons '\n' body).trans (suffix_append before _)) ?_
    exact length_pos_of_ne_nil hbody
  · exact fun h => h.trans ((suffix_cons '\n' body).trans (suffix_append before _))

/-- The end of a body does not depend on the text before it. -/
theorem sourceBodyEnd_eq (before body rest : List Char) :
    sourceBodyEnd (before ++ '\n' :: (body ++ rest)) (before.length + 1)
        (before.length + 1 + body.length) = before.length + 1 + (strip body).length := by
  have htake : (before ++ '\n' :: (body ++ rest)).take (before.length + 1 + body.length) =
      before ++ '\n' :: body := by
    have hassoc : before ++ '\n' :: (body ++ rest) = (before ++ '\n' :: body) ++ rest := by simp
    rw [hassoc, take_left' (by simp; omega)]
  by_cases hbody : body = []
  · subst hbody
    simp [sourceBodyEnd, strip]
  · have hpos : 0 < body.length := length_pos_of_ne_nil hbody
    have hlong : ¬ before.length + 1 + body.length ≤ before.length + 1 := by omega
    have hsome : ¬ body.length ≤ 0 := by omega
    rw [strip_length]
    unfold sourceBodyEnd
    rw [htake, if_neg hlong, if_neg hsome, crlf_suffix hbody, lf_suffix hbody, take_length]
    split
    next hcrlf =>
      have hlength := (isSuffixOf_iff_suffix.mp hcrlf).length_le
      simp only [length_cons, length_nil] at hlength
      omega
    · split <;> omega

/-- A text with a cell: prose, a start tag, a body, an end tag, and what follows. -/
structure CellText where
  prose : List (List Char)
  start : List Char
  body : List (List Char)
  stop : List Char
  tail : List Char
  plainProse : Plain prose
  noStart : ∀ line ∈ prose, ¬ IsStart line
  plainStart : '\n' ∉ start
  isStart : IsStart start
  plainBody : Plain body
  noEnd : ∀ line ∈ body, ¬ IsEnd line
  plainStop : '\n' ∉ stop
  isEnd : IsEnd stop
  tailLine : tail = [] ∨ ∃ rest, tail = '\n' :: rest

namespace CellText

variable (cell : CellText)

def text : List Char :=
  rawLines cell.prose ++ cell.start ++ '\n' :: (rawLines cell.body ++ (cell.stop ++ cell.tail))

def code : List Char := strip (rawLines cell.body)

def span : LashlangCellSpan :=
  let startTagStart := (rawLines cell.prose).length
  let bodyStart := startTagStart + cell.start.length + 1
  let endTagStart := bodyStart + (rawLines cell.body).length
  { startTagStart := startTagStart
    bodyStart := bodyStart
    bodyEnd := bodyStart + cell.code.length
    endTagStart := endTagStart
    endTagEnd := endTagStart + cell.stop.length + if cell.tail = [] then 0 else 1 }

theorem logicalLines_text :
    logicalLines cell.text = cell.prose.map complete ++ complete cell.start ::
      (cell.body.map complete ++ logicalLines (cell.stop ++ cell.tail)) := by
  rw [text, append_assoc, logicalLines_rawLines cell.plainProse,
    logicalLines_line cell.plainStart, logicalLines_rawLines cell.plainBody]

/-- The first cell of the text is the cell. -/
theorem span_eq : firstLashlangCellSpan cell.text = some cell.span := by
  have hstop : ∃ rest, logicalLines (cell.stop ++ cell.tail) =
      ⟨cell.stop, !cell.tail.isEmpty⟩ :: rest := by
    rcases cell.tailLine with htail | ⟨rest, htail⟩
    · rw [htail, append_nil, logicalLines_single cell.plainStop]
      exact ⟨[], rfl⟩
    · rw [htail, logicalLines_line cell.plainStop]
      exact ⟨logicalLines rest, rfl⟩
  obtain ⟨rest, hrest⟩ := hstop
  have hbodyEnd := sourceBodyEnd_eq (rawLines cell.prose ++ cell.start) (rawLines cell.body)
    (cell.stop ++ cell.tail)
  rw [length_append] at hbodyEnd
  have hstart : 0 + (rawLines cell.prose).length + (complete cell.start).raw.length =
      (rawLines cell.prose).length + cell.start.length + 1 := by
    rw [complete_raw, length_append, length_singleton]
    omega
  have hraw : (LogicalLine.raw ⟨cell.stop, !cell.tail.isEmpty⟩).length =
      cell.stop.length + if cell.tail = [] then 0 else 1 := by
    cases cell.tail with
    | nil | cons c rest => simp [LogicalLine.raw]
  rw [firstLashlangCellSpan, logicalLines_text, cellSpan_skip cell.noStart,
    firstLashlangCellSpanFrom, if_pos ⟨cell.isStart, rfl⟩, firstEnd_skip cell.noEnd, hrest,
    firstLashlangEndTagAfter, if_pos ⟨cell.isEnd, by simp⟩]
  dsimp only
  rw [hstart, hraw, Nat.zero_add, text, hbodyEnd, ← Nat.add_assoc]
  rfl

theorem text_length :
    cell.text.length = cell.span.endTagStart + cell.stop.length + cell.tail.length := by
  simp only [text, span, length_append, length_cons]
  omega

theorem take_startTagStart : cell.text.take cell.span.startTagStart = rawLines cell.prose := by
  rw [text, append_assoc]
  exact take_left' rfl

theorem source_eq : (cell.text.take cell.span.bodyEnd).drop cell.span.bodyStart = cell.code := by
  have hsplit : cell.text = (rawLines cell.prose ++ cell.start ++ ['\n']) ++
      (rawLines cell.body ++ (cell.stop ++ cell.tail)) := by simp [text]
  have hstart : cell.span.bodyStart = (rawLines cell.prose ++ cell.start ++ ['\n']).length := by
    simp only [span, length_append, length_singleton]
  have hend : cell.span.bodyEnd = cell.span.bodyStart + cell.code.length := rfl
  have hle : cell.code.length ≤ (rawLines cell.body).length := strip_length_le _
  rw [hend, drop_take, Nat.add_sub_cancel_left, hsplit, hstart, drop_left' rfl,
    take_append_of_le_length hle]
  conv_lhs => rw [code, strip_length]
  rfl

theorem extract_eq (h : trimChars (cell.text.drop cell.span.endTagEnd) = []) :
    extractLashlangCell cell.text =
      .ok (some ⟨trimEndChars (rawLines cell.prose), cell.code, 1⟩) := by
  rw [extractLashlangCell, cell.span_eq]
  dsimp only
  rw [if_neg (not_not.mpr h), take_startTagStart, source_eq]

/-- The text up to the line of the end tag. -/
def upTo : CellText :=
  { cell with
    tail := cell.tail.take 1
    tailLine := by
      rcases cell.tailLine with htail | ⟨rest, htail⟩
      · exact .inl (by rw [htail]; rfl)
      · exact .inr ⟨[], by rw [htail]; rfl⟩ }

theorem endTagEnd_eq :
    cell.span.endTagEnd = cell.span.endTagStart + cell.stop.length + (cell.tail.take 1).length := by
  rcases cell.tailLine with htail | ⟨rest, htail⟩ <;> simp [span, htail]

theorem upTo_text : cell.upTo.text = cell.text.take cell.span.endTagEnd := by
  have hsplit : cell.text = cell.upTo.text ++ cell.tail.drop 1 := by
    conv_lhs => rw [text, ← take_append_drop 1 cell.tail]
    simp [text, upTo]
  have hlength : cell.upTo.text.length = cell.span.endTagEnd := by
    rw [text_length, endTagEnd_eq]
    rfl
  rw [hsplit, take_left' hlength]

theorem extract_upTo : extractLashlangCell (cell.text.take cell.span.endTagEnd) =
      .ok (some ⟨trimEndChars (rawLines cell.prose), cell.code, 1⟩) := by
  rw [← upTo_text]
  refine extract_eq cell.upTo ?_
  have hdrop : cell.upTo.text.drop cell.upTo.span.endTagEnd = [] := by
    refine drop_eq_nil_of_le ?_
    rw [text_length, endTagEnd_eq]
    simp [upTo]
  rw [hdrop]
  rfl

end CellText

/-! ## Texts with and without a cell -/

def HasEnd (text : List Char) : Prop := ∃ line ∈ logicalLines text, IsEnd line.text

theorem hasEnd_rawLines (h : Plain lines) (rest : List Char) :
    HasEnd (rawLines lines ++ rest) ↔ (∃ line ∈ lines, IsEnd line) ∨ HasEnd rest := by
  unfold HasEnd
  rw [logicalLines_rawLines h]
  constructor
  · rintro ⟨line, hmem, hend⟩
    rcases mem_append.mp hmem with hmem | hmem
    · obtain ⟨text, htext, rfl⟩ := mem_map.mp hmem
      exact .inl ⟨text, htext, hend⟩
    · exact .inr ⟨line, hmem, hend⟩
  · rintro (⟨line, hmem, hend⟩ | ⟨line, hmem, hend⟩)
    · exact ⟨complete line, mem_append_left _ (mem_map_of_mem hmem), hend⟩
    · exact ⟨line, mem_append_right _ hmem, hend⟩

theorem hasEnd_line (h : '\n' ∉ line) (rest : List Char) :
    HasEnd (line ++ '\n' :: rest) ↔ IsEnd line ∨ HasEnd rest := by
  have hlines := hasEnd_rawLines (Plain.singleton h) rest
  simpa using hlines

theorem hasEnd_single (h : '\n' ∉ line) : HasEnd line ↔ IsEnd line := by
  unfold HasEnd
  rw [logicalLines_single h]
  simp

variable {prose : List (List Char)} {rest : List Char} {start : List Char}

/-- An end tag somewhere after the first start tag makes a cell, and its body begins with the
lines that are no end tags. -/
theorem cell_of_later_end (hprose : Plain prose) (hnone : ∀ line ∈ prose, ¬ IsStart line)
    (hplain : '\n' ∉ start) (hstart : IsStart start) (hlines : Plain lines)
    (hno : ∀ line ∈ lines, ¬ IsEnd line) (hend : HasEnd rest) :
    ∃ cell : CellText, cell.prose = prose ∧ ∃ more, cell.body = lines ++ more ∧
      cell.text = rawLines prose ++ start ++ '\n' :: (rawLines lines ++ rest) := by
  obtain ⟨others, last, hothers, hlast, rfl⟩ := exists_lines rest
  have hall : ∀ {more : List (List Char)}, (∀ line ∈ more, ¬ IsEnd line) →
      ∀ line ∈ lines ++ more, ¬ IsEnd line := fun hmore line hmem =>
    (mem_append.mp hmem).elim (hno line) (hmore line)
  rcases first_or_none IsEnd others with hnever | ⟨body, stop, after, rfl, hstop, hbody⟩
  · have hlastEnd : IsEnd last := by
      rcases (hasEnd_rawLines hothers last).mp hend with ⟨line, hmem, hline⟩ | hsingle
      · exact absurd hline (hnever line hmem)
      · exact (hasEnd_single hlast).mp hsingle
    exact ⟨⟨prose, start, lines ++ others, last, [], hprose, hnone, hplain, hstart,
      hlines.append hothers, hall hnever, hlast, hlastEnd, .inl rfl⟩, rfl, others, rfl,
      by simp [CellText.text]⟩
  · obtain ⟨hplainBody, hplainStop⟩ := hothers.of_append
    exact ⟨⟨prose, start, lines ++ body, stop, '\n' :: (rawLines after ++ last), hprose, hnone,
      hplain, hstart, hlines.append hplainBody, hall hbody,
      hplainStop stop mem_cons_self, hstop, .inr ⟨_, rfl⟩⟩, rfl, body, rfl, by simp [CellText.text]⟩

theorem cell_of_end (hprose : Plain prose) (hnone : ∀ line ∈ prose, ¬ IsStart line)
    (hplain : '\n' ∉ start) (hstart : IsStart start) (hend : HasEnd rest) :
    ∃ cell : CellText, cell.prose = prose ∧
      cell.text = rawLines prose ++ start ++ '\n' :: rest := by
  obtain ⟨cell, hcell, -, -, htext⟩ := @cell_of_later_end [] prose rest start hprose hnone hplain
    hstart (fun _ hmem => nomatch hmem) (fun _ hmem => nomatch hmem) hend
  exact ⟨cell, hcell, htext⟩

theorem span_none_of_no_start {last : List Char} (hprose : Plain prose)
    (hnone : ∀ line ∈ prose, ¬ IsStart line) (hlast : '\n' ∉ last) :
    firstLashlangCellSpan (rawLines prose ++ last) = none := by
  rw [firstLashlangCellSpan, logicalLines_rawLines hprose, cellSpan_skip hnone,
    logicalLines_single hlast, firstLashlangCellSpanFrom, if_neg fun h => nomatch h.2]
  rfl

theorem span_none_of_no_end (hprose : Plain prose) (hnone : ∀ line ∈ prose, ¬ IsStart line)
    (hline : '\n' ∉ line) (hend : ¬ HasEnd rest) :
    firstLashlangCellSpan (rawLines prose ++ line ++ '\n' :: rest) = none := by
  have hno : ∀ other ∈ logicalLines rest, ¬ IsEnd other.text := fun other hmem hother =>
    hend ⟨other, hmem, hother⟩
  rw [firstLashlangCellSpan, append_assoc, logicalLines_rawLines hprose,
    logicalLines_line hline, cellSpan_skip hnone, firstLashlangCellSpanFrom, firstEnd_none hno,
    ite_self]
  exact cellSpan_none hno _

/-- Where a text has no cell, no end tag follows any of its start tags. -/
theorem no_end_after_start (hlines : Plain lines) (hplain : '\n' ∉ start) (hstart : IsStart start)
    (h : firstLashlangCellSpan (rawLines lines ++ start ++ '\n' :: rest) = none) :
    ¬ HasEnd rest := by
  intro hend
  rcases first_or_none IsStart lines with hno | ⟨prose, first, after, rfl, hfirst, hprose⟩
  · obtain ⟨cell, -, htext⟩ := cell_of_end hlines hno hplain hstart hend
    rw [← htext, cell.span_eq] at h
    cases h
  · obtain ⟨hplainProse, hplainRest⟩ := hlines.of_append
    have hafter : Plain (after ++ [start]) := Plain.append
      (fun line hmem => hplainRest line (mem_cons_of_mem _ hmem)) (Plain.singleton hplain)
    have hendAfter : HasEnd (rawLines (after ++ [start]) ++ rest) :=
      (hasEnd_rawLines hafter rest).mpr (.inr hend)
    obtain ⟨cell, -, htext⟩ := cell_of_end hplainProse hprose
      (hplainRest first mem_cons_self) hfirst hendAfter
    have hsame : cell.text = rawLines (prose ++ first :: after) ++ start ++ '\n' :: rest := by
      rw [htext]
      simp
    rw [← hsame, cell.span_eq] at h
    cases h

/-- A text has a cell, or its lines show that it has none. -/
theorem cell_or_none (text : List Char) :
    (∃ cell : CellText, cell.text = text) ∨ firstLashlangCellSpan text = none := by
  obtain ⟨lines, last, hlines, hlast, rfl⟩ := exists_lines text
  rcases first_or_none IsStart lines with hno | ⟨prose, start, after, rfl, hstart, hprose⟩
  · exact .inr (span_none_of_no_start hlines hno hlast)
  · obtain ⟨hplainProse, hplainRest⟩ := hlines.of_append
    have hplainStart := hplainRest start mem_cons_self
    have hsame : rawLines (prose ++ start :: after) ++ last =
        rawLines prose ++ start ++ '\n' :: (rawLines after ++ last) := by simp
    rw [hsame]
    by_cases hend : HasEnd (rawLines after ++ last)
    · obtain ⟨cell, -, htext⟩ := cell_of_end hplainProse hprose hplainStart hstart hend
      exact .inl ⟨cell, htext⟩
    · exact .inr (span_none_of_no_end hplainProse hprose hplainStart hend)

end TaggedLines
