import Lash.StreamReadings
import Mathlib.Data.List.ReduceOption

/-!
# The mask and the parser

The parser sees the whole text, the detector sees it cut into chunks. They agree on the cell, on
what is shown and on what is read of the response put together again where the cuts fall well:
no prose cut makes the rest of a line look like a start tag, or shows a part of one, and
no cut of the body falls after what only seems an end tag.
-/

namespace StreamAgreement

open TurnProtocols LashlangCells StreamMasks TaggedLines SplicedCells StreamReadings List

/-! ## Agreement -/

/-- A text that ends where a line starts. -/
def AtLineStart (text : List Char) : Prop := text = [] ∨ ∃ before, text = before ++ ['\n']

/-- What may be kept from view where there is no cell: nothing, the start of a line that may
still become a start tag, or a cell that is not finished. -/
def HeldBack (visible held : List Char) : Prop :=
  held = [] ∨ AtLineStart visible ∧ (mayBecomeStartTag held = true ∨
    ∃ line rest, held = line ++ '\n' :: rest ∧ '\n' ∉ line ∧ IsStart line)

/-- The stream and the final response agree with the parser on the whole text. -/
def AgreesWith (text visible : List Char) (closed : Bool) (response : List Char) : Prop :=
  match firstLashlangCellSpan text with
  | some span =>
    closed = true ∧ visible = text.take span.startTagStart ∧
      extractLashlangCell response = extractLashlangCell (text.take span.endTagEnd)
  | none => closed = false ∧ ∃ held, text = visible ++ held ∧ HeldBack visible held

/-! ## Where cuts may fall -/

variable (tokens : List (Option Char))

def textOf : List Char := tokens.reduceOption

def restOfLine : List (Option Char) → List Char
  | [] => []
  | none :: rest => restOfLine rest
  | some c :: rest => if c = '\n' then [] else c :: restOfLine rest

/-- In a body, of which `line` is the last line so far, no cut falls after an end tag whose line
goes on. -/
def BodyCutsFit : List Char → List (Option Char) → Prop
  | _, [] => True
  | line, none :: rest =>
    if IsEnd line then IsEnd (line ++ restOfLine rest) else BodyCutsFit line rest
  | line, some c :: rest =>
    if c = '\n' then IsEnd line ∨ BodyCutsFit [] rest else BodyCutsFit (line ++ [c]) rest

/-- In prose, of which `line` is the last line so far and `held` what came after its last cut at
which it could not become a start tag, only a whole line is taken for a start tag, and a line
that is one before an end tag is taken for it. -/
def ProseCutsFit : List Char → List Char → List (Option Char) → Prop
  | line, held, [] => held = [] ∨ held = line
  | line, held, none :: rest =>
    ProseCutsFit line (if mayBecomeStartTag held then held else []) rest
  | line, held, some c :: rest =>
    if c = '\n' then
      if IsStart held then held = line ∧ BodyCutsFit [] rest
      else (IsStart line → ¬ HasEnd (textOf rest)) ∧ ProseCutsFit [] [] rest
    else ProseCutsFit (line ++ [c]) (held ++ [c]) rest

variable (chunks : List (List Char))

def CutsFit : Prop := ProseCutsFit [] [] (cutText chunks)

/-- A carriage return at the end of a source is lost when the source gets its line feed back. -/
def CodeFits (text : List Char) : Prop :=
  ∀ span, firstLashlangCellSpan text = some span →
    ((text.take span.bodyEnd).drop span.bodyStart).getLast? ≠ some '\r'

/-! ## Tokens -/

@[simp] theorem textOf_nil : textOf [] = [] := rfl

@[simp] theorem textOf_none (rest : List (Option Char)) : textOf (none :: rest) = textOf rest :=
  List.reduceOption_cons_of_none rest

@[simp] theorem textOf_some (c : Char) (rest : List (Option Char)) :
    textOf (some c :: rest) = c :: textOf rest :=
  List.reduceOption_cons_of_some c rest

theorem textOf_cutText : textOf (cutText chunks) = chunks.flatten := by
  induction chunks with
  | nil => rfl
  | cons chunk chunks ih =>
    have hchunk : textOf (chunk.map some ++ [none]) = chunk := by
      induction chunk with
      | nil => rfl
      | cons c rest ihrest =>
        rw [map_cons, cons_append, textOf_some, ihrest]
    rw [cutText, flatMap_cons, textOf, reduceOption_append, flatten_cons]
    exact congr (congrArg (· ++ ·) hchunk) ih

theorem restOfLine_plain : '\n' ∉ restOfLine tokens := by
  induction tokens with
  | nil => exact fun h => nomatch h
  | cons token rest ih =>
    cases token with
    | none => exact ih
    | some c =>
      rw [restOfLine]
      split
      · exact fun h => nomatch h
      next hc =>
        intro hmem
        rcases mem_cons.mp hmem with heq | hmem
        · exact hc heq.symm
        · exact ih hmem

theorem textOf_line :
    ∃ tail, textOf tokens = restOfLine tokens ++ tail ∧
      (tail = [] ∨ ∃ rest, tail = '\n' :: rest) := by
  induction tokens with
  | nil => exact ⟨[], rfl, .inl rfl⟩
  | cons token rest ih =>
    obtain ⟨tail, htext, htail⟩ := ih
    cases token with
    | none => exact ⟨tail, by rw [textOf_none, htext]; rfl, htail⟩
    | some c =>
      rw [textOf_some, restOfLine]
      by_cases hc : c = '\n'
      · rw [if_pos hc, hc]
        exact ⟨'\n' :: textOf rest, rfl, .inr ⟨_, rfl⟩⟩
      · rw [if_neg hc, htext]
        exact ⟨tail, rfl, htail⟩

/-- A stream that is not over right after a character. -/
def EndsWithCut : Prop := ∀ c, tokens.getLast? ≠ some (some c)

variable {rest : List (Option Char)}

theorem EndsWithCut.tail {token : Option Char} (h : EndsWithCut (token :: rest)) :
    EndsWithCut rest := by
  intro c hlast
  cases rest with
  | nil => cases hlast
  | cons next rest =>
    refine h c ?_
    rw [getLast?_cons_cons]
    exact hlast

theorem EndsWithCut.ne_nil {c : Char} (h : EndsWithCut (some c :: rest)) :
    rest ≠ [] := fun hnil => h c (by rw [hnil]; rfl)

theorem endsWithCut_cutText : EndsWithCut (cutText chunks) := by
  intro c hlast
  rcases eq_nil_or_concat chunks with rfl | ⟨before, chunk, rfl⟩
  · cases hlast
  · rw [concat_eq_append, cutText, flatMap_append, flatMap_singleton,
      ← append_assoc, getLast?_concat] at hlast
    cases hlast

/-! ## Agreement of a reading -/

def closed : Reading → Bool
  | .closed .. => true
  | _ => false

def responseOf : Reading → List Char
  | .closed shown body => renderLashlangCellText shown (strip body)
  | _ => []

def Agreed (text : List Char) (reading : Reading) : Prop :=
  AgreesWith text reading.shown (closed reading) (responseOf reading)

variable {text : List Char}

theorem agreed_of_none (h : firstLashlangCellSpan text = none) (reading : Reading) :
    Agreed text reading ↔ closed reading = false ∧
      ∃ held, text = reading.shown ++ held ∧ HeldBack reading.shown held := by
  unfold Agreed AgreesWith
  rw [h]

variable (cell : CellText)

theorem agreed_cell (reading : Reading) :
    Agreed cell.text reading ↔ closed reading = true ∧ reading.shown = rawLines cell.prose ∧
      extractLashlangCell (responseOf reading) =
        .ok (some ⟨trimEndChars (rawLines cell.prose), cell.code, 1⟩) := by
  unfold Agreed AgreesWith
  rw [cell.span_eq]
  dsimp only
  rw [cell.take_startTagStart, cell.extract_upTo]

theorem atLineStart_rawLines (lines : List (List Char)) : AtLineStart (rawLines lines) := by
  rcases eq_nil_or_concat lines with rfl | ⟨before, last, rfl⟩
  · exact .inl rfl
  · exact .inr ⟨rawLines before ++ last, by simp⟩

theorem not_atLineStart {before line : List Char} (hne : line ≠ []) (h : '\n' ∉ line) :
    ¬ AtLineStart (before ++ line) := by
  rintro (hnil | ⟨other, heq⟩)
  · exact hne (append_eq_nil_iff.mp hnil).2
  · obtain ⟨init, c, rfl⟩ := (eq_nil_or_concat line).resolve_left hne
    rw [concat_eq_append, ← append_assoc] at heq
    have hc := (append_inj' heq rfl).2
    rw [concat_eq_append, singleton_inj.mp hc] at h
    exact h (mem_append_right _ mem_cons_self)

variable {reading : Reading}

/-- What is shown stops where a line starts, unless all is shown or the last line may become a
start tag. -/
theorem atLineStart_of_agreed (h : Agreed text reading) :
    reading.shown = text ∨ AtLineStart reading.shown := by
  rcases cell_or_none text with ⟨cell, rfl⟩ | hnone
  · obtain ⟨-, hshown, -⟩ := (agreed_cell cell reading).mp h
    rw [hshown]
    exact .inr (atLineStart_rawLines _)
  · obtain ⟨-, held, htext, hheld⟩ := (agreed_of_none hnone reading).mp h
    rcases hheld with hnil | ⟨hstart, -⟩
    · rw [hnil, append_nil] at htext
      exact .inl htext.symm
    · exact .inr hstart

theorem codeFits_of_none (h : firstLashlangCellSpan text = none) : CodeFits text := by
  intro span hspan
  rw [h] at hspan
  cases hspan

theorem codeFits_cell : CodeFits cell.text ↔ cell.code.getLast? ≠ some '\r' := by
  unfold CodeFits
  rw [cell.span_eq]
  constructor
  · intro h
    have hspan := h cell.span rfl
    rw [cell.source_eq] at hspan
    exact hspan
  · intro h span hspan
    rw [← Option.some.inj hspan, cell.source_eq]
    exact h

/-! ## Bodies -/

/-- The body of the cell is read back unless its code ends in a carriage return. -/
theorem closed_agrees :
    Agreed cell.text (.closed (rawLines cell.prose) (rawLines cell.body)) ↔
      CodeFits cell.text := by
  rw [agreed_cell, codeFits_cell, responseOf,
    extract_rendered cell.plainProse cell.noStart cell.plainBody cell.noEnd,
    ← strip_line_eq_iff, CellText.code]
  constructor
  · rintro ⟨-, -, h⟩
    rw [Except.ok.injEq, Option.some.injEq, CellExtraction.mk.injEq] at h
    exact h.2.1
  · intro h
    rw [h]
    exact ⟨rfl, rfl, rfl⟩

theorem strip_length_ge (body : List Char) : body.length ≤ (strip body).length + 2 := by
  rw [strip_length]
  unfold sourceBodyEnd
  split
  · omega
  · split
    · omega
    · split <;> omega

theorem isEnd_length {line : List Char} (h : IsEnd line) : 11 ≤ line.length := by
  have htrim : (trimChars line).length ≤ line.length := by
    unfold trimChars trimEndChars
    rw [length_reverse]
    refine Nat.le_trans (dropWhile_suffix _).length_le ?_
    rw [length_reverse]
    exact (dropWhile_suffix _).length_le
  rw [h] at htrim
  exact htrim

/-- A body that stops at a line as long as a tag is too short. -/
theorem not_agreed_short {lines more : List (List Char)} {line : List Char}
    (hbody : cell.body = lines ++ line :: more) (hlength : 11 ≤ line.length) :
    ¬ Agreed cell.text (.closed (rawLines cell.prose) (rawLines lines)) := by
  have hplain := cell.plainBody
  have hnone := cell.noEnd
  rw [hbody] at hplain hnone
  have hno : ∀ line ∈ lines, ¬ IsEnd line := fun line hmem =>
    hnone line (mem_append_left _ hmem)
  rw [agreed_cell, responseOf,
    extract_rendered cell.plainProse cell.noStart hplain.of_append.1 hno]
  rintro ⟨-, -, h⟩
  rw [Except.ok.injEq, Option.some.injEq, CellExtraction.mk.injEq] at h
  have hsame := congrArg length h.2.1
  have hcode := strip_length_ge (rawLines cell.body)
  have hrendered := strip_length_le (strip (rawLines lines) ++ ['\n'])
  have hlines := strip_length_le (rawLines lines)
  rw [hbody, rawLines_append, rawLines_cons] at hcode
  rw [CellText.code, hbody, rawLines_append, rawLines_cons] at hsame
  simp only [length_append, length_cons, length_nil] at hcode hrendered hlines hsame
  omega

theorem read_closed (shown body : List Char) :
    tokens.foldl readToken (.closed shown body) = .closed shown body := by
  induction tokens with
  | nil => rfl
  | cons token rest ih =>
    cases token with
    | none | some c => exact ih

/-- A body in a text without a cell: it must only not be closed. -/
theorem body_agrees_of_none {opening body line : List Char} {lines : List (List Char)}
    {start : List Char} {tokens : List (Option Char)} (hnone : firstLashlangCellSpan text = none)
    (hstart : IsStart start) (hplain : '\n' ∉ start) (hopening : opening = rawLines lines)
    (htext : text = opening ++ start ++ '\n' :: (body ++ (line ++ textOf tokens)))
    (hline : '\n' ∉ line) (hend : ¬ HasEnd (line ++ textOf tokens)) :
    Agreed text (tokens.foldl readToken (.body opening body line)) ↔ BodyCutsFit line tokens := by
  induction tokens generalizing body line with
  | nil =>
    rw [foldl_nil, agreed_of_none hnone, BodyCutsFit, iff_true]
    refine ⟨rfl, start ++ '\n' :: (body ++ (line ++ textOf [])), ?_, .inr ⟨?_, .inr ?_⟩⟩
    · rw [htext, append_assoc]
      rfl
    · rw [Reading.shown, hopening]
      exact atLineStart_rawLines lines
    · exact ⟨start, _, rfl, hplain, hstart⟩
  | cons token rest ih =>
    cases token with
    | none =>
      rw [textOf_none] at htext hend
      rw [foldl_cons, readToken, readCut, BodyCutsFit]
      by_cases hseen : IsEnd line
      · obtain ⟨tail, htail, hform⟩ := textOf_line rest
        have hwhole : '\n' ∉ line ++ restOfLine rest := fun h =>
          (mem_append.mp h).elim hline (restOfLine_plain rest)
        have hnot : ¬ IsEnd (line ++ restOfLine rest) := by
          intro hsame
          refine hend ?_
          rw [htail, ← append_assoc]
          rcases hform with rfl | ⟨after, rfl⟩
          · rw [append_nil]
            exact (hasEnd_single hwhole).mpr hsame
          · exact (hasEnd_line hwhole after).mpr (.inl hsame)
        rw [if_pos hseen, if_pos hseen, read_closed, agreed_of_none hnone]
        exact ⟨fun h => (by cases h.1), fun h => absurd h hnot⟩
      · rw [if_neg hseen, if_neg hseen]
        exact ih htext hline hend
    | some c =>
      rw [textOf_some] at htext hend
      rw [foldl_cons, readToken, readChar, BodyCutsFit]
      by_cases hc : c = '\n'
      · rw [hc, hasEnd_line hline, not_or] at hend
        rw [if_pos hc, if_pos hc, if_neg hend.1, or_iff_right hend.1]
        refine ih ?_ (fun h => by cases h) hend.2
        rw [htext, hc]
        simp
      · rw [if_neg hc, if_neg hc]
        refine ih ?_ (fun h => ?_) ?_
        · rw [htext]
          simp
        · rcases mem_append.mp h with h | h
          · exact hline h
          · exact hc (mem_singleton.mp h).symm
        · rw [append_assoc]
          exact hend

variable {prose : List (List Char)}

/-- A body that an end tag follows. -/
theorem body_agrees {lines : List (List Char)} {start line : List Char}
    {tokens : List (Option Char)} (hprose : Plain prose) (hnoStart : ∀ line ∈ prose, ¬ IsStart line)
    (hplainStart : '\n' ∉ start) (hstart : IsStart start) (hlines : Plain lines)
    (hnoEnd : ∀ line ∈ lines, ¬ IsEnd line) (hline : '\n' ∉ line)
    (htext : text = rawLines prose ++ start ++ '\n' :: (rawLines lines ++ (line ++ textOf tokens)))
    (hend : HasEnd (line ++ textOf tokens)) (hcut : tokens = [] → ¬ IsEnd line)
    (hlast : EndsWithCut tokens) :
    Agreed text (tokens.foldl readToken (.body (rawLines prose) (rawLines lines) line)) ↔
      BodyCutsFit line tokens ∧ CodeFits text := by
  induction tokens generalizing lines line with
  | nil =>
    rw [textOf_nil, append_nil] at hend
    exact absurd ((hasEnd_single hline).mp hend) (hcut rfl)
  | cons token rest ih =>
    cases token with
    | none =>
      rw [textOf_none] at htext hend
      rw [foldl_cons, readToken, readCut, BodyCutsFit]
      by_cases hseen : IsEnd line
      · obtain ⟨tail, htail, hform⟩ := textOf_line rest
        have hwhole : '\n' ∉ line ++ restOfLine rest := fun h =>
          (mem_append.mp h).elim hline (restOfLine_plain rest)
        rw [if_pos hseen, if_pos hseen, read_closed]
        have hsplit : line ++ textOf rest = line ++ restOfLine rest ++ tail := by
          rw [htail, append_assoc]
        rw [hsplit] at htext hend
        by_cases hsame : IsEnd (line ++ restOfLine rest)
        · have cell : ∃ cell : CellText, cell.prose = prose ∧ cell.body = lines ∧
              cell.text = text :=
            ⟨⟨prose, start, lines, line ++ restOfLine rest, tail, hprose, hnoStart,
              hplainStart, hstart, hlines, hnoEnd, hwhole, hsame, hform⟩, rfl, rfl,
              htext.symm⟩
          obtain ⟨cell, rfl, rfl, rfl⟩ := cell
          rw [closed_agrees]
          exact ⟨fun h => ⟨hsame, h⟩, fun h => h.2⟩
        · rcases hform with rfl | ⟨after, rfl⟩
          · rw [append_nil] at hend
            exact absurd ((hasEnd_single hwhole).mp hend) hsame
          · have hafter := ((hasEnd_line hwhole after).mp hend).resolve_left hsame
            obtain ⟨cell, hcellProse, more, hcellBody, hcellText⟩ :=
              cell_of_later_end hprose hnoStart hplainStart hstart
                (hlines.append (Plain.singleton hwhole))
                (fun other hmem => (mem_append.mp hmem).elim (hnoEnd other)
                  fun h => mem_singleton.mp h ▸ hsame) hafter
            have hcell : text = cell.text := by
              rw [htext, hcellText]
              simp
            rw [append_assoc, singleton_append] at hcellBody
            have hlength : 11 ≤ (line ++ restOfLine rest).length := by
              rw [length_append]
              exact Nat.le_trans (isEnd_length hseen) (Nat.le_add_right _ _)
            have hnot := not_agreed_short cell hcellBody hlength
            rw [hcellProse] at hnot
            rw [hcell]
            exact ⟨fun h => absurd h hnot, fun h => absurd h.1 hsame⟩
      · rw [if_neg hseen, if_neg hseen]
        exact ih hlines hnoEnd hline htext hend (fun _ => hseen) hlast.tail
    | some c =>
      rw [textOf_some] at htext hend
      rw [foldl_cons, readToken, readChar, BodyCutsFit]
      by_cases hc : c = '\n'
      · rw [hc] at htext hend
        rw [if_pos hc, if_pos hc]
        by_cases hseen : IsEnd line
        · have cell : ∃ cell : CellText, cell.prose = prose ∧ cell.body = lines ∧
              cell.text = text :=
            ⟨⟨prose, start, lines, line, '\n' :: textOf rest, hprose, hnoStart, hplainStart,
              hstart, hlines, hnoEnd, hline, hseen, .inr ⟨_, rfl⟩⟩, rfl, rfl, htext.symm⟩
          obtain ⟨cell, rfl, rfl, rfl⟩ := cell
          rw [if_pos hseen, read_closed, closed_agrees]
          exact ⟨fun h => ⟨.inl hseen, h⟩, fun h => h.2⟩
        · have hafter := ((hasEnd_line hline _).mp hend).resolve_left hseen
          have hmore : rawLines lines ++ line ++ ['\n'] = rawLines (lines ++ [line]) := by simp
          rw [if_neg hseen, or_iff_right hseen, hmore]
          refine ih (hlines.append (Plain.singleton hline)) (fun other hmem => ?_)
            (fun h => by cases h) ?_ hafter (fun _ => by decide) hlast.tail
          · rcases mem_append.mp hmem with hmem | hmem
            · exact hnoEnd other hmem
            · exact mem_singleton.mp hmem ▸ hseen
          · rw [htext]
            simp
      · rw [if_neg hc, if_neg hc]
        refine ih hlines hnoEnd (fun h => ?_) ?_ ?_ (fun h => absurd h hlast.ne_nil) hlast.tail
        · rcases mem_append.mp h with h | h
          · exact hline h
          · exact hc (mem_singleton.mp h).symm
        · rw [htext]
          simp
        · rw [append_assoc]
          exact hend

/-! ## Prose -/

theorem readToken_shown (token : Option Char) (reading : Reading) :
    reading.shown <+: (readToken reading token).shown := by
  cases token with
  | none =>
    cases reading with
    | prose shown held =>
      rw [readToken, readCut]
      split
      · exact prefix_refl _
      · exact prefix_append _ _
    | body shown body line =>
      rw [readToken, readCut]
      split <;> exact prefix_refl _
    | closed shown body => exact prefix_refl _
  | some c =>
    cases reading with
    | prose shown held =>
      rw [readToken, readChar]
      split
      · split
        · exact prefix_refl _
        · rw [append_assoc]
          exact prefix_append _ _
      · exact prefix_refl _
    | body shown body line =>
      rw [readToken, readChar]
      split
      · split <;> exact prefix_refl _
      · exact prefix_refl _
    | closed shown body => exact prefix_refl _

/-- What is shown is never taken back. -/
theorem shown_stays (reading : Reading) :
    reading.shown <+: (tokens.foldl readToken reading).shown := by
  induction tokens generalizing reading with
  | nil => exact prefix_refl _
  | cons token rest ih => exact (readToken_shown token reading).trans (ih _)

/-- Nothing is shown once a body is read. -/
theorem shown_body (shown body line : List Char) :
    (tokens.foldl readToken (.body shown body line)).shown = shown := by
  induction tokens generalizing body line with
  | nil => rfl
  | cons token rest ih =>
    cases token with
    | none =>
      rw [foldl_cons, readToken, readCut]
      split
      · rw [read_closed]
        rfl
      · exact ih _ _
    | some c =>
      rw [foldl_cons, readToken, readChar]
      split
      · split
        · rw [read_closed]
          rfl
        · exact ih _ _
      · exact ih _ _

theorem mayBecome_nil : mayBecomeStartTag [] = true := rfl

/-- Prose that is over with the text: what is held must be the whole line. -/
theorem prose_over {lines : List (List Char)} {line shown held : List Char}
    (hnone : firstLashlangCellSpan (rawLines lines ++ line) = none) (hline : '\n' ∉ line)
    (hshown : shown ++ held = rawLines lines ++ line) (hheld : held <:+ line)
    (hmay : mayBecomeStartTag held = true) :
    Agreed (rawLines lines ++ line) (.prose shown held) ↔ held = [] ∨ held = line := by
  rw [agreed_of_none hnone]
  constructor
  · rintro ⟨-, rest, htext, hback⟩
    obtain rfl : rest = held := (append_cancel_left (hshown.trans htext)).symm
    rcases hback with hnil | ⟨hstart, -⟩
    · exact .inl hnil
    · obtain ⟨before, rfl⟩ := hheld
      rw [← append_assoc] at hshown
      have hprose := append_cancel_right hshown
      rw [Reading.shown, hprose] at hstart
      by_cases hbefore : before = []
      · exact .inr (by rw [hbefore, nil_append])
      · exact absurd hstart
          (not_atLineStart hbefore fun hmem => hline (mem_append_left _ hmem))
  · intro hwhole
    refine ⟨rfl, held, hshown.symm, ?_⟩
    rcases hwhole with hnil | rfl
    · exact .inl hnil
    · refine .inr ⟨?_, .inl hmay⟩
      rw [Reading.shown, append_cancel_right hshown]
      exact atLineStart_rawLines lines

/-- A part of a line is not a start tag. -/
theorem not_agreed_part {lines : List (List Char)} {line shown held rest : List Char}
    (hline : '\n' ∉ line) (hshown : shown ++ held = rawLines lines ++ line)
    (hheld : held <:+ line) (hpart : held ≠ line) (tokens : List (Option Char)) :
    ¬ Agreed (rawLines lines ++ line ++ '\n' :: rest)
      (tokens.foldl readToken (.body shown [] [])) := by
  intro hagreed
  obtain ⟨before, rfl⟩ := hheld
  have hbefore : before ≠ [] := fun hnil => hpart (by rw [hnil, nil_append])
  have hprose : shown = rawLines lines ++ before := by
    rw [← append_assoc] at hshown
    exact append_cancel_right hshown
  rcases atLineStart_of_agreed hagreed with hall | hstart
  · rw [shown_body, hprose] at hall
    have hlength := congrArg length hall
    simp only [length_append, length_cons] at hlength
    omega
  · rw [shown_body, hprose] at hstart
    exact not_atLineStart hbefore (fun hmem => hline (mem_append_left _ hmem)) hstart

/-- The start tag of a cell must not be shown. -/
theorem not_agreed_shown {start rest shown : List Char} (hprose : Plain prose)
    (hnone : ∀ line ∈ prose, ¬ IsStart line) (hplain : '\n' ∉ start) (hstart : IsStart start)
    (hend : HasEnd rest) (hshown : shown = rawLines prose ++ start ++ ['\n'])
    (tokens : List (Option Char)) :
    ¬ Agreed (rawLines prose ++ start ++ '\n' :: rest)
      (tokens.foldl readToken (.prose shown [])) := by
  obtain ⟨cell, rfl, htext⟩ := cell_of_end hprose hnone hplain hstart hend
  rw [← htext, agreed_cell]
  rintro ⟨-, hexact, -⟩
  have hprefix := (shown_stays tokens (.prose shown [])).length_le
  rw [hexact, Reading.shown, hshown] at hprefix
  simp only [length_append, length_cons, length_nil] at hprefix
  omega

theorem prose_agrees {shown held line : List Char} {lines : List (List Char)}
    {tokens : List (Option Char)} (hlines : Plain lines) (hline : '\n' ∉ line)
    (hquiet : (∀ other ∈ lines, ¬ IsStart other) ∨ firstLashlangCellSpan text = none)
    (htext : text = rawLines lines ++ (line ++ textOf tokens))
    (hshown : shown ++ held = rawLines lines ++ line) (hheld : held <:+ line)
    (hmay : tokens = [] → mayBecomeStartTag held = true) (hlast : EndsWithCut tokens) :
    Agreed text (tokens.foldl readToken (.prose shown held)) ↔
      ProseCutsFit line held tokens ∧ CodeFits text := by
  induction tokens generalizing shown held line lines with
  | nil =>
    rw [textOf_nil, append_nil] at htext
    subst htext
    have hnone : firstLashlangCellSpan (rawLines lines ++ line) = none :=
      hquiet.elim (fun hno => span_none_of_no_start hlines hno hline) id
    rw [foldl_nil, prose_over hnone hline hshown hheld (hmay rfl), ProseCutsFit,
      and_iff_left (codeFits_of_none hnone)]
  | cons token rest ih =>
    cases token with
    | none =>
      rw [textOf_none] at htext
      rw [foldl_cons, readToken, readCut, ProseCutsFit]
      by_cases hkeep : mayBecomeStartTag held = true
      · rw [if_pos hkeep, if_pos hkeep]
        exact ih hlines hline hquiet htext hshown hheld (fun _ => hkeep) hlast.tail
      · rw [if_neg hkeep, if_neg hkeep]
        exact ih hlines hline hquiet htext (by rw [append_nil, hshown])
          nil_suffix (fun _ => mayBecome_nil) hlast.tail
    | some c =>
      rw [textOf_some] at htext
      rw [foldl_cons, readToken, readChar, ProseCutsFit]
      by_cases hc : c = '\n'
      · rw [hc, ← append_assoc] at htext
        rw [if_pos hc, if_pos hc]
        by_cases htaken : IsStart held
        · rw [if_pos htaken, if_pos htaken]
          by_cases hwhole : held = line
          · subst hwhole
            have hprose : shown = rawLines lines := append_cancel_right hshown
            rw [eq_self, true_and, hprose]
            by_cases hend : HasEnd (textOf rest)
            · have hnoStart : ∀ other ∈ lines, ¬ IsStart other := hquiet.resolve_right
                fun hnone => no_end_after_start hlines hline htaken (htext ▸ hnone) hend
              exact @body_agrees text lines [] held [] rest hlines hnoStart hline htaken
                (fun _ hmem => by cases hmem) (fun _ hmem => by cases hmem)
                (fun h => by cases h) htext hend (fun _ => by decide) hlast.tail
            · have hnone : firstLashlangCellSpan text = none := by
                rcases hquiet with hno | hnone
                · rw [htext]
                  exact span_none_of_no_end hlines hno hline hend
                · exact hnone
              rw [and_iff_left (codeFits_of_none hnone)]
              exact @body_agrees_of_none text (rawLines lines) [] [] lines held rest hnone
                htaken hline rfl htext (fun h => by cases h) hend
          · have hnot := @not_agreed_part lines line shown held (textOf rest) hline hshown
              hheld hwhole rest
            rw [← htext] at hnot
            exact ⟨fun h => absurd h hnot, fun h => absurd h.1.1 hwhole⟩
        · have hmore : shown ++ held ++ ['\n'] = rawLines (lines ++ [line]) := by
            rw [hshown]
            simp
          rw [if_neg htaken, if_neg htaken]
          by_cases hmissed : IsStart line ∧ HasEnd (textOf rest)
          · obtain ⟨hstart, hend⟩ := hmissed
            have hno : ∀ other ∈ lines, ¬ IsStart other := hquiet.resolve_right
              fun hnone => no_end_after_start hlines hline hstart (htext ▸ hnone) hend
            have hnot := @not_agreed_shown lines line (textOf rest) (shown ++ held ++ ['\n'])
              hlines hno hline hstart hend (by rw [hshown]) rest
            rw [← htext] at hnot
            exact ⟨fun h => absurd h hnot, fun h => absurd hend (h.1.1 hstart)⟩
          · have hfine : IsStart line → ¬ HasEnd (textOf rest) := fun hstart hend =>
              hmissed ⟨hstart, hend⟩
            have hquiet' : (∀ other ∈ lines ++ [line], ¬ IsStart other) ∨
                firstLashlangCellSpan text = none := by
              rcases hquiet with hno | hnone
              · by_cases hstart : IsStart line
                · rw [htext]
                  exact .inr (span_none_of_no_end hlines hno hline (hfine hstart))
                · refine .inl fun other hmem => ?_
                  rcases mem_append.mp hmem with hmem | hmem
                  · exact hno other hmem
                  · exact mem_singleton.mp hmem ▸ hstart
              · exact .inr hnone
            rw [and_iff_right hfine, hmore]
            refine ih (hlines.append (Plain.singleton hline)) (fun h => by cases h) hquiet' ?_
              rfl (suffix_refl _) (fun _ => mayBecome_nil) hlast.tail
            rw [htext]
            simp
      · rw [if_neg hc, if_neg hc]
        refine ih hlines (fun h => ?_) hquiet ?_ ?_ ?_ (fun h => absurd h hlast.ne_nil)
          hlast.tail
        · rcases mem_append.mp h with h | h
          · exact hline h
          · exact hc (mem_singleton.mp h).symm
        · rw [htext]
          simp
        · rw [← append_assoc, hshown, append_assoc]
        · obtain ⟨before, rfl⟩ := hheld
          exact ⟨before, by rw [append_assoc]⟩

/-! ## The mask against the parser -/

theorem agreesWith_of_holds {M : TurnProtocol} {detector : CellDetector}
    (h : Holds detector reading) (response : LlmResponse M) (text : List Char) :
    AgreesWith text reading.shown detector.cellClosed
        (detector.transformFinalResponse response).fullText.toList ↔ Agreed text reading := by
  have hopen : ∀ given : List Char, closed reading = false →
      (AgreesWith text reading.shown false given ↔ Agreed text reading) := by
    intro given hclosed
    unfold Agreed AgreesWith
    rw [hclosed]
    cases firstLashlangCellSpan text with
    | none => exact Iff.rfl
    | some span => exact ⟨fun h => (nomatch h.1), fun h => (nomatch h.1)⟩
  cases reading with
  | prose shown held | body shown body line =>
    rw [h.1]
    exact hopen _ rfl
  | closed shown body =>
    obtain ⟨hclosed, hshown, lines, -, -, -, hbody⟩ := h
    have hresponse : (detector.transformFinalResponse response).fullText.toList =
        renderLashlangCellText shown (strip body) := by
      unfold CellDetector.transformFinalResponse
      rw [hclosed, ← hshown, ← hbody]
      exact String.toList_ofList
    rw [hresponse, hclosed]
    exact Iff.rfl

/-- The mask agrees with the parser exactly where the cuts and the code fit. -/
theorem cellDetector_agrees_iff {M : TurnProtocol} (response : LlmResponse M)
    (chunks : List (List Char)) :
    let (visible, detector) := CellDetector.processChunks chunks CellDetector.new
    AgreesWith chunks.flatten visible detector.cellClosed
        (detector.transformFinalResponse response).fullText.toList ↔
      CutsFit chunks ∧ CodeFits chunks.flatten := by
  obtain ⟨hholds, hshown⟩ := processChunks_holds holds_new chunks
  have hagrees := agreesWith_of_holds hholds response chunks.flatten
  rw [hshown, Reading.shown, nil_append] at hagrees
  dsimp only
  rw [hagrees]
  refine @prose_agrees chunks.flatten [] [] [] [] (cutText chunks) (fun _ hmem => nomatch hmem)
    (fun h => nomatch h) (.inl fun _ hmem => nomatch hmem) ?_ rfl (suffix_refl _)
    (fun _ => mayBecome_nil) (endsWithCut_cutText chunks)
  exact (textOf_cutText chunks).symm

/-- A cut before a tag in the middle of a line makes a cell that the parser does not find. -/
theorem cellDetector_disagrees :
    ¬ ∀ (M : TurnProtocol) (response : LlmResponse M) (chunks : List (List Char)),
      let (visible, detector) := CellDetector.processChunks chunks CellDetector.new
      AgreesWith chunks.flatten visible detector.cellClosed
        (detector.transformFinalResponse response).fullText.toList := by
  intro h
  have hcase := h ⟨Unit, Unit, Unit, String, String, Unit⟩
    ⟨"", [], ⟨0, 0, 0, 0⟩, .stop, none, none, none⟩
    ["Use ".toList, "<lashlang>\nx\n</lashlang>".toList]
  have hnone : firstLashlangCellSpan
      ["Use ".toList, "<lashlang>\nx\n</lashlang>".toList].flatten = none := by
    decide
  have hclosed : (CellDetector.processChunks
      ["Use ".toList, "<lashlang>\nx\n</lashlang>".toList]
      CellDetector.new).2.cellClosed = true := by
    decide
  unfold AgreesWith at hcase
  rw [hnone] at hcase
  exact Bool.false_ne_true (hcase.1.symm.trans hclosed)

end StreamAgreement
