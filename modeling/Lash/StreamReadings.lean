import Lash.SplicedCells
import Lash.StreamMasks

/-!
# Reading a stream character by character

A text is cut into chunks: a stream of characters and cuts. Read one by one, a character adds
to what is held of the current line, a line feed decides the line, and a cut shows what is held
unless it may become a start tag. The detector, which takes whole chunks and scans them from
their start, does the same.
-/

namespace StreamReadings

open LashlangCells StreamMasks TaggedLines List Bool CellDetector

inductive Reading where
  | prose (shown held : List Char)
  | body (shown body line : List Char)
  | closed (shown body : List Char)
deriving DecidableEq

def Reading.shown : Reading → List Char
  | .prose shown _ | .body shown _ _ | .closed shown _ => shown

def readChar (c : Char) : Reading → Reading
  | .prose shown held =>
    if c = '\n' then
      if IsStart held then .body shown [] []
      else .prose (shown ++ held ++ ['\n']) []
    else .prose shown (held ++ [c])
  | .body shown body line =>
    if c = '\n' then
      if IsEnd line then .closed shown body else .body shown (body ++ line ++ ['\n']) []
    else .body shown body (line ++ [c])
  | .closed shown body => .closed shown body

def readCut : Reading → Reading
  | .prose shown held =>
    if mayBecomeStartTag held then .prose shown held else .prose (shown ++ held) []
  | .body shown body line =>
    if IsEnd line then .closed shown body else .body shown body line
  | .closed shown body => .closed shown body

/-- A cut is `none`. -/
def readToken (reading : Reading) : Option Char → Reading
  | some c => readChar c reading
  | none => readCut reading

def readChars (reading : Reading) (text : List Char) : Reading :=
  text.foldl (fun reading c => readChar c reading) reading

def cutText (chunks : List (List Char)) : List (Option Char) :=
  chunks.flatMap fun chunk => chunk.map some ++ [none]

/-! ## Whole lines -/

theorem readChars_append (reading : Reading) (first second : List Char) :
    readChars reading (first ++ second) = readChars (readChars reading first) second :=
  List.foldl_append

theorem readChars_closed (shown body text : List Char) :
    readChars (.closed shown body) text = .closed shown body := by
  induction text with
  | nil => rfl
  | cons c rest ih => exact ih

variable {text : List Char}

theorem readChars_held (h : '\n' ∉ text) (shown held : List Char) :
    readChars (.prose shown held) text = .prose shown (held ++ text) := by
  induction text generalizing held with
  | nil => simp [readChars]
  | cons c rest ih =>
    have hc : c ≠ '\n' := fun heq => h (heq ▸ mem_cons_self)
    have hrest := ih (fun hmem => h (mem_cons_of_mem _ hmem)) (held ++ [c])
    rw [append_assoc, singleton_append] at hrest
    rw [← hrest, readChars, foldl_cons, readChar, if_neg hc]
    rfl

theorem readChars_line (h : '\n' ∉ text) (shown body line : List Char) :
    readChars (.body shown body line) text = .body shown body (line ++ text) := by
  induction text generalizing line with
  | nil => simp [readChars]
  | cons c rest ih =>
    have hc : c ≠ '\n' := fun heq => h (heq ▸ mem_cons_self)
    have hrest := ih (fun hmem => h (mem_cons_of_mem _ hmem)) (line ++ [c])
    rw [append_assoc, singleton_append] at hrest
    rw [← hrest, readChars, foldl_cons, readChar, if_neg hc]
    rfl

variable {lines : List (List Char)}

theorem readChars_prose (hplain : Plain lines) (hnone : ∀ line ∈ lines, ¬ IsStart line)
    (shown rest : List Char) :
    readChars (.prose shown []) (rawLines lines ++ rest) =
      readChars (.prose (shown ++ rawLines lines) []) rest := by
  induction lines generalizing shown with
  | nil => simp
  | cons line lines ih =>
    have hline := readChars_held (hplain line mem_cons_self) shown []
    rw [rawLines_cons, append_assoc, readChars_append, hline, nil_append, cons_append]
    have hfeed : ∀ text, readChars (.prose shown line) ('\n' :: text) =
        readChars (.prose (shown ++ line ++ ['\n']) []) text := fun text => by
      rw [readChars, foldl_cons, readChar, if_pos rfl, if_neg (hnone line mem_cons_self)]
      rfl
    rw [hfeed, ih (fun other hmem => hplain other (mem_cons_of_mem _ hmem))
      fun other hmem => hnone other (mem_cons_of_mem _ hmem)]
    simp

variable {line : List Char}

theorem readChars_start (hplain : '\n' ∉ line) (hstart : IsStart line) (shown rest : List Char) :
    readChars (.prose shown []) (line ++ '\n' :: rest) = readChars (.body shown [] []) rest := by
  rw [readChars_append, readChars_held hplain, nil_append, readChars, foldl_cons,
    readChar, if_pos rfl, if_pos hstart]
  rfl

theorem readChars_body (hplain : Plain lines) (hnone : ∀ line ∈ lines, ¬ IsEnd line)
    (shown body rest : List Char) :
    readChars (.body shown body []) (rawLines lines ++ rest) =
      readChars (.body shown (body ++ rawLines lines) []) rest := by
  induction lines generalizing body with
  | nil => simp
  | cons line lines ih =>
    have hline := readChars_line (hplain line mem_cons_self) shown body []
    rw [rawLines_cons, append_assoc, readChars_append, hline, nil_append, cons_append]
    have hfeed : ∀ text, readChars (.body shown body line) ('\n' :: text) =
        readChars (.body shown (body ++ line ++ ['\n']) []) text := fun text => by
      rw [readChars, foldl_cons, readChar, if_pos rfl, if_neg (hnone line mem_cons_self)]
      rfl
    rw [hfeed, ih (fun other hmem => hplain other (mem_cons_of_mem _ hmem))
      fun other hmem => hnone other (mem_cons_of_mem _ hmem)]
    simp

theorem readChars_end (hplain : '\n' ∉ line) (hend : IsEnd line) (shown body rest : List Char) :
    readChars (.body shown body []) (line ++ '\n' :: rest) = .closed shown body := by
  rw [readChars_append, readChars_line hplain, nil_append, readChars, foldl_cons,
    readChar, if_pos rfl, if_pos hend]
  exact readChars_closed shown body rest

/-! ## The scans of the detector -/

theorem mayBecome_no_feed (h : mayBecomeStartTag text = true) : '\n' ∉ text := by
  intro hmem
  have hsplit := mem_append.mp
    ((@List.takeWhile_append_dropWhile _ (fun c => c == ' ' || c == '\t') text).symm ▸ hmem)
  have hdrop : '\n' ∈ text.dropWhile fun c => c == ' ' || c == '\t' := by
    rcases hsplit with hleft | hright
    · have hblank := mem_takeWhile_imp hleft
      simp at hblank
    · exact hright
  unfold mayBecomeStartTag at h
  dsimp only at h
  rw [or_eq_true] at h
  rcases h with h | h
  · rw [isEmpty_iff.mp h] at hdrop
    exact nomatch hdrop
  · have hstart := isPrefixOf_iff_prefix.mp h
    have hin := hstart.subset hdrop
    have hout : '\n' ∉ lashlangStartTag := by decide
    exact hout hin

theorem suffixLen_plain (h : '\n' ∉ text) : possibleSuffixLenFrom false text = 0 := by
  induction text with
  | nil => rfl
  | cons c rest ih =>
    have hc : (c == '\n') = false := by
      rw [beq_eq_false_iff_ne]
      exact fun heq => h (heq ▸ mem_cons_self)
    rw [possibleSuffixLenFrom, Bool.false_and, if_neg Bool.false_ne_true, hc]
    exact ih fun hmem => h (mem_cons_of_mem _ hmem)

theorem suffixLen_feed (h : '\n' ∉ line) (lineStart : Bool) (rest : List Char) :
    possibleSuffixLenFrom lineStart (line ++ '\n' :: rest) = possibleSuffixLenFrom true rest := by
  have hfeed : ∀ (atStart : Bool) (text : List Char),
      (atStart && mayBecomeStartTag (text ++ '\n' :: rest)) = false := by
    intro atStart text
    rw [and_eq_false_iff]
    refine .inr (eq_false_iff.mpr fun hmay => mayBecome_no_feed hmay ?_)
    exact mem_append_right _ mem_cons_self
  induction line generalizing lineStart with
  | nil =>
    have hnil := hfeed lineStart []
    rw [nil_append] at hnil ⊢
    rw [possibleSuffixLenFrom, hnil, if_neg Bool.false_ne_true]
    rfl
  | cons c line ih =>
    have hc : (c == '\n') = false := by
      rw [beq_eq_false_iff_ne]
      exact fun heq => h (heq ▸ mem_cons_self)
    have hcons := hfeed lineStart (c :: line)
    rw [cons_append] at hcons ⊢
    rw [possibleSuffixLenFrom, hcons, if_neg Bool.false_ne_true, hc]
    exact ih (fun hmem => h (mem_cons_of_mem _ hmem)) false

/-- What may become a start tag is all or nothing of the last line. -/
theorem suffixLen_lines {last : List Char} (hplain : Plain lines) (hlast : '\n' ∉ last) :
    possibleLashlangStartTagSuffixLen (rawLines lines ++ last) =
      if mayBecomeStartTag last then last.length else 0 := by
  unfold possibleLashlangStartTagSuffixLen
  induction lines with
  | nil =>
    cases last with
    | nil => rfl
    | cons c rest =>
      have hc : (c == '\n') = false := by
        rw [beq_eq_false_iff_ne]
        exact fun heq => hlast (heq ▸ mem_cons_self)
      rw [rawLines_nil, List.nil_append, possibleSuffixLenFrom, Bool.true_and, hc,
        suffixLen_plain fun hmem => hlast (mem_cons_of_mem _ hmem)]
  | cons line lines ih =>
    rw [rawLines_cons, append_assoc, cons_append, suffixLen_feed (hplain line mem_cons_self)]
    exact ih fun other hmem => hplain other (mem_cons_of_mem _ hmem)

theorem completeStart_skip (h : ∀ line ∈ lines, ¬ IsStart line) (textLen pos : Nat)
    (rest : List LogicalLine) :
    completeStartTagFrom textLen pos (lines.map complete ++ rest) =
      completeStartTagFrom textLen (pos + (rawLines lines).length) rest := by
  induction lines generalizing pos with
  | nil => rfl
  | cons line lines ih =>
    rw [map_cons, cons_append, completeStartTagFrom, complete_raw, complete]
    dsimp only
    rw [Bool.not_true, if_neg Bool.false_ne_true, if_neg (h line List.mem_cons_self),
      ih fun other hmem => h other (mem_cons_of_mem _ hmem), rawLines_cons]
    congr 1
    simp only [length_append, length_cons, length_nil]
    omega

theorem completeStart_none {last : List Char} (hplain : Plain lines)
    (hnone : ∀ line ∈ lines, ¬ IsStart line) (hlast : '\n' ∉ last) :
    completeLashlangStartTagSpan (rawLines lines ++ last) = none := by
  rw [completeLashlangStartTagSpan, logicalLines_rawLines hplain, logicalLines_single hlast,
    completeStart_skip hnone, completeStartTagFrom]
  rfl

theorem completeStart_some {start : List Char} (hplain : Plain lines)
    (hnone : ∀ line ∈ lines, ¬ IsStart line) (hline : '\n' ∉ start) (hstart : IsStart start)
    (rest : List Char) :
    ∃ span, completeLashlangStartTagSpan (rawLines lines ++ (start ++ '\n' :: rest)) = some span ∧
      (rawLines lines ++ (start ++ '\n' :: rest)).take span.startTagStart = rawLines lines ∧
      ((rawLines lines ++ (start ++ '\n' :: rest)).take span.bodyEnd).drop span.bodyStart =
        rest := by
  refine ⟨⟨(rawLines lines).length, (rawLines lines).length + (start ++ ['\n']).length,
    (rawLines lines ++ (start ++ '\n' :: rest)).length⟩, ?_, take_left' rfl, ?_⟩
  · rw [completeLashlangStartTagSpan, logicalLines_rawLines hplain, logicalLines_line hline,
      completeStart_skip hnone, completeStartTagFrom, complete_raw, complete]
    dsimp only
    rw [Bool.not_true, if_neg Bool.false_ne_true, if_pos hstart, Nat.zero_add]
  · have hsplit : rawLines lines ++ (start ++ '\n' :: rest) =
        (rawLines lines ++ (start ++ ['\n'])) ++ rest := by simp
    rw [take_length, hsplit, drop_left' length_append]

theorem completeEnd_none (h : ¬ HasEnd text) (allowEof : Bool) :
    completeLashlangEndTagSpan text allowEof = none := by
  rw [completeLashlangEndTagSpan, firstEnd_none fun line hmem hend => h ⟨line, hmem, hend⟩]
  rfl

theorem completeEnd_some {stop tail : List Char} (hplain : Plain lines)
    (hnone : ∀ line ∈ lines, ¬ IsEnd line) (hstop : '\n' ∉ stop) (hend : IsEnd stop)
    (htail : tail = [] ∨ ∃ rest, tail = '\n' :: rest) :
    ∃ span, completeLashlangEndTagSpan (rawLines lines ++ (stop ++ tail)) true = some span ∧
      (rawLines lines ++ (stop ++ tail)).take span.bodyEnd = strip (rawLines lines) := by
  have hlines : ∃ terminated rest, logicalLines (stop ++ tail) = ⟨stop, terminated⟩ :: rest := by
    rcases htail with rfl | ⟨rest, rfl⟩
    · rw [append_nil, logicalLines_single hstop]
      exact ⟨false, [], rfl⟩
    · rw [logicalLines_line hstop]
      exact ⟨true, logicalLines rest, rfl⟩
  obtain ⟨terminated, rest, hlines⟩ := hlines
  have hbody : sourceBodyEnd (rawLines lines ++ (stop ++ tail)) 0 (rawLines lines).length =
      sourceBodyEnd (rawLines lines) 0 (rawLines lines).length := by
    unfold sourceBodyEnd
    rw [take_left' rfl, take_length]
  refine ⟨⟨0, 0, sourceBodyEnd (rawLines lines ++ (stop ++ tail)) 0 (rawLines lines).length,
    (rawLines lines).length, (rawLines lines).length +
      (LogicalLine.raw ⟨stop, terminated⟩).length⟩, ?_, ?_⟩
  · rw [completeLashlangEndTagSpan, logicalLines_rawLines hplain, hlines, firstEnd_skip hnone,
      firstLashlangEndTagAfter, if_pos ⟨hend, or_true _⟩, Nat.zero_add]
    rfl
  · dsimp only
    rw [hbody, take_append_of_le_length (sourceBodyEnd_le _ _ _)]
    rfl

/-! ## The detector reads the stream -/

/-- What a detector between two chunks holds of a reading. -/
def Holds (detector : CellDetector) : Reading → Prop
  | .prose shown held =>
    detector.cellClosed = false ∧ detector.insideCell = false ∧
      detector.visibleProse = shown ∧ detector.pending = held ∧ detector.cellBody = [] ∧
      '\n' ∉ held
  | .body shown body line =>
    detector.cellClosed = false ∧ detector.insideCell = true ∧
      detector.visibleProse = shown ∧ detector.cellBody = body ++ line ∧ '\n' ∉ line ∧
      ∃ lines, Plain lines ∧ (∀ earlier ∈ lines, ¬ IsEnd earlier) ∧ body = rawLines lines
  | .closed shown body =>
    detector.cellClosed = true ∧ detector.visibleProse = shown ∧
      ∃ lines, Plain lines ∧ (∀ line ∈ lines, ¬ IsEnd line) ∧ body = rawLines lines ∧
        detector.cellBody = strip body

theorem holds_new : Holds CellDetector.new (.prose [] []) :=
  ⟨rfl, rfl, rfl, rfl, rfl, fun h => nomatch h⟩

variable {detector : CellDetector}

theorem captureCellBodyChunk_holds {chunk : List Char} (hopen : detector.cellClosed = false)
    (hinside : detector.insideCell = true) (hplain : Plain lines)
    (hnone : ∀ line ∈ lines, ¬ IsEnd line)
    (hbody : detector.cellBody ++ chunk = rawLines lines ++ text) (visible : List Char)
    (events : List String) :
    (captureCellBodyChunk chunk visible events detector).1.chunk = visible ∧
      Holds (captureCellBodyChunk chunk visible events detector).2
        (readCut (readChars (.body detector.visibleProse (rawLines lines) []) text)) ∧
      (readCut (readChars (.body detector.visibleProse (rawLines lines) []) text)).shown =
        detector.visibleProse := by
  obtain ⟨more, last, hmore, hlast, rfl⟩ := exists_lines text
  have hclosed : ∀ {before : List (List Char)} {stop tail : List Char}, Plain before →
      (∀ line ∈ before, ¬ IsEnd line) → '\n' ∉ stop → IsEnd stop →
      (tail = [] ∨ ∃ rest, tail = '\n' :: rest) →
      rawLines more ++ last = rawLines before ++ (stop ++ tail) →
      (captureCellBodyChunk chunk visible events detector).1.chunk = visible ∧
      Holds (captureCellBodyChunk chunk visible events detector).2
        (.closed detector.visibleProse (rawLines (lines ++ before))) := by
    intro before stop tail hbefore hno hstop hend htail heq
    have hall : ∀ line ∈ lines ++ before, ¬ IsEnd line := fun line hmem =>
      (mem_append.mp hmem).elim (hnone line) (hno line)
    obtain ⟨span, hspan, htake⟩ := completeEnd_some (hplain.append hbefore) hall hstop hend htail
    have hsplit : detector.cellBody ++ chunk = rawLines (lines ++ before) ++ (stop ++ tail) := by
      rw [hbody, heq, rawLines_append, append_assoc]
    unfold captureCellBodyChunk
    dsimp only
    rw [hsplit, hspan]
    exact ⟨rfl, rfl, rfl, lines ++ before, hplain.append hbefore, hall, rfl, htake⟩
  rcases first_or_none IsEnd more with hno | ⟨before, stop, after, rfl, hend, hno⟩
  · rw [readChars_body hmore hno, readChars_line hlast, nil_append]
    by_cases hend : IsEnd last
    · rw [readCut, if_pos hend]
      obtain ⟨hvisible, hholds⟩ := hclosed hmore hno hlast hend (.inl rfl) (by rw [append_nil])
      rw [rawLines_append] at hholds
      exact ⟨hvisible, hholds, rfl⟩
    · rw [readCut, if_neg hend]
      have hall : ∀ line ∈ lines ++ more, ¬ IsEnd line := fun line hmem =>
        (mem_append.mp hmem).elim (hnone line) (hno line)
      have habsent : ¬ HasEnd (detector.cellBody ++ chunk) := by
        rw [hbody, ← append_assoc, ← rawLines_append,
          hasEnd_rawLines (hplain.append hmore), hasEnd_single hlast]
        rintro (⟨line, hmem, hline⟩ | hline)
        · exact hall line hmem hline
        · exact hend hline
      unfold captureCellBodyChunk
      dsimp only
      rw [completeEnd_none habsent]
      refine ⟨rfl, ⟨hopen, hinside, rfl, ?_, hlast, lines ++ more, hplain.append hmore, hall,
        (rawLines_append _ _).symm⟩, rfl⟩
      rw [hbody, append_assoc]
  · obtain ⟨hbefore, hrest⟩ := hmore.of_append
    have hstop := hrest stop mem_cons_self
    have hsplit : rawLines (before ++ stop :: after) ++ last =
        rawLines before ++ (stop ++ '\n' :: (rawLines after ++ last)) := by simp
    rw [hsplit, readChars_body hbefore hno, readChars_end hstop hend, readCut]
    obtain ⟨hvisible, hholds⟩ := hclosed hbefore hno hstop hend (.inr ⟨_, rfl⟩) hsplit
    rw [rawLines_append] at hholds
    exact ⟨hvisible, hholds, rfl⟩

variable {reading : Reading}

/-- A chunk is read character by character, and then there is a cut. -/
theorem processChunk_holds (h : Holds detector reading) (chunk : List Char) :
    Holds (detector.processChunk chunk).2 (readCut (readChars reading chunk)) ∧
      (readCut (readChars reading chunk)).shown =
        reading.shown ++ (detector.processChunk chunk).1.chunk := by
  cases reading with
  | closed shown body =>
    have hsame : detector.processChunk chunk = (nothing, detector) := by
      rw [processChunk, if_pos h.1]
    rw [hsame, readChars_closed, readCut]
    exact ⟨h, (append_nil _).symm⟩
  | body shown body line =>
    obtain ⟨hopen, hinside, rfl, hbody, hline, lines, hplain, hnone, rfl⟩ := h
    have hsame : detector.processChunk chunk = captureCellBodyChunk chunk [] [] detector := by
      rw [processChunk, if_neg (by rw [hopen]; exact false_ne_true), if_pos hinside]
    have hread : readChars (.body detector.visibleProse (rawLines lines) line) chunk =
        readChars (.body detector.visibleProse (rawLines lines) []) (line ++ chunk) := by
      rw [readChars_append, readChars_line hline, nil_append]
    obtain ⟨hvisible, hholds, hshown⟩ := captureCellBodyChunk_holds hopen hinside hplain hnone
      (by rw [hbody, append_assoc] : detector.cellBody ++ chunk = _) [] []
    rw [hsame, hread, hvisible, hshown]
    exact ⟨hholds, (append_nil _).symm⟩
  | prose shown held =>
    obtain ⟨hopen, hinside, rfl, rfl, hbody, hheld⟩ := h
    have hread : readChars (.prose detector.visibleProse detector.pending) chunk =
        readChars (.prose detector.visibleProse []) (detector.pending ++ chunk) := by
      rw [readChars_append, readChars_held hheld, nil_append]
    rw [hread, processChunk, if_neg (by rw [hopen]; exact false_ne_true),
      if_neg (by rw [hinside]; exact false_ne_true)]
    obtain ⟨lines, last, hplain, hlast, htext⟩ := exists_lines (detector.pending ++ chunk)
    dsimp only
    rw [htext]
    rcases first_or_none IsStart lines with hnone | ⟨before, start, after, rfl, hstart, hnone⟩
    · rw [completeStart_none hplain hnone hlast, suffixLen_lines hplain hlast,
        readChars_prose hplain hnone, readChars_held hlast, nil_append, length_append]
      dsimp only
      by_cases hmay : mayBecomeStartTag last = true
      · rw [if_pos hmay, readCut, if_pos hmay, Nat.add_sub_cancel]
        split
        next hzero =>
          have hlines : rawLines lines = [] := eq_nil_of_length_eq_zero hzero
          rw [hlines, append_nil, nil_append]
          exact ⟨⟨hopen, hinside, rfl, rfl, hbody, hlast⟩, (append_nil _).symm⟩
        next =>
          rw [take_left' rfl, drop_left' rfl]
          exact ⟨⟨hopen, hinside, rfl, rfl, hbody, hlast⟩, rfl⟩
      · have hpos : (rawLines lines).length + last.length ≠ 0 := by
          intro hzero
          have hnil : last = [] := eq_nil_of_length_eq_zero (Nat.add_eq_zero_iff.mp hzero).2
          rw [hnil] at hmay
          exact hmay rfl
        have hall : (rawLines lines ++ last).length = (rawLines lines).length + last.length :=
          length_append
        rw [if_neg hmay, readCut, if_neg hmay, Nat.sub_zero, if_neg hpos, ← hall,
          take_length, drop_length]
        exact ⟨⟨hopen, hinside, (append_assoc _ _ _).symm, rfl, hbody, fun h => nomatch h⟩,
          append_assoc _ _ _⟩
    · obtain ⟨hbefore, hrest⟩ := hplain.of_append
      have hline := hrest start mem_cons_self
      have hsplit : rawLines (before ++ start :: after) ++ last =
          rawLines before ++ (start ++ '\n' :: (rawLines after ++ last)) := by simp
      obtain ⟨span, hspan, htake, hsuffix⟩ :=
        completeStart_some hbefore hnone hline hstart (rawLines after ++ last)
      rw [hsplit, hspan, readChars_prose hbefore hnone, readChars_start hline hstart]
      dsimp only
      rw [htake, hsuffix]
      obtain ⟨hvisible, hholds, hshown⟩ := @captureCellBodyChunk_holds
        (rawLines after ++ last) []
        { detector with insideCell := true, pending := [], emittedStart := true,
                        visibleProse := detector.visibleProse ++ rawLines before }
        (rawLines after ++ last) hopen rfl
        (fun _ hmem => nomatch hmem) (fun _ hmem => nomatch hmem)
        (by rw [hbody]; rfl) (rawLines before) ["rlm_lashlang_cell_start"]
      refine ⟨hholds, ?_⟩
      rw [hvisible]
      exact hshown

theorem readChars_eq (reading : Reading) (text : List Char) :
    (text.map some).foldl readToken reading = readChars reading text := by
  rw [foldl_map]
  rfl

/-- After every stream of chunks the detector is where reading the cut text leads. -/
theorem processChunks_holds (h : Holds detector reading) (chunks : List (List Char)) :
    Holds (processChunks chunks detector).2
        ((cutText chunks).foldl readToken reading) ∧
      ((cutText chunks).foldl readToken reading).shown =
        reading.shown ++ (processChunks chunks detector).1 := by
  induction chunks generalizing detector reading with
  | nil => exact ⟨h, (append_nil _).symm⟩
  | cons chunk chunks ih =>
    obtain ⟨hholds, hshown⟩ := processChunk_holds h chunk
    obtain ⟨hrest, hrestShown⟩ := ih hholds
    have hread : (cutText (chunk :: chunks)).foldl readToken reading =
        (cutText chunks).foldl readToken (readCut (readChars reading chunk)) := by
      rw [cutText, flatMap_cons, foldl_append, foldl_append, readChars_eq]
      rfl
    rw [hread]
    refine ⟨hrest, ?_⟩
    rw [hrestShown, hshown, append_assoc]
    rfl

end StreamReadings
