import Lash.TurnProtocols

/-!
# The paired tags of a cell

A response may hold prose, then a line that is the start tag, then source, then a
line that is the end tag. The scans step through the lines of a text; a line is
a tag if it is one once the white space around it is gone. Texts are lists of
characters, so offsets count characters where the source counts bytes.
-/

namespace LashlangCells

open TurnProtocols

def lashlangStartTag : List Char := "<lashlang>".toList

def lashlangEndTag : List Char := "</lashlang>".toList

variable (text : List Char)

def trimEndChars : List Char :=
  (text.reverse.dropWhile isWhitespace).reverse

def trimChars : List Char :=
  trimEndChars (text.dropWhile isWhitespace)

/-- A line without the terminator that ended it, if one did. -/
structure LogicalLine where
  text : List Char
  hasTerminator : Bool
  deriving DecidableEq

/-- The characters of a line, its terminator included. -/
def LogicalLine.raw (line : LogicalLine) : List Char :=
  line.text ++ if line.hasTerminator then ['\n'] else []

/-- The lines of a text, one after another; only the last has no terminator, and it
may be empty. -/
def logicalLines : List Char → List LogicalLine
  | [] => [⟨[], false⟩]
  | c :: rest =>
    if c = '\n' then ⟨[], true⟩ :: logicalLines rest
    else match logicalLines rest with
      | [] => [⟨[c], false⟩]
      | line :: lines => { line with text := c :: line.text } :: lines

structure EndTagLine where
  lineStart : Nat
  nextPos : Nat
  deriving DecidableEq

structure LashlangStartTagSpan where
  startTagStart : Nat
  bodyStart : Nat
  bodyEnd : Nat
  deriving DecidableEq

structure LashlangCellSpan where
  startTagStart : Nat
  bodyStart : Nat
  bodyEnd : Nat
  endTagStart : Nat
  endTagEnd : Nat
  deriving DecidableEq

/-- The first end tag among the lines, of which the first starts at `pos`. -/
def firstLashlangEndTagAfter (allowEof : Bool) : Nat → List LogicalLine → Option EndTagLine
  | _, [] => none
  | pos, line :: lines =>
    if trimChars line.text = lashlangEndTag ∧ (line.hasTerminator || allowEof) then
      some ⟨pos, pos + line.raw.length⟩
    else firstLashlangEndTagAfter allowEof (pos + line.raw.length) lines

/-- The end of the source: the terminator before the end tag is not part of it. -/
def sourceBodyEnd (bodyStart endTagStart : Nat) : Nat :=
  if endTagStart ≤ bodyStart then endTagStart
  else if ['\r', '\n'].isSuffixOf (text.take endTagStart) then endTagStart - 2
  else if ['\n'].isSuffixOf (text.take endTagStart) then endTagStart - 1
  else endTagStart

def firstLashlangCellSpanFrom (text : List Char) :
    Nat → List LogicalLine → Option LashlangCellSpan
  | _, [] => none
  | pos, line :: lines =>
    let bodyStart := pos + line.raw.length
    match (if trimChars line.text = lashlangStartTag ∧ line.hasTerminator then
        firstLashlangEndTagAfter true bodyStart lines
      else none) with
    | some tag =>
      some
        { startTagStart := pos
          bodyStart := bodyStart
          bodyEnd := sourceBodyEnd text bodyStart tag.lineStart
          endTagStart := tag.lineStart
          endTagEnd := tag.nextPos }
    | none => firstLashlangCellSpanFrom text bodyStart lines

/-- The first complete cell of a text. -/
def firstLashlangCellSpan : Option LashlangCellSpan :=
  firstLashlangCellSpanFrom text 0 (logicalLines text)

/-- One paired block, as it is written. -/
def renderLashlangCellText (prose code : List Char) : List Char :=
  let prose := trimEndChars prose
  (if prose.isEmpty then [] else prose ++ ['\n']) ++ lashlangStartTag ++ ['\n'] ++ code ++
    ['\n'] ++ lashlangEndTag

/-- Whether a line that has only come this far may still become a start tag. -/
def mayBecomeStartTag (suffix : List Char) : Bool :=
  let trimmed := suffix.dropWhile fun c => c == ' ' || c == '\t'
  trimmed.isEmpty || trimmed.isPrefixOf lashlangStartTag

def possibleSuffixLenFrom (lineStart : Bool) : List Char → Nat
  | [] => 0
  | c :: rest =>
    if lineStart && mayBecomeStartTag (c :: rest) then (c :: rest).length
    else possibleSuffixLenFrom (c == '\n') rest

/-- The length of a suffix that could still become a start tag line. -/
def possibleLashlangStartTagSuffixLen : Nat :=
  possibleSuffixLenFrom true text

def completeStartTagFrom (textLen : Nat) :
    Nat → List LogicalLine → Option LashlangStartTagSpan
  | _, [] => none
  | pos, line :: lines =>
    if !line.hasTerminator then none
    else if trimChars line.text = lashlangStartTag then
      some ⟨pos, pos + line.raw.length, textLen⟩
    else completeStartTagFrom textLen (pos + line.raw.length) lines

/-- A start tag whose line is complete. -/
def completeLashlangStartTagSpan : Option LashlangStartTagSpan :=
  completeStartTagFrom text.length 0 (logicalLines text)

/-- A closing tag inside the body of a cell, at its very end too with `allowEof`. -/
def completeLashlangEndTagSpan (allowEof : Bool) : Option LashlangCellSpan :=
  (firstLashlangEndTagAfter allowEof 0 (logicalLines text)).map fun tag =>
    { startTagStart := 0
      bodyStart := 0
      bodyEnd := sourceBodyEnd text 0 tag.lineStart
      endTagStart := tag.lineStart
      endTagEnd := tag.nextPos }

structure CellExtraction where
  prose : List Char
  code : List Char
  lashlangCellCount : Nat
  deriving DecidableEq

inductive CellExtractionError where
  | multipleCells
  | trailingText
  deriving DecidableEq

def CellExtractionError.message : CellExtractionError → String
  | .multipleCells =>
    "Model response contained multiple `<lashlang>...</lashlang>` blocks. Reply with " ++
      "exactly one paired block."
  | .trailingText =>
    "Model response contained non-whitespace text after the `</lashlang>` block. Put " ++
      "all prose before the block, or omit the block for a final prose answer when allowed."

/-- The only cell of a response, if it has one and nothing but white space follows. -/
def extractLashlangCell : Except CellExtractionError (Option CellExtraction) :=
  match firstLashlangCellSpan text with
  | none => .ok none
  | some span =>
    let trailing := text.drop span.endTagEnd
    if trimChars trailing ≠ [] then
      .error (if (firstLashlangCellSpan trailing).isSome then .multipleCells
        else .trailingText)
    else
      .ok (some
        { prose := trimEndChars (text.take span.startTagStart)
          code := (text.take span.bodyEnd).drop span.bodyStart
          lashlangCellCount := 1 })

example : extractLashlangCell "Go\n <lashlang>\r\nfinish 1\r\n</lashlang> ".toList =
    .ok (some ⟨"Go".toList, "finish 1".toList, 1⟩) := by decide

end LashlangCells
