import Lash.LashlangCells

/-!
# Masking the cell in the stream of a response

Chunks of a response are shown as they come, except for what could still become a start tag.
Once the line of a start tag is complete nothing is shown any more, and the stream is aborted
as soon as the closing tag is there. The response is then put together again from the shown
prose and the body of the cell.
-/

namespace StreamMasks

open TurnProtocols LashlangCells

structure CellDetector where
  pending : List Char
  insideCell : Bool
  cellClosed : Bool
  emittedStart : Bool
  emittedEnd : Bool
  visibleProse : List Char
  cellBody : List Char
deriving DecidableEq

structure AssistantStreamTransform where
  chunk : List Char
  reasoningDeltas : List String
  events : List String
  abortStream : Bool
deriving DecidableEq

namespace CellDetector

def new : CellDetector := ⟨[], false, false, false, false, [], []⟩

def splicedResponseText (detector : CellDetector) : List Char :=
  renderLashlangCellText detector.visibleProse detector.cellBody

def nothing : AssistantStreamTransform := ⟨[], [], [], false⟩

def captureCellBodyChunk (chunk visibleChunk : List Char) (events : List String)
    (detector : CellDetector) : AssistantStreamTransform × CellDetector :=
  let body := detector.cellBody ++ chunk
  match completeLashlangEndTagSpan body true with
  | some span =>
    (⟨visibleChunk, [], events ++ ["rlm_lashlang_cell_end"], true⟩,
      { detector with cellBody := body.take span.bodyEnd, cellClosed := true,
                      emittedEnd := true })
  | none => (⟨visibleChunk, [], events, false⟩, { detector with cellBody := body })

def processChunk (chunk : List Char) (detector : CellDetector) :
    AssistantStreamTransform × CellDetector :=
  if detector.cellClosed then (nothing, detector)
  else if detector.insideCell then captureCellBodyChunk chunk [] [] detector
  else
    let pending := detector.pending ++ chunk
    match completeLashlangStartTagSpan pending with
    | some span =>
      let proseBefore := pending.take span.startTagStart
      let bodySuffix := (pending.take span.bodyEnd).drop span.bodyStart
      captureCellBodyChunk bodySuffix proseBefore ["rlm_lashlang_cell_start"]
        { detector with insideCell := true, pending := [], emittedStart := true,
                        visibleProse := detector.visibleProse ++ proseBefore }
    | none =>
      let safeLen := pending.length - possibleLashlangStartTagSuffixLen pending
      if safeLen = 0 then (nothing, { detector with pending := pending })
      else
        (⟨pending.take safeLen, [], [], false⟩,
          { detector with pending := pending.drop safeLen,
                          visibleProse := detector.visibleProse ++ pending.take safeLen })

/-- The detector after a stream of chunks, and what it let through. -/
def processChunks : List (List Char) → CellDetector → List Char × CellDetector
  | [], detector => ([], detector)
  | chunk :: chunks, detector =>
    let (transform, detector) := detector.processChunk chunk
    let (visible, detector) := processChunks chunks detector
    (transform.chunk ++ visible, detector)

def isText : LlmOutputPart → Bool
  | .text .. => true
  | _ => false

def transformFinalResponse {M : TurnProtocol} (detector : CellDetector)
    (response : LlmResponse M) : LlmResponse M :=
  if !detector.cellClosed then response
  else
    let spliced := String.ofList detector.splicedResponseText
    { response with
      fullText := spliced
      parts := response.parts.filter (fun part => !isText part) ++ [.text spliced none] }

end CellDetector

end StreamMasks
