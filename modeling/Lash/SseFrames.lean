import Lash.LashlangCells
import Lash.SessionCursors

/-!
# Server-sent events from a stream of bytes

A response comes in pieces that may end within a line or a character. The buffer keeps the bytes
behind the last line end, so the events are those of the undivided stream.
-/

namespace SseFrames

open LashlangCells (trimChars)
open SessionCursors (stripFront)

structure SseBuffer where
  pending : List UInt8
  eventData : List Char

def SseBuffer.new : SseBuffer := ⟨[], []⟩

def pushData (eventData data : List Char) : List Char :=
  (if eventData.isEmpty then [] else eventData ++ ['\n']) ++ trimChars data

/-- Whether a complete line ends the event, and what is then held of it. -/
def consumeLine (line eventData : List Char) : Bool × List Char :=
  match stripFront "data:".toList line with
  | some data => (false, pushData eventData data)
  | none =>
    if "event:".toList.isPrefixOf line then (false, eventData)
    else ((trimChars line).isEmpty, eventData)

/-- A line without the carriage return before its end. -/
def withoutCr (line : List UInt8) : List UInt8 :=
  if line.getLast? = some 13 then line.dropLast else line

-- `decode` is `String::from_utf8_lossy`; the handler may fail and have effects.
variable {m : Type → Type} [Monad m] (decode : List UInt8 → List Char)
  (onEvent : List Char → m Unit)

def flushEvent (eventData : List Char) : m (List Char) :=
  if eventData.isEmpty then pure [] else onEvent eventData >>= fun _ => pure []

/-- The loop over the line ends, with the bytes since the last one. -/
def drainLines (line : List UInt8) (eventData : List Char) : List UInt8 → m SseBuffer
  | [] => pure ⟨line, eventData⟩
  | byte :: rest =>
    if byte = 10 then
      let (ends, eventData) := consumeLine (decode (withoutCr line)) eventData
      (if ends then flushEvent onEvent eventData else pure eventData) >>= fun eventData =>
        drainLines [] eventData rest
    else drainLines (line ++ [byte]) eventData rest

def pushChunk (buffer : SseBuffer) (chunk : List UInt8) : m SseBuffer :=
  drainLines decode onEvent [] buffer.eventData (buffer.pending ++ chunk)

def finish (buffer : SseBuffer) : m SseBuffer :=
  let pending := trimChars (decode buffer.pending)
  let eventData := match stripFront "data:".toList pending with
    | some data => pushData buffer.eventData data
    | none => buffer.eventData
  flushEvent onEvent eventData >>= fun eventData => pure ⟨[], eventData⟩

/-- A response that is read to its end. -/
def driveSseResponse (chunks : List (List UInt8)) : m SseBuffer :=
  chunks.foldlM (pushChunk decode onEvent) .new >>= finish decode onEvent

variable {line chunk rest : List UInt8} {eventData : List Char} {buffer : SseBuffer}

/-- Bytes without a line end are read again with those that follow. -/
theorem drainLines_pending {pending : List UInt8} (open' : 10 ∉ pending) :
    drainLines decode onEvent line eventData (pending ++ rest) =
      drainLines decode onEvent (line ++ pending) eventData rest := by
  induction pending generalizing line with
  | nil => rw [List.nil_append, List.append_nil]
  | cons byte pending ih =>
    rw [List.mem_cons, not_or] at open'
    obtain ⟨hbyte, hpending⟩ := open'
    rw [List.cons_append, drainLines, if_neg (Ne.symm hbyte), ih hpending, List.append_assoc]
    rfl

variable [LawfulMonad m]

theorem drainLines_append (open' : 10 ∉ line) :
    drainLines decode onEvent line eventData (chunk ++ rest) =
      drainLines decode onEvent line eventData chunk >>= fun buffer =>
        pushChunk decode onEvent buffer rest := by
  induction chunk generalizing line eventData with
  | nil =>
    rw [List.nil_append, drainLines, pure_bind, pushChunk, drainLines_pending _ _ open']
    rfl
  | cons byte chunk ih =>
    rw [List.cons_append, drainLines, drainLines]
    split
    · rw [bind_assoc]
      exact bind_congr fun _ => ih List.not_mem_nil
    · next hbyte =>
      refine ih fun hmem => ?_
      rcases List.mem_append.mp hmem with hmem | hmem
      · exact open' hmem
      · exact hbyte (List.mem_singleton.mp hmem).symm

theorem pushChunk_append :
    pushChunk decode onEvent buffer (chunk ++ rest) =
      pushChunk decode onEvent buffer chunk >>= fun buffer =>
        pushChunk decode onEvent buffer rest := by
  rw [pushChunk, ← List.append_assoc]
  exact drainLines_append decode onEvent List.not_mem_nil

theorem foldlM_pushChunk (chunks : List (List UInt8)) :
    (chunk :: chunks).foldlM (pushChunk decode onEvent) buffer =
      pushChunk decode onEvent buffer (chunk ++ chunks.flatten) := by
  induction chunks generalizing chunk buffer with
  | nil => simp
  | cons next chunks ih =>
    rw [List.foldlM_cons, List.flatten_cons, pushChunk_append]
    exact bind_congr fun _ => ih

/-- However a response is cut into pieces, the same events reach the handler, with the same
effects and the same first error, and the same is left of the buffer. -/
theorem driveSseResponse_undivided (chunks : List (List UInt8)) :
    driveSseResponse decode onEvent chunks = driveSseResponse decode onEvent [chunks.flatten] := by
  cases chunks with
  | nil => simp [driveSseResponse, pushChunk, drainLines, SseBuffer.new]
  | cons chunk chunks =>
    rw [driveSseResponse, driveSseResponse, foldlM_pushChunk, foldlM_pushChunk, List.flatten_cons,
      List.flatten_nil, List.append_nil]

theorem driveSseResponse_undivided_cut :
    let drive := driveSseResponse (m := StateM (List (List Char)))
      (List.map fun byte => .ofNat byte.toNat) fun event => modify (event :: ·)
    drive [[100, 97], [116, 97, 58, 49]] = drive [[100, 97, 116, 97, 58, 49]] :=
  driveSseResponse_undivided _ _ _

end SseFrames
