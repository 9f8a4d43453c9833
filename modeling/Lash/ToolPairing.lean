import Lash.MachineRestores
import Lash.Pairings
import Lash.StandardRuns

/-!
# Every tool call and its result

A history can be resumed when every tool call in it is answered by exactly one
result. What answers a call is a text part, and a result has as many of them as
its value has stretches of text: none for the empty text or a lone attachment,
several around attachments. So a round of calls keeps a history resumable
exactly if every result is shown as one text.
-/

namespace ToolPairing

open SessionGraphs (MessageRole)
open ToolOutputs TurnProtocols TurnMachines TurnMachine MachineSteps MachineRuns
open List Option
open EffectOrder Pairings StandardDrivers StandardSteps StandardRuns
open MachineRestores (pollMany)

variable {M : TurnProtocol} {host : DriverHost M} {m : TurnMachine M}

def pairingId (id : Option String) : Option String :=
  (id.map trim).filter fun id => id ≠ ""

/-- A tool call asks, a tool result answers, and both name their call. -/
def scanKind (role : MessageRole) (ledger : Ledger String) (kind : PartKind)
    (toolCallId : Option String) : Option (Ledger String) :=
  match kind with
  | .toolCall =>
    if role = .assistant then
      (pairingId toolCallId).bind fun id => ledger.next (.ask id)
    else none
  | .toolResult =>
    if role = .user then
      (pairingId toolCallId).bind fun id => ledger.next (.answer id)
    else none
  | _ => some ledger

def scanPart (role : MessageRole) (ledger : Ledger String) (part : Part) :
    Option (Ledger String) :=
  scanKind role ledger part.kind part.toolCallId

def scanMessage (ledger : Ledger String) (message : Message) : Option (Ledger String) :=
  message.parts.foldlM (scanPart message.role) ledger

def scanMessages (ledger : Ledger String) (messages : List Message) : Option (Ledger String) :=
  messages.foldlM scanMessage ledger

def messagesArePromptResumeSafe (messages : List Message) : Bool :=
  (scanMessages .empty messages).any Ledger.even

def idOf (kind : PartKind) (part : Part) : Option String :=
  if part.kind = kind then part.toolCallId.map trim else none

/-- The call ids of the parts of a kind, in order. -/
def idsOf (kind : PartKind) (messages : List Message) : List String :=
  messages.flatMap fun message => message.parts.filterMap (idOf kind)

def toolCallIds (messages : List Message) : List String := idsOf .toolCall messages

def toolResultIds (messages : List Message) : List String := idsOf .toolResult messages

section Scanning

variable {ledger ledger' : Ledger String}

theorem scanMessages_append (ledger : Ledger String) (first second : List Message) :
    scanMessages ledger (first ++ second) =
      (scanMessages ledger first).bind fun reached => scanMessages reached second := by
  simp only [scanMessages, foldlM_append]
  rfl

theorem scanMessages_one (ledger : Ledger String) (message : Message) :
    scanMessages ledger [message] = scanMessage ledger message := by
  change (scanMessage ledger message).bind some = _
  cases scanMessage ledger message <;> rfl

theorem pairingId_eq_some {id : Option String} {trimmed : String}
    (h : pairingId id = some trimmed) : id.map trim = some trimmed :=
  (Option.filter_eq_some_iff.mp h).1

/-- A scan adds the ids it passes, and keeps a sound ledger sound. -/
structure Scanned (calls results : List String) (ledger ledger' : Ledger String) : Prop where
  asked : ledger'.asked = ledger.asked ++ calls
  answered : ledger'.answered = ledger.answered ++ results
  sound : ledger.Sound → ledger'.Sound

theorem Scanned.refl (ledger : Ledger String) : Scanned [] [] ledger ledger :=
  ⟨(List.append_nil _).symm, (List.append_nil _).symm, id⟩

theorem Scanned.trans {calls results calls' results' : List String} {ledger'' : Ledger String}
    (first : Scanned calls results ledger ledger')
    (second : Scanned calls' results' ledger' ledger'') :
    Scanned (calls ++ calls') (results ++ results') ledger ledger'' where
  asked := by rw [second.asked, first.asked, List.append_assoc]
  answered := by rw [second.answered, first.answered, List.append_assoc]
  sound := second.sound ∘ first.sound

variable {id : String}

theorem scanned_ask (reached : ledger.next (.ask id) = some ledger') :
    Scanned [id] [] ledger ledger' := by
  have hsound (sound : ledger.Sound) : ledger'.Sound := sound.next reached
  simp only [Ledger.next] at reached
  split at reached
  · cases reached
  · cases reached
    exact ⟨rfl, (append_nil _).symm, hsound⟩

theorem scanned_answer (reached : ledger.next (.answer id) = some ledger') :
    Scanned [] [id] ledger ledger' := by
  have hsound (sound : ledger.Sound) : ledger'.Sound := sound.next reached
  simp only [Ledger.next] at reached
  split at reached
  · cases reached
    exact ⟨(append_nil _).symm, rfl, hsound⟩
  · cases reached

variable {role : MessageRole}

theorem scanned_part {part : Part} (reached : scanPart role ledger part = some ledger') :
    Scanned (idOf .toolCall part).toList (idOf .toolResult part).toList ledger ledger' := by
  unfold scanPart at reached
  cases hkind : part.kind with
  | toolCall =>
    simp only [hkind, scanKind] at reached
    split at reached
    · obtain ⟨id, hid, hnext⟩ := bind_eq_some_iff.mp reached
      simpa [idOf, hkind, pairingId_eq_some hid] using scanned_ask hnext
    · cases reached
  | toolResult =>
    simp only [hkind, scanKind] at reached
    split at reached
    · obtain ⟨id, hid, hnext⟩ := bind_eq_some_iff.mp reached
      simpa [idOf, hkind, pairingId_eq_some hid] using scanned_answer hnext
    · cases reached
  | _ =>
    simp only [hkind, scanKind, some.injEq] at reached
    subst reached
    simpa [idOf, hkind] using Scanned.refl ledger

theorem filterMap_cons_toList {A B : Type*} (f : A → Option B) (a : A) (items : List A) :
    (a :: items).filterMap f = (f a).toList ++ items.filterMap f := by
  cases h : f a <;> simp [h]

theorem scanned_parts {parts : List Part}
    (reached : parts.foldlM (scanPart role) ledger = some ledger') :
    Scanned (parts.filterMap (idOf .toolCall)) (parts.filterMap (idOf .toolResult))
      ledger ledger' := by
  induction parts generalizing ledger with
  | nil =>
    cases reached
    exact .refl _
  | cons part parts ih =>
    obtain ⟨next, hnext, hrest⟩ := bind_eq_some_iff.mp reached
    rw [filterMap_cons_toList, filterMap_cons_toList]
    exact (scanned_part hnext).trans (ih hrest)

variable {messages : List Message}

theorem scanned_messages (reached : scanMessages ledger messages = some ledger') :
    Scanned (toolCallIds messages) (toolResultIds messages) ledger ledger' := by
  induction messages generalizing ledger with
  | nil =>
    cases reached
    exact .refl _
  | cons message messages ih =>
    obtain ⟨next, hnext, hrest⟩ := bind_eq_some_iff.mp reached
    exact (scanned_parts hnext).trans (ih hrest)

/-- What a safe history says of its parts. -/
theorem ledger_of_safe (safe : messagesArePromptResumeSafe messages = true) :
    ∃ ledger, scanMessages .empty messages = some ledger ∧ ledger.Sound ∧
      ledger.even = true ∧ ledger.asked = toolCallIds messages ∧
      ledger.answered = toolResultIds messages := by
  obtain ⟨ledger, hscan, heven⟩ := (any_eq_true _ _).mp safe
  have hscanned := scanned_messages hscan
  exact ⟨ledger, hscan, hscanned.sound sound_empty, heven, hscanned.asked, hscanned.answered⟩

/-- Scanning looks at the outline of a part only. -/
def scanOutline (role : MessageRole) (ledger : Ledger String)
    (part : PartKind × Option String × String) : Option (Ledger String) :=
  scanKind role ledger part.1 part.2.1

theorem scan_outlines (role : MessageRole) (ledger : Ledger String) (parts : List Part) :
    parts.foldlM (scanPart role) ledger = (outlines parts).foldlM (scanOutline role) ledger := by
  induction parts generalizing ledger with
  | nil => rfl
  | cons part parts ih =>
    have hcons : (part :: parts).foldlM (scanPart role) ledger =
        (scanPart role ledger part).bind fun next => parts.foldlM (scanPart role) next := rfl
    by_cases hkind : part.kind = .reasoning
    · have hskip : outlines (part :: parts) = outlines parts := by simp [outlines, hkind]
      have hsame : scanPart role ledger part = some ledger := by
        simp only [scanPart, hkind, scanKind]
      rw [hcons, hsame, bind_some, ih, hskip]
    · have hkeep : outlines (part :: parts) = outline part :: outlines parts := by
        simp [outlines, hkind]
      have hfold : (outline part :: outlines parts).foldlM (scanOutline role) ledger =
          (scanPart role ledger part).bind fun next =>
            (outlines parts).foldlM (scanOutline role) next := rfl
      rw [hcons, hkeep, hfold]
      exact congrArg _ (funext ih)

variable {parts : List (PartKind × Option String × String)}

/-- Where every part makes a move or none, a scan is a run of the moves. -/
theorem scan_as_run (move : PartKind × Option String × String → Option (Move String))
    (silent : ∀ part ∈ parts, move part = none → ∀ ledger,
      scanOutline role ledger part = some ledger)
    (moves : ∀ part ∈ parts, ∀ made, move part = some made → ∀ ledger,
      scanOutline role ledger part = ledger.next made) (ledger : Ledger String) :
    parts.foldlM (scanOutline role) ledger = ledger.run (parts.filterMap move) := by
  induction parts generalizing ledger with
  | nil => rfl
  | cons part parts ih =>
    have hrest := ih (fun p hp => silent p (mem_cons_of_mem _ hp))
      (fun p hp => moves p (mem_cons_of_mem _ hp))
    have hcons : (part :: parts).foldlM (scanOutline role) ledger =
        (scanOutline role ledger part).bind fun next =>
          parts.foldlM (scanOutline role) next := rfl
    rw [hcons]
    cases hmove : move part with
    | none =>
      rw [silent part mem_cons_self hmove, filterMap_cons_none hmove, bind_some, hrest]
    | some made =>
      rw [moves part mem_cons_self made hmove, filterMap_cons_some hmove]
      exact congrArg _ (funext hrest)

variable {part : PartKind × Option String × String}

theorem scan_none (h : part ∈ parts) (refused : ∀ ledger, scanOutline role ledger part = none)
    (ledger : Ledger String) : parts.foldlM (scanOutline role) ledger = none := by
  induction parts generalizing ledger with
  | nil => cases h
  | cons first parts ih =>
    have hcons : (first :: parts).foldlM (scanOutline role) ledger =
        (scanOutline role ledger first).bind fun next =>
          parts.foldlM (scanOutline role) next := rfl
    rw [hcons]
    rcases mem_cons.mp h with rfl | h
    · rw [refused, bind_none]
    · cases scanOutline role ledger first with
      | none => rfl
      | some next => exact ih h next

theorem pairingId_some (named : trim id ≠ "") : pairingId (some id) = some (trim id) := by
  simp [pairingId, named]

theorem pairingId_blank (blank : trim id = "") : pairingId (some id) = none := by
  simp [pairingId, blank]

def askMove : PartKind × Option String × String → Option (Move String)
  | (.toolCall, some id, _) => some (.ask (trim id))
  | _ => none

def answerMove : PartKind × Option String × String → Option (Move String)
  | (.toolResult, some id, _) => some (.answer (trim id))
  | _ => none

variable {reading : Reading M}

/-- A message of tool calls asks for each of them. -/
theorem scan_assistantMessage (named : ∀ call ∈ reading.toolCalls, trim call.callId ≠ "")
    (asstId : String) (ledger : Ledger String) :
    scanMessage ledger (assistantMessage asstId reading) =
      ledger.run ((reading.toolCalls.map fun call => trim call.callId).map .ask) := by
  have hmoves : (outlines (assistantParts asstId reading)).filterMap askMove =
      (reading.toolCalls.map fun call => trim call.callId).map .ask := by
    rw [outlines_assistantParts, filterMap_append, filterMap_map, filterMap_map, List.map_map]
    have hprose : (prosePieces reading).filterMap (askMove ∘ fun text =>
        (PartKind.prose, none, text)) = [] := by
      rw [filterMap_eq_nil_iff]
      exact fun _ _ => rfl
    rw [hprose, nil_append]
    exact (filterMap_eq_map (f := fun call : StandardToolCall =>
      Move.ask (trim call.callId))).symm ▸ rfl
  change (assistantParts asstId reading).foldlM (scanPart .assistant) ledger = _
  rw [scan_outlines, ← hmoves]
  refine scan_as_run askMove ?_ ?_ ledger
  · intro part hpart hnone ledger
    rw [outlines_assistantParts] at hpart
    rcases mem_append.mp hpart with h | h
    · obtain ⟨text, _, rfl⟩ := mem_map.mp h
      rfl
    · obtain ⟨call, _, rfl⟩ := mem_map.mp h
      cases hnone
  · intro part hpart made hmade ledger
    rw [outlines_assistantParts] at hpart
    rcases mem_append.mp hpart with h | h
    · obtain ⟨text, _, rfl⟩ := mem_map.mp h
      cases hmade
    · obtain ⟨call, hcall, rfl⟩ := mem_map.mp h
      cases hmade
      simp only [scanOutline, scanKind, if_true, pairingId_some (named call hcall), bind_some]

variable {call : StandardToolCall}

theorem scan_assistantMessage_blank (h : call ∈ reading.toolCalls) (blank : trim call.callId = "")
    (asstId : String) (ledger : Ledger String) :
    scanMessage ledger (assistantMessage asstId reading) = none := by
  change (assistantParts asstId reading).foldlM (scanPart .assistant) ledger = _
  rw [scan_outlines, outlines_assistantParts]
  refine scan_none (mem_append_right _ (mem_map_of_mem h)) (fun ledger => ?_) ledger
  simp only [scanOutline, scanKind, if_true, pairingId_blank blank, bind_none]

/-- The calls that the results answer, once for every text. -/
def answersOf (completed : List (CompletedToolCall M)) : List String :=
  completed.flatMap fun outcome =>
    List.replicate (textCount outcome.modelReturn.parts) (trim outcome.modelReturn.callId)

theorem resultParts_eq (completed : List (CompletedToolCall M)) :
    resultParts completed = completed.flatMap fun outcome =>
      outcome.modelReturn.parts.filterMap (modelReturnPart outcome.modelReturn) := by
  have hfold (parts : List Part) :
      completed.foldl (fun parts outcome => appendModelReturnParts parts outcome.modelReturn)
        parts = parts ++ completed.flatMap fun outcome =>
          outcome.modelReturn.parts.filterMap (modelReturnPart outcome.modelReturn) := by
    induction completed generalizing parts with
    | nil => simp
    | cons outcome completed ih =>
      rw [foldl_cons, ih, flatMap_cons, appendModelReturnParts, append_assoc]
  exact hfold []

theorem outlines_reassignPartIds (messageId : String) (parts : List Part) :
    outlines (reassignPartIds messageId parts) = outlines parts := by
  have heach (start : Nat) : outlines (parts.mapIdx fun index part =>
      { part with id := partId messageId (index + start) }) = outlines parts := by
    induction parts generalizing start with
    | nil => rfl
    | cons part parts ih =>
      rw [mapIdx_cons]
      have hrest := ih (start + 1)
      simp only [outlines, filter_cons] at hrest ⊢
      have hshift : (fun (index : Nat) (part : Part) =>
          { part with id := partId messageId (index + 1 + start) }) =
          fun index part => { part with id := partId messageId (index + (start + 1)) } := by
        funext index part
        rw [Nat.add_right_comm, Nat.add_assoc]
      split
      · simp only [map_cons, hshift, hrest]
        rfl
      · rw [hshift, hrest]
  exact heach 0

/-- What a returned part is for the pairing: an answer, or nothing. -/
theorem modelReturnPart_move (modelReturn : ModelToolReturn) (part : ModelToolReturnPart) :
    ((modelReturnPart modelReturn part).map outline).bind answerMove =
      if isText part then some (.answer (trim modelReturn.callId)) else none := by
  cases part with
  | text text =>
    by_cases htext : text = ""
    · simp [modelReturnPart, isText, htext]
    · simp [modelReturnPart, isText, htext, outline, answerMove, Part.plain]
  | attachment reference =>
    simp [modelReturnPart, isText, outline, answerMove, Part.plain]

theorem filterMap_isText (id : String) (parts : List ModelToolReturnPart) :
    parts.filterMap (fun part => if isText part then some (Move.answer id) else none) =
      (List.replicate (textCount parts) id).map .answer := by
  induction parts with
  | nil => rfl
  | cons part parts ih =>
    cases htext : isText part with
    | true =>
      simp only [textCount, countP_cons_of_pos htext] at ih ⊢
      simp [htext, ih, replicate_succ]
    | false =>
      have hcount : textCount (part :: parts) = textCount parts :=
        countP_cons_of_neg (by simp [htext])
      rw [hcount, ← ih]
      simp [htext]

theorem outline_modelReturnPart {modelReturn : ModelToolReturn} {shown : ModelToolReturnPart}
    {part : Part} (h : modelReturnPart modelReturn shown = some part) :
    (part.kind = .toolResult ∨ part.kind = .image) ∧ part.toolCallId = some modelReturn.callId := by
  cases shown with
  | text text =>
    simp only [modelReturnPart] at h
    split at h
    · cases h
    · cases h
      exact ⟨.inl rfl, rfl⟩
  | attachment reference =>
    cases h
    exact ⟨.inr rfl, rfl⟩

theorem outlines_answers (parts : List Part) : (outlines parts).filterMap answerMove =
      parts.filterMap fun part => answerMove (outline part) := by
  induction parts with
  | nil => rfl
  | cons part parts ih =>
    rw [filterMap_cons_toList, ← ih]
    by_cases hkind : part.kind = .reasoning
    · simp [outlines, outline, answerMove, hkind]
    · have hkeep : outlines (part :: parts) = outline part :: outlines parts := by
        simp [outlines, hkind]
      rw [hkeep, filterMap_cons_toList]

theorem answers_of_results (completed : List (CompletedToolCall M)) :
    (outlines (resultParts completed)).filterMap answerMove =
      (answersOf completed).map .answer := by
  rw [outlines_answers, resultParts_eq, filterMap_flatMap, answersOf, map_flatMap]
  refine flatMap_congr fun outcome _ => ?_
  rw [filterMap_filterMap, ← filterMap_isText]
  refine filterMap_congr fun part _ => ?_
  rw [← modelReturnPart_move, bind_map]
  rfl

variable {completed : List (CompletedToolCall M)}

theorem mem_outlines_results (h : part ∈ outlines (resultParts completed)) :
    ∃ outcome ∈ completed, (part.1 = .toolResult ∨ part.1 = .image) ∧
      part.2.1 = some outcome.modelReturn.callId := by
  obtain ⟨shown, hshown, rfl⟩ := mem_map.mp h
  have hmem := (mem_filter.mp hshown).1
  rw [resultParts_eq] at hmem
  obtain ⟨outcome, houtcome, hpart⟩ := mem_flatMap.mp hmem
  obtain ⟨returned, _, hreturned⟩ := mem_filterMap.mp hpart
  exact ⟨outcome, houtcome, outline_modelReturnPart hreturned⟩

/-- The message of results answers once for every text it shows. -/
theorem scan_resultMessages (named : ∀ outcome ∈ completed, trim outcome.modelReturn.callId ≠ "")
    (userId : String) (ledger : Ledger String) :
    scanMessages ledger (resultMessages userId completed) =
      ledger.run ((answersOf completed).map .answer) := by
  rw [← answers_of_results]
  unfold resultMessages
  split
  · rename_i hempty
    rw [isEmpty_iff.mp hempty]
    rfl
  · rw [scanMessages_one]
    change (reassignPartIds userId (resultParts completed)).foldlM (scanPart .user) ledger = _
    rw [scan_outlines, outlines_reassignPartIds]
    refine scan_as_run answerMove ?_ ?_ ledger
    · intro part hpart hnone ledger
      obtain ⟨outcome, houtcome, hkind, hid⟩ := mem_outlines_results hpart
      obtain ⟨kind, id, content⟩ := part
      cases hid
      rcases hkind with rfl | rfl
      · cases hnone
      · rfl
    · intro part hpart made hmade ledger
      obtain ⟨outcome, houtcome, hkind, hid⟩ := mem_outlines_results hpart
      obtain ⟨kind, id, content⟩ := part
      cases hid
      rcases hkind with rfl | rfl
      · cases hmade
        simp only [scanOutline, scanKind, if_true, pairingId_some (named outcome houtcome),
          bind_some]
      · cases hmade

variable {notices : List Message}

theorem scan_notices (all : ∀ notice ∈ notices, ∃ noticeId maxTurns,
      notice = turnLimitExhaustedMessage noticeId maxTurns) (ledger : Ledger String) :
    scanMessages ledger notices = some ledger := by
  induction notices with
  | nil => rfl
  | cons notice notices ih =>
    obtain ⟨noticeId, maxTurns, rfl⟩ := all notice mem_cons_self
    exact ih fun other hother => all other (mem_cons_of_mem _ hother)

/-- Call ids that are named, differ from each other, and from those of the history. -/
structure FreshIds (history : List Message) (ids : List String) : Prop where
  named : ∀ id ∈ ids, trim id ≠ ""
  distinct : (ids.map trim).Nodup
  fresh : ∀ id ∈ ids, trim id ∉ toolCallIds history

variable {history : List Message}

/-- A round of named calls asks for each of them, then answers what the results show. -/
theorem scan_round (scanned : scanMessages .empty history = some ledger)
    (named : ∀ call ∈ reading.toolCalls, trim call.callId ≠ "") (asstId userId : String)
    (exact_ : (completed.map fun outcome => outcome.modelReturn.callId).Perm
      (reading.toolCalls.map StandardToolCall.callId))
    (all : ∀ notice ∈ notices, ∃ noticeId maxTurns,
      notice = turnLimitExhaustedMessage noticeId maxTurns) :
    scanMessages .empty (history ++ [assistantMessage asstId reading] ++
        resultMessages userId completed ++ notices) =
      ledger.run (((reading.toolCalls.map StandardToolCall.callId).map trim).map .ask ++
        (answersOf completed).map .answer) := by
  have hnamed : ∀ outcome ∈ completed, trim outcome.modelReturn.callId ≠ "" := by
    intro outcome houtcome
    have hmem := exact_.mem_iff.mp (mem_map_of_mem houtcome)
    obtain ⟨call, hcall, hid⟩ := mem_map.mp hmem
    rw [← hid]
    exact named call hcall
  have hasks : (reading.toolCalls.map StandardToolCall.callId).map trim =
      reading.toolCalls.map fun call => trim call.callId := map_map
  rw [append_assoc, append_assoc, scanMessages_append, scanned, bind_some,
    scanMessages_append, scanMessages_one, scan_assistantMessage named, Ledger.run_append, hasks]
  refine congrArg _ (funext fun reached => ?_)
  rw [scanMessages_append, scan_resultMessages hnamed]
  cases reached.run ((answersOf completed).map .answer) with
  | none => rfl
  | some reached => exact scan_notices all reached

theorem scan_round_blank (scanned : scanMessages .empty history = some ledger)
    (h : call ∈ reading.toolCalls) (blank : trim call.callId = "") (asstId : String)
    (rest notices : List Message) :
    scanMessages .empty (history ++ [assistantMessage asstId reading] ++ rest ++ notices) =
      none := by
  rw [append_assoc, append_assoc, scanMessages_append, scanned, bind_some,
    scanMessages_append, scanMessages_one, scan_assistantMessage_blank h blank, bind_none]

/-- A round of calls and their results, after a safe history. -/
theorem safe_round_iff (safe : messagesArePromptResumeSafe history = true) (asstId userId : String)
    (exact_ : (completed.map fun outcome => outcome.modelReturn.callId).Perm
      (reading.toolCalls.map StandardToolCall.callId))
    (all : ∀ notice ∈ notices, ∃ noticeId maxTurns,
      notice = turnLimitExhaustedMessage noticeId maxTurns) :
    messagesArePromptResumeSafe (history ++ [assistantMessage asstId reading] ++
        resultMessages userId completed ++ notices) = true ↔
      FreshIds history (reading.toolCalls.map StandardToolCall.callId) ∧
        ∀ outcome ∈ completed, textCount outcome.modelReturn.parts = 1 := by
  obtain ⟨ledger, hscan, hsound, heven, hasked, _⟩ := ledger_of_safe safe
  unfold messagesArePromptResumeSafe
  by_cases hnamed : ∀ call ∈ reading.toolCalls, trim call.callId ≠ ""
  · have hkeys : (completed.map fun outcome => trim outcome.modelReturn.callId).Perm
        ((reading.toolCalls.map StandardToolCall.callId).map trim) := by
      have hmapped := exact_.map trim
      rwa [List.map_map] at hmapped
    have hanswers (distinct : ((reading.toolCalls.map StandardToolCall.callId).map trim).Nodup) :
        (answersOf completed).Perm (completed.map fun outcome => trim outcome.modelReturn.callId) ↔
          ∀ outcome ∈ completed, textCount outcome.modelReturn.parts = 1 :=
      replicated_perm_iff (fun outcome : CompletedToolCall M => trim outcome.modelReturn.callId)
        (fun outcome => textCount outcome.modelReturn.parts) (hkeys.nodup_iff.mpr distinct)
    rw [Option.any_eq_true, scan_round hscan hnamed asstId userId exact_ all,
      round_even_iff hsound heven]
    constructor
    · rintro ⟨hdistinct, hfresh, hperm⟩
      refine ⟨⟨?_, hdistinct, ?_⟩, (hanswers hdistinct).mp (hperm.trans hkeys.symm)⟩
      · intro id hid
        obtain ⟨call, hcall, rfl⟩ := mem_map.mp hid
        exact hnamed call hcall
      · intro id hid
        rw [← hasked]
        exact hfresh _ (mem_map_of_mem hid)
    · rintro ⟨hids, hone⟩
      refine ⟨hids.distinct, ?_, ((hanswers hids.distinct).mpr hone).trans hkeys⟩
      intro id hid
      obtain ⟨original, horiginal, rfl⟩ := mem_map.mp hid
      rw [hasked]
      exact hids.fresh original horiginal
  · obtain ⟨call, hcall, hblank⟩ : ∃ call ∈ reading.toolCalls, trim call.callId = "" := by
      simpa using hnamed
    rw [scan_round_blank hscan hcall hblank]
    constructor
    · intro hsafe
      cases hsafe
    · rintro ⟨hids, _⟩
      exact absurd hblank (hids.named _ (mem_map_of_mem hcall))

end Scanning

/-- Polling a machine that waits only takes what is queued. -/
theorem pollMany_waiting (polls : Nat) (m : TurnMachine M)
    (waiting : m.state.outstandingEffect.isSome) :
    (pollMany polls m).2.state = m.state ∧ (pollMany polls m).2.messages = m.messages ∧
      (pollMany polls m).2.config = m.config := by
  induction polls generalizing m with
  | zero => exact ⟨rfl, rfl, rfl⟩
  | succ polls ih =>
    have hone : m.pollEffect.2.state = m.state ∧ m.pollEffect.2.messages = m.messages ∧
        m.pollEffect.2.config = m.config := by
      have hpolled := polled m
      generalize m.pollEffect = result at hpolled
      obtain ⟨output, m'⟩ := result
      cases hpolled with
      | queued | due | idle => exact ⟨rfl, rfl, rfl⟩
      | prepared queue idle =>
        rw [idle] at waiting
        cases waiting
    have hrest := ih m.pollEffect.2 (by rw [hone.1]; exact waiting)
    exact ⟨hrest.1.trans hone.1, hrest.2.1.trans hone.2.1, hrest.2.2.trans hone.2.2⟩

variable {calls : List (PendingToolCall M)} {toolsId : EffectId}

/-- Tools are started by a response that calls them, and its message is recorded. -/
theorem tools_started (driver : m.config.protocolDriver = standardDriver host) {llmId : EffectId}
    {request : M.LlmRequest} {driverState : Option M.DriverState}
    (waiting : m.state = .waitingLlm llmId request driverState) {response : LlmResponse M}
    {textStreamed : Bool}
    (started : (m.handleResponse (.llmComplete llmId (.ok response) textStreamed)).state =
      .waitingTools toolsId calls) :
    let m' := m.handleResponse (.llmComplete llmId (.ok response) textStreamed)
    ∃ asstId, ∃ reading : Reading M, m'.messages = m.messages ++ [assistantMessage asstId reading] ∧
        calls = reading.toolCalls.map (pendingToolCall host) ∧
        m'.config.protocolDriver = standardDriver host := by
  intro m'
  have hdriver : m'.config.protocolDriver = standardDriver host := by
    obtain ⟨new, worked⟩ := works_answer (m := settled m)
      (.llmComplete llmId (.ok response) textStreamed)
    exact (driver_of_fixed worked.lasting).trans driver
  have hdone : Answered host (settled m) (.llmComplete llmId (.ok response) textStreamed) m' :=
    answered_llm (m := settled m) waiting driver (.ok response) textStreamed
  change m'.state = _ at started
  generalize m' = reached at hdone hdriver started
  cases hdone with
  | ending ended =>
    rw [ended.state] at started
    cases started
  | completing waiting' spoke after =>
    rw [show reached.state = _ from congrArg Standing.state after] at started
    cases started
  | @calling _ _ _ _ _ _ asstId _ waiting' called after =>
    rw [show reached.state = _ from congrArg Standing.state after] at started
    cases started
    exact ⟨asstId, _, congrArg Standing.messages after, rfl, hdriver⟩

/-- The results are in the transcript, in front of at most a notice of the limit. -/
theorem tools_handled (driver : m.config.protocolDriver = standardDriver host)
    (waiting : m.state = .waitingTools toolsId calls) (results : List (CompletedToolCall M)) :
    ∃ userId notices, (∀ notice ∈ notices, ∃ noticeId maxTurns,
        notice = turnLimitExhaustedMessage noticeId maxTurns) ∧
      transcript (m.handleResponse (.toolResults toolsId results)) =
        m.messages ++ resultMessages userId results ++ notices := by
  have hanswer : m.handleResponse (.toolResults toolsId results) =
      ((settled m).withState .finished).acceptToolResults results := by
    have hwaiting : (settled m).state = .waitingTools toolsId calls := waiting
    change (settled m).handleToolResults toolsId results = _
    simp only [TurnMachine.handleToolResults, hwaiting, ne_eq, not_true_eq_false, if_false]
  have hdriver : ((settled m).withState .finished).config.protocolDriver = standardDriver host :=
    driver
  rw [hanswer]
  obtain ⟨userId, ⟨_, notices, hnotices, htranscript⟩ | ⟨_, effectId, hstanding⟩⟩ :=
    acceptToolResults_cases hdriver results
  · exact ⟨userId, notices, hnotices, htranscript⟩
  · refine ⟨userId, [], by simp, ?_⟩
    rw [transcript_of_unfinished, append_nil]
    · exact congrArg Standing.messages hstanding
    · rw [show (((settled m).withState .finished).acceptToolResults results).state = _ from
        congrArg Standing.state hstanding]
      simp

/-- A round of tool calls keeps a resumable history resumable exactly if the call ids
are fresh and every value of a successful result is shown as one text: not the empty
text, and without attachments. -/
theorem round_stays_safe_iff (host : DriverHost M) (m : TurnMachine M)
    (driver : m.config.protocolDriver = standardDriver host)
    (safe : messagesArePromptResumeSafe m.messages = true) (llmId : EffectId)
    (request : M.LlmRequest) (driverState : Option M.DriverState)
    (waiting : m.state = .waitingLlm llmId request driverState) (response : LlmResponse M)
    (textStreamed : Bool) (toolsId : EffectId) (calls : List (PendingToolCall M))
    (started : (m.handleResponse (.llmComplete llmId (.ok response) textStreamed)).state =
      .waitingTools toolsId calls)
    (polls : Nat) (results : List (CompletedToolCall M))
    (exact_ : (results.map CompletedToolCall.callId).Perm (calls.map PendingToolCall.callId))
    (returned : ∀ result ∈ results,
      result.modelReturn = .fromOutput result.callId result.toolName result.output) :
    let called := m.handleResponse (.llmComplete llmId (.ok response) textStreamed)
    let handled := (pollMany polls called).2.handleResponse (.toolResults toolsId results)
    messagesArePromptResumeSafe (transcript handled) = true ↔
      FreshIds m.messages (calls.map PendingToolCall.callId) ∧
        ∀ result ∈ results, ∀ value, result.output.outcome = .success value →
          value ≠ .string "" ∧ value.attachments = [] := by
  intro called handled
  obtain ⟨asstId, reading, hmessages, hcalls, hdriver⟩ := tools_started driver waiting started
  have houtstanding : called.state.outstandingEffect.isSome := by
    rw [show called.state = _ from started]
    rfl
  obtain ⟨hstate, hkept, hconfig⟩ := pollMany_waiting polls called houtstanding
  have hhandled : ∃ userId notices, (∀ notice ∈ notices, ∃ noticeId maxTurns,
      notice = turnLimitExhaustedMessage noticeId maxTurns) ∧
      transcript handled = m.messages ++ [assistantMessage asstId reading] ++
        resultMessages userId results ++ notices := by
    obtain ⟨userId, notices, hnotices, htranscript⟩ := tools_handled
      ((congrArg TurnMachineConfig.protocolDriver hconfig).trans hdriver)
      (hstate.trans started) results
    refine ⟨userId, notices, hnotices, ?_⟩
    rw [← hmessages, ← hkept]
    exact htranscript
  obtain ⟨userId, notices, hnotices, htranscript⟩ := hhandled
  have hids : calls.map PendingToolCall.callId = reading.toolCalls.map StandardToolCall.callId := by
    rw [hcalls, List.map_map]
    rfl
  have hreturned : results.map (fun result => result.modelReturn.callId) =
      results.map CompletedToolCall.callId :=
    map_congr_left fun result hresult => by rw [returned result hresult]; rfl
  rw [hids] at exact_ ⊢
  rw [← hreturned] at exact_
  rw [htranscript, safe_round_iff safe asstId userId exact_ hnotices]
  refine and_congr_right fun _ => forall₂_congr fun result hresult => ?_
  rw [returned result hresult]
  exact textCount_modelPartsFromToolOutput result.output

/-- A machine that asked the model and waits for its response. -/
def waitingMachine : TurnMachine unitProtocol :=
  (after ([none, none].map hostCall) (standardMachine none)).2

def lookCall : LlmResponse unitProtocol :=
  responseOf [.toolCall "c1" "look" "\x7b\x7d" none]

def lookResult (value : ToolValue) : CompletedToolCall unitProtocol where
  callId := "c1"
  toolName := "look"
  args := "\x7b\x7d"
  output := ⟨.success value, none⟩
  modelReturn := .fromOutput "c1" "look" ⟨.success value, none⟩
  durationMs := 0
  replay := none

def picture : AttachmentRef := ⟨"a", .image .png, 3, none, none, none⟩

def lookedAt (value : ToolValue) : TurnMachine unitProtocol :=
  (pollMany 2 (waitingMachine.handleResponse (.llmComplete 1 (.ok lookCall) true))).2.handleResponse
    (.toolResults 2 [lookResult value])

theorem round_of_plain_text :
    messagesArePromptResumeSafe (transcript (lookedAt (.string "seen"))) = true := by
  refine (round_stays_safe_iff plainHost waitingMachine rfl (by decide) 1 "prompt" none rfl
    lookCall true 2 [⟨"c1", "look", "\x7b\x7d", none⟩] rfl 2 [lookResult (.string "seen")]
    (List.Perm.refl _) (by simp [lookResult])).mpr ⟨⟨?_, ?_, ?_⟩, ?_⟩
  · decide
  · decide
  · decide
  · intro result hresult value hvalue
    cases mem_singleton.mp hresult
    cases hvalue
    exact ⟨by simp, rfl⟩

/-- An empty text leaves the call without an answer, so does a lone attachment, and
text around an attachment answers it twice. -/
theorem round_of_other_values : messagesArePromptResumeSafe waitingMachine.messages = true ∧
      messagesArePromptResumeSafe (transcript (lookedAt (.string ""))) = false ∧
      messagesArePromptResumeSafe (transcript (lookedAt (.attachment picture))) = false ∧
      messagesArePromptResumeSafe
        (transcript (lookedAt (.array [.string "before", .attachment picture]))) = false := by
  decide

end ToolPairing
