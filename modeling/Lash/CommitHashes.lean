import Mathlib.Data.Int.CharZero
import Lash.CommitDocuments

/-!
# What the hash of a commit shows

The hash of two commits is the same exactly if their `semantic` parts are, with the JSON they
carry scrubbed. So it changes with the time a frame was opened, and it does not change with an
entry that a host, a tool or a plugin stored under one of the scrubbed keys.
-/

namespace CommitHashes

open ScriptBuiltins JsonScrubs CommitDocuments Function
open GraphCommitDelta SessionNodeRecord SessionNodePayload SessionEventRecord RuntimeCommit

universe u v

/-! ## The hash -/

/-- The fields that are cleared before the commit is written as JSON. -/
def semanticCommit (commit : RuntimeCommit Json) : RuntimeCommit Json :=
  { commit with
    expectedHeadRevision := none
    sessionExecutionLease := none
    releaseSessionExecutionLease := none
    turnCommit := none }

/-- The hash of a commit; the parameter hashes the text of a JSON value. A commit has text keys
only and no number that is not finite, so writing it never fails. -/
def turnCommitHash {Digest : Type v} (stableJsonSha256Hex : Json → Digest)
    (commit : RuntimeCommit Json) : Digest :=
  stableJsonSha256Hex (scrub (semanticCommit commit).toJson)

/-! ## Records apart -/

theorem removed_of_ne {keys : List String} {key : String} (hid : key ≠ "id") :
    removed keys key = volatileKeys.contains key := by
  simp [removed, hid]

/-- Values of an enumeration that name their cases under a key. -/
theorem scrub_tagged_ne {key tag other : String} {fields others : List (String × Option Json)}
    (hid : key ≠ "id") (hvolatile : key ∉ volatileKeys) (hne : tag ≠ other) :
    scrub (record ((key, text tag) :: fields)) ≠ scrub (record ((key, text other) :: others)) := by
  apply scrub_record_ne hid hid hvolatile hvolatile
  right
  simpa using hne

/-- Values of an enumeration whose case is the one key. -/
theorem scrub_case_ne {key other : String} {value otherValue : Json} (hid : key ≠ "id")
    (hotherId : other ≠ "id") (hvolatile : key ∉ volatileKeys)
    (hotherVolatile : other ∉ volatileKeys) (hne : key ≠ other) :
    scrub (record [(key, some value)]) ≠ scrub (record [(other, some otherValue)]) :=
  scrub_record_ne hid hotherId hvolatile hotherVolatile (.inl hne)

theorem scrub_case_inj {key : String} {value otherValue : Json} (hid : key ≠ "id")
    (hvolatile : key ∉ volatileKeys) :
    scrub (record [(key, some value)]) = scrub (record [(key, some otherValue)]) ↔
      scrub value = scrub otherValue := by
  rw [scrub_record_inj (by rfl) (by simp)]
  simp [removed_of_ne hid, hvolatile]

theorem scrub_record_ne_null (fields : List (String × Option Json)) :
    scrub (record fields) ≠ .null := by
  rw [scrub_record, record]
  simp

/-! ## Texts, numbers and bytes -/

theorem text_shows : Shows Json.string id := by
  intro a b
  simp

theorem nat_shows : Shows natJson id := by
  intro a b
  simp [natJson]

theorem texts_shows : Shows textsJson id := by
  intro a b
  have := text_shows.array a b
  simpa [textsJson] using this

theorem bytes_shows : Shows bytesJson id := by
  have hbyte : Shows (fun byte : UInt8 => .number (.integer byte.toNat)) id := by
    intro a b
    simp [UInt8.toNat_inj]
  intro a b
  have := hbyte.array a b
  simpa [bytesJson] using this

/-! ## Causes and origins -/

theorem causalRef_shows : Shows causalRefJson causalRefSemantic := by
  have htag {tag other : String} {fields others : List (String × Option Json)}
      (hne : tag ≠ other) : scrub (record (("type", text tag) :: fields)) ≠
        scrub (record (("type", text other) :: others)) :=
    scrub_tagged_ne (by simp) (by simp [volatileKeys]) hne
  intro x y
  cases x <;> cases y
  case turn.turn | toolCall.toolCall | process.process | processEvent.processEvent |
      triggerOccurrence.triggerOccurrence | sessionNode.sessionNode =>
    rw [causalRefJson, causalRefJson, scrub_record_inj (by rfl) (by simp)]
    simp [causalRefSemantic, removed_of_ne, volatileKeys]
  case effect.effect =>
    rw [causalRefJson, causalRefJson, scrub_record_inj (by rfl) (by simp)]
    simp [causalRefSemantic, removed_of_ne, volatileKeys, text_shows.field_eq_iff]
  -- Two kinds have two tags.
  all_goals exact iff_of_false (htag (by simp)) (by simp [causalRefSemantic])

theorem messageOrigin_shows : Shows messageOriginJson messageOriginSemantic := by
  intro x y
  cases x with
  | plugin pluginId transient =>
    cases y with
    | plugin pluginId' transient' =>
      rw [messageOriginJson, messageOriginJson, scrub_record_inj (by rfl) (by simp)]
      cases transient <;> cases transient' <;>
        simp [messageOriginSemantic, removed_of_ne, volatileKeys]
    | process =>
      refine iff_of_false (scrub_tagged_ne ?_ ?_ ?_) ?_
      · simp
      · simp [volatileKeys]
      · simp
      · simp [messageOriginSemantic]
  | process =>
    cases y with
    | plugin =>
      refine iff_of_false (scrub_tagged_ne ?_ ?_ ?_) ?_
      · simp
      · simp [volatileKeys]
      · simp
      · simp [messageOriginSemantic]
    | process =>
      rw [messageOriginJson, messageOriginJson, scrub_record_inj (by rfl) (by simp)]
      simp [messageOriginSemantic, removed_of_ne, volatileKeys, text_shows.field_eq_iff,
        causalRef_shows.field_eq_iff]

/-! ## Messages -/

theorem messageRole_shows : Shows messageRoleJson id := by
  intro x y
  cases x <;> cases y <;> simp [messageRoleJson]

theorem partKind_shows : Shows partKindJson id := by
  intro x y
  cases x <;> cases y <;> simp [partKindJson]

theorem pruneState_shows : Shows pruneStateJson id := by
  have htext (value : String) (fields : List (String × Option Json)) :
      scrub (.string value) ≠ scrub (record fields) := by
    rw [scrub_record, record]
    simp
  intro x y
  cases x with
  | intact | cleared =>
    cases y with
    | intact | cleared => simp [pruneStateJson]
    | deleted | summarized => exact iff_of_false (htext _ _) (by simp)
  | deleted =>
    cases y with
    | intact | cleared => exact iff_of_false (htext _ _).symm (by simp)
    | deleted =>
      rw [pruneStateJson, pruneStateJson, scrub_case_inj (by simp) (by simp [volatileKeys]),
        scrub_record_inj (by rfl) (by simp)]
      simp [removed_of_ne, volatileKeys]
    | summarized =>
      refine iff_of_false (scrub_case_ne ?_ ?_ ?_ ?_ ?_) ?_ <;> simp [volatileKeys]
  | summarized =>
    cases y with
    | intact | cleared => exact iff_of_false (htext _ _).symm (by simp)
    | deleted =>
      refine iff_of_false (scrub_case_ne ?_ ?_ ?_ ?_ ?_) ?_ <;> simp [volatileKeys]
    | summarized =>
      rw [pruneStateJson, pruneStateJson, scrub_case_inj (by simp) (by simp [volatileKeys]),
        scrub_record_inj (by rfl) (by simp)]
      simp [removed_of_ne, volatileKeys]

theorem part_shows : Shows Part.toJson (Part.semantic scrub) := by
  intro x y
  rw [Part.toJson, Part.toJson, scrub_record_inj (by rfl) (by simp)]
  -- A part has the keys of a part whatever it leaves out, so its id goes.
  have hkind := partKind_shows x.kind y.kind
  have hstate := pruneState_shows x.pruneState y.pruneState
  simp [removed, volatileKeys, isMessagePart, mem_presentKeys, Part.semantic,
    text_shows.field_eq_iff, hkind, hstate]

theorem conversationRecord_shows :
    Shows ConversationRecord.toJson (ConversationRecord.semantic scrub) := by
  intro x y
  rw [ConversationRecord.toJson, ConversationRecord.toJson, scrub_record_inj (by rfl) (by simp)]
  have hrole := messageRole_shows x.role y.role
  have hpart := part_shows
  have horigin := messageOrigin_shows
  simp [removed, volatileKeys, isMessage, mem_presentKeys, ConversationRecord.semantic, hrole,
    horigin.field_eq_iff, hpart.map_eq_iff]

/-! ## The session graph -/

theorem protocolEvent_shows : Shows ProtocolEvent.toJson (ProtocolEvent.semantic scrub) := by
  intro x y
  rw [ProtocolEvent.toJson, ProtocolEvent.toJson, scrub_record_inj (by rfl) (by simp)]
  simp [removed_of_ne, volatileKeys, ProtocolEvent.semantic]

theorem sessionEventRecord_shows :
    Shows SessionEventRecord.toJson (SessionEventRecord.semantic scrub) := by
  intro x y
  cases x with
  | conversation x =>
    cases y with
    | conversation y =>
      rw [SessionEventRecord.toJson, SessionEventRecord.toJson,
        scrub_case_inj (by simp) (by simp [volatileKeys]), conversationRecord_shows x y]
      simp [SessionEventRecord.semantic]
    | protocol y =>
      refine iff_of_false (scrub_case_ne ?_ ?_ ?_ ?_ ?_) ?_ <;>
        simp [volatileKeys, SessionEventRecord.semantic]
  | protocol x =>
    cases y with
    | conversation y =>
      refine iff_of_false (scrub_case_ne ?_ ?_ ?_ ?_ ?_) ?_ <;>
        simp [volatileKeys, SessionEventRecord.semantic]
    | protocol y =>
      rw [SessionEventRecord.toJson, SessionEventRecord.toJson,
        scrub_case_inj (by simp) (by simp [volatileKeys]), protocolEvent_shows x y]
      simp [SessionEventRecord.semantic]

theorem sessionNodeRecord_shows :
    Shows SessionNodeRecord.toJson (SessionNodeRecord.semantic scrub) := by
  rintro ⟨_, _, _, _, _, x⟩ ⟨_, _, _, _, _, y⟩
  cases x with
  | event x =>
    cases y with
    | event y =>
      rw [SessionNodeRecord.toJson, SessionNodeRecord.toJson,
        scrub_record_inj (by rfl) (by simp [fields])]
      have hrecord := sessionEventRecord_shows x y
      simp [SessionNodePayload.fields, removed_of_ne, volatileKeys, SessionNodeRecord.semantic,
        SessionNodePayload.semantic, hrecord, causalRef_shows.field_eq_iff, text_shows.field_eq_iff]
      tauto
    | plugin =>
      refine iff_of_false (scrub_tagged_ne ?_ ?_ ?_) ?_ <;>
        simp [volatileKeys, SessionNodeRecord.semantic, SessionNodePayload.semantic]
  | plugin =>
    cases y with
    | event y =>
      refine iff_of_false (scrub_tagged_ne ?_ ?_ ?_) ?_ <;>
        simp [volatileKeys, SessionNodeRecord.semantic, SessionNodePayload.semantic]
    | plugin =>
      rw [SessionNodeRecord.toJson, SessionNodeRecord.toJson,
        scrub_record_inj (by rfl) (by simp [fields])]
      simp [SessionNodePayload.fields, removed_of_ne, volatileKeys, SessionNodeRecord.semantic,
        SessionNodePayload.semantic, causalRef_shows.field_eq_iff, text_shows.field_eq_iff]
      tauto

theorem sessionGraphData_shows :
    Shows SessionGraphData.toJson (SessionGraphData.semantic scrub) := by
  intro x y
  rw [SessionGraphData.toJson, SessionGraphData.toJson, scrub_record_inj (by rfl) (by simp)]
  have hnode := sessionNodeRecord_shows
  simp [removed_of_ne, volatileKeys, SessionGraphData.semantic, hnode.map_eq_iff]

theorem graphCommitDelta_shows :
    Shows GraphCommitDelta.toJson (GraphCommitDelta.semantic scrub) := by
  intro x y
  cases x with
  | unchanged =>
    cases y with
    | unchanged =>
      rw [GraphCommitDelta.toJson, GraphCommitDelta.toJson,
        scrub_case_inj (by simp) (by simp [volatileKeys]), scrub_record_inj (by rfl) (by simp)]
      simp [removed_of_ne, volatileKeys, GraphCommitDelta.semantic]
    | append | replaceFull =>
      refine iff_of_false (scrub_case_ne ?_ ?_ ?_ ?_ ?_) ?_ <;>
        simp [volatileKeys, GraphCommitDelta.semantic]
  | append =>
    cases y with
    | append =>
      rw [GraphCommitDelta.toJson, GraphCommitDelta.toJson,
        scrub_case_inj (by simp) (by simp [volatileKeys]), scrub_record_inj (by rfl) (by simp)]
      have hnode := sessionNodeRecord_shows
      simp [removed_of_ne, volatileKeys, GraphCommitDelta.semantic, hnode.map_eq_iff]
    | unchanged | replaceFull =>
      refine iff_of_false (scrub_case_ne ?_ ?_ ?_ ?_ ?_) ?_ <;>
        simp [volatileKeys, GraphCommitDelta.semantic]
  | replaceFull x =>
    cases y with
    | replaceFull y =>
      rw [GraphCommitDelta.toJson, GraphCommitDelta.toJson,
        scrub_case_inj (by simp) (by simp [volatileKeys]), sessionGraphData_shows x y]
      simp [GraphCommitDelta.semantic]
    | unchanged | append =>
      refine iff_of_false (scrub_case_ne ?_ ?_ ?_ ?_ ?_) ?_ <;>
        simp [volatileKeys, GraphCommitDelta.semantic]

/-! ## Frames and the checkpoint -/

theorem agentFrameStatus_shows : Shows agentFrameStatusJson id := by
  intro x y
  cases x <;> cases y <;> simp [agentFrameStatusJson]

theorem protocolTurnOptions_shows :
    Shows ProtocolTurnOptions.toJson (ProtocolTurnOptions.semantic scrub) := by
  intro x y
  rw [ProtocolTurnOptions.toJson, ProtocolTurnOptions.toJson, scrub_record_inj (by rfl) (by simp)]
  simp [removed_of_ne, volatileKeys, ProtocolTurnOptions.semantic]

theorem agentFrameRecord_shows :
    Shows AgentFrameRecord.toJson (AgentFrameRecord.semantic scrub) := by
  intro x y
  rw [AgentFrameRecord.toJson, AgentFrameRecord.toJson, scrub_record_inj (by rfl) (by simp)]
  have hstatus := agentFrameStatus_shows x.status y.status
  have hoptions := protocolTurnOptions_shows x.protocolTurnOptions y.protocolTurnOptions
  simp [removed_of_ne, volatileKeys, AgentFrameRecord.semantic, text_shows.field_eq_iff,
    bytes_shows.field_eq_iff, causalRef_shows.field_eq_iff, hstatus, hoptions]

theorem tokenUsage_shows : Shows tokenUsageJson id := by
  rintro ⟨⟩ ⟨⟩
  rw [tokenUsageJson, tokenUsageJson, scrub_record_inj (by simp) (by simp)]
  simp [removed_of_ne, volatileKeys, Int64.toInt_inj]

theorem promptUsage_shows : Shows PromptUsage.toJson id := by
  rintro ⟨⟩ ⟨⟩
  rw [PromptUsage.toJson, PromptUsage.toJson, scrub_record_inj (by rfl) (by simp)]
  simp [removed_of_ne, volatileKeys]

theorem persistedTurnState_shows :
    Shows PersistedTurnState.toJson (PersistedTurnState.semantic scrub) := by
  intro x y
  rw [PersistedTurnState.toJson, PersistedTurnState.toJson, scrub_record_inj (by rfl) (by simp)]
  have husage := tokenUsage_shows x.tokenUsage y.tokenUsage
  have hoptions := protocolTurnOptions_shows x.protocolTurnOptions y.protocolTurnOptions
  have hprompt := promptUsage_shows
  simp [removed_of_ne, volatileKeys, PersistedTurnState.semantic, husage,
    hprompt.field_eq_iff, hoptions]

theorem toolState_shows : Shows ToolState.toJson (ToolState.semantic scrub) := by
  intro x y
  rw [ToolState.toJson, ToolState.toJson, scrub_record_inj (by rfl) (by simp)]
  simp [removed_of_ne, volatileKeys, ToolState.semantic]

theorem pluginSessionSnapshot_shows :
    Shows PluginSessionSnapshot.toJson (PluginSessionSnapshot.semantic scrub) := by
  intro x y
  rw [PluginSessionSnapshot.toJson, PluginSessionSnapshot.toJson,
    scrub_record_inj (by rfl) (by simp)]
  simp [removed_of_ne, volatileKeys, PluginSessionSnapshot.semantic]

theorem hydratedSessionCheckpoint_shows :
    Shows HydratedSessionCheckpoint.toJson (HydratedSessionCheckpoint.semantic scrub) := by
  have hbytes (bytes : List UInt8) : scrub (bytesJson bytes) ≠ .null := by simp [bytesJson]
  have hnat (n : Nat) : scrub (natJson n) ≠ .null := by simp [natJson]
  have htext := text_shows.nullable (fun _ => by simp)
  have hrevision := nat_shows.nullable hnat
  have hstate := bytes_shows.nullable hbytes
  have htools := toolState_shows.nullable fun _ => scrub_record_ne_null _
  have hplugins := pluginSessionSnapshot_shows.nullable fun _ => scrub_record_ne_null _
  intro x y
  rw [HydratedSessionCheckpoint.toJson, HydratedSessionCheckpoint.toJson,
    scrub_record_inj (by rfl) (by simp)]
  have hturn := persistedTurnState_shows x.turnState y.turnState
  simp [removed_of_ne, volatileKeys, HydratedSessionCheckpoint.semantic, hturn,
    htext x.toolStateRef y.toolStateRef, htools x.toolState y.toolState,
    htext x.pluginSnapshotRef y.pluginSnapshotRef, hplugins x.pluginSnapshot y.pluginSnapshot,
    hrevision x.pluginSnapshotRevision y.pluginSnapshotRevision,
    htext x.executionStateRef y.executionStateRef, hstate x.executionState y.executionState]

/-! ## The commit -/

theorem modelSpec_shows : Shows ModelSpec.toJson id := by
  rintro ⟨_, _, _, _⟩ ⟨_, _, _, _⟩
  rw [ModelSpec.toJson, ModelSpec.toJson, scrub_record_inj (by rfl) (by simp)]
  simp [removed, isMessage, isMessagePart, mem_presentKeys, volatileKeys, text_shows.field_eq_iff]
  rw [ModelLimits.toJson, ModelLimits.toJson, scrub_record_inj (by rfl) (by simp)]
  simp [removed_of_ne, volatileKeys, nat_shows.field_eq_iff]

theorem persistedSessionConfig_shows : Shows PersistedSessionConfig.toJson id := by
  rintro ⟨_, x⟩ ⟨_, y⟩
  rw [PersistedSessionConfig.toJson, PersistedSessionConfig.toJson,
    scrub_record_inj (by rfl) (by simp)]
  have hspec := modelSpec_shows x y
  simp [removed_of_ne, volatileKeys, hspec]

theorem tokenLedgerEntry_shows : Shows tokenLedgerEntryJson id := by
  rintro ⟨_, _, x⟩ ⟨_, _, y⟩
  rw [tokenLedgerEntryJson, tokenLedgerEntryJson, scrub_record_inj (by rfl) (by simp)]
  have husage := tokenUsage_shows x y
  simp [removed_of_ne, volatileKeys, husage]

theorem queuedWorkCompletion_shows : Shows queuedWorkCompletionJson id := by
  rintro ⟨_, _, _, x⟩ ⟨_, _, _, y⟩
  rw [queuedWorkCompletionJson, queuedWorkCompletionJson, scrub_record_inj (by rfl) (by simp)]
  have htexts := texts_shows x y
  simp [removed_of_ne, volatileKeys, htexts]

theorem turnInputCompletion_shows : Shows turnInputCompletionJson id := by
  rintro ⟨_, _, _, x⟩ ⟨_, _, _, y⟩
  rw [turnInputCompletionJson, turnInputCompletionJson, scrub_record_inj (by rfl) (by simp)]
  have htexts := texts_shows x y
  simp [removed_of_ne, volatileKeys, htexts]

theorem semanticCommit_shows :
    Shows (fun commit => (semanticCommit commit).toJson) (RuntimeCommit.semantic scrub) := by
  intro x y
  change scrub (semanticCommit x).toJson = scrub (semanticCommit y).toJson ↔ _
  rw [RuntimeCommit.toJson, RuntimeCommit.toJson, scrub_record_inj (by rfl) (by simp)]
  have hconfig := persistedSessionConfig_shows x.config y.config
  have hdelta := graphCommitDelta_shows x.graph y.graph
  have hcheckpoint := hydratedSessionCheckpoint_shows x.checkpoint y.checkpoint
  have htexts := texts_shows x.committedAttachmentIds y.committedAttachmentIds
  have hframe := agentFrameRecord_shows
  have hentry := tokenLedgerEntry_shows
  have hwork := queuedWorkCompletion_shows
  have hinput := turnInputCompletion_shows
  simp [semanticCommit, removed_of_ne, volatileKeys, RuntimeCommit.semantic, hconfig,
    hframe.map_eq_iff, hdelta, hcheckpoint, hentry.map_eq_iff, hwork.map_eq_iff, hinput.map_eq_iff,
    text_shows.field_eq_iff, htexts]

/-! ## What the semantic part keeps -/

section Semantic

variable {J : Type u} {K : Type v} (slot : J → K)

theorem causalRefSemantic_idem (ref : SessionGraphs.CausalRef) :
    causalRefSemantic (causalRefSemantic ref) = causalRefSemantic ref := by
  cases ref <;> rfl

theorem messageOriginSemantic_idem (origin : SessionGraphs.MessageOrigin) :
    messageOriginSemantic (messageOriginSemantic origin) = messageOriginSemantic origin := by
  cases origin with
  | plugin => rfl
  | process => simp [messageOriginSemantic, comp_def, causalRefSemantic_idem]

theorem part_semantic_id (part : CommitDocuments.Part J) :
    (part.semantic id).semantic slot = part.semantic slot := by
  simp [Part.semantic]

theorem conversationRecord_semantic_id (message : ConversationRecord J) :
    (message.semantic id).semantic slot = message.semantic slot := by
  simp [ConversationRecord.semantic, part_semantic_id, messageOriginSemantic_idem, comp_def]

theorem sessionNodePayload_semantic_id (payload : SessionNodePayload J) :
    (payload.semantic id).semantic slot = payload.semantic slot := by
  cases payload with
  | event event =>
    cases event with
    | conversation message =>
      simp [SessionNodePayload.semantic, SessionEventRecord.semantic,
        conversationRecord_semantic_id]
    | protocol => rfl
  | plugin => rfl

theorem sessionNodeRecord_semantic_id (node : SessionNodeRecord J) :
    (node.semantic id).semantic slot = node.semantic slot := by
  simp [SessionNodeRecord.semantic, sessionNodePayload_semantic_id, causalRefSemantic_idem,
    comp_def]

theorem graphCommitDelta_semantic_id (delta : GraphCommitDelta J) :
    (delta.semantic id).semantic slot = delta.semantic slot := by
  cases delta <;>
    simp [GraphCommitDelta.semantic, SessionGraphData.semantic, sessionNodeRecord_semantic_id,
      comp_def]

theorem agentFrameRecord_semantic_id (frame : AgentFrameRecord J) :
    (frame.semantic id).semantic slot = frame.semantic slot := by
  simp [AgentFrameRecord.semantic, ProtocolTurnOptions.semantic, causalRefSemantic_idem, comp_def]

theorem hydratedSessionCheckpoint_semantic_id (checkpoint : HydratedSessionCheckpoint J) :
    (checkpoint.semantic id).semantic slot = checkpoint.semantic slot := by
  have htools : ToolState.semantic slot ∘ ToolState.semantic id = ToolState.semantic slot := rfl
  have hplugins : PluginSessionSnapshot.semantic slot ∘ PluginSessionSnapshot.semantic id =
      PluginSessionSnapshot.semantic slot := rfl
  simp [HydratedSessionCheckpoint.semantic, PersistedTurnState.semantic,
    ProtocolTurnOptions.semantic, htools, hplugins]

variable (commit : RuntimeCommit J)

theorem runtimeCommit_semantic_id : (commit.semantic id).semantic slot = commit.semantic slot := by
  simp [RuntimeCommit.semantic, agentFrameRecord_semantic_id, graphCommitDelta_semantic_id,
    hydratedSessionCheckpoint_semantic_id, comp_def]

/-- When the frames of a commit were opened. -/
def openedAt : List String := commit.agentFrames.map (·.createdAt)

theorem openedAt_semantic : openedAt (commit.semantic slot) = openedAt commit := by
  simp [openedAt, RuntimeCommit.semantic, AgentFrameRecord.semantic, comp_def]

theorem eq_of_untimed_frames : ∀ {frames others : List (AgentFrameRecord J)},
    frames.map AgentFrameRecord.untimed = others.map AgentFrameRecord.untimed →
    frames.map (·.createdAt) = others.map (·.createdAt) → frames = others
  | [], [], _, _ => rfl
  | [], _ :: _, h, _ => by simp at h
  | _ :: _, [], h, _ => by simp at h
  | frame :: frames, other :: others, hframes, htimes => by
      simp only [List.map_cons, List.cons.injEq] at hframes htimes
      obtain ⟨hframe, hframes⟩ := hframes
      obtain ⟨htime, htimes⟩ := htimes
      have hhead : frame = other := by
        cases frame
        cases other
        simp_all [AgentFrameRecord.untimed]
      rw [hhead, eq_of_untimed_frames hframes htimes]

/-- A commit without generated ids is its content and the times its frames were opened at. -/
theorem semantic_id_eq_iff (x y : RuntimeCommit J) :
    x.semantic id = y.semantic id ↔ x.content = y.content ∧ openedAt x = openedAt y := by
  constructor
  · intro h
    refine ⟨congrArg untimed h, ?_⟩
    rw [← openedAt_semantic id x, ← openedAt_semantic id y, h]
  · rintro ⟨hcontent, htimes⟩
    rw [← openedAt_semantic id x, ← openedAt_semantic id y] at htimes
    simp only [content, untimed, RuntimeCommit.mk.injEq] at hcontent
    have hframes := eq_of_untimed_frames hcontent.2.2.2.2.2.1 htimes
    cases hx : x.semantic id
    cases hy : y.semantic id
    simp_all

end Semantic

/-! ## The law of the hash -/

section Law

variable {Digest : Type v} {stableJsonSha256Hex : Json → Digest} {x y : RuntimeCommit Json}

/-- Commits have the same hash exactly if they have the same content. -/
def HashLaw (stableJsonSha256Hex : Json → Digest) (x y : RuntimeCommit Json) : Prop :=
  turnCommitHash stableJsonSha256Hex x = turnCommitHash stableJsonSha256Hex y ↔
    x.content = y.content

theorem turnCommitHash_eq_iff (hinj : Function.Injective stableJsonSha256Hex) :
    turnCommitHash stableJsonSha256Hex x = turnCommitHash stableJsonSha256Hex y ↔
      x.semantic scrub = y.semantic scrub :=
  hinj.eq_iff.trans (semanticCommit_shows x y)

theorem openedAt_eq_of_semantic_eq (h : x.semantic scrub = y.semantic scrub) :
    openedAt x = openedAt y := by
  rw [← openedAt_semantic scrub x, ← openedAt_semantic scrub y, h]

/-- The law holds of two commits exactly if commits of the same content opened their frames at
the same times, and the scrubbing of the JSON they carry makes no two different values equal. -/
theorem hashLaw_iff (hinj : Function.Injective stableJsonSha256Hex) :
    HashLaw stableJsonSha256Hex x y ↔ (x.content = y.content → openedAt x = openedAt y) ∧
        (x.semantic scrub = y.semantic scrub → x.semantic id = y.semantic id) := by
  rw [HashLaw, turnCommitHash_eq_iff hinj]
  constructor
  · intro h
    refine ⟨fun hcontent => openedAt_eq_of_semantic_eq (h.mpr hcontent), fun hscrub => ?_⟩
    exact (semantic_id_eq_iff x y).mpr ⟨h.mp hscrub, openedAt_eq_of_semantic_eq hscrub⟩
  · rintro ⟨htimes, hslots⟩
    refine ⟨fun hscrub => ((semantic_id_eq_iff x y).mp (hslots hscrub)).1, fun hcontent => ?_⟩
    have hid := (semantic_id_eq_iff x y).mpr ⟨hcontent, htimes hcontent⟩
    rw [← runtimeCommit_semantic_id scrub x, ← runtimeCommit_semantic_id scrub y, hid]

/-- A commit of a new session with these frames and these nodes. -/
def firstCommit (agentFrames : List (AgentFrameRecord Json))
    (nodes : List (SessionNodeRecord Json)) : RuntimeCommit Json where
  sessionId := "root"
  expectedHeadRevision := none
  sessionExecutionLease := none
  releaseSessionExecutionLease := none
  config := ⟨"test", ⟨"model", none, ⟨1, none⟩⟩⟩
  agentFrames := agentFrames
  currentAgentFrameId := "root:frame:initial"
  graph := .append nodes none
  checkpoint :=
    { turnState :=
        { turnIndex := 0
          tokenUsage := ⟨0, 0, 0, 0⟩
          lastPromptUsage := none
          protocolTurnOptions := { payload := .object [] } }
      toolStateRef := none
      toolState := none
      pluginSnapshotRef := none
      pluginSnapshot := none
      pluginSnapshotRevision := none
      executionStateRef := none
      executionState := none }
  usageDeltas := []
  turnCommit := none
  completedQueueClaims := []
  completedTurnInputClaims := []
  interruptedTurnInputTurnId := none
  committedAttachmentIds := []

/-- The commit of one plugin node with this body. -/
def noteCommit (body : Json) : RuntimeCommit Json :=
  firstCommit []
    [⟨"n", none, none, none, "2025-01-01T00:00:00Z", .plugin "note" body⟩]

/-- The commit of the first frame of a session, opened at this time. -/
def frameCommit (createdAt : String) : RuntimeCommit Json :=
  firstCommit
    [⟨"root:frame:initial", "root", none, .active, "initial", none, createdAt, .object [],
      ⟨.object []⟩, none, none⟩] []

/-- Two texts in the body of a plugin node. -/
theorem hashLaw_iff_notes : HashLaw id (noteCommit (.object [("text", .string "a")]))
      (noteCommit (.object [("text", .string "b")])) := by
  refine (hashLaw_iff injective_id).mpr ⟨fun _ => rfl, fun h => ?_⟩
  simp [noteCommit, firstCommit, RuntimeCommit.semantic, GraphCommitDelta.semantic,
    SessionNodeRecord.semantic, SessionNodePayload.semantic, scrub, scrubEntries, removed,
    volatileKeys] at h

/-- Two due times that a plugin stored under the key of a node's time have one hash; two commits
of one frame that was opened again have two. -/
theorem hash_forgets_times_and_keeps_them :
    ¬ HashLaw id (noteCommit (.object [("timestamp", .string "today")]))
        (noteCommit (.object [("timestamp", .string "tomorrow")])) ∧
      ¬ HashLaw id (frameCommit "2025-01-01T00:00:00Z") (frameCommit "2025-01-01T00:00:01Z") := by
  constructor
  · intro h
    have hhash : (noteCommit (.object [("timestamp", .string "today")])).semantic scrub =
        (noteCommit (.object [("timestamp", .string "tomorrow")])).semantic scrub := by
      simp [noteCommit, firstCommit, RuntimeCommit.semantic, GraphCommitDelta.semantic,
        SessionNodeRecord.semantic, SessionNodePayload.semantic, scrub, scrubEntries, removed,
        volatileKeys]
    have hcontent := h.mp ((turnCommitHash_eq_iff injective_id).mpr hhash)
    simp [noteCommit, firstCommit, content, untimed,
      RuntimeCommit.semantic, GraphCommitDelta.semantic, SessionNodeRecord.semantic,
      SessionNodePayload.semantic] at hcontent
  · intro h
    have hhash := (turnCommitHash_eq_iff injective_id).mp (h.mpr rfl)
    have htimes := openedAt_eq_of_semantic_eq hhash
    simp [openedAt, frameCommit, firstCommit] at htimes

end Law

end CommitHashes
