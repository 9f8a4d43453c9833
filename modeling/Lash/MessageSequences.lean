import Lash.DataRefinements
import Lash.TurnProtocols

/-!
# Message sequences

A sequence of messages shares a base with others and keeps what was added to it apart, until
it is changed in the middle and owns its messages. The base is rendered once for all sequences
over it. Against a plain list of messages nothing of this can be seen: every operation answers
as it does on the list, and the rendered prompt is that of the list.
-/

namespace MessageSequences

open TurnProtocols ToolOutputs DataRefinements List
open SessionGraphs (MessageRole)

inductive LlmRole where
  | user | assistant | system
  deriving DecidableEq

inductive LlmContentBlock where
  | text (text : String) (responseMeta : Option ResponseTextMeta) (cacheBreakpoint : Bool)
  | image (attachmentIdx : Nat)
  | toolCall (callId toolName inputJson : String) (replay : Option ProviderReplayMeta)
  | toolResult (callId content : String) (toolName : Option String)
  | reasoning (text : String) (replay : Option ProviderReasoningReplay)
  deriving DecidableEq

structure LlmMessage where
  role : LlmRole
  blocks : List LlmContentBlock
  deriving DecidableEq

structure LlmAttachment where
  mime : String
  data : List UInt8
  reference : Option AttachmentRef
  deriving DecidableEq

structure RenderedPrompt where
  messages : List LlmMessage
  attachments : List LlmAttachment
  deriving DecidableEq

def RenderedPrompt.default : RenderedPrompt := ⟨[], []⟩

/-! ### Rendering -/

def renderPart (part : Part) : String :=
  if part.kind = .image then
    if part.attachment.isSome ∨ trim part.content = "" then "[Image attached]"
    else part.content
  else match part.pruneState with
    | .intact => part.content
    | .cleared => "[Old tool result content cleared]"
    | .deleted breadcrumb archiveHash =>
      "[pruned:" ++ archiveHash ++ " — " ++ breadcrumb ++ "]"
    | .summarized summary archiveHash =>
      "[SUMMARY of original " ++ archiveHash ++ "]\n" ++ summary

def renderAssistantToolCall (part : Part) (rendered : String) : String :=
  let toolName := part.toolName.getD "tool"
  let trimmed := trim rendered
  if trimmed = "" ∨ trimmed = "\x7b\x7d" then toolName ++ "()"
  else toolName ++ "(" ++ trimmed ++ ")"

def renderPartForChat (role : MessageRole) (part : Part) : String :=
  let rendered := renderPart part
  match role with
  | .system =>
    match part.kind with
    | .output => "<output>\n" ++ rendered ++ "\n</output>"
    | .error => "<error>\n" ++ rendered ++ "\n</error>"
    | _ => rendered
  | .assistant =>
    match part.kind with
    | .toolCall => renderAssistantToolCall part rendered
    | _ => rendered
  | .user => rendered
  | .event => rendered

def llmRoleForMessage : MessageRole → LlmRole
  | .user => .user
  | .assistant => .assistant
  | .system => .system
  | .event => .user

section Prompts

-- the media type of an attachment by its reference
variable (canonicalMime : AttachmentRef → String)

def attachmentFromPart (part : Part) : Option LlmAttachment :=
  if part.kind = .image then
    part.attachment.map fun reference => ⟨canonicalMime reference, [], some reference⟩
  else none

/-- What a part of any other kind adds: a text, unless it is blank. -/
def textBlocks (role : MessageRole) (part : Part) : List LlmContentBlock :=
  let text := renderPartForChat role part
  if trim text = "" then []
  else
    let text :=
      match role with
      | .event => "Runtime event:\n" ++ text
      | .system => "Runtime note:\n" ++ text
      | .user => text
      | .assistant => text
    [.text text (if part.kind = .text ∨ part.kind = .prose then part.responseMeta else none) false]

/-- The attachments so far and the blocks of the message with one more part. -/
def appendPart (role : MessageRole) (rendered : List LlmAttachment × List LlmContentBlock)
    (part : Part) : List LlmAttachment × List LlmContentBlock :=
  let (attachments, blocks) := rendered
  match part.kind with
  | .reasoning =>
    match part.reasoningMeta with
    | none => rendered
    | some replay =>
      if replay.isEmpty then rendered
      else (attachments, blocks ++ [.reasoning part.content (some replay)])
  | .toolCall =>
    (attachments, blocks ++ [.toolCall (part.toolCallId.getD "") (part.toolName.getD "")
      part.content part.toolReplay])
  | .toolResult =>
    (attachments, blocks ++ [.toolResult (part.toolCallId.getD "") (renderPart part)
      part.toolName])
  | _ =>
    match attachmentFromPart canonicalMime part, role with
    | some attachment, .user =>
      (attachments ++ [attachment], blocks ++ [.image attachments.length])
    | _, _ => (attachments, blocks ++ textBlocks role part)

variable (rendered : RenderedPrompt)

def appendMessage (msg : Message) : RenderedPrompt :=
  let (attachments, blocks) :=
    msg.parts.foldl (appendPart canonicalMime msg.role) (rendered.attachments, [])
  if blocks = [] then { rendered with attachments := attachments }
  else ⟨rendered.messages ++ [⟨llmRoleForMessage msg.role, blocks⟩], attachments⟩

def appendRenderedPrompt (msgs : List Message) : RenderedPrompt :=
  msgs.foldl (appendMessage canonicalMime) rendered

def renderPrompt (msgs : List Message) : RenderedPrompt :=
  appendRenderedPrompt canonicalMime .default msgs

/-- A prompt is rendered on from where the rendering of its beginning stopped. -/
theorem renderPrompt_append (base delta : List Message) :
    renderPrompt canonicalMime (base ++ delta) =
      appendRenderedPrompt canonicalMime (renderPrompt canonicalMime base) delta :=
  List.foldl_append

end Prompts

/-! ### Sequences -/

structure MessageSequence where
  base : List Message
  delta : List Message
  owned : Option (List Message)
  materialized : Option (List Message)
  /-- The number of the base whose rendering is shared. -/
  baseRendered : Option Nat
  deriving DecidableEq

/-- Messages that a read model hands out, with the cell for their rendering. -/
structure SharedBase where
  messages : List Message
  rendered : Option RenderedPrompt
  deriving DecidableEq

namespace MessageSequence

def fromOwned (messages : List Message) : MessageSequence := ⟨[], [], some messages, none, none⟩

def fromBase (base : List Message) : MessageSequence := ⟨base, [], none, none, none⟩

def fromBaseAndDelta (base delta : List Message) : MessageSequence :=
  ⟨base, delta, none, none, none⟩

def withBaseRenderCache (cache : Nat) (sequence : MessageSequence) : MessageSequence :=
  { sequence with baseRendered := some cache }

def clone (sequence : MessageSequence) : MessageSequence :=
  { sequence with materialized := none }

def len (sequence : MessageSequence) : Nat :=
  match sequence.owned with
  | some owned => owned.length
  | none => sequence.base.length + sequence.delta.length

def isEmpty (sequence : MessageSequence) : Bool := sequence.len == 0

/-- The messages in the order of the iterator. -/
def iter (sequence : MessageSequence) : List Message :=
  match sequence.owned with
  | some owned => owned
  | none => sequence.base ++ sequence.delta

/-- What the cell holds, filled now if it was empty. -/
def getOrInit (messages : List Message) (sequence : MessageSequence) :
    List Message × MessageSequence :=
  match sequence.materialized with
  | some materialized => (materialized, sequence)
  | none => (messages, { sequence with materialized := some messages })

def asSlice (sequence : MessageSequence) : List Message × MessageSequence :=
  match sequence.owned with
  | some owned => (owned, sequence)
  | none =>
    if sequence.delta = [] then (sequence.base, sequence)
    else sequence.getOrInit (sequence.base ++ sequence.delta)

def shared (sequence : MessageSequence) : List Message × MessageSequence :=
  match sequence.owned with
  | some owned => sequence.getOrInit owned
  | none =>
    if sequence.delta = [] then (sequence.base, sequence)
    else sequence.getOrInit (sequence.base ++ sequence.delta)

/-- What a sequence that does not own its messages takes over when it is to own them. -/
def unshared (sequence : MessageSequence) : List Message :=
  if sequence.delta = [] then sequence.base
  else sequence.materialized.getD (sequence.base ++ sequence.delta)

/-- The messages are changed in place by `edit`. -/
def makeMut (edit : List Message → List Message) (sequence : MessageSequence) :
    MessageSequence :=
  match sequence.owned with
  | some owned => { sequence with owned := some (edit owned), materialized := none }
  | none =>
    { sequence with base := [], delta := [], owned := some (edit sequence.unshared),
                    materialized := none }

def push (message : Message) (sequence : MessageSequence) : MessageSequence :=
  match sequence.owned with
  | some owned => { sequence with owned := some (owned ++ [message]), materialized := none }
  | none => { sequence with delta := sequence.delta ++ [message], materialized := none }

def extend (messages : List Message) (sequence : MessageSequence) : MessageSequence :=
  if messages = [] then sequence
  else match sequence.owned with
    | some owned => { sequence with owned := some (owned ++ messages), materialized := none }
    | none => { sequence with delta := sequence.delta ++ messages, materialized := none }

def replace (messages : List Message) (sequence : MessageSequence) : MessageSequence :=
  { sequence with base := [], delta := [], owned := some messages, materialized := none }

def intoVec (sequence : MessageSequence) : List Message :=
  match sequence.owned with
  | some owned => owned
  | none => sequence.unshared

end MessageSequence

section Sequences

variable (canonicalMime : AttachmentRef → String)

/-- The rendering of a base, kept in its cell if it was empty. -/
def renderBase (bases : List SharedBase) (sequence : MessageSequence) :
    RenderedPrompt × List SharedBase :=
  match sequence.baseRendered.bind fun cache => bases[cache]?.map fun shared => (cache, shared) with
  | none => (renderPrompt canonicalMime sequence.base, bases)
  | some (cache, shared) =>
    match shared.rendered with
    | some rendered => (rendered, bases)
    | none =>
      let rendered := renderPrompt canonicalMime sequence.base
      (rendered, bases.set cache { shared with rendered := some rendered })

def MessageSequence.renderPrompt (bases : List SharedBase) (sequence : MessageSequence) :
    RenderedPrompt × List SharedBase :=
  match sequence.owned with
  | some owned => (MessageSequences.renderPrompt canonicalMime owned, bases)
  | none =>
    if sequence.base = [] then
      (MessageSequences.renderPrompt canonicalMime sequence.delta, bases)
    else
      let (rendered, bases) := renderBase canonicalMime bases sequence
      if sequence.delta = [] then (rendered, bases)
      else (appendRenderedPrompt canonicalMime rendered sequence.delta, bases)

end Sequences

/-! ### Programs over sequences -/

/-- The ways to a new sequence. Over a read model the sequence shares the rendering of the
base of that model. -/
inductive Creation where
  | fromOwned (messages : List Message)
  | fromBase (base : List Message)
  | fromBaseAndDelta (base delta : List Message)
  | fromReadModel (model : Nat) (delta : List Message)

/-- What is done with a sequence that goes on to exist. -/
inductive Use where
  | push (message : Message)
  | extend (messages : List Message)
  | replace (messages : List Message)
  | makeMut (edit : List Message → List Message)
  | len
  | isEmpty
  | iter
  | asSlice
  | index (i : Nat)
  | shared
  | renderPrompt

inductive Op where
  | readModel (messages : List Message)
  | create (creation : Creation)
  | clone (sequence : Nat)
  | use (sequence : Nat) (use : Use)
  | intoVec (sequence : Nat)

inductive Answer where
  | done
  | missing
  | created (number : Nat)
  | length (n : Nat)
  | flag (value : Bool)
  | messages (messages : List Message)
  | message (message : Option Message)
  | prompt (prompt : RenderedPrompt)
  deriving DecidableEq

/-- A kind of sequence `A` over bases `B`. -/
structure Sequences (B A : Type) where
  readModel : List Message → B
  create : List B → Creation → Option A
  clone : A → A
  use : Use → List B → A → Answer × List B × A
  intoVec : A → List Message

structure World (B A : Type) where
  bases : List B
  sequences : Heap A

def World.new {B A : Type} : World B A := ⟨[], .empty⟩

def step {B A : Type} (kind : Sequences B A) : Op → World B A → Answer × World B A
  | .readModel messages, world =>
    (.created world.bases.length,
      { world with bases := world.bases ++ [kind.readModel messages] })
  | .create creation, world =>
    match kind.create world.bases creation with
    | none => (.missing, world)
    | some sequence =>
      let (number, sequences) := world.sequences.alloc sequence
      (.created number, { world with sequences := sequences })
  | .clone sequence, world =>
    match world.sequences.at? sequence with
    | none => (.missing, world)
    | some sequence =>
      let (number, sequences) := world.sequences.alloc (kind.clone sequence)
      (.created number, { world with sequences := sequences })
  | .use number use, world =>
    match world.sequences.at? number with
    | none => (.missing, world)
    | some sequence =>
      let (answer, bases, sequence) := kind.use use world.bases sequence
      (answer, ⟨bases, world.sequences.put number (some sequence)⟩)
  | .intoVec number, world =>
    match world.sequences.at? number with
    | none => (.missing, world)
    | some sequence =>
      (.messages (kind.intoVec sequence),
        { world with sequences := world.sequences.put number none })

section Kinds

variable (canonicalMime : AttachmentRef → String)

/-- The sequences of the source. -/
def rope : Sequences SharedBase MessageSequence where
  readModel messages := ⟨messages, none⟩
  create bases
    | .fromOwned messages => some (.fromOwned messages)
    | .fromBase base => some (.fromBase base)
    | .fromBaseAndDelta base delta => some (.fromBaseAndDelta base delta)
    | .fromReadModel model delta => bases[model]?.map fun shared =>
      (MessageSequence.fromBaseAndDelta shared.messages delta).withBaseRenderCache model
  clone := MessageSequence.clone
  use
    | .push message, bases, sequence => (.done, bases, sequence.push message)
    | .extend messages, bases, sequence => (.done, bases, sequence.extend messages)
    | .replace messages, bases, sequence => (.done, bases, sequence.replace messages)
    | .makeMut edit, bases, sequence => (.done, bases, sequence.makeMut edit)
    | .len, bases, sequence => (.length sequence.len, bases, sequence)
    | .isEmpty, bases, sequence => (.flag sequence.isEmpty, bases, sequence)
    | .iter, bases, sequence => (.messages sequence.iter, bases, sequence)
    | .asSlice, bases, sequence => (.messages sequence.asSlice.1, bases, sequence.asSlice.2)
    | .index i, bases, sequence =>
      (.message (sequence.asSlice.1[i]?), bases, sequence.asSlice.2)
    | .shared, bases, sequence => (.messages sequence.shared.1, bases, sequence.shared.2)
    | .renderPrompt, bases, sequence =>
      let (prompt, bases) := sequence.renderPrompt canonicalMime bases
      (.prompt prompt, bases, sequence)
  intoVec := MessageSequence.intoVec

/-- Plain lists of messages. -/
def plain : Sequences (List Message) (List Message) where
  readModel messages := messages
  create models
    | .fromOwned messages => some messages
    | .fromBase base => some base
    | .fromBaseAndDelta base delta => some (base ++ delta)
    | .fromReadModel model delta => models[model]?.map (· ++ delta)
  clone messages := messages
  use
    | .push message, models, messages => (.done, models, messages ++ [message])
    | .extend more, models, messages => (.done, models, messages ++ more)
    | .replace messages, models, _ => (.done, models, messages)
    | .makeMut edit, models, messages => (.done, models, edit messages)
    | .len, models, messages => (.length messages.length, models, messages)
    | .isEmpty, models, messages => (.flag messages.isEmpty, models, messages)
    | .iter, models, messages => (.messages messages, models, messages)
    | .asSlice, models, messages => (.messages messages, models, messages)
    | .index i, models, messages => (.message messages[i]?, models, messages)
    | .shared, models, messages => (.messages messages, models, messages)
    | .renderPrompt, models, messages =>
      (.prompt (renderPrompt canonicalMime messages), models, messages)
  intoVec messages := messages

end Kinds

/-! ### Agreement with plain lists -/

/-- The sequence stands for the messages, and what it has cached is theirs. -/
structure Agrees (models : List (List Message)) (sequence : MessageSequence)
    (messages : List Message) : Prop where
  iter : sequence.iter = messages
  materialized : ∀ cached, sequence.materialized = some cached → cached = messages
  base : sequence.owned = none → ∀ cache, sequence.baseRendered = some cache →
    models[cache]? = some sequence.base

/-- The bases are those of the read models, and each is rendered rightly or not yet. -/
structure BasesAgree (canonicalMime : AttachmentRef → String) (bases : List SharedBase)
    (models : List (List Message)) : Prop where
  messages : bases.map (·.messages) = models
  rendered : ∀ shared ∈ bases, ∀ rendered, shared.rendered = some rendered →
    rendered = renderPrompt canonicalMime shared.messages

section Agreement

variable {models : List (List Message)} {sequence : MessageSequence} {messages : List Message}

/-- A sequence with nothing cached agrees with what it iterates over. -/
theorem agrees_uncached (unshared : sequence.owned = none → ∀ cache,
      sequence.baseRendered = some cache → models[cache]? = some sequence.base)
    (h : sequence.iter = messages) (uncached : sequence.materialized = none) :
    Agrees models sequence messages :=
  ⟨h, fun _ hcached => absurd (uncached.symm.trans hcached) nofun, unshared⟩

theorem Agrees.clone (agrees : Agrees models sequence messages) :
    Agrees models sequence.clone messages :=
  agrees_uncached agrees.base agrees.iter rfl

theorem Agrees.push (agrees : Agrees models sequence messages) (message : Message) :
    Agrees models (sequence.push message) (messages ++ [message]) := by
  have hiter := agrees.iter
  cases howned : sequence.owned with
  | some owned =>
    rw [MessageSequence.iter, howned] at hiter
    rw [MessageSequence.push, howned]
    exact agrees_uncached nofun (congrArg (· ++ [message]) hiter) rfl
  | none =>
    rw [MessageSequence.iter, howned] at hiter
    rw [MessageSequence.push, howned]
    refine agrees_uncached (fun _ => agrees.base howned) ?_ rfl
    simp [MessageSequence.iter, ← hiter]

theorem Agrees.extend (agrees : Agrees models sequence messages) (more : List Message) :
    Agrees models (sequence.extend more) (messages ++ more) := by
  by_cases hmore : more = []
  · subst hmore
    rw [MessageSequence.extend, if_pos rfl, append_nil]
    exact agrees
  have hiter := agrees.iter
  cases howned : sequence.owned with
  | some owned =>
    rw [MessageSequence.iter, howned] at hiter
    rw [MessageSequence.extend, if_neg hmore, howned]
    exact agrees_uncached nofun (congrArg (· ++ more) hiter) rfl
  | none =>
    rw [MessageSequence.iter, howned] at hiter
    rw [MessageSequence.extend, if_neg hmore, howned]
    refine agrees_uncached (fun _ => agrees.base howned) ?_ rfl
    simp [MessageSequence.iter, ← hiter]

theorem Agrees.replace (more : List Message) : Agrees models (sequence.replace more) more :=
  agrees_uncached nofun rfl rfl

section

variable (agrees : Agrees models sequence messages)
include agrees

/-- What a sequence takes over as its own is what it stands for. -/
theorem Agrees.unshared (howned : sequence.owned = none) : sequence.unshared = messages := by
  have hiter := agrees.iter
  rw [MessageSequence.iter, howned] at hiter
  by_cases hdelta : sequence.delta = []
  · rw [hdelta] at hiter
    rw [MessageSequence.unshared, if_pos hdelta]
    simpa using hiter
  · rw [MessageSequence.unshared, if_neg hdelta]
    cases hcached : sequence.materialized with
    | none => exact hiter
    | some cached => exact agrees.materialized cached hcached

theorem Agrees.of_owned {owned : List Message} (howned : sequence.owned = some owned) :
    owned = messages := by
  have hiter := agrees.iter
  rwa [MessageSequence.iter, howned] at hiter

theorem Agrees.makeMut (edit : List Message → List Message) :
    Agrees models (sequence.makeMut edit) (edit messages) := by
  cases howned : sequence.owned with
  | some owned =>
    rw [MessageSequence.makeMut, howned]
    exact agrees_uncached nofun (congrArg edit (agrees.of_owned howned)) rfl
  | none =>
    rw [MessageSequence.makeMut, howned]
    exact agrees_uncached nofun (congrArg edit (agrees.unshared howned)) rfl

theorem Agrees.intoVec : sequence.intoVec = messages := by
  cases howned : sequence.owned with
  | some owned =>
    rw [MessageSequence.intoVec, howned]
    exact agrees.of_owned howned
  | none =>
    rw [MessageSequence.intoVec, howned]
    exact agrees.unshared howned

/-- Whatever fills the cell first, it is the messages. -/
theorem Agrees.getOrInit :
    (sequence.getOrInit messages).1 = messages ∧
      Agrees models (sequence.getOrInit messages).2 messages := by
  cases hcached : sequence.materialized with
  | some cached =>
    rw [MessageSequence.getOrInit, hcached]
    exact ⟨agrees.materialized cached hcached, agrees⟩
  | none =>
    rw [MessageSequence.getOrInit, hcached]
    exact ⟨rfl, agrees.iter, fun _ h => (Option.some.inj h).symm, agrees.base⟩

/-- A sequence that does not own its messages shows its base, or fills its cell. -/
theorem Agrees.split (howned : sequence.owned = none) {shown : List Message × MessageSequence}
    (hshown : shown = if sequence.delta = [] then (sequence.base, sequence)
      else sequence.getOrInit (sequence.base ++ sequence.delta)) :
    shown.1 = messages ∧ Agrees models shown.2 messages := by
  have hiter := agrees.iter
  rw [MessageSequence.iter, howned] at hiter
  by_cases hdelta : sequence.delta = []
  · rw [hshown, if_pos hdelta]
    rw [hdelta] at hiter
    exact ⟨by simpa using hiter, agrees⟩
  · rw [hshown, if_neg hdelta, show sequence.base ++ sequence.delta = messages from hiter]
    exact agrees.getOrInit

theorem Agrees.asSlice :
    sequence.asSlice.1 = messages ∧ Agrees models sequence.asSlice.2 messages := by
  cases howned : sequence.owned with
  | some owned =>
    rw [MessageSequence.asSlice, howned]
    exact ⟨agrees.of_owned howned, agrees⟩
  | none => exact agrees.split howned (by rw [MessageSequence.asSlice, howned])

theorem Agrees.shared :
    sequence.shared.1 = messages ∧ Agrees models sequence.shared.2 messages := by
  cases howned : sequence.owned with
  | some owned =>
    rw [MessageSequence.shared, howned, agrees.of_owned howned]
    exact agrees.getOrInit
  | none => exact agrees.split howned (by rw [MessageSequence.shared, howned])

theorem Agrees.len : sequence.len = messages.length := by
  rw [← agrees.iter, MessageSequence.len, MessageSequence.iter]
  cases sequence.owned with
  | some owned => rfl
  | none => exact (length_append).symm

theorem Agrees.isEmpty : sequence.isEmpty = messages.isEmpty := by
  rw [MessageSequence.isEmpty, agrees.len]
  cases messages with
  | nil | cons message messages => rfl

theorem Agrees.mono (more : List (List Message)) : Agrees (models ++ more) sequence messages := by
  refine ⟨agrees.iter, agrees.materialized, fun howned cache hcache => ?_⟩
  have hmodel := agrees.base howned cache hcache
  exact (List.getElem?_append_left (List.getElem?_eq_some_iff.mp hmodel).1).trans hmodel

end

end Agreement

section Refinement

variable {canonicalMime : AttachmentRef → String}
variable {models : List (List Message)} {sequence : MessageSequence} {messages : List Message}
variable {bases : List SharedBase}

section

variable (agree : BasesAgree canonicalMime bases models)
include agree

theorem BasesAgree.set {cache : Nat} {shared : SharedBase} (hshared : bases[cache]? = some shared) :
    BasesAgree canonicalMime (bases.set cache
      { shared with rendered := some (renderPrompt canonicalMime shared.messages) }) models := by
  obtain ⟨hlt, hget⟩ := List.getElem?_eq_some_iff.mp hshared
  refine ⟨?_, fun other hother rendered hrendered => ?_⟩
  · rw [map_set, ← agree.messages]
    refine (set_getElem_self (by simpa using hlt)).symm.trans ?_ |>.symm
    simp [hget]
  · rcases mem_or_eq_of_mem_set hother with hother | rfl
    · exact agree.rendered other hother rendered hrendered
    · exact (Option.some.inj hrendered).symm

/-- The rendering of the base is that of its messages, found in the cell or put there. -/
theorem renderBase_agrees (agrees : Agrees models sequence messages)
    (howned : sequence.owned = none) :
    (renderBase canonicalMime bases sequence).1 = renderPrompt canonicalMime sequence.base ∧
      BasesAgree canonicalMime (renderBase canonicalMime bases sequence).2 models := by
  rw [renderBase]
  cases hcell : sequence.baseRendered.bind fun cache =>
      bases[cache]?.map fun shared => (cache, shared) with
  | none => exact ⟨rfl, agree⟩
  | some cell =>
    obtain ⟨cache, shared⟩ := cell
    obtain ⟨cache', hcache, hfound⟩ := Option.bind_eq_some_iff.mp hcell
    obtain ⟨shared', hshared, heq⟩ := Option.map_eq_some_iff.mp hfound
    obtain ⟨rfl, rfl⟩ := Prod.mk.inj heq
    have hbase : shared'.messages = sequence.base := by
      have hmodel := agrees.base howned cache' hcache
      rw [← agree.messages, getElem?_map, hshared] at hmodel
      exact Option.some.inj hmodel
    cases hrendered : shared'.rendered with
    | some rendered =>
      have hright := agree.rendered shared' (mem_of_getElem? hshared) rendered hrendered
      simp only [hrendered]
      exact ⟨hright.trans (congrArg _ hbase), agree⟩
    | none =>
      simp only [hrendered]
      rw [← hbase]
      exact ⟨trivial, agree.set hshared⟩

theorem renderPrompt_agrees (agrees : Agrees models sequence messages) :
    (sequence.renderPrompt canonicalMime bases).1 = renderPrompt canonicalMime messages ∧
      BasesAgree canonicalMime (sequence.renderPrompt canonicalMime bases).2 models := by
  have hiter := agrees.iter
  rw [MessageSequence.iter] at hiter
  cases howned : sequence.owned with
  | some owned =>
    rw [howned] at hiter
    rw [MessageSequence.renderPrompt, howned]
    exact ⟨congrArg _ hiter, agree⟩
  | none =>
    rw [howned] at hiter
    rw [MessageSequence.renderPrompt, howned]
    by_cases hbase : sequence.base = []
    · rw [hbase] at hiter
      simp only [hbase, if_true]
      exact ⟨congrArg _ hiter, agree⟩
    obtain ⟨hrendered, hbases⟩ := renderBase_agrees agree agrees howned
    by_cases hdelta : sequence.delta = []
    · simp only [hbase, hdelta, if_true, if_false]
      rw [hdelta, append_nil] at hiter
      exact ⟨hrendered.trans (congrArg _ hiter), hbases⟩
    · simp only [hbase, hdelta, if_false]
      refine ⟨?_, hbases⟩
      rw [hrendered, ← renderPrompt_append]
      exact congrArg _ hiter

/-- Whatever is done with a sequence, the list answers the same and they still agree. -/
theorem use_agrees (agrees : Agrees models sequence messages) (use : Use) :
    ((rope canonicalMime).use use bases sequence).1 =
        ((plain canonicalMime).use use models messages).1 ∧
      ((plain canonicalMime).use use models messages).2.1 = models ∧
      BasesAgree canonicalMime ((rope canonicalMime).use use bases sequence).2.1 models ∧
      Agrees models ((rope canonicalMime).use use bases sequence).2.2
        ((plain canonicalMime).use use models messages).2.2 := by
  cases use with
  | push message => exact ⟨rfl, rfl, agree, agrees.push message⟩
  | extend more => exact ⟨rfl, rfl, agree, agrees.extend more⟩
  | replace more => exact ⟨rfl, rfl, agree, .replace more⟩
  | makeMut edit => exact ⟨rfl, rfl, agree, agrees.makeMut edit⟩
  | len => exact ⟨congrArg _ agrees.len, rfl, agree, agrees⟩
  | isEmpty => exact ⟨congrArg _ agrees.isEmpty, rfl, agree, agrees⟩
  | iter => exact ⟨congrArg _ agrees.iter, rfl, agree, agrees⟩
  | asSlice => exact ⟨congrArg _ agrees.asSlice.1, rfl, agree, agrees.asSlice.2⟩
  | index i =>
    exact ⟨congrArg (fun shown => Answer.message (shown[i]?)) agrees.asSlice.1, rfl, agree,
      agrees.asSlice.2⟩
  | shared => exact ⟨congrArg _ agrees.shared.1, rfl, agree, agrees.shared.2⟩
  | renderPrompt =>
    obtain ⟨hprompt, hbases⟩ := renderPrompt_agrees agree agrees
    exact ⟨congrArg _ hprompt, rfl, hbases, agrees⟩

/-- A new sequence stands for the list that is made in the same way. -/
theorem create_agrees (creation : Creation) :
    Option.Rel (Agrees models) ((rope canonicalMime).create bases creation)
      ((plain canonicalMime).create models creation) := by
  cases creation with
  | fromOwned messages => exact .some (agrees_uncached nofun rfl rfl)
  | fromBase base => exact .some (agrees_uncached (fun _ => nofun) (append_nil base) rfl)
  | fromBaseAndDelta base delta => exact .some (agrees_uncached (fun _ => nofun) rfl rfl)
  | fromReadModel model delta =>
    have hmodel : models[model]? = bases[model]?.map (·.messages) := by
      rw [← agree.messages, getElem?_map]
    simp only [rope, plain, hmodel]
    cases hshared : bases[model]? with
    | none => exact .none
    | some shared =>
      refine .some (agrees_uncached (fun _ cache hcache => ?_) rfl rfl)
      obtain rfl := Option.some.inj hcache
      rw [hmodel, hshared]
      rfl

end

/-- The sequences stand for the lists under the same numbers. -/
structure Refines (canonicalMime : AttachmentRef → String)
    (world : World SharedBase MessageSequence)
    (lists : World (List Message) (List Message)) : Prop where
  bases : BasesAgree canonicalMime world.bases lists.bases
  sequences : Heap.Related (Agrees lists.bases) world.sequences lists.sequences

theorem refines_new : Refines canonicalMime .new .new := ⟨⟨rfl, nofun⟩, Heap.related_empty⟩

/-- An operation on a sequence that is missing from one side is missing from both. -/
theorem Refines.at? {world : World SharedBase MessageSequence}
    {lists : World (List Message) (List Message)} (refines : Refines canonicalMime world lists)
    (number : Nat) :
    (world.sequences.at? number = none ∧ lists.sequences.at? number = none) ∨
      ∃ sequence messages, world.sequences.at? number = some sequence ∧
        lists.sequences.at? number = some messages ∧ Agrees lists.bases sequence messages := by
  have hat := refines.sequences.at? number
  generalize world.sequences.at? number = found, lists.sequences.at? number = found' at hat
  cases hat with
  | none => exact .inl ⟨rfl, rfl⟩
  | some agrees => exact .inr ⟨_, _, rfl, rfl, agrees⟩

theorem step_simulates : Simulates (Refines canonicalMime) (step (rope canonicalMime))
    (step (plain canonicalMime)) := by
  intro op world lists refines
  obtain ⟨agree, related⟩ := refines
  have hbases : world.bases.length = lists.bases.length := by
    rw [← agree.messages, length_map]
  cases op with
  | readModel messages =>
    refine ⟨congrArg _ hbases, ⟨?_, fun shared hshared => ?_⟩, ?_⟩
    · simp [step, rope, plain, agree.messages]
    · rcases mem_append.mp hshared with hshared | hshared
      · exact agree.rendered shared hshared
      · obtain rfl := mem_singleton.mp hshared
        exact nofun
    · exact related.mono fun _ _ agrees => agrees.mono [messages]
  | create creation =>
    have hcreated := create_agrees agree creation
    simp only [step]
    generalize (rope canonicalMime).create world.bases creation = made,
      (plain canonicalMime).create lists.bases creation = made' at hcreated
    cases hcreated with
    | none => exact ⟨rfl, agree, related⟩
    | some agrees =>
      obtain ⟨hnumber, hrelated⟩ := related.alloc agrees
      exact ⟨congrArg _ hnumber, agree, hrelated⟩
  | clone number =>
    rcases Refines.at? ⟨agree, related⟩ number with
      ⟨hnone, hnone'⟩ | ⟨sequence, messages, hsome, hsome', agrees⟩
    · simp only [step, hnone, hnone']
      exact ⟨trivial, agree, related⟩
    · simp only [step, hsome, hsome']
      obtain ⟨hnumber, hrelated⟩ := related.alloc agrees.clone
      exact ⟨congrArg _ hnumber, agree, hrelated⟩
  | use number use =>
    rcases Refines.at? ⟨agree, related⟩ number with
      ⟨hnone, hnone'⟩ | ⟨sequence, messages, hsome, hsome', agrees⟩
    · simp only [step, hnone, hnone']
      exact ⟨trivial, agree, related⟩
    · simp only [step, hsome, hsome']
      obtain ⟨hanswer, hmodels, hagree, hagrees⟩ := use_agrees agree agrees use
      refine ⟨hanswer, ?_, ?_⟩
      · rw [hmodels]
        exact hagree
      · rw [hmodels]
        exact related.put number (.some hagrees)
  | intoVec number =>
    rcases Refines.at? ⟨agree, related⟩ number with
      ⟨hnone, hnone'⟩ | ⟨sequence, messages, hsome, hsome', agrees⟩
    · simp only [step, hnone, hnone']
      exact ⟨trivial, agree, related⟩
    · simp only [step, hsome, hsome']
      exact ⟨congrArg _ agrees.intoVec, agree, related.put number .none⟩

/-- In every program over message sequences each operation answers as it does on plain lists,
the rendering of a prompt included. -/
theorem sequences_are_lists (canonicalMime : AttachmentRef → String) (ops : List Op) :
    answers (step (rope canonicalMime)) .new ops = answers (step (plain canonicalMime)) .new ops :=
  step_simulates.answers refines_new ops

end Refinement

end MessageSequences
