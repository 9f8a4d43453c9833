import Lash.StandardRuns

/-!
# What the model is shown of its own prose

A response that calls tools is recorded with its prose. A response that calls
none is not: its text only travels with the checkpoint that would end the turn.
If that checkpoint delivers input instead, the turn goes on without the text. So
the next call of the model is made as if the response had said nothing, unless
the history it answered held the same prose already.
-/

namespace ProseRetention

open TurnProtocols TurnMachines TurnMachine MachineRuns EffectOrder List
open StandardDrivers StandardSteps StandardRuns

variable {M : TurnProtocol} {host : DriverHost M} {m m' : TurnMachine M}
  {history older : List (MachineEntry M)} {entry : MachineEntry M}

/-- A response of the model, with the messages that were held when it came. -/
structure Heard (M : TurnProtocol) where
  held : List Message
  reading : Reading M

/-- The response an entry took in. -/
def heardAt (entry : MachineEntry M) : Option (Heard M) :=
  match entry.input with
  | .respond (.llmComplete id (.ok response) textStreamed) =>
    if awaits entry.before.state (.llmComplete id (.ok response) textStreamed) then
      some ⟨entry.before.messages, readResponse textStreamed response⟩
    else none
  | _ => none

/-- The responses of the model, the last one first. -/
def heard (history : List (MachineEntry M)) : List (Heard M) := history.filterMap heardAt

def pausedBeforeCompletion : MachineState M → Bool
  | .waitingCheckpoint _ .beforeCompletion _ => true
  | _ => false

/-- Whether an entry took in what a checkpoint before completion delivered. -/
def deliversInput (entry : MachineEntry M) : Bool :=
  match entry.input with
  | .respond (.checkpoint id delivery) =>
    awaits entry.before.state (.checkpoint id delivery) &&
      (pausedBeforeCompletion entry.before.state && !delivery.isEmpty)
  | _ => false

/-- The messages that were held when input was delivered last. -/
def heldBeforeInput (history : List (MachineEntry M)) : List Message :=
  ((history.find? deliversInput).map fun entry => entry.before.messages).getD []

def proseContents (message : Message) : List String :=
  (message.parts.filter fun part => part.kind = .prose).map Part.content

/-- The assistant says exactly this in one of the messages. -/
abbrev Says (messages : List Message) (pieces : List String) : Prop :=
  ∃ message ∈ messages, message.role = .assistant ∧ proseContents message = pieces

/-- An entry that asks the model: a poll that prepares an iteration. -/
def Asks (entry : MachineEntry M) : Prop :=
  entry.input = .poll ∧
    (entry.before.state = .preparingProtocol ∨ entry.before.state = .prepareIteration) ∧
      ∃ id request driverState, entry.after.state = .waitingLlm id request driverState

/-- The last response, if it called no tools but said something. -/
def LastSpoke (history : List (MachineEntry M)) (h : Heard M) : Prop :=
  (heard history).head? = some h ∧ h.reading.toolCalls = [] ∧ prosePieces h.reading ≠ []

/-- The messages of the call hold the prose of every response before it; and that of
the last one comes before the input that kept the turn going. -/
structure ProseReaches (older : List (MachineEntry M)) (entry : MachineEntry M) : Prop where
  every : ∀ h ∈ heard older, prosePieces h.reading ≠ [] →
    Says entry.before.messages (prosePieces h.reading)
  front : ∀ h, LastSpoke older h → ∃ spoken : List Message,
    (∀ message ∈ spoken, message.role = .assistant) ∧
      heldBeforeInput older ++ spoken <+: entry.before.messages ∧
      Says (heldBeforeInput older ++ spoken) (prosePieces h.reading)

/-- The last response called tools, or said nothing, or said what the history it
answered held already. -/
def Repeats (older : List (MachineEntry M)) : Prop :=
  ∀ h, LastSpoke older h → Says h.held (prosePieces h.reading)

/-- A property of every call of the model in a run. -/
def AtEveryCall (holds : List (MachineEntry M) → MachineEntry M → Prop)
    (history : List (MachineEntry M)) : Prop :=
  ∀ newer entry older, history = newer ++ entry :: older → Asks entry → holds older entry

variable {holds : List (MachineEntry M) → MachineEntry M → Prop}

theorem AtEveryCall.before (newer : List (MachineEntry M))
    (all : AtEveryCall holds (newer ++ history)) : AtEveryCall holds history := by
  intro later entry older hsplit hasks
  exact all (newer ++ later) entry older (by rw [hsplit, append_assoc]) hasks

theorem AtEveryCall.cons (first : Asks entry → holds history entry)
    (all : AtEveryCall holds history) : AtEveryCall holds (entry :: history) := by
  intro newer e older hsplit hasks
  cases newer with
  | nil =>
    obtain ⟨rfl, rfl⟩ := cons_eq_cons.mp hsplit
    exact first hasks
  | cons _ newer => exact all newer e older (cons_eq_cons.mp hsplit).2 hasks

variable {pieces : List String}

theorem Says.append {messages : List Message} (said : Says messages pieces) (more : List Message) :
    Says (messages ++ more) pieces := by
  obtain ⟨message, hmem, hrole, hpieces⟩ := said
  exact ⟨message, mem_append_left _ hmem, hrole, hpieces⟩

theorem proseContents_eq_outlines (parts : List Part) :
    (parts.filter fun part => part.kind = .prose).map Part.content =
      ((outlines parts).filter fun part => part.1 = .prose).map fun part => part.2.2 := by
  induction parts with
  | nil => rfl
  | cons part parts ih =>
    cases hkind : part.kind <;> simp_all [outlines, outline]

theorem proseContents_assistantMessage (asstId : String) (reading : Reading M) :
    proseContents (assistantMessage asstId reading) = prosePieces reading := by
  change ((assistantParts asstId reading).filter _).map Part.content = _
  rw [proseContents_eq_outlines, outlines_assistantParts, filter_append, filter_map, filter_map]
  simp [Function.comp_def]

/-- The states between a checkpoint and the next answer of the model. -/
def Resuming : MachineState M → Prop
  | .prepareIteration => True
  | .waitingExecutionEnvironment _ _ => True
  | .waitingLlm _ _ _ => True
  | _ => False

def Asking : MachineState M → Prop
  | .waitingLlm _ _ _ => True
  | _ => False

/-- What became of the history that a response without tool calls answered: it waits
for the checkpoint, or input was put behind it. -/
inductive Since (history : List (MachineEntry M)) (m : TurnMachine M) (h : Heard M) : Prop
  | completing {id : EffectId} {onEmpty : CheckpointResumeAction M}
      (state : m.state = .waitingCheckpoint id .beforeCompletion onEmpty)
      (held : m.messages = h.held)
  | resumed {added : List Message} (state : Resuming m.state)
      (front : heldBeforeInput history = h.held)
      (others : ∀ message ∈ added, message.role ≠ .assistant)
      (held : m.messages = h.held ++ added)

/-- Every response is said in the messages, but for one that just spoke. -/
def Kept (history : List (MachineEntry M)) (m : TurnMachine M) : Prop :=
  ∀ h ∈ heard history, prosePieces h.reading ≠ [] →
    Says m.messages (prosePieces h.reading) ∨ (LastSpoke history h ∧ ¬ Asking m.state)

/-- What holds of a turn that goes on. -/
structure Law (history : List (MachineEntry M)) (m : TurnMachine M) : Prop where
  since : ∀ h, (heard history).head? = some h → h.reading.toolCalls = [] → Since history m h
  kept : AtEveryCall (fun older _ => Repeats older) history → Kept history m

variable {h : Heard M}

theorem Since.said (since : Since history m h) (said : Says h.held pieces) :
    Says m.messages pieces := by
  cases since with
  | completing state held => rwa [held]
  | @resumed added state front others held =>
    rw [held]
    exact said.append added

/-- Where the last answer is ahead, what is said so far is all there is. -/
theorem Law.all_said (law : Law history m)
    (all : AtEveryCall (fun older _ => Repeats older) history) (repeats : Repeats history)
    (hheard : h ∈ heard history) (spoke : prosePieces h.reading ≠ []) :
    Says m.messages (prosePieces h.reading) := by
  rcases law.kept all h hheard spoke with hsaid | ⟨hlast, _⟩
  · exact hsaid
  · exact (law.since h hlast.1 hlast.2.1).said (repeats h hlast)

/-- At a call, the response that spoke last was followed by input. -/
theorem Law.resumed (law : Law older entry.before) (asks : Asks entry) (spoke : LastSpoke older h) :
    heldBeforeInput older = h.held ∧
      ∃ added : List Message, (∀ message ∈ added, message.role ≠ .assistant) ∧
        entry.before.messages = h.held ++ added := by
  cases law.since h spoke.1 spoke.2.1 with
  | completing state held =>
    rcases asks.2.1 with hstate | hstate <;> rw [hstate] at state <;> cases state
  | @resumed added state front others held => exact ⟨front, added, others, held⟩

theorem Law.repeats (law : Law older entry.before) (asks : Asks entry)
    (reaches : ProseReaches older entry) : Repeats older := by
  intro h hspoke
  obtain ⟨hfront, added, hothers, hheld⟩ := law.resumed asks hspoke
  obtain ⟨spoken, hassistant, hahead, hsaid⟩ := reaches.front h hspoke
  rw [hfront, hheld] at hahead
  -- what came in since is not the assistant's, so nothing of it was spoken
  have hspoken : spoken = [] := by
    rw [prefix_append_right_inj] at hahead
    apply eq_nil_iff_forall_not_mem.mpr
    intro message hmessage
    exact hothers message (hahead.subset hmessage) (hassistant message hmessage)
  rwa [hfront, hspoken, append_nil] at hsaid

theorem Law.reaches (law : Law older entry.before) (asks : Asks entry)
    (all : AtEveryCall (fun older _ => Repeats older) older) (repeats : Repeats older) :
    ProseReaches older entry where
  every := fun _ hheard spoke => law.all_said all repeats hheard spoke
  front := by
    intro h hspoke
    obtain ⟨hfront, added, hothers, hheld⟩ := law.resumed asks hspoke
    refine ⟨[], by simp, ?_, ?_⟩
    · rw [hfront, hheld, append_nil]
      exact prefix_append h.held added
    · rw [hfront, append_nil]
      exact repeats h hspoke

/-- The entries that take in no response of the model and deliver no input. -/
structure Passing (entry : MachineEntry M) : Prop where
  heard : heardAt entry = none
  delivers : deliversInput entry = false

theorem Passing.heard_cons (passing : Passing entry) :
    ProseRetention.heard (entry :: history) = ProseRetention.heard history :=
  List.filterMap_cons_none passing.heard

theorem Passing.heldBeforeInput_cons (passing : Passing entry) :
    heldBeforeInput (entry :: history) = heldBeforeInput history := by
  unfold heldBeforeInput
  rw [find?_cons_of_neg (by rw [passing.delivers]; exact Bool.false_ne_true)]

theorem passing_poll (m : TurnMachine M) : Passing (pollEntry m) := ⟨rfl, rfl⟩

theorem passing_stale {response : Response M} (stale : ¬ Awaits m response) :
    Passing (responseEntry response m) := by
  unfold Awaits at stale
  constructor
  · cases response with
    | llmComplete id result textStreamed =>
      cases result with
      | error error => rfl
      | ok response => exact if_neg stale
    | _ => rfl
  · cases response with
    | checkpoint id delivery =>
      have hid : awaits m.state (.checkpoint id delivery) = false := Bool.not_eq_true _ ▸ stale
      change (awaits m.state (.checkpoint id delivery) && _) = false
      rw [hid, Bool.false_and]
    | _ => rfl

theorem Since.passing (since : Since history m h) (passing : Passing entry)
    (messages : m'.messages = m.messages) (resuming : Resuming m'.state)
    (running : pausedBeforeCompletion m.state = false) : Since (entry :: history) m' h := by
  cases since with
  | completing state held =>
    rw [state] at running
    cases running
  | @resumed added state front others held =>
    exact .resumed resuming (passing.heldBeforeInput_cons.trans front) others
      (messages.trans held)

theorem Since.elsewhere (since : Since history m h)
    (running : pausedBeforeCompletion m.state = false) (elsewhere : ¬ Resuming m.state) :
    False := by
  cases since with
  | completing state held =>
    rw [state] at running
    cases running
  | resumed state front others held => exact elsewhere state

variable {added : List Message}

/-- The step of the law for an entry that takes in no response of the model. -/
theorem Law.next (law : Law history m) (same : heard (entry :: history) = heard history)
    (since : ∀ h, Since history m h → Since (entry :: history) m' h)
    (messages : m'.messages = m.messages ++ added) (quiet : Asking m'.state → Asking m.state) :
    Law (entry :: history) m' where
  since := by
    intro h hhead hplain
    rw [same] at hhead
    exact since h (law.since h hhead hplain)
  kept := by
    intro all h hheard hspoke
    rw [same] at hheard
    rcases law.kept (all.before [entry]) h hheard hspoke with hsaid | ⟨hlast, hquiet⟩
    · rw [messages]
      exact .inl (hsaid.append added)
    · refine .inr ⟨?_, fun hasks => hquiet (quiet hasks)⟩
      unfold LastSpoke
      rwa [same]

theorem Law.still (law : Law history m) (passing : Passing entry) (state : m'.state = m.state)
    (messages : m'.messages = m.messages) : Law (entry :: history) m' := by
  refine law.next passing.heard_cons ?_ (messages.trans (append_nil _).symm) ?_
  rotate_left
  · rw [state]
    exact id
  intro h hsince
  cases hsince with
  | completing waiting held => exact .completing (state.trans waiting) (messages.trans held)
  | @resumed added resuming front others held =>
    exact .resumed (state ▸ resuming) (passing.heldBeforeInput_cons.trans front) others
      (messages.trans held)

theorem Law.resume (law : Law history m) (passing : Passing entry)
    (messages : m'.messages = m.messages) (resuming : Resuming m'.state)
    (running : pausedBeforeCompletion m.state = false) (quiet : Asking m'.state → Asking m.state) :
    Law (entry :: history) m' :=
  law.next passing.heard_cons (fun _ since => since.passing passing messages resuming running)
    (messages.trans (List.append_nil _).symm) quiet

/-- When the model is asked, all is said, if the last response repeats. -/
theorem Law.ask (law : Law history m) (asks : Asks entry) (passing : Passing entry)
    (messages : m'.messages = m.messages) (resuming : Resuming m'.state)
    (running : pausedBeforeCompletion m.state = false) : Law (entry :: history) m' where
  since := by
    intro h hhead hplain
    rw [passing.heard_cons] at hhead
    exact (law.since h hhead hplain).passing passing messages resuming running
  kept := by
    intro all h hheard hspoke
    rw [passing.heard_cons] at hheard
    rw [messages]
    exact .inl (law.all_said (all.before [entry]) (all [] entry history rfl asks)
      hheard hspoke)

variable {id : EffectId} {response : LlmResponse M} {textStreamed : Bool}

theorem heard_answer (awaited : Awaits m (.llmComplete id (.ok response) textStreamed)) :
    heard (responseEntry (.llmComplete id (.ok response) textStreamed) m :: history) =
      ⟨m.messages, readResponse textStreamed response⟩ :: heard history :=
  List.filterMap_cons_some (if_pos awaited)

theorem law_completing {effectId : EffectId} {onEmpty : CheckpointResumeAction M}
    (law : Law history m) (awaited : Awaits m (.llmComplete id (.ok response) textStreamed))
    (asking : Asking m.state) (plain : (readResponse textStreamed response).toolCalls = [])
    (state : m'.state = .waitingCheckpoint effectId .beforeCompletion onEmpty)
    (messages : m'.messages = m.messages) :
    Law (responseEntry (.llmComplete id (.ok response) textStreamed) m :: history) m' where
  since := by
    intro h hhead _
    rw [heard_answer awaited] at hhead
    cases hhead
    exact .completing state messages
  kept := by
    intro all h hheard hspoke
    have hquiet : ¬ Asking m'.state := by
      rw [state]
      exact not_false
    rw [heard_answer awaited] at hheard
    rcases mem_cons.mp hheard with rfl | hbefore
    · exact .inr ⟨⟨by rw [heard_answer awaited]; rfl, plain, hspoke⟩, hquiet⟩
    · rw [messages]
      exact .inl ((law.kept (all.before [_]) h hbefore hspoke).resolve_right
        fun hlast => hlast.2 asking)

theorem law_calling {asstId : String} (law : Law history m)
    (awaited : Awaits m (.llmComplete id (.ok response) textStreamed)) (asking : Asking m.state)
    (called : (readResponse textStreamed response).toolCalls ≠ []) (messages : m'.messages =
      m.messages ++ [assistantMessage asstId (readResponse textStreamed response)]) :
    Law (responseEntry (.llmComplete id (.ok response) textStreamed) m :: history) m' where
  since := by
    intro h hhead hplain
    rw [heard_answer awaited] at hhead
    cases hhead
    exact absurd hplain called
  kept := by
    intro all h hheard hspoke
    rw [heard_answer awaited] at hheard
    rw [messages]
    rcases mem_cons.mp hheard with rfl | hbefore
    · exact .inl ⟨_, mem_append_right _ (mem_singleton.mpr rfl), rfl,
        proseContents_assistantMessage asstId _⟩
    · have hsaid := (law.kept (all.before [_]) h hbefore hspoke).resolve_right
        fun hlast => hlast.2 asking
      exact .inl (hsaid.append _)

/-- What a call of the model finds, and the request it makes. -/
structure Called (older : List (MachineEntry M)) (entry : MachineEntry M) : Prop where
  law : Law older entry.before
  request : asked (entry :: older) entry.after =
    asked older entry.before ++ [entry.before.projectLlmRequest true]

theorem pausedBeforeCompletion_of_idle
    (idle : m.state = .preparingProtocol ∨ m.state = .prepareIteration) :
    pausedBeforeCompletion m.state = false := by
  rcases idle with hstate | hstate <;> rw [hstate] <;> rfl

theorem law_poll {reached : TurnMachine M} (source : Source m reached)
    (poll : m.pollEffect = reached.popFront) (law : m.state ≠ .finished → Law history m) :
    (m.pollEffect.2.state ≠ .finished → Law (pollEntry m :: history) m.pollEffect.2) ∧
      (Asks (pollEntry m) → Called history (pollEntry m)) := by
  have hpassing := passing_poll m
  have hidle (idle : m.state = .preparingProtocol ∨ m.state = .prepareIteration) :
      m.state ≠ .finished := by
    rcases idle with hstate | hstate <;> rw [hstate] <;> exact fun h => by cases h
  rcases @course_poll M m history reached source poll with
    hsame | ⟨idle, ⟨id, update, hsync, _⟩ | ⟨id, hask⟩⟩
  · have hstate : m.pollEffect.2.state = m.state := congrArg Standing.state hsame
    have hmessages : m.pollEffect.2.messages = m.messages := congrArg Standing.messages hsame
    constructor
    · intro unfinished
      exact (law (hstate ▸ unfinished)).still hpassing hstate hmessages
    · rintro ⟨_, idle, id, request, driverState, hafter⟩
      have hcontra : m.state = .waitingLlm id request driverState := hstate.symm.trans hafter
      rcases idle with hidle | hidle <;> rw [show m.state = _ from hidle] at hcontra <;>
        cases hcontra
  · have hstate : m.pollEffect.2.state = _ := congrArg Standing.state hsync
    have hmessages : m.pollEffect.2.messages = m.messages := congrArg Standing.messages hsync
    constructor
    · intro _
      refine (law (hidle idle)).resume hpassing hmessages ?_
        (pausedBeforeCompletion_of_idle idle) ?_
      · rw [hstate]
        trivial
      · rw [hstate]
        exact False.elim
    · rintro ⟨_, _, id', request, driverState, hafter⟩
      have hcontra := hstate.symm.trans hafter
      cases hcontra
  · have hstate : m.pollEffect.2.state = _ := congrArg Standing.state hask
    have hmessages : m.pollEffect.2.messages = m.messages := congrArg Standing.messages hask
    have hasks : Asks (pollEntry m) := ⟨rfl, idle, _, _, _, hstate⟩
    refine ⟨fun _ => ?_, fun _ => ⟨law (hidle idle), congrArg Standing.requests hask⟩⟩
    refine (law (hidle idle)).ask hasks hpassing hmessages ?_ (pausedBeforeCompletion_of_idle idle)
    rw [hstate]
    trivial

variable {delivery : CheckpointDelivery}

theorem passing_checkpoint (running : pausedBeforeCompletion m.state = false) :
    Passing (responseEntry (.checkpoint id delivery) m) where
  heard := rfl
  delivers := by
    change (awaits m.state (.checkpoint id delivery) &&
      (pausedBeforeCompletion m.state && _)) = false
    rw [running, Bool.false_and, Bool.and_false]

/-- The input a checkpoint delivers comes behind the history that was answered. -/
theorem law_continued {outcome : TurnOutcome M} (law : Law history m)
    (waiting : m.state = .waitingCheckpoint id .beforeCompletion (.finish outcome))
    (delivered : delivery.isEmpty = false) (others : ∀ message ∈ added, message.role ≠ .assistant)
    (state : m'.state = .prepareIteration) (messages : m'.messages = m.messages ++ added) :
    Law (responseEntry (.checkpoint id delivery) m :: history) m' := by
  have hdelivers : deliversInput (responseEntry (.checkpoint id delivery) m) = true := by
    change (awaits m.state (.checkpoint id delivery) &&
      (pausedBeforeCompletion m.state && !delivery.isEmpty)) = true
    rw [waiting, delivered]
    simp [awaits, pausedBeforeCompletion]
  have hheld : heldBeforeInput (responseEntry (.checkpoint id delivery) m :: history) =
      m.messages := by
    unfold heldBeforeInput
    rw [find?_cons_of_pos hdelivers]
    rfl
  refine law.next rfl ?_ messages (by rw [state]; exact False.elim)
  intro h hsince
  cases hsince with
  | completing _ held =>
    refine .resumed (by rw [state]; trivial) (hheld.trans held) others ?_
    rw [messages, held]
  | resumed resuming =>
    rw [waiting] at resuming
    exact resuming.elim

/-- The notice of the limit does not speak for the assistant. -/
theorem notice_role (limit : Option Nat) (noticeId : String) :
    ∀ message ∈ limit.toList.map (turnLimitExhaustedMessage noticeId),
      message.role ≠ .assistant := by
  intro message hmessage
  obtain ⟨maxTurns, _, rfl⟩ := mem_map.mp hmessage
  simp [turnLimitExhaustedMessage]

theorem law_answer {response : Response M} (awaited : Awaits m response)
    (notice : m.config.turnLimitFinalMessage = turnLimitExhaustedMessage)
    (done : Answered host m response m') (law : Law history m) (unfinished : m'.state ≠ .finished) :
    Law (responseEntry response m :: history) m' := by
  cases done with
  | ending ended => exact absurd ended.state unfinished
  | synced waiting after =>
    have hstate : m'.state = _ := congrArg Standing.state after
    have hmessages : m'.messages = m.messages := congrArg Standing.messages after
    refine law.resume ⟨rfl, rfl⟩ hmessages ?_ (by rw [waiting]; rfl) ?_
    · rw [hstate]
      trivial
    · rw [hstate]
      exact False.elim
  | completing waiting spoke after =>
    have hstate : m'.state = _ := congrArg Standing.state after
    exact law_completing law awaited (by rw [waiting]; trivial) spoke hstate
      (congrArg Standing.messages after)
  | calling waiting called after =>
    exact law_calling law awaited (by rw [waiting]; trivial) called
      (congrArg Standing.messages after)
  | worked waiting more after =>
    have hstate : m'.state = _ := congrArg Standing.state after
    refine law.next rfl ?_ (congrArg Standing.messages after) (by rw [hstate]; exact False.elim)
    intro h hsince
    exact (hsince.elsewhere (by rw [waiting]; rfl) (by rw [waiting]; exact not_false)).elim
  | rested waiting others after =>
    have hstate : m'.state = _ := congrArg Standing.state after
    have hrunning : pausedBeforeCompletion m.state = false := by rw [waiting]; rfl
    refine law.next (passing_checkpoint hrunning).heard_cons ?_
      (congrArg Standing.messages after) (by rw [hstate]; exact False.elim)
    intro h hsince
    exact (hsince.elsewhere hrunning (by rw [waiting]; exact not_false)).elim
  | @continued id outcome delivery added noticeId _ waiting delivered grace others after =>
    have hmessages : m'.messages = _ := congrArg Standing.messages after
    simp only [notice, append_assoc] at hmessages
    refine law_continued law waiting delivered ?_ (congrArg Standing.state after) hmessages
    intro message hmessage
    rcases mem_append.mp hmessage with hadded | hlimit
    · exact others message hadded
    · exact notice_role _ noticeId message hlimit

theorem law_new (config : TurnMachineConfig M) (messages : List Message)
    (events : List (SessionEventRecord M)) (offset : Nat) (causes : List TurnCause) :
    Law [] (newSharedWithTurnCauses config messages events offset causes) where
  since := fun _ hhead _ => by cases hhead
  kept := fun _ _ hheard _ => by cases hheard

/-- At every call of a run the law holds. -/
theorem called_run {config : TurnMachineConfig M} (standard : Standard host config)
    (messages : List Message) (events : List (SessionEventRecord M)) (offset : Nat)
    (causes : List TurnCause) (inputs : List (Option (Response M))) :
    AtEveryCall Called
      (after (inputs.map hostCall)
        (newSharedWithTurnCauses config messages events offset causes)).1 := by
  have hrun := @hosted_run M host config standard.driver messages events offset causes
    (fun history m => (m.state ≠ .finished → Law history m) ∧ AtEveryCall Called history)
    ?_ ?_ ?_ ?_ inputs
  · exact hrun.2.2
  · refine ⟨fun _ => law_new config messages events offset causes, ?_⟩
    intro newer entry older hsplit
    cases newer <;> cases hsplit
  · intro history m reached _ law source poll
    have hpoll := law_poll source poll law.1
    exact ⟨hpoll.1, .cons hpoll.2 law.2⟩
  · intro history m response law stale
    refine ⟨fun unfinished => (law.1 unfinished).still (passing_stale stale) rfl rfl, ?_⟩
    exact .cons (fun hasks => by cases hasks.1) law.2
  · intro history m response hosted law awaited done
    have hnotice : m.config.turnLimitFinalMessage = turnLimitExhaustedMessage :=
      (congrArg (fun kept => kept.1.turnLimitFinalMessage) hosted.lasting).trans standard.notice
    have hunfinished := state_ne_finished_of_awaits awaited
    refine ⟨fun unfinished => ?_, .cons (fun hasks => by cases hasks.1) law.2⟩
    exact law_answer awaited hnotice done (law.1 hunfinished) unfinished

/-- Nothing is lost in a run whose responses all call tools. -/
theorem repeats_of_calling (calling : ∀ h ∈ heard history, h.reading.toolCalls ≠ []) :
    AtEveryCall (fun older _ => Repeats older) history := by
  intro newer entry older hsplit _ h hspoke
  have hmem : h ∈ heard history := by
    rw [hsplit]
    simp only [heard, filterMap_append, mem_append]
    exact .inr ((sublist_cons_self entry older).filterMap heardAt |>.subset
      (mem_of_mem_head? hspoke.1))
  exact absurd hspoke.2.1 (calling h hmem)

/-- Each call of the model shows it the messages that are held then. All prose of the
responses before reaches the model at every call if and only if, whenever it is called,
the last response had called tools, or said nothing, or repeated itself. -/
theorem prose_reaches_model_iff (host : DriverHost M) (config : TurnMachineConfig M)
    (standard : Standard host config) (messages : List Message)
    (events : List (SessionEventRecord M)) (offset : Nat) (causes : List TurnCause)
    (inputs : List (Option (Response M))) :
    let start := newSharedWithTurnCauses config messages events offset causes
    let history := (after (inputs.map hostCall) start).1
    AtEveryCall (fun older entry => asked (entry :: older) entry.after =
        asked older entry.before ++ [entry.before.projectLlmRequest true]) history ∧
      (AtEveryCall ProseReaches history ↔ AtEveryCall (fun older _ => Repeats older) history) := by
  intro start history
  have hcalled : AtEveryCall Called history :=
    called_run standard messages events offset causes inputs
  refine ⟨fun newer entry older hsplit hasks =>
    (hcalled newer entry older hsplit hasks).request, ?_, ?_⟩
  · intro hreaches newer entry older hsplit hasks
    exact (hcalled newer entry older hsplit hasks).law.repeats hasks
      (hreaches newer entry older hsplit hasks)
  · intro hrepeats newer entry older hsplit hasks
    have hearlier : AtEveryCall (fun older _ => Repeats older) (entry :: older) :=
      AtEveryCall.before newer (hsplit ▸ hrepeats)
    exact (hcalled newer entry older hsplit hasks).law.reaches hasks (hearlier.before [entry])
      (hrepeats newer entry older hsplit hasks)

/-- The model says something and calls a tool, and is asked again. -/
def callingTurn : List (Option (Response unitProtocol)) :=
  [none, none, some (.llmComplete 1 (.ok (responseOf [.text "hello" none,
      .toolCall "c" "look" "" none])) true), none, none, none, none,
    some (.toolResults 2 []), none, none, some (.checkpoint 3 ⟨[], [], []⟩), none, none]

theorem calling_turn_keeps_prose :
    let reached := after (callingTurn.map hostCall) (standardMachine none)
    (asked reached.1 reached.2).length = 2 ∧
      (heard reached.1).map (fun h => prosePieces h.reading) = [["hello"]] ∧
      AtEveryCall ProseReaches reached.1 :=
  ⟨by decide, by decide,
    (prose_reaches_model_iff plainHost (standardConfig none) ⟨rfl, rfl⟩ [] [] 0 []
      callingTurn).2.mpr (repeats_of_calling fun h hheard => by
        have hcalls : (heard (after (callingTurn.map hostCall) (standardMachine none)).1).all
            (fun h => !h.reading.toolCalls.isEmpty) = true := by decide
        have hone := all_eq_true.mp hcalls h hheard
        simpa using hone)⟩

/-- The model says something, the user goes on, and the machine is about to ask again. -/
def spokenTurn : List (Option (Response unitProtocol)) :=
  [none, none, some (.llmComplete 1 (.ok (responseOf [.text "hello" none])) true),
    none, none, none, some (.checkpoint 2 (userInput "more")), none]

theorem spoken_turn_loses_prose : ¬ AtEveryCall ProseReaches
      (after ((spokenTurn ++ [none]).map hostCall) (standardMachine none)).1 := by
  intro hreaches
  have hlast : (after ((spokenTurn ++ [none]).map hostCall) (standardMachine none)).1 =
      pollEntry (after (spokenTurn.map hostCall) (standardMachine none)).2 ::
        (after (spokenTurn.map hostCall) (standardMachine none)).1 := rfl
  have hasks : Asks (pollEntry (after (spokenTurn.map hostCall) (standardMachine none)).2) :=
    ⟨rfl, .inr rfl, _, _, _, rfl⟩
  have hheard : heard (after (spokenTurn.map hostCall) (standardMachine none)).1 =
      [⟨[], readResponse true (responseOf [.text "hello" none])⟩] := rfl
  have hmem : (⟨[], readResponse true (responseOf [.text "hello" none])⟩ : Heard unitProtocol) ∈
      heard (after (spokenTurn.map hostCall) (standardMachine none)).1 := by
    rw [hheard]
    exact mem_singleton_self _
  have hsaid := (hreaches [] _ _ hlast hasks).every _ hmem (by decide)
  have hnot : ¬ Says (after (spokenTurn.map hostCall) (standardMachine none)).2.messages
      (prosePieces (readResponse true (responseOf [.text "hello" none]) :
        Reading unitProtocol)) := by decide
  exact hnot hsaid

end ProseRetention
