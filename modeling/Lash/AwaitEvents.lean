import Lash.OnceCells
import Lash.ScriptNumbers

/-!
# The registry of awaited events

A key names an event by the scope and the identity of the wait, and is signed by the
registry that minted it. Whoever resolves a key, waits for it, cancels a wait or
revokes a session takes the lock of the registry for one step at a time. Waits may be
woken at any time, and given up. Times are left out: a deadline may pass whenever the
wait has one.
-/

namespace AwaitEvents

open ScriptNumbers Runs OnceCells List Option

structure RuntimeError where
  code : String
  message : String
deriving DecidableEq

inductive ExecutionScope where
  | turn (sessionId turnId : String)
  | process (processId : String)
  | queueDrain (sessionId drainId : String)
  | sessionDelete (sessionId : String)
  | runtimeOperation (operationId : String)
deriving DecidableEq

def isBlank (text : String) : Bool := (trimText text).isEmpty

namespace ExecutionScope

def sessionId : ExecutionScope → Option String
  | turn sessionId _ | queueDrain sessionId _ | sessionDelete sessionId => some sessionId
  | process _ | runtimeOperation _ => none

def validate (scope : ExecutionScope) : Except RuntimeError Unit :=
  let missing := match scope with
    | turn sessionId turnId => isBlank sessionId || isBlank turnId
    | process processId => isBlank processId
    | queueDrain sessionId drainId => isBlank sessionId || isBlank drainId
    | sessionDelete sessionId => isBlank sessionId
    | runtimeOperation operationId => isBlank operationId
  if missing then
    .error ⟨"missing_execution_scope_id", "execution scopes require non-empty stable ids"⟩
  else .ok ()

end ExecutionScope

inductive AwaitEventWaitIdentity where
  | toolCompletion (toolCallId : String)
  | processSignal (processId signalName : String) (ordinal : UInt64)
  | custom (key : String)
deriving DecidableEq

def AwaitEventWaitIdentity.validate (wait : AwaitEventWaitIdentity) : Except RuntimeError Unit :=
  let invalid := match wait with
    | toolCompletion toolCallId => isBlank toolCallId
    | processSignal processId signalName ordinal =>
      isBlank processId || isBlank signalName || ordinal == 0
    | custom key => isBlank key
  if invalid then
    .error ⟨"invalid_await_event_wait_identity",
      "await-event wait identity requires non-empty stable ids"⟩
  else .ok ()

structure AwaitEventKey where
  scope : ExecutionScope
  wait : AwaitEventWaitIdentity
  keyId : String
  signature : String
deriving DecidableEq

structure ExternalCompletionError (Json : Type) where
  code : String
  message : String
  raw : Option Json
deriving DecidableEq

inductive Resolution (Json : Type) where
  | ok (value : Json)
  | err (error : ExternalCompletionError Json)
  | timeout
  | cancelled
deriving DecidableEq

inductive ResolveOutcome (Json : Type) where
  | accepted
  | alreadyResolved (terminal : Resolution Json)
  | unknownOrRevoked
deriving DecidableEq

structure AwaitEventEntry (Json : Type) where
  terminal : Option (Resolution Json)

structure AwaitEventRegistryState (Json : Type) where
  entries : String → Option (AwaitEventEntry Json)
  revokedKeyIds : List String
  revokedSessionIds : List String

/-- The hash of a key's identity, and the code that authenticates a key under the secret of the
registry. Both are taken over serialized data. -/
structure Signer where
  hash : ExecutionScope → AwaitEventWaitIdentity → Except RuntimeError String
  signature : ExecutionScope → AwaitEventWaitIdentity → String → Except RuntimeError String

variable {Json : Type}

namespace Signer

def keyFor (signer : Signer) (scope : ExecutionScope) (wait : AwaitEventWaitIdentity) :
    Except RuntimeError AwaitEventKey := do
  scope.validate
  wait.validate
  let keyId ← signer.hash scope wait
  let signature ← signer.signature scope wait keyId
  .ok ⟨scope, wait, keyId, signature⟩

def verify (signer : Signer) (key : AwaitEventKey) : Except RuntimeError Bool :=
  match signer.signature key.scope key.wait key.keyId with
  | .ok expected => .ok (expected == key.signature)
  | .error error => .error error

end Signer

namespace AwaitEventRegistryState

def new : AwaitEventRegistryState Json := ⟨fun _ => none, [], []⟩

variable (state : AwaitEventRegistryState Json)

def isRevoked (key : AwaitEventKey) : Bool :=
  state.revokedKeyIds.contains key.keyId ||
    key.scope.sessionId.any state.revokedSessionIds.contains

def entryOf (keyId : String) : AwaitEventEntry Json :=
  (state.entries keyId).getD ⟨none⟩

def setEntry (keyId : String) (entry : AwaitEventEntry Json) : AwaitEventRegistryState Json :=
  { state with entries := fun x => if x = keyId then some entry else state.entries x }

def resolve (signer : Signer) (key : AwaitEventKey) (resolution : Resolution Json) :
    Except RuntimeError (ResolveOutcome Json) × AwaitEventRegistryState Json :=
  match signer.verify key with
  | .error error => (.error error, state)
  | .ok false => (.ok .unknownOrRevoked, state)
  | .ok true =>
    if state.isRevoked key then (.ok .unknownOrRevoked, state)
    else
      match (state.entryOf key.keyId).terminal with
      | some terminal => (.ok (.alreadyResolved terminal), state)
      | none => (.ok .accepted, state.setEntry key.keyId ⟨some resolution⟩)

def unknownOrRevokedError : RuntimeError :=
  ⟨"await_event_unknown_or_revoked", "await-event key is invalid or revoked"⟩

/-- What a wait does each time it has the lock: it returns, or makes sure of an entry to be woken
by. -/
def look (key : AwaitEventKey) :
    Option (Except RuntimeError (Resolution Json)) × AwaitEventRegistryState Json :=
  if state.isRevoked key then (some (.error unknownOrRevokedError), state)
  else
    match (state.entryOf key.keyId).terminal with
    | some terminal => (some (.ok terminal), state)
    | none => (none, state.setEntry key.keyId ⟨none⟩)

def revokeSession (sessionId : String) : AwaitEventRegistryState Json :=
  { state with revokedSessionIds := sessionId :: state.revokedSessionIds }

end AwaitEventRegistryState

/-! ## Callers -/

/-- Where a call of `await_resolution` stands: before its next turn with the lock, or asleep. -/
inductive AwaitPhase where
  | looking
  | waiting
  | ended
deriving DecidableEq

structure AwaitCall where
  key : AwaitEventKey
  hasDeadline : Bool
  phase : AwaitPhase

structure World (Json : Type) where
  registry : AwaitEventRegistryState Json
  calls : Nat → Option AwaitCall

inductive Input (Json : Type) where
  | keyFor (scope : ExecutionScope) (wait : AwaitEventWaitIdentity)
  | resolve (key : AwaitEventKey) (resolution : Resolution Json)
  | await (call : Nat) (key : AwaitEventKey) (hasDeadline : Bool)
  | look (call : Nat)
  | notified (call : Nat)
  | cancelled (call : Nat)
  | timedOut (call : Nat)
  | abandon (call : Nat)
  | revokeSession (sessionId : String)

inductive Output (Json : Type) where
  | nothing
  | key (result : Except RuntimeError AwaitEventKey)
  | resolved (result : Except RuntimeError (ResolveOutcome Json))
  | awaited (result : Except RuntimeError (Resolution Json))

namespace World

def initial : World Json := ⟨.new, fun _ => none⟩

def setCall (world : World Json) (call : Nat) (state : AwaitCall) : World Json :=
  { world with calls := fun x => if x = call then some state else world.calls x }

def setPhase (world : World Json) (call : Nat) (state : AwaitCall) (phase : AwaitPhase) :
    World Json :=
  world.setCall call { state with phase := phase }

/-- A wait that is over resolves its key itself, and looks again what it was resolved to. -/
def giveUp (world : World Json) (signer : Signer) (call : Nat) (state : AwaitCall)
    (resolution : Resolution Json) : Output Json × World Json :=
  match world.registry.resolve signer state.key resolution with
  | (.error error, registry) =>
    (.awaited (.error error), { world with registry := registry }.setPhase call state .ended)
  | (.ok outcome, registry) =>
    (.resolved (.ok outcome), { world with registry := registry }.setPhase call state .looking)

end World

/-- One step of a caller. A call that is not where the step begins is left alone. -/
def step (signer : Signer) (input : Input Json) (world : World Json) : Output Json × World Json :=
  match input with
  | .keyFor scope wait => (.key (signer.keyFor scope wait), world)
  | .resolve key resolution =>
    let (result, registry) := world.registry.resolve signer key resolution
    (.resolved result, { world with registry := registry })
  | .await call key hasDeadline =>
    match world.calls call with
    | some _ => (.nothing, world)
    | none =>
      match signer.verify key with
      | .error error => (.awaited (.error error), world.setCall call ⟨key, hasDeadline, .ended⟩)
      | .ok false => (.awaited (.error AwaitEventRegistryState.unknownOrRevokedError),
          world.setCall call ⟨key, hasDeadline, .ended⟩)
      | .ok true => (.nothing, world.setCall call ⟨key, hasDeadline, .looking⟩)
  | .look call =>
    match world.calls call with
    | some ⟨key, hasDeadline, .looking⟩ =>
      match world.registry.look key with
      | (some result, registry) => (.awaited result,
          { world with registry := registry }.setCall call ⟨key, hasDeadline, .ended⟩)
      | (none, registry) => (.nothing,
          { world with registry := registry }.setCall call ⟨key, hasDeadline, .waiting⟩)
    | _ => (.nothing, world)
  | .notified call =>
    match world.calls call with
    | some ⟨key, hasDeadline, .waiting⟩ =>
      (.nothing, world.setCall call ⟨key, hasDeadline, .looking⟩)
    | _ => (.nothing, world)
  | .cancelled call =>
    match world.calls call with
    | some ⟨key, hasDeadline, .waiting⟩ =>
      world.giveUp signer call ⟨key, hasDeadline, .waiting⟩ .cancelled
    | _ => (.nothing, world)
  | .timedOut call =>
    match world.calls call with
    | some ⟨key, true, .waiting⟩ => world.giveUp signer call ⟨key, true, .waiting⟩ .timeout
    | _ => (.nothing, world)
  | .abandon call =>
    match world.calls call with
    | some state => (.nothing, world.setPhase call state .ended)
    | none => (.nothing, world)
  | .revokeSession sessionId =>
    (.nothing, { world with registry := world.registry.revokeSession sessionId })

/-! ## What one step does -/

variable {signer : Signer} {world : World Json} {input : Input Json} {key key' : AwaitEventKey}
variable {resolution r r' : Resolution Json} {registry : AwaitEventRegistryState Json}

/-- What a key has been resolved to. -/
def cells (world : World Json) (keyId : String) : Option (Resolution Json) :=
  (world.registry.entryOf keyId).terminal

/-- The key a step tries to resolve, and to what. -/
def submitted (world : World Json) : Input Json → Option (AwaitEventKey × Resolution Json)
  | .resolve key resolution => some (key, resolution)
  | .cancelled call =>
    match world.calls call with
    | some ⟨key, _, .waiting⟩ => some (key, .cancelled)
    | _ => none
  | .timedOut call =>
    match world.calls call with
    | some ⟨key, true, .waiting⟩ => some (key, .timeout)
    | _ => none
  | _ => none

namespace AwaitEventRegistryState

@[simp] theorem entryOf_setEntry (keyId keyId' : String) (entry : AwaitEventEntry Json) :
    (registry.setEntry keyId entry).entryOf keyId' =
      if keyId' = keyId then entry else registry.entryOf keyId' := by
  simp only [entryOf, setEntry]
  split <;> rfl

/-- A resolution is accepted for a key that verifies, is not revoked and has none yet. Nothing
else changes the registry, and an answer of another resolution is the one that is there. -/
theorem resolve_cases (registry : AwaitEventRegistryState Json) (signer : Signer)
    (key : AwaitEventKey) (resolution : Resolution Json) :
    (registry.resolve signer key resolution =
        (.ok .accepted, registry.setEntry key.keyId ⟨some resolution⟩) ∧
      signer.verify key = .ok true ∧ registry.isRevoked key = false ∧
      (registry.entryOf key.keyId).terminal = none) ∨
    ∃ result, registry.resolve signer key resolution = (result, registry) ∧ result ≠ .ok .accepted ∧
      ∀ r, result = .ok (.alreadyResolved r) → signer.verify key = .ok true ∧
        (registry.entryOf key.keyId).terminal = some r := by
  unfold resolve
  cases hverify : signer.verify key with
  | error error => exact Or.inr ⟨_, rfl, nofun, nofun⟩
  | ok valid =>
    cases valid with
    | false => exact Or.inr ⟨_, rfl, nofun, nofun⟩
    | true =>
      cases hrevoked : registry.isRevoked key with
      | true => exact Or.inr ⟨.ok .unknownOrRevoked, rfl, nofun, nofun⟩
      | false =>
        cases hterminal : (registry.entryOf key.keyId).terminal with
        | none => exact Or.inl ⟨rfl, rfl, rfl, rfl⟩
        | some terminal =>
          refine Or.inr ⟨.ok (.alreadyResolved terminal), rfl, nofun, ?_⟩
          intro r hr
          cases hr
          exact ⟨rfl, rfl⟩

theorem look_cases (registry : AwaitEventRegistryState Json) (key : AwaitEventKey) :
    (∃ error, registry.look key = (some (.error error), registry)) ∨
    (∃ r, registry.look key = (some (.ok r), registry) ∧ registry.isRevoked key = false ∧
      (registry.entryOf key.keyId).terminal = some r) ∨
    registry.look key = (none, registry.setEntry key.keyId ⟨none⟩) ∧
      (registry.entryOf key.keyId).terminal = none := by
  unfold look
  cases hrevoked : registry.isRevoked key with
  | true => exact Or.inl ⟨unknownOrRevokedError, rfl⟩
  | false =>
    cases hterminal : (registry.entryOf key.keyId).terminal with
    | none => exact Or.inr (Or.inr ⟨rfl, rfl⟩)
    | some r => exact Or.inr (Or.inl ⟨r, rfl, rfl, rfl⟩)

end AwaitEventRegistryState

open AwaitEventRegistryState World

/-- A step that submits a resolution has the registry decide on it. -/
theorem step_of_submitted (signer : Signer) (h : submitted world input = some (key, r)) :
    (step signer input world).2.registry = (world.registry.resolve signer key r).2 ∧
      ∀ outcome, (step signer input world).1 = .resolved (.ok outcome) ↔
        (world.registry.resolve signer key r).1 = .ok outcome := by
  have giveUp : ∀ call state, world.giveUp signer call state r = step signer input world →
      state.key = key → (step signer input world).2.registry =
          (world.registry.resolve signer key r).2 ∧
        ∀ outcome, (step signer input world).1 = .resolved (.ok outcome) ↔
          (world.registry.resolve signer key r).1 = .ok outcome := by
    rintro call state hstep rfl
    rw [← hstep, giveUp]
    rcases hresolve : world.registry.resolve signer state.key r with ⟨result | outcome, registry⟩
    · exact ⟨rfl, fun _ => ⟨nofun, nofun⟩⟩
    · refine ⟨rfl, fun outcome' => ⟨fun h => ?_, fun h => ?_⟩⟩
      · cases h
        rfl
      · cases h
        rfl
  cases input with
  | resolve key' resolution =>
    cases h
    refine ⟨rfl, fun outcome => ⟨fun h => ?_, fun h => ?_⟩⟩
    · exact Output.resolved.inj h
    · exact congrArg Output.resolved h
  | cancelled call =>
    rcases hcall : world.calls call with _ | ⟨key', hasDeadline, phase⟩
    · simp [submitted, hcall] at h
    · cases phase with
      | waiting =>
        simp only [submitted, hcall, some.injEq, Prod.mk.injEq] at h
        obtain ⟨hkey, rfl⟩ := h
        exact giveUp call ⟨key', hasDeadline, .waiting⟩ (by simp only [step, hcall]) hkey
      | looking | ended => simp [submitted, hcall] at h
  | timedOut call =>
    rcases hcall : world.calls call with _ | ⟨key', hasDeadline, phase⟩
    · simp [submitted, hcall] at h
    · cases phase with
      | waiting =>
        cases hasDeadline with
        | true =>
          simp only [submitted, hcall, some.injEq, Prod.mk.injEq] at h
          obtain ⟨hkey, rfl⟩ := h
          exact giveUp call ⟨key', true, .waiting⟩ (by simp only [step, hcall]) hkey
        | false => simp [submitted, hcall] at h
      | looking | ended => simp [submitted, hcall] at h
  | keyFor scope wait | await call key' hasDeadline | look call | notified call | abandon call
  | revokeSession sessionId => cases h

/-- Any other step leaves the registry alone, opens an entry to be woken by, or revokes. -/
theorem step_of_unsubmitted (signer : Signer) (h : submitted world input = none) :
    ((step signer input world).2.registry = world.registry ∨
      (∃ keyId, (world.registry.entryOf keyId).terminal = none ∧
        (step signer input world).2.registry = world.registry.setEntry keyId ⟨none⟩) ∨
      ∃ sessionId, (step signer input world).2.registry = world.registry.revokeSession sessionId) ∧
      ∀ result, (step signer input world).1 ≠ .resolved result := by
  cases input with
  | resolve key' resolution => cases h
  | cancelled call =>
    rcases hcall : world.calls call with _ | ⟨key', hasDeadline, _ | _ | _⟩
    · simp [step, hcall]
    · simp [step, hcall]
    · simp [submitted, hcall] at h
    · simp [step, hcall]
  | timedOut call =>
    rcases hcall : world.calls call with _ | ⟨key', _ | _, _ | _ | _⟩ <;>
      first
      | simp [step, hcall]; done
      | simp [submitted, hcall] at h
  | keyFor scope wait => exact ⟨.inl rfl, nofun⟩
  | await call key' hasDeadline =>
    rcases hcall : world.calls call with _ | state
    · rcases hverify : signer.verify key' with error | (_ | _)
      all_goals simp only [step, hcall, hverify]
      all_goals exact ⟨.inl rfl, nofun⟩
    · simp [step, hcall]
  | look call =>
    rcases hcall : world.calls call with _ | ⟨key', hasDeadline, _ | _ | _⟩
    · simp [step, hcall]
    · simp only [step, hcall]
      rcases look_cases world.registry key' with
        ⟨error, h⟩ | ⟨r, h, -, -⟩ | ⟨h, hempty⟩
      · rw [h]
        exact ⟨.inl rfl, nofun⟩
      · rw [h]
        exact ⟨.inl rfl, nofun⟩
      · rw [h]
        exact ⟨.inr (.inl ⟨_, hempty, rfl⟩), nofun⟩
    · simp [step, hcall]
    · simp [step, hcall]
  | notified call =>
    rcases hcall : world.calls call with _ | ⟨key', hasDeadline, _ | _ | _⟩
    all_goals simp [step, hcall, setCall]
  | abandon call =>
    rcases hcall : world.calls call with _ | state
    all_goals simp [step, hcall, setPhase, setCall]
  | revokeSession sessionId => exact ⟨.inr (.inr ⟨sessionId, rfl⟩), nofun⟩

theorem cells_of_unsubmitted (signer : Signer) (h : submitted world input = none) :
    cells (step signer input world).2 = cells world := by
  funext k
  rw [cells]
  rcases (step_of_unsubmitted signer h).1 with hsame | ⟨keyId, hempty, hset⟩ | ⟨sessionId, hrevoked⟩
  · rw [hsame]
    rfl
  · rw [hset, entryOf_setEntry]
    split
    · next hk =>
        rw [cells, hk]
        exact hempty.symm
    · rfl
  · rw [hrevoked]
    rfl

/-- What one step can do to what keys are resolved to: a submitted resolution is accepted and
written, or nothing is. -/
theorem step_cases (signer : Signer) (input : Input Json) (world : World Json) :
    (∃ key r, submitted world input = some (key, r) ∧
      (step signer input world).1 = .resolved (.ok .accepted) ∧
      signer.verify key = .ok true ∧ world.registry.isRevoked key = false ∧
      cells world key.keyId = none ∧ cells (step signer input world).2 =
        fun k => if k = key.keyId then some r else cells world k) ∨
    (step signer input world).1 ≠ .resolved (.ok .accepted) ∧
      cells (step signer input world).2 = cells world := by
  rcases hsubmitted : submitted world input with _ | ⟨key, r⟩
  · exact Or.inr ⟨(step_of_unsubmitted signer hsubmitted).2 _,
      cells_of_unsubmitted signer hsubmitted⟩
  · obtain ⟨hregistry, houtput⟩ := step_of_submitted signer hsubmitted
    rcases world.registry.resolve_cases signer key r with
      ⟨hresolve, hverify, hrevoked, hempty⟩ | ⟨result, hresolve, hresult, -⟩
    · refine Or.inl ⟨key, r, rfl, (houtput _).mpr (by rw [hresolve]), hverify, hrevoked, hempty, ?_⟩
      funext k
      rw [cells, hregistry, hresolve, entryOf_setEntry]
      split <;> rfl
    · refine Or.inr ⟨fun h => hresult ?_, ?_⟩
      · have h := (houtput _).mp h
        rwa [hresolve] at h
      · funext k
        rw [cells, hregistry, hresolve]
        rfl

/-! ## Runs -/

abbrev Step (Json : Type) := Entry (Input Json) (World Json) (Output Json)

variable {history newer older : List (Step Json)} {d e : Step Json}

/-- The step had the resolution accepted for the key. -/
def Accepts (e : Step Json) (key : AwaitEventKey) (r : Resolution Json) : Prop :=
  submitted e.before e.input = some (key, r) ∧ e.output = .resolved (.ok .accepted)

/-- The step was told that the key had the resolution already. -/
def Answers (e : Step Json) (key : AwaitEventKey) (r : Resolution Json) : Prop :=
  (∃ own, submitted e.before e.input = some (key, own)) ∧
    e.output = .resolved (.ok (.alreadyResolved r))

/-- A call that waits for the key returns the resolution. -/
def Returns (e : Step Json) (key : AwaitEventKey) (r : Resolution Json) : Prop :=
  ∃ call hasDeadline, e.input = .look call ∧
    e.before.calls call = some ⟨key, hasDeadline, .looking⟩ ∧ e.output = .awaited (.ok r)

def Mints (e : Step Json) (key : AwaitEventKey) : Prop := e.output = .key (.ok key)

/-- The key a caller hands to the registry, or that one of its waits has been handed. -/
def presented (world : World Json) : Input Json → Option AwaitEventKey
  | .await _ key _ => some key
  | input => (submitted world input).map Prod.fst

/-- No key verifies that the registry has not minted before. -/
def Unforgeable (signer : Signer) : List (Step Json) → Prop
  | [] => True
  | e :: older => (∀ key, presented e.before e.input = some key → signer.verify key = .ok true →
      ∃ d ∈ older, Mints d key) ∧ Unforgeable signer older

/-- Events that differ have different hashes. -/
def NoCollisions (signer : Signer) : Prop :=
  ∀ scope scope' wait wait' keyId, signer.hash scope wait = .ok keyId →
    signer.hash scope' wait' = .ok keyId → scope = scope' ∧ wait = wait'

theorem cells_kept (signer : Signer) (world : World Json) (input : Input Json) :
    Keeps (cells world) (cells (step signer input world).2) := by
  rcases step_cases signer input world with ⟨key, r, -, -, -, -, hempty, hcells⟩ | ⟨-, hcells⟩
  · refine keeps_of_write hempty fun keyId hne => ?_
    rw [hcells]
    exact if_neg hne
  · exact .of_eq hcells

theorem Accepts.spec (h : Accepts e key r) (he : e = entryAt (step signer) e.input e.before) :
    signer.verify key = .ok true ∧ e.before.registry.isRevoked key = false ∧
      Fills cells e key.keyId r := by
  obtain ⟨hsubmitted, houtput⟩ := h
  rw [he] at houtput
  rcases step_cases signer e.input e.before with
    ⟨key', r', hsubmitted', -, hverify, hrevoked, hempty, hcells⟩ | ⟨hnot, -⟩
  · rw [hsubmitted] at hsubmitted'
    cases hsubmitted'
    refine ⟨hverify, hrevoked, hempty, ?_⟩
    rw [he]
    show cells (step signer e.input e.before).2 key.keyId = some r
    rw [hcells]
    exact if_pos rfl
  · exact absurd houtput hnot

theorem accepts_of_fills {keyId : String} (h : Fills cells e keyId r)
    (he : e = entryAt (step signer) e.input e.before) :
    ∃ key, key.keyId = keyId ∧ Accepts e key r := by
  obtain ⟨hempty, hafter⟩ := h
  have hstep : cells (step signer e.input e.before).2 keyId = some r := by
    rw [he] at hafter
    exact hafter
  rcases step_cases signer e.input e.before with
    ⟨key, r', hsubmitted, houtput, -, -, -, hcells⟩ | ⟨-, hcells⟩
  · have hstep := (congrFun hcells keyId).symm.trans hstep
    by_cases hkey : keyId = key.keyId
    · cases (if_pos hkey).symm.trans hstep
      refine ⟨key, hkey.symm, hsubmitted, ?_⟩
      rw [he]
      exact houtput
    · have hnone := (if_neg hkey).symm.trans hstep
      rw [hempty] at hnone
      cases hnone
  · rw [hcells, hempty] at hstep
    cases hstep

theorem Answers.cell (h : Answers e key r) (he : e = entryAt (step signer) e.input e.before) :
    signer.verify key = .ok true ∧ cells e.before key.keyId = some r := by
  obtain ⟨⟨own, hsubmitted⟩, houtput⟩ := h
  rw [he] at houtput
  have hresult := ((step_of_submitted signer hsubmitted).2 _).mp houtput
  rcases e.before.registry.resolve_cases signer key own with
    ⟨hresolve, -⟩ | ⟨result, hresolve, -, hkeeps⟩
  · rw [hresolve] at hresult
    cases hresult
  · rw [hresolve] at hresult
    exact hkeeps r hresult

theorem Returns.cell (h : Returns e key r) (he : e = entryAt (step signer) e.input e.before) :
    e.before.registry.isRevoked key = false ∧ cells e.before key.keyId = some r := by
  obtain ⟨call, hasDeadline, hinput, hcall, houtput⟩ := h
  rw [he, hinput] at houtput
  simp only [entryAt, AwaitEvents.step, hcall] at houtput
  rcases look_cases e.before.registry key with
    ⟨error, hlook⟩ | ⟨r', hlook, hrevoked, hcell⟩ | ⟨hlook, -⟩
  · rw [hlook] at houtput
    cases houtput
  · rw [hlook] at houtput
    cases houtput
    exact ⟨hrevoked, hcell⟩
  · rw [hlook] at houtput
    cases houtput

/-- A call that still runs waits for the key it was handed, which verified. -/
theorem calls_step {call : Nat} {state : AwaitCall}
    (h : (step signer input world).2.calls call = some state) (hrunning : state.phase ≠ .ended) :
    (∃ old, world.calls call = some old ∧ old.phase ≠ .ended ∧ old.key = state.key) ∨
      ∃ hasDeadline, input = .await call state.key hasDeadline ∧
        signer.verify state.key = .ok true := by
  -- a step that only moves one call on
  have moved : ∀ (world' : World Json) (other : Nat) (old : AwaitCall) (phase : AwaitPhase),
      world'.calls = world.calls → world.calls other = some old →
      (phase ≠ .ended → old.phase ≠ .ended) →
      (world'.setPhase other old phase).calls call = some state →
      ∃ old, world.calls call = some old ∧ old.phase ≠ .ended ∧ old.key = state.key := by
    intro world' other old phase hworld hother hphase hcall
    by_cases hsame : call = other
    · simp only [setPhase, setCall, if_pos hsame, some.injEq] at hcall
      subst hcall
      exact ⟨old, hsame ▸ hother, hphase hrunning, rfl⟩
    · simp only [setPhase, setCall, if_neg hsame] at hcall
      exact ⟨state, hworld ▸ hcall, hrunning, rfl⟩
  have giveUp : ∀ other key hasDeadline resolution,
      world.calls other = some ⟨key, hasDeadline, .waiting⟩ →
      (world.giveUp signer other ⟨key, hasDeadline, .waiting⟩ resolution).2.calls call =
        some state →
      ∃ old, world.calls call = some old ∧ old.phase ≠ .ended ∧ old.key = state.key := by
    intro other key hasDeadline resolution hother hcall
    rw [giveUp] at hcall
    rcases hresolve : world.registry.resolve signer key resolution with ⟨result | outcome, registry⟩
    · rw [hresolve] at hcall
      exact moved { world with registry := registry } other _ .ended rfl hother nofun hcall
    · rw [hresolve] at hcall
      exact moved { world with registry := registry } other _ .looking rfl hother nofun hcall
  have unchanged : world.calls call = some state →
      ∃ old, world.calls call = some old ∧ old.phase ≠ .ended ∧ old.key = state.key :=
    fun hcall => ⟨state, hcall, hrunning, rfl⟩
  cases input with
  | keyFor scope wait | resolve key resolution | revokeSession sessionId =>
    exact Or.inl (unchanged h)
  | await other key hasDeadline =>
    rcases hother : world.calls other with _ | old
    · rcases hverify : signer.verify key with error | (_ | _)
      all_goals
        simp only [step, hother, hverify] at h
        by_cases hsame : call = other
      · simp only [setCall, if_pos hsame, some.injEq] at h
        exact absurd (h ▸ rfl) hrunning
      · simp only [setCall, if_neg hsame] at h
        exact Or.inl (unchanged h)
      · simp only [setCall, if_pos hsame, some.injEq] at h
        exact absurd (h ▸ rfl) hrunning
      · simp only [setCall, if_neg hsame] at h
        exact Or.inl (unchanged h)
      · simp only [setCall, if_pos hsame, some.injEq] at h
        subst h hsame
        exact Or.inr ⟨hasDeadline, rfl, hverify⟩
      · simp only [setCall, if_neg hsame] at h
        exact Or.inl (unchanged h)
    · simp only [step, hother] at h
      exact Or.inl (unchanged h)
  | look other =>
    rcases hother : world.calls other with _ | ⟨key, hasDeadline, _ | _ | _⟩
    all_goals simp only [step, hother] at h
    · exact Or.inl (unchanged h)
    · rcases hlook : world.registry.look key with ⟨_ | result, registry⟩
      · rw [hlook] at h
        exact Or.inl (moved { world with registry := registry } other _ .waiting rfl hother nofun h)
      · rw [hlook] at h
        exact Or.inl (moved { world with registry := registry } other _ .ended rfl hother nofun h)
    · exact Or.inl (unchanged h)
    · exact Or.inl (unchanged h)
  | notified other =>
    rcases hother : world.calls other with _ | ⟨key, hasDeadline, _ | _ | _⟩
    all_goals simp only [step, hother] at h
    · exact Or.inl (unchanged h)
    · exact Or.inl (unchanged h)
    · exact Or.inl (moved world other _ .looking rfl hother nofun h)
    · exact Or.inl (unchanged h)
  | cancelled other =>
    rcases hother : world.calls other with _ | ⟨key, hasDeadline, _ | _ | _⟩
    all_goals simp only [step, hother] at h
    · exact Or.inl (unchanged h)
    · exact Or.inl (unchanged h)
    · exact Or.inl (giveUp other key hasDeadline _ hother h)
    · exact Or.inl (unchanged h)
  | timedOut other =>
    rcases hother : world.calls other with _ | ⟨key, _ | _, _ | _ | _⟩
    all_goals simp only [step, hother] at h
    · exact Or.inl (unchanged h)
    · exact Or.inl (unchanged h)
    · exact Or.inl (unchanged h)
    · exact Or.inl (unchanged h)
    · exact Or.inl (unchanged h)
    · exact Or.inl (giveUp other key true _ hother h)
    · exact Or.inl (unchanged h)
  | abandon other =>
    rcases hother : world.calls other with _ | old
    all_goals simp only [step, hother] at h
    · exact Or.inl (unchanged h)
    · exact Or.inl (moved world other old .ended rfl hother (fun hne => absurd rfl hne) h)

theorem Unforgeable.later (h : Unforgeable signer (newer ++ e :: older)) :
    Unforgeable signer (e :: older) := by
  induction newer with
  | nil => exact h
  | cons _ newer ih => exact ih h.2

/-- Whoever still waits, waits for a key that was minted. -/
theorem calls_minted (run : Run (step signer) .initial history world)
    (unforgeable : Unforgeable signer history) {call : Nat} {state : AwaitCall}
    (hcall : world.calls call = some state) (hrunning : state.phase ≠ .ended) :
    ∃ d ∈ history, Mints d state.key := by
  induction run generalizing state with
  | nil => cases hcall
  | @cons history world earlier input ih =>
    rcases calls_step hcall hrunning with
      ⟨old, hold, hphase, hkey⟩ | ⟨hasDeadline, hinput, hverify⟩
    · obtain ⟨d, hd, hmints⟩ := ih unforgeable.2 hold hphase
      exact ⟨d, mem_cons_of_mem _ hd, hkey ▸ hmints⟩
    · obtain ⟨d, hd, hmints⟩ := unforgeable.1 state.key
        (by simp only [entryAt, hinput, presented]) hverify
      exact ⟨d, mem_cons_of_mem _ hd, hmints⟩

theorem giveUp_ne_key (signer : Signer) (world : World Json) (call : Nat) (state : AwaitCall)
    (resolution : Resolution Json) (result : Except RuntimeError AwaitEventKey) :
    (world.giveUp signer call state resolution).1 ≠ .key result := by
  unfold giveUp
  split <;> nofun

/-- Only the minting of a key hands one out. -/
theorem Mints.keyFor (h : Mints e key) (he : e = entryAt (step signer) e.input e.before) :
    ∃ scope wait, signer.keyFor scope wait = .ok key := by
  have houtput : (step signer e.input e.before).1 = .key (.ok key) := by
    rw [Mints, he] at h
    exact h
  cases hinput : e.input with
  | keyFor scope wait =>
    rw [hinput] at houtput
    exact ⟨scope, wait, Output.key.inj houtput⟩
  | cancelled call | timedOut call =>
    rw [hinput, step] at houtput
    split at houtput
    · exact absurd houtput (giveUp_ne_key _ _ _ _ _ _)
    · cases houtput
  | look call =>
    rw [hinput, step] at houtput
    split at houtput
    · split at houtput <;> cases houtput
    · cases houtput
  | await call key' hasDeadline =>
    rw [hinput, step] at houtput
    split at houtput
    · cases houtput
    · split at houtput <;> cases houtput
  | resolve key' resolution | revokeSession sessionId =>
    rw [hinput] at houtput
    cases houtput
  | notified call | abandon call =>
    rw [hinput, step] at houtput
    split at houtput <;> cases houtput

theorem Signer.keyFor_ok {scope : ExecutionScope} {wait : AwaitEventWaitIdentity}
    (h : signer.keyFor scope wait = .ok key) :
    key.scope = scope ∧ key.wait = wait ∧ signer.hash scope wait = .ok key.keyId ∧
      signer.signature scope wait key.keyId = .ok key.signature := by
  simp only [keyFor, bind, Except.bind] at h
  cases hscope : scope.validate with
  | error error => simp [hscope] at h
  | ok valid =>
    cases hwait : wait.validate with
    | error error => simp [hscope, hwait] at h
    | ok valid' =>
      cases hhash : signer.hash scope wait with
      | error error => simp [hscope, hwait, hhash] at h
      | ok keyId =>
        cases hsignature : signer.signature scope wait keyId with
        | error error => simp [hscope, hwait, hhash, hsignature] at h
        | ok signature =>
          simp only [hscope, hwait, hhash, hsignature, Except.ok.injEq] at h
          subst h
          exact ⟨rfl, rfl, rfl, hsignature⟩

/-- A key that was minted is the only one of its id. -/
theorem Mints.unique (collisions : NoCollisions signer) (h : Mints d key) (h' : Mints e key')
    (hd : d = entryAt (step signer) d.input d.before)
    (he : e = entryAt (step signer) e.input e.before) (hid : key.keyId = key'.keyId) :
    key = key' := by
  obtain ⟨scope, wait, hkey⟩ := h.keyFor hd
  obtain ⟨scope', wait', hkey'⟩ := h'.keyFor he
  obtain ⟨hs, hw, hhash, hsignature⟩ := Signer.keyFor_ok hkey
  obtain ⟨hs', hw', hhash', hsignature'⟩ := Signer.keyFor_ok hkey'
  rw [hid] at hhash hsignature
  obtain ⟨rfl, rfl⟩ := collisions _ _ _ _ _ hhash hhash'
  rw [hsignature] at hsignature'
  obtain ⟨keyScope, keyWait, keyId, signature⟩ := key
  obtain ⟨keyScope', keyWait', keyId', signature'⟩ := key'
  cases hs.trans hs'.symm
  cases hw.trans hw'.symm
  cases hid
  cases hsignature'
  rfl

/-! ## First wins, for good -/

section Runs

variable (run : Run (step signer) .initial history world)

include run

theorem accepted_once (h : Precedes history d e) (hd : Accepts d key r) (he : Accepts e key' r') :
    key.keyId ≠ key'.keyId := by
  intro hid
  obtain ⟨newer, older, shape, hmem⟩ := h
  obtain ⟨-, hentry, -⟩ := run.split shape
  obtain ⟨-, hdentry⟩ := run.entry (e := d) (by simp [shape, hmem])
  obtain ⟨-, -, hfills⟩ := hd.spec hdentry
  obtain ⟨-, -, hfills'⟩ := he.spec hentry
  rw [hid] at hfills
  exact filled_once (fun w i _ => cells_kept signer w i) run shape hmem hfills hfills'

/-- What an await returns or a resolve is answered was accepted before. -/
theorem accepted_before (shape : history = newer ++ e :: older)
    (h : cells e.before key.keyId = some r) :
    ∃ d ∈ older, ∃ key', key'.keyId = key.keyId ∧ Accepts d key' r := by
  obtain ⟨hbefore, -, -⟩ := run.split shape
  obtain ⟨d, hd, hfills⟩ := filled_by (fun w i _ => cells_kept signer w i) rfl hbefore h
  obtain ⟨key', hid, haccepts⟩ := accepts_of_fills hfills (hbefore.entry hd).2
  exact ⟨d, hd, key', hid, haccepts⟩

omit run in
theorem presented_of_submitted (h : submitted world input = some (key, r)) :
    presented world input = some key := by
  cases input with
  | await call key' hasDeadline => cases h
  | _ =>
    rw [presented, h]
    · rfl
    · nofun

theorem accepts_minted (shape : history = newer ++ e :: older)
    (unforgeable : Unforgeable signer history) (he : Accepts e key r) :
    ∃ d ∈ older, Mints d key := by
  obtain ⟨-, hentry, -⟩ := run.split shape
  obtain ⟨hverify, -, -⟩ := he.spec hentry
  subst shape
  exact unforgeable.later.1 key (presented_of_submitted he.1) hverify

/-- The one who reads the resolution of a key holds a key that was minted. -/
theorem read_minted (shape : history = newer ++ e :: older)
    (unforgeable : Unforgeable signer history) (h : Returns e key r ∨ Answers e key r) :
    ∃ d ∈ older, Mints d key := by
  obtain ⟨hbefore, hentry, -⟩ := run.split shape
  subst shape
  rcases h with ⟨call, hasDeadline, -, hcall, -⟩ | h
  · exact calls_minted hbefore unforgeable.later.2 hcall nofun
  · obtain ⟨hverify, -⟩ := h.cell hentry
    obtain ⟨⟨own, hsubmitted⟩, -⟩ := h
    exact unforgeable.later.1 key (presented_of_submitted hsubmitted) hverify

theorem revoked_stays (h : Precedes history d e) {sessionId : String}
    (hinput : d.input = .revokeSession sessionId) :
    sessionId ∈ e.before.registry.revokedSessionIds := by
  obtain ⟨newer, older, shape, hmem⟩ := h
  obtain ⟨hbefore, -, -⟩ := run.split shape
  obtain ⟨newer', older', hd⟩ := append_of_mem hmem
  obtain ⟨-, hdentry, -⟩ := hbefore.split hd
  refine hbefore.later (P := fun w => sessionId ∈ w.registry.revokedSessionIds) hd ?_ ?_
  · rw [hdentry, hinput]
    exact mem_cons_self
  · intro w i _ hw
    rcases hsubmitted : submitted w i with _ | ⟨key, r⟩
    · rcases (step_of_unsubmitted signer hsubmitted).1 with h | ⟨keyId, -, h⟩ | ⟨other, h⟩
      · rw [h]
        exact hw
      · rw [h]
        exact hw
      · rw [h]
        exact mem_cons_of_mem _ hw
    · rw [(step_of_submitted signer hsubmitted).1]
      rcases w.registry.resolve_cases signer key r with ⟨h, -⟩ | ⟨result, h, -⟩
      · rw [h]
        exact hw
      · rw [h]
        exact hw

omit run in
theorem isRevoked_of_session {sessionId : String} (h : sessionId ∈ registry.revokedSessionIds)
    (hkey : key.scope.sessionId = some sessionId) : registry.isRevoked key = true := by
  simp [isRevoked, hkey, h]

/-- In every run of the registry a key has at most one resolution accepted, and whoever is told
one is told that one. No resolution of a revoked session is accepted or returned, and only keys
that were minted have any. -/
theorem resolution_first_wins :
    (∀ d e key key' r r', Precedes history d e → Accepts d key r → Accepts e key' r' →
      key.keyId ≠ key'.keyId) ∧
    (∀ newer e older key r, history = newer ++ e :: older → Returns e key r ∨ Answers e key r →
      ∃ d ∈ older, ∃ key', Accepts d key' r ∧ key'.keyId = key.keyId ∧
        (Unforgeable signer history → NoCollisions signer → key' = key)) ∧
    (∀ d e sessionId key r, Precedes history d e → d.input = .revokeSession sessionId →
      key.scope.sessionId = some sessionId → ¬ Accepts e key r ∧ ¬ Returns e key r) ∧
    (Unforgeable signer history → ∀ newer e older key r, history = newer ++ e :: older →
      Accepts e key r → ∃ d ∈ older, Mints d key) := by
  refine ⟨fun d e key key' r r' h hd he => accepted_once run h hd he, ?_, ?_,
    fun unforgeable newer e older key r shape he => accepts_minted run shape unforgeable he⟩
  · intro newer e older key r shape h
    obtain ⟨hbefore, hentry, -⟩ := run.split shape
    have hcell : cells e.before key.keyId = some r := by
      rcases h with h | h
      · exact (h.cell hentry).2
      · exact (h.cell hentry).2
    obtain ⟨d, hd, key', hid, haccepts⟩ := accepted_before run shape hcell
    refine ⟨d, hd, key', haccepts, hid, fun unforgeable collisions => ?_⟩
    obtain ⟨m, hm, hmints⟩ := read_minted run shape unforgeable h
    obtain ⟨newer', older', hsplit⟩ := append_of_mem hd
    have hall : history = (newer ++ e :: newer') ++ d :: older' := by
      rw [shape, hsplit, append_assoc, cons_append]
    obtain ⟨m', hm', hmints'⟩ := accepts_minted run hall unforgeable haccepts
    have hmem' : m' ∈ older := by
      rw [hsplit]
      exact mem_append_right _ (mem_cons_of_mem _ hm')
    exact hmints'.unique collisions hmints (hbefore.entry hmem').2 (hbefore.entry hm).2 hid
  · intro d e sessionId key r h hinput hkey
    have hrevoked := isRevoked_of_session (revoked_stays run h hinput) hkey
    obtain ⟨newer, older, shape, -⟩ := h
    obtain ⟨-, hentry, -⟩ := run.split shape
    constructor
    · intro haccepts
      rw [(haccepts.spec hentry).2.1] at hrevoked
      cases hrevoked
    · intro hreturns
      rw [(hreturns.cell hentry).1] at hrevoked
      cases hrevoked

end Runs

/-! ## A run -/

def exampleScope : ExecutionScope := .turn "session" "turn"

def exampleWait : AwaitEventWaitIdentity := .toolCompletion "call"

def exampleSigner : Signer where
  hash scope wait :=
    if scope = exampleScope ∧ wait = exampleWait then .ok "id" else .error ⟨"other", ""⟩
  signature _ _ keyId := .ok ("signed:" ++ keyId)

def exampleKey : AwaitEventKey := ⟨exampleScope, exampleWait, "id", "signed:id"⟩

def exampleInputs : List (Input String) :=
  [.keyFor exampleScope exampleWait, .await 0 exampleKey false, .look 0,
    .resolve exampleKey (.ok "done"), .notified 0, .look 0]

def exampleRun : List (Step String) × World String :=
  perform (step exampleSigner) exampleInputs ([], .initial)

theorem exampleRun_run : Run (step exampleSigner) .initial exampleRun.1 exampleRun.2 :=
  Run.perform .nil exampleInputs

theorem exampleSigner_noCollisions : NoCollisions exampleSigner := by
  intro scope scope' wait wait' keyId h h'
  simp only [exampleSigner] at h h'
  split at h
  · next hall =>
      split at h'
      · next hall' => exact ⟨hall.1.trans hall'.1.symm, hall.2.trans hall'.2.symm⟩
      · cases h'
  · cases h

theorem exampleRun_unforgeable : Unforgeable exampleSigner exampleRun.1 := by
  have minted : ∀ key, some exampleKey = some key → ∀ older : List (Step String),
      older.getLast? = some (entryAt (step exampleSigner) (.keyFor exampleScope exampleWait)
        .initial) → ∃ d ∈ older, Mints d key := by
    rintro _ ⟨⟩ older hlast
    exact ⟨_, mem_of_getLast? hlast, rfl⟩
  refine ⟨nofun, nofun, ?_, nofun, ?_, nofun, trivial⟩
  · exact fun key hkey _ => minted key hkey _ rfl
  · exact fun key hkey _ => minted key hkey _ rfl

/-- The call that waited is told what was accepted for its key. -/
theorem resolution_first_wins_exampleRun :
    ∃ d ∈ exampleRun.1, Accepts d exampleKey (.ok "done") := by
  obtain ⟨-, hread, -⟩ := resolution_first_wins exampleRun_run
  obtain ⟨d, hd, key, haccepts, -, hkey⟩ := hread [] _ _ exampleKey (.ok "done") rfl
    (.inl ⟨0, false, rfl, rfl, rfl⟩)
  rw [hkey exampleRun_unforgeable exampleSigner_noCollisions] at haccepts
  exact ⟨d, mem_cons_of_mem _ hd, haccepts⟩

end AwaitEvents
