import Mathlib.Algebra.Group.Nat.Defs
import Lash.OnceCells

/-!
# The replay log of effects

A call of `execute_effect` claims the row of its key under a lease, executes the effect
while it renews the lease, and records the outcome under the same lease. The others wait
for the lease to run out or replay what has been recorded. Every transaction is one step,
with whatever time its clock shows. It may fail, and a call may stop for good anywhere.
-/

namespace EffectReplay

open Runs OnceCells

structure RuntimeEffectControllerError where
  code : String
  message : String
deriving DecidableEq

def statusInProgress : String := "in_progress"
def statusCompleted : String := "completed"
def statusFailed : String := "failed"

def saturatingAdd (a b : UInt64) : UInt64 :=
  if a.toNat + b.toNat < 2 ^ 64 then a + b else .ofNat (2 ^ 64 - 1)

/-- A row of `runtime_effect_replay`, without its scope and its key. -/
structure Row where
  envelopeHash : String
  status : String
  outcomeJson : Option String
  errorJson : Option String
  leaseOwnerId : Option String
  leaseToken : Option String
  leaseExpiresAtMs : Int64
  dueAtMs : Option Int64
deriving DecidableEq

/-- The scope and the replay key of a row. -/
abbrev RowKey := String × String

structure SqliteEffectReplayInner where
  ownerId : String
  leaseCounter : UInt64
  replayMode : Bool
  leaseTtlMs : UInt64

def SqliteEffectReplayInner.nextLeaseToken (inner : SqliteEffectReplayInner) :
    String × SqliteEffectReplayInner :=
  (inner.ownerId ++ ":" ++ toString inner.leaseCounter,
    { inner with leaseCounter := inner.leaseCounter + 1 })

/-- What the log reads of an envelope. -/
structure RuntimeEffectEnvelope where
  replayKey : Option String
  stableHash : Except RuntimeEffectControllerError String
  sleepDurationMs : Option UInt64

structure ClaimedEffect where
  scopeId : String
  replayKey : String
  envelopeHash : String
  leaseToken : String
  dueAtMs : Option UInt64

/-- How outcomes and errors are written to text and read from it. -/
structure Codec (Outcome : Type) where
  outcomeToString : Outcome → Except String String
  outcomeFromStr : String → Except String Outcome
  errorToString : RuntimeEffectControllerError → Except String String
  errorFromStr : String → Except String RuntimeEffectControllerError

inductive PreparedEffect (Outcome : Type) where
  | replayOutcome (outcome : Outcome) (dueAtMs : Option UInt64)
  | replayError (error : RuntimeEffectControllerError)
  | claimed (claim : ClaimedEffect)
  | busy (retryAtMs : UInt64)

/-! ## Errors of the log itself -/

def replayKeyMissing : RuntimeEffectControllerError :=
  ⟨"sqlite_effect_replay_key_missing", "runtime effect envelope requires replay.key"⟩

def replayMissing (scopeId replayKey : String) : RuntimeEffectControllerError :=
  ⟨"sqlite_effect_replay_missing",
    s!"no recorded runtime effect for scope `{scopeId}` and replay key `{replayKey}`"⟩

def hashConflict (scopeId replayKey : String) : RuntimeEffectControllerError :=
  ⟨"sqlite_effect_replay_hash_conflict",
    s!"runtime effect replay key `{replayKey}` in scope `{scopeId}` was reused with a different" ++
      " envelope hash"⟩

def corruptRow (message : String) : RuntimeEffectControllerError :=
  ⟨"sqlite_effect_replay_corrupt_row", message⟩

def leaseLost (doing scopeId replayKey : String) : RuntimeEffectControllerError :=
  ⟨"sqlite_effect_replay_lease_lost",
    s!"runtime effect replay lease was lost {doing} scope `{scopeId}` replay key `{replayKey}`"⟩

def effectSqliteError (error : String) : RuntimeEffectControllerError :=
  ⟨"sqlite_effect_replay_store", error⟩

def effectEncodeError (error : String) : RuntimeEffectControllerError :=
  ⟨"sqlite_effect_replay_encode", s!"failed to encode runtime effect replay row: {error}"⟩

def effectDecodeError (error : String) : RuntimeEffectControllerError :=
  ⟨"sqlite_effect_replay_decode", s!"failed to decode runtime effect replay row: {error}"⟩

/-! ## Transactions -/

abbrev Rows := RowKey → Option Row

def Rows.set (rows : Rows) (key : RowKey) (row : Row) : Rows :=
  fun k => if k = key then some row else rows k

variable {Outcome : Type}

abbrev EffectResult (Outcome : Type) := Except RuntimeEffectControllerError Outcome

def sleepDueAtMs (envelope : RuntimeEffectEnvelope) (now : UInt64) : Option UInt64 :=
  envelope.sleepDurationMs.map (saturatingAdd now)

/-- What the row of a key holds for a call with the same hash: its result, or its lease. -/
def readRow (codec : Codec Outcome) (row : Row) : Except RuntimeEffectControllerError
    (Except UInt64 (PreparedEffect Outcome)) :=
  if row.status = statusCompleted then
    match row.outcomeJson with
    | none => .error (corruptRow "completed runtime effect row is missing outcome_json")
    | some json =>
      match codec.outcomeFromStr json with
      | .ok outcome => .ok (.ok (.replayOutcome outcome (row.dueAtMs.map Int64.toUInt64)))
      | .error error => .error (effectDecodeError error)
  else if row.status = statusFailed then
    match row.errorJson with
    | none => .error (corruptRow "failed runtime effect row is missing error_json")
    | some json =>
      match codec.errorFromStr json with
      | .ok error => .ok (.ok (.replayError error))
      | .error error => .error (effectDecodeError error)
  else if row.status = statusInProgress then .ok (.error row.leaseExpiresAtMs.toUInt64)
  else .error (corruptRow s!"unknown runtime effect replay status `{row.status}`")

/-- The transaction of `prepare_effect`. The clock is read once before it and once more when a
lease is taken over. -/
def prepareRow (codec : Codec Outcome) (inner : SqliteEffectReplayInner) (leaseToken : String)
    (scopeId replayKey envelopeHash : String) (envelope : RuntimeEffectEnvelope)
    (now later : UInt64) (rows : Rows) :
    Except RuntimeEffectControllerError (PreparedEffect Outcome) × Rows :=
  let dueAtMs := sleepDueAtMs envelope now
  match rows (scopeId, replayKey) with
  | none =>
    if inner.replayMode then (.error (replayMissing scopeId replayKey), rows)
    else
      (.ok (.claimed ⟨scopeId, replayKey, envelopeHash, leaseToken, dueAtMs⟩),
        rows.set (scopeId, replayKey)
          { envelopeHash := envelopeHash, status := statusInProgress
            outcomeJson := none, errorJson := none
            leaseOwnerId := some inner.ownerId, leaseToken := some leaseToken
            leaseExpiresAtMs := (saturatingAdd now inner.leaseTtlMs).toInt64
            dueAtMs := dueAtMs.map UInt64.toInt64 })
  | some row =>
    if row.envelopeHash ≠ envelopeHash then (.error (hashConflict scopeId replayKey), rows)
    else
      match readRow codec row with
      | .error error => (.error error, rows)
      | .ok (.ok prepared) => (.ok prepared, rows)
      | .ok (.error leaseExpiresAtMs) =>
        if now < leaseExpiresAtMs then (.ok (.busy leaseExpiresAtMs), rows)
        else
          let dueAtMs := (row.dueAtMs.map Int64.toUInt64).or dueAtMs
          (.ok (.claimed ⟨scopeId, replayKey, envelopeHash, leaseToken, dueAtMs⟩),
            rows.set (scopeId, replayKey)
              { row with
                leaseOwnerId := some inner.ownerId, leaseToken := some leaseToken
                leaseExpiresAtMs := (saturatingAdd later inner.leaseTtlMs).toInt64
                dueAtMs := dueAtMs.map UInt64.toInt64 })

/-- The transaction runs as a whole, or the database fails and nothing of it happens. -/
def write {α : Type} (failure : Option String) (rows : Rows)
    (body : Rows → Except RuntimeEffectControllerError α × Rows) :
    Except RuntimeEffectControllerError α × Rows :=
  match failure with
  | some error => (.error (effectSqliteError error), rows)
  | none => body rows

def prepareEffect (codec : Codec Outcome) (inner : SqliteEffectReplayInner) (scopeId : String)
    (envelope : RuntimeEffectEnvelope) (now later : UInt64) (failure : Option String)
    (rows : Rows) : Except RuntimeEffectControllerError (PreparedEffect Outcome) ×
      SqliteEffectReplayInner × Rows :=
  match envelope.replayKey, envelope.stableHash with
  | none, _ => (.error replayKeyMissing, inner, rows)
  | some _, .error error => (.error error, inner, rows)
  | some replayKey, .ok envelopeHash =>
    let (leaseToken, inner') := inner.nextLeaseToken
    let (prepared, rows') := write failure rows
      (prepareRow codec inner leaseToken scopeId replayKey envelopeHash envelope now later)
    (prepared, inner', rows')

/-- The lease of the claim is the row's, and has not run out. -/
def Row.heldBy (row : Row) (inner : SqliteEffectReplayInner) (claim : ClaimedEffect)
    (now : UInt64) : Bool :=
  row.envelopeHash == claim.envelopeHash && row.leaseOwnerId == some inner.ownerId &&
    row.leaseToken == some claim.leaseToken && row.status == statusInProgress &&
    now.toInt64 < row.leaseExpiresAtMs

/-- An update of the row that a claim holds. -/
def updateHeld (inner : SqliteEffectReplayInner) (claim : ClaimedEffect) (now : UInt64)
    (doing : String) (update : Row → Row) (rows : Rows) :
    Except RuntimeEffectControllerError Unit × Rows :=
  match rows (claim.scopeId, claim.replayKey) with
  | none => (.error (leaseLost doing claim.scopeId claim.replayKey), rows)
  | some row =>
    if row.heldBy inner claim now then
      (.ok (), rows.set (claim.scopeId, claim.replayKey) (update row))
    else (.error (leaseLost doing claim.scopeId claim.replayKey), rows)

/-- The columns a result is recorded in. -/
def encodeResult (codec : Codec Outcome) :
    EffectResult Outcome → EffectResult (String × Option String × Option String)
  | .ok outcome =>
    match codec.outcomeToString outcome with
    | .ok json => .ok (statusCompleted, some json, none)
    | .error error => .error (effectEncodeError error)
  | .error error =>
    match codec.errorToString error with
    | .ok json => .ok (statusFailed, none, some json)
    | .error error => .error (effectEncodeError error)

def finalizeEffect (codec : Codec Outcome) (inner : SqliteEffectReplayInner)
    (claim : ClaimedEffect) (result : EffectResult Outcome) (now : UInt64)
    (failure : Option String) (rows : Rows) : Except RuntimeEffectControllerError Unit × Rows :=
  match encodeResult codec result with
  | .error error => (.error error, rows)
  | .ok (status, outcomeJson, errorJson) =>
    write failure rows (updateHeld inner claim now "before finalizing" fun row =>
      { row with
        status := status, outcomeJson := outcomeJson, errorJson := errorJson
        leaseOwnerId := none, leaseToken := none, leaseExpiresAtMs := 0 })

def renewEffectLease (inner : SqliteEffectReplayInner) (claim : ClaimedEffect) (now : UInt64)
    (failure : Option String) (rows : Rows) : Except RuntimeEffectControllerError Unit × Rows :=
  write failure rows (updateHeld inner claim now "while executing" fun row =>
    { row with leaseExpiresAtMs := (saturatingAdd now inner.leaseTtlMs).toInt64 })

/-! ## Calls of `execute_effect` -/

inductive Phase (Outcome : Type) where
  | preparing
  | executing (claim : ClaimedEffect)
  | finalizing (claim : ClaimedEffect) (result : EffectResult Outcome)
  | replaying (outcome : Outcome)
  | ended

structure Call (Outcome : Type) where
  inner : Nat
  scopeId : String
  envelope : RuntimeEffectEnvelope
  phase : Phase Outcome

/-- The database, the controllers that share it and their calls. -/
structure World (Outcome : Type) where
  rows : Rows
  inners : Nat → SqliteEffectReplayInner
  calls : Nat → Option (Call Outcome)

namespace World

def initial (inners : Nat → SqliteEffectReplayInner) : World Outcome :=
  ⟨fun _ => none, inners, fun _ => none⟩

def setInner (world : World Outcome) (index : Nat) (inner : SqliteEffectReplayInner) :
    World Outcome :=
  { world with inners := fun i => if i = index then inner else world.inners i }

def setCall (world : World Outcome) (id : Nat) (call : Call Outcome) : World Outcome :=
  { world with calls := fun i => if i = id then some call else world.calls i }

def setPhase (world : World Outcome) (id : Nat) (call : Call Outcome) (phase : Phase Outcome) :
    World Outcome :=
  world.setCall id { call with phase := phase }

end World

inductive Input (Outcome : Type) where
  | startReplay (inner : Nat)
  | call (id inner : Nat) (scopeId : String) (envelope : RuntimeEffectEnvelope)
  | prepare (id : Nat) (now later : UInt64) (failure : Option String)
  | renew (id : Nat) (now : UInt64) (failure : Option String)
  | executed (id : Nat) (result : EffectResult Outcome)
  | finalize (id : Nat) (now : UInt64) (failure : Option String)
  | wake (id : Nat)
  | crash (id : Nat)

inductive Output (Outcome : Type) where
  | nothing
  | returned (result : EffectResult Outcome)

/-- One step of a call. A call that is not where the step begins is left alone. -/
def step (codec : Codec Outcome) (input : Input Outcome) (world : World Outcome) :
    Output Outcome × World Outcome :=
  match input with
  | .startReplay index =>
    (.nothing, world.setInner index { world.inners index with replayMode := true })
  | .call id inner scopeId envelope =>
    match world.calls id with
    | some _ => (.nothing, world)
    | none => (.nothing, world.setCall id ⟨inner, scopeId, envelope, .preparing⟩)
  | .prepare id now later failure =>
    match world.calls id with
    | some ⟨index, scopeId, envelope, .preparing⟩ =>
      let call := ⟨index, scopeId, envelope, .preparing⟩
      let (prepared, inner, rows) := prepareEffect codec (world.inners index) scopeId envelope
        now later failure world.rows
      let world := { world with rows := rows }.setInner index inner
      match prepared with
      | .error error => (.returned (.error error), world.setPhase id call .ended)
      | .ok (.replayError error) => (.returned (.error error), world.setPhase id call .ended)
      | .ok (.replayOutcome outcome _) =>
        (.nothing, world.setPhase id call (.replaying outcome))
      | .ok (.claimed claim) => (.nothing, world.setPhase id call (.executing claim))
      | .ok (.busy _) => (.nothing, world)
    | _ => (.nothing, world)
  | .renew id now failure =>
    match world.calls id with
    | some ⟨index, scopeId, envelope, .executing claim⟩ =>
      let (renewed, rows) := renewEffectLease (world.inners index) claim now failure world.rows
      let world := { world with rows := rows }
      match renewed with
      | .ok () => (.nothing, world)
      -- the effect is dropped, and the failure to renew is what is recorded
      | .error error => (.nothing, world.setPhase id ⟨index, scopeId, envelope, .executing claim⟩
          (.finalizing claim (.error error)))
    | _ => (.nothing, world)
  | .executed id result =>
    match world.calls id with
    | some ⟨index, scopeId, envelope, .executing claim⟩ =>
      (.nothing, world.setPhase id ⟨index, scopeId, envelope, .executing claim⟩
        (.finalizing claim result))
    | _ => (.nothing, world)
  | .finalize id now failure =>
    match world.calls id with
    | some ⟨index, scopeId, envelope, .finalizing claim result⟩ =>
      let (finalized, rows) := finalizeEffect codec (world.inners index) claim result now
        failure world.rows
      let world := { world with rows := rows }.setPhase id
        ⟨index, scopeId, envelope, .finalizing claim result⟩ .ended
      match finalized with
      | .ok () => (.returned result, world)
      | .error error => (.returned (.error error), world)
    | _ => (.nothing, world)
  | .wake id =>
    match world.calls id with
    | some ⟨index, scopeId, envelope, .replaying outcome⟩ =>
      (.returned (.ok outcome),
        world.setPhase id ⟨index, scopeId, envelope, .replaying outcome⟩ .ended)
    | _ => (.nothing, world)
  | .crash id =>
    match world.calls id with
    | some call => (.nothing, world.setPhase id call .ended)
    | none => (.nothing, world)

/-! ## What is recorded -/

/-- A result that has been recorded, with the hash it is recorded for. -/
structure Record where
  envelopeHash : String
  status : String
  outcomeJson : Option String
  errorJson : Option String
deriving DecidableEq

def Row.record (row : Row) : Option Record :=
  if row.status = statusInProgress then none
  else some ⟨row.envelopeHash, row.status, row.outcomeJson, row.errorJson⟩

/-- What is recorded under a key. -/
def cells (world : World Outcome) (key : RowKey) : Option Record :=
  (world.rows key).bind Row.record

/-- The result is what the record was written from. -/
def Record.Writes (codec : Codec Outcome) (record : Record) (result : EffectResult Outcome) :
    Prop :=
  encodeResult codec result = .ok (record.status, record.outcomeJson, record.errorJson)

/-- The result is what the record reads as. -/
def Record.Reads (codec : Codec Outcome) (record : Record) : EffectResult Outcome → Prop
  | .ok outcome => record.status = statusCompleted ∧
      ∃ json, record.outcomeJson = some json ∧ codec.outcomeFromStr json = .ok outcome
  | .error error => record.status = statusFailed ∧
      ∃ json, record.errorJson = some json ∧ codec.errorFromStr json = .ok error

/-- What is written to text is read back. -/
structure Codec.RoundTrips (codec : Codec Outcome) : Prop where
  outcome : ∀ outcome json, codec.outcomeToString outcome = .ok json →
    codec.outcomeFromStr json = .ok outcome
  error : ∀ error json, codec.errorToString error = .ok json →
    codec.errorFromStr json = .ok error

/-- The log lost the lease, or could not reach, write or read the row. -/
def RuntimeEffectControllerError.ofStore (error : RuntimeEffectControllerError) : Prop :=
  error.code ∈ ["sqlite_effect_replay_lease_lost", "sqlite_effect_replay_store",
    "sqlite_effect_replay_encode", "sqlite_effect_replay_decode"]

/-! ## What a transaction does to a row -/

variable {codec : Codec Outcome} {inner : SqliteEffectReplayInner} {claim : ClaimedEffect}
variable {envelope : RuntimeEffectEnvelope} {rows : Rows} {key : RowKey} {row : Row}
variable {scopeId replayKey envelopeHash leaseToken doing : String} {now later : UInt64}
variable {failure : Option String} {result : EffectResult Outcome} {record : Record}

/-- A row is inserted in progress, moves from lease to lease, and is recorded once. -/
inductive Advances (codec : Codec Outcome) : Option Row → Option Row → Prop where
  | same (row : Option Row) : Advances codec row row
  | inserted {row : Row} (h : row.status = statusInProgress) : Advances codec none (some row)
  | leased {row row' : Row} (h : row.status = statusInProgress)
      (h' : row'.status = statusInProgress) (hash : row'.envelopeHash = row.envelopeHash) :
      Advances codec (some row) (some row')
  | recorded {row row' : Row} {result : EffectResult Outcome} (h : row.status = statusInProgress)
      (hash : row'.envelopeHash = row.envelopeHash)
      (h' : encodeResult codec result = .ok (row'.status, row'.outcomeJson, row'.errorJson)) :
      Advances codec (some row) (some row')

theorem Advances.set {row' : Row} (h : Advances codec (rows key) (some row')) (k : RowKey) :
    Advances codec (rows k) (rows.set key row' k) := by
  unfold Rows.set
  split
  · next hk => exact hk ▸ h
  · exact .same _

theorem Row.heldBy_status (h : row.heldBy inner claim now = true) :
    row.status = statusInProgress ∧ row.envelopeHash = claim.envelopeHash := by
  simp only [Row.heldBy, Bool.and_eq_true, beq_iff_eq] at h
  exact ⟨h.1.2, h.1.1.1.1⟩

/-- An update needs the row of the claim, held by it. -/
theorem updateHeld_cases (inner : SqliteEffectReplayInner) (claim : ClaimedEffect)
    (now : UInt64) (doing : String) (update : Row → Row) (rows : Rows) :
    updateHeld inner claim now doing update rows =
      (.error (leaseLost doing claim.scopeId claim.replayKey), rows) ∨
    ∃ row, rows (claim.scopeId, claim.replayKey) = some row ∧
      row.status = statusInProgress ∧ row.envelopeHash = claim.envelopeHash ∧
      updateHeld inner claim now doing update rows =
        (.ok (), rows.set (claim.scopeId, claim.replayKey) (update row)) := by
  unfold updateHeld
  cases hrow : rows (claim.scopeId, claim.replayKey) with
  | none => exact Or.inl rfl
  | some row =>
    cases hheld : row.heldBy inner claim now with
    | false => exact Or.inl (by simp only [hheld, Bool.false_eq_true, if_false])
    | true =>
      obtain ⟨hstatus, hhash⟩ := Row.heldBy_status hheld
      exact Or.inr ⟨row, rfl, hstatus, hhash, by simp only [hheld, if_true]⟩

theorem renewEffectLease_advances (codec : Codec Outcome) (inner : SqliteEffectReplayInner)
    (claim : ClaimedEffect) (now : UInt64) (failure : Option String) (rows : Rows) (key : RowKey) :
    Advances codec (rows key) ((renewEffectLease inner claim now failure rows).2 key) := by
  cases failure with
  | some error => exact .same _
  | none =>
    rw [renewEffectLease, write]
    rcases updateHeld_cases inner claim now "while executing" _ rows with
      h | ⟨row, hrow, hstatus, -, h⟩
    · rw [h]
      exact .same _
    · rw [h]
      refine Advances.set ?_ key
      rw [hrow]
      exact .leased hstatus hstatus rfl

open RuntimeEffectControllerError World

/-- Finalizing records the result under the hash of the claim, or fails with an error of the
log and leaves the rows as they are. -/
theorem finalizeEffect_cases (codec : Codec Outcome) (inner : SqliteEffectReplayInner)
    (claim : ClaimedEffect) (result : EffectResult Outcome) (now : UInt64)
    (failure : Option String) (rows : Rows) :
    (∃ error, error.ofStore ∧
      finalizeEffect codec inner claim result now failure rows = (.error error, rows)) ∨
    ∃ row row', rows (claim.scopeId, claim.replayKey) = some row ∧
      row.status = statusInProgress ∧ row.envelopeHash = claim.envelopeHash ∧
      row'.envelopeHash = claim.envelopeHash ∧
      encodeResult codec result = .ok (row'.status, row'.outcomeJson, row'.errorJson) ∧
      finalizeEffect codec inner claim result now failure rows =
        (.ok (), rows.set (claim.scopeId, claim.replayKey) row') := by
  unfold finalizeEffect
  rcases hencode : encodeResult codec result with error | ⟨status, outcomeJson, errorJson⟩
  · refine Or.inl ⟨error, ?_, rfl⟩
    cases result with
    | ok outcome | error err =>
      simp only [encodeResult] at hencode
      split at hencode
      · cases hencode
      · cases hencode
        simp [ofStore, effectEncodeError]
  · cases failure with
    | some error =>
      exact Or.inl ⟨_, by simp [ofStore, effectSqliteError], rfl⟩
    | none =>
      simp only [write]
      rcases updateHeld_cases inner claim now "before finalizing" _ rows with
        h | ⟨row, hrow, hstatus, hhash, h⟩
      · exact Or.inl ⟨_, by simp [ofStore, leaseLost], h⟩
      · exact Or.inr ⟨row, { row with
          status := status, outcomeJson := outcomeJson, errorJson := errorJson
          leaseOwnerId := none, leaseToken := none, leaseExpiresAtMs := 0 },
          hrow, hstatus, hhash, hhash, rfl, h⟩

theorem finalizeEffect_advances (codec : Codec Outcome) (inner : SqliteEffectReplayInner)
    (claim : ClaimedEffect) (result : EffectResult Outcome) (now : UInt64)
    (failure : Option String) (rows : Rows) (key : RowKey) :
    Advances codec (rows key)
      ((finalizeEffect codec inner claim result now failure rows).2 key) := by
  rcases finalizeEffect_cases codec inner claim result now failure rows with
    ⟨error, -, h⟩ | ⟨row, row', hrow, hstatus, hhash, hhash', hencode, h⟩
  · rw [h]
    exact .same _
  · rw [h]
    refine Advances.set ?_ key
    rw [hrow]
    exact .recorded hstatus (hhash'.trans hhash.symm) hencode

/-- The columns of a row in progress may hold anything. Those of another were encoded from a
result. -/
def Row.Sound (codec : Codec Outcome) (row : Row) : Prop :=
  row.status = statusInProgress ∨ ∃ result : EffectResult Outcome,
    encodeResult codec result = .ok (row.status, row.outcomeJson, row.errorJson)

theorem encodeResult_status {status : String} {outcomeJson errorJson : Option String}
    (h : encodeResult codec result = .ok (status, outcomeJson, errorJson)) :
    (∃ outcome json, result = .ok outcome ∧ codec.outcomeToString outcome = .ok json ∧
      status = statusCompleted ∧ outcomeJson = some json) ∨
    ∃ error json, result = .error error ∧ codec.errorToString error = .ok json ∧
      status = statusFailed ∧ errorJson = some json := by
  cases result with
  | ok outcome =>
    simp only [encodeResult] at h
    split at h
    · next json hjson =>
        cases h
        exact Or.inl ⟨outcome, json, rfl, hjson, rfl, rfl⟩
    · cases h
  | error error =>
    simp only [encodeResult] at h
    split at h
    · next json hjson =>
        cases h
        exact Or.inr ⟨error, json, rfl, hjson, rfl, rfl⟩
    · cases h

theorem Row.record_of_not_inProgress (row : Row) (h : row.status ≠ statusInProgress) :
    row.record = some ⟨row.envelopeHash, row.status, row.outcomeJson, row.errorJson⟩ := by
  rw [Row.record, if_neg h]

theorem Row.record_hash (h : row.record = some record) :
    record.envelopeHash = row.envelopeHash := by
  rw [Row.record] at h
  split at h
  · cases h
  · cases h
    rfl

/-- What a call with the same hash finds in a row: a result it reads, an error of the log, or
a lease. -/
theorem readRow_cases (hsound : row.Sound codec) :
    (∃ leaseExpiresAtMs, readRow codec row = .ok (.error leaseExpiresAtMs) ∧
      row.status = statusInProgress) ∨
    (∃ error, readRow codec row = .error error ∧ error.ofStore) ∨
    ∃ record, row.record = some record ∧ record.envelopeHash = row.envelopeHash ∧
      ((∃ outcome dueAtMs, readRow codec row = .ok (.ok (.replayOutcome outcome dueAtMs)) ∧
          record.Reads codec (.ok outcome)) ∨
        ∃ error, readRow codec row = .ok (.ok (.replayError error)) ∧
          record.Reads codec (.error error)) := by
  rcases hsound with hstatus | ⟨result, hencode⟩
  · refine Or.inl ⟨row.leaseExpiresAtMs.toUInt64, ?_, hstatus⟩
    rw [readRow, hstatus, if_neg (by decide), if_neg (by decide), if_pos rfl]
  · rcases encodeResult_status hencode with
      ⟨outcome, json, -, -, hstatus, hjson⟩ | ⟨error, json, -, -, hstatus, hjson⟩
    · have hread : readRow codec row = match codec.outcomeFromStr json with
          | .ok outcome => .ok (.ok (.replayOutcome outcome (row.dueAtMs.map Int64.toUInt64)))
          | .error error => .error (effectDecodeError error) := by
        rw [readRow, if_pos hstatus, hjson]
      have hrecord := row.record_of_not_inProgress (by rw [hstatus]; decide)
      cases hparse : codec.outcomeFromStr json with
      | error error =>
        rw [hparse] at hread
        exact Or.inr (Or.inl ⟨_, hread, by simp [ofStore, effectDecodeError]⟩)
      | ok outcome =>
        rw [hparse] at hread
        exact Or.inr (Or.inr ⟨_, hrecord, rfl, .inl ⟨outcome, _, hread, hstatus, json, hjson,
          hparse⟩⟩)
    · have hread : readRow codec row = match codec.errorFromStr json with
          | .ok error => .ok (.ok (.replayError error))
          | .error error => .error (effectDecodeError error) := by
        rw [readRow, hstatus, if_neg (by decide), if_pos rfl, hjson]
      have hrecord := row.record_of_not_inProgress (by rw [hstatus]; decide)
      cases hparse : codec.errorFromStr json with
      | error error =>
        rw [hparse] at hread
        exact Or.inr (Or.inl ⟨_, hread, by simp [ofStore, effectDecodeError]⟩)
      | ok error =>
        rw [hparse] at hread
        exact Or.inr (Or.inr ⟨_, hrecord, rfl, .inr ⟨error, hread, hstatus, json, hjson, hparse⟩⟩)

/-- What the transaction of `prepare_effect` finds and does. -/
inductive PrepareCase (codec : Codec Outcome) (inner : SqliteEffectReplayInner) (rows : Rows)
    (scopeId replayKey envelopeHash : String) :
    Except RuntimeEffectControllerError (PreparedEffect Outcome) → Rows → Prop where
  | missing (hrow : rows (scopeId, replayKey) = none) (hmode : inner.replayMode = true) :
      PrepareCase codec inner rows scopeId replayKey envelopeHash
        (.error (replayMissing scopeId replayKey)) rows
  | conflict {row : Row} (hrow : rows (scopeId, replayKey) = some row)
      (hhash : row.envelopeHash ≠ envelopeHash) :
      PrepareCase codec inner rows scopeId replayKey envelopeHash
        (.error (hashConflict scopeId replayKey)) rows
  | failed {error : RuntimeEffectControllerError} (h : error.ofStore) :
      PrepareCase codec inner rows scopeId replayKey envelopeHash (.error error) rows
  | outcome {row : Row} {record : Record} {outcome : Outcome} {dueAtMs : Option UInt64}
      (hrow : rows (scopeId, replayKey) = some row) (hrecord : row.record = some record)
      (hhash : record.envelopeHash = envelopeHash) (hreads : record.Reads codec (.ok outcome)) :
      PrepareCase codec inner rows scopeId replayKey envelopeHash
        (.ok (.replayOutcome outcome dueAtMs)) rows
  | error {row : Row} {record : Record} {error : RuntimeEffectControllerError}
      (hrow : rows (scopeId, replayKey) = some row) (hrecord : row.record = some record)
      (hhash : record.envelopeHash = envelopeHash) (hreads : record.Reads codec (.error error)) :
      PrepareCase codec inner rows scopeId replayKey envelopeHash (.ok (.replayError error)) rows
  | busy (retryAtMs : UInt64) :
      PrepareCase codec inner rows scopeId replayKey envelopeHash (.ok (.busy retryAtMs)) rows
  | claimed {claim : ClaimedEffect} {row : Row}
      (hclaim : claim.scopeId = scopeId ∧ claim.replayKey = replayKey ∧
        claim.envelopeHash = envelopeHash)
      (hstep : Advances codec (rows (scopeId, replayKey)) (some row))
      (hstrict : rows (scopeId, replayKey) = none → inner.replayMode = false) :
      PrepareCase codec inner rows scopeId replayKey envelopeHash (.ok (.claimed claim))
        (rows.set (scopeId, replayKey) row)

theorem prepareRow_cases (codec : Codec Outcome) (inner : SqliteEffectReplayInner)
    (leaseToken envelopeHash : String) (envelope : RuntimeEffectEnvelope) (now later : UInt64)
    (hsound : ∀ row, rows (scopeId, replayKey) = some row → row.Sound codec) :
    PrepareCase codec inner rows scopeId replayKey envelopeHash
      (prepareRow codec inner leaseToken scopeId replayKey envelopeHash envelope now later rows).1
      (prepareRow codec inner leaseToken scopeId replayKey envelopeHash envelope now later
        rows).2 := by
  unfold prepareRow
  cases hrow : rows (scopeId, replayKey) with
  | none =>
    cases hmode : inner.replayMode with
    | true => exact .missing hrow hmode
    | false =>
      refine .claimed ⟨rfl, rfl, rfl⟩ ?_ fun _ => hmode
      rw [hrow]
      exact .inserted rfl
  | some row =>
    by_cases hhash : row.envelopeHash = envelopeHash
    · simp only [ne_eq, hhash, not_true_eq_false, if_false]
      rcases readRow_cases (hsound row hrow) with
        ⟨expiry, hread, hstatus⟩ | ⟨error, hread, hstore⟩ | ⟨record, hrecord, hsame, h⟩
      · simp only [hread]
        split
        · exact .busy _
        · refine .claimed ⟨rfl, rfl, rfl⟩ ?_ fun hnone => ?_
          · rw [hrow]
            exact .leased hstatus hstatus hhash.symm
          · rw [hrow] at hnone
            cases hnone
      · simp only [hread]
        exact .failed hstore
      · rcases h with ⟨outcome, dueAtMs, hread, hreads⟩ | ⟨error, hread, hreads⟩
        · simp only [hread]
          exact .outcome hrow hrecord (hsame.trans hhash) hreads
        · simp only [hread]
          exact .error hrow hrecord (hsame.trans hhash) hreads
    · simp only [ne_eq, hhash, not_false_eq_true, if_true]
      exact .conflict hrow hhash

/-! ## One step -/

variable {world : World Outcome} {input : Input Outcome} {call : Call Outcome} {id : Nat}

/-- The row a call is about and the hash it must have. -/
def Call.About (call : Call Outcome) (key : RowKey) (envelopeHash : String) : Prop :=
  call.scopeId = key.1 ∧ call.envelope.replayKey = some key.2 ∧
    call.envelope.stableHash = .ok envelopeHash

/-- A claim is for the row of its call, and a result about to be replayed is recorded there. -/
def Call.Sound (codec : Codec Outcome) (rows : Rows) (call : Call Outcome) : Prop :=
  match call.phase with
  | .executing claim | .finalizing claim _ =>
    call.About (claim.scopeId, claim.replayKey) claim.envelopeHash
  | .replaying outcome => ∃ key envelopeHash record, call.About key envelopeHash ∧
      (rows key).bind Row.record = some record ∧ record.envelopeHash = envelopeHash ∧
        record.Reads codec (.ok outcome)
  | .preparing | .ended => True

structure World.Sound (codec : Codec Outcome) (world : World Outcome) : Prop where
  rows : ∀ key row, world.rows key = some row → row.Sound codec
  calls : ∀ id call, world.calls id = some call → call.Sound codec world.rows

/-- A result a call returns is the one recorded for it, once there is one, or an error of the
log. -/
def Explained (codec : Codec Outcome) (rows : Rows) (call : Call Outcome)
    (result : EffectResult Outcome) : Prop :=
  ∀ key envelopeHash record, call.About key envelopeHash →
    (rows key).bind Row.record = some record → record.envelopeHash = envelopeHash →
    record.Reads codec result ∨ record.Writes codec result ∨
      ∃ error, result = .error error ∧ error.ofStore

def Input.caller : Input Outcome → Option Nat
  | .startReplay _ => none
  | .call id .. | .prepare id .. | .renew id .. | .executed id .. | .finalize id .. | .wake id
  | .crash id => some id

/-- What one step can do. -/
inductive StepCase (codec : Codec Outcome) (input : Input Outcome) (world : World Outcome) :
    Output Outcome → World Outcome → Prop where
  | idle (inners : Nat → SqliteEffectReplayInner) :
      StepCase codec input world .nothing ⟨world.rows, inners, world.calls⟩
  | moved (inners : Nat → SqliteEffectReplayInner) {rows : Rows} {id : Nat} {call : Call Outcome}
      (hrows : ∀ key, Advances codec (world.rows key) (rows key)) (hcall : call.Sound codec rows) :
      StepCase codec input world .nothing ((World.mk rows inners world.calls).setCall id call)
  | returned (inners : Nat → SqliteEffectReplayInner) {rows : Rows} {id : Nat}
      {call : Call Outcome} {result : EffectResult Outcome} (hcaller : input.caller = some id)
      (hcall : world.calls id = some call)
      (hrows : ∀ key, Advances codec (world.rows key) (rows key))
      (hresult : Explained codec rows call result) :
      StepCase codec input world (.returned result)
        ((World.mk rows inners world.calls).setPhase id call .ended)

theorem Call.About.unique {key' : RowKey} {envelopeHash' : String}
    (h : call.About key envelopeHash) (h' : call.About key' envelopeHash') :
    key = key' ∧ envelopeHash = envelopeHash' := by
  obtain ⟨hscope, hkey, hhash⟩ := h
  obtain ⟨hscope', hkey', hhash'⟩ := h'
  rw [hkey] at hkey'
  rw [hhash] at hhash'
  exact ⟨Prod.ext (hscope.symm.trans hscope') (Option.some.inj hkey'), Except.ok.inj hhash'⟩

variable {error : RuntimeEffectControllerError}

theorem explained_of_store (h : error.ofStore) : Explained codec rows call (.error error) :=
  fun _ _ _ _ _ _ => Or.inr (Or.inr ⟨error, rfl, h⟩)

/-- A result is explained by what is recorded in the row of its call. -/
theorem explained_of_record (habout : call.About key envelopeHash)
    (hrecord : (rows key).bind Row.record = some record)
    (h : record.Reads codec result ∨ record.Writes codec result) :
    Explained codec rows call result := by
  intro key' envelopeHash' record' habout' hrecord' _
  obtain ⟨rfl, -⟩ := habout.unique habout'
  rw [hrecord] at hrecord'
  cases hrecord'
  exact h.imp_right Or.inl

section

variable {index : Nat}

theorem step_prepare (hsound : world.Sound codec)
    (hcall : world.calls id = some ⟨index, scopeId, envelope, .preparing⟩) :
    StepCase codec (.prepare id now later failure) world
      (step codec (.prepare id now later failure) world).1
      (step codec (.prepare id now later failure) world).2 := by
  simp only [step, hcall, prepareEffect]
  cases hkey : envelope.replayKey with
  | none =>
    refine .returned _ rfl hcall (fun _ => .same _) ?_
    rintro key envelopeHash record ⟨-, hnone, -⟩
    rw [hkey] at hnone
    cases hnone
  | some replayKey =>
    cases hhash : envelope.stableHash with
    | error error =>
      refine .returned _ rfl hcall (fun _ => .same _) ?_
      rintro key envelopeHash record ⟨-, -, hnone⟩
      rw [hhash] at hnone
      cases hnone
    | ok envelopeHash =>
      have habout : (⟨index, scopeId, envelope, .preparing⟩ : Call Outcome).About
          (scopeId, replayKey) envelopeHash := ⟨rfl, hkey, hhash⟩
      cases failure with
      | some error =>
        exact .returned _ rfl hcall (fun _ => .same _) (explained_of_store
          (by simp [ofStore, effectSqliteError]))
      | none =>
        have hcase := prepareRow_cases codec (world.inners index)
          (world.inners index).nextLeaseToken.1 envelopeHash envelope now later
          (hsound.rows (scopeId, replayKey))
        simp only [write]
        rcases hprepared : prepareRow codec (world.inners index)
          (world.inners index).nextLeaseToken.1 scopeId replayKey envelopeHash envelope
          now later world.rows with ⟨prepared, rows'⟩
        rw [hprepared] at hcase
        cases hcase with
        | missing hrow =>
          refine .returned _ rfl hcall (fun _ => .same _) ?_
          intro key' envelopeHash' record habout' hrecord
          obtain ⟨rfl, -⟩ := habout.unique habout'
          rw [hrow] at hrecord
          cases hrecord
        | conflict hrow hne =>
          refine .returned _ rfl hcall (fun _ => .same _) ?_
          intro key' envelopeHash' record habout' hrecord hrecordHash
          obtain ⟨rfl, rfl⟩ := habout.unique habout'
          rw [hrow] at hrecord
          exact absurd ((Row.record_hash hrecord).symm.trans hrecordHash) hne
        | failed hstore =>
          exact .returned _ rfl hcall (fun _ => .same _) (explained_of_store hstore)
        | outcome hrow hrecord hrecordHash hreads =>
          refine .moved _ (fun _ => .same _) ⟨_, _, _, habout, ?_, hrecordHash, hreads⟩
          rw [hrow]
          exact hrecord
        | error hrow hrecord hrecordHash hreads =>
          refine .returned _ rfl hcall (fun _ => .same _)
            (explained_of_record habout ?_ (.inl hreads))
          rw [hrow]
          exact hrecord
        | busy retryAtMs => exact .idle _
        | claimed hclaim hstep =>
          obtain ⟨rfl, rfl, rfl⟩ := hclaim
          exact .moved _ hstep.set habout

theorem step_renew (hsound : world.Sound codec)
    (hcall : world.calls id = some ⟨index, scopeId, envelope, .executing claim⟩) :
    StepCase codec (.renew id now failure) world (step codec (.renew id now failure) world).1
      (step codec (.renew id now failure) world).2 := by
  simp only [step, hcall]
  have hclaim := hsound.calls id _ hcall
  have hrows := renewEffectLease_advances codec (world.inners index) claim now failure
    world.rows
  rcases hrenewed : renewEffectLease (world.inners index) claim now failure world.rows with
    ⟨error | ⟨⟩, rows'⟩
  all_goals rw [hrenewed] at hrows
  · exact .moved _ hrows hclaim
  · -- the call itself stays where it was
    have hsame : World.mk rows' world.inners world.calls =
        (World.mk rows' world.inners world.calls).setCall id
          ⟨index, scopeId, envelope, .executing claim⟩ := by
      rw [setCall]
      congr 1
      funext i
      split
      · next h => rw [h, hcall]
      · rfl
    show StepCase codec _ world _ (World.mk rows' world.inners world.calls)
    rw [hsame]
    exact .moved _ hrows hclaim

theorem step_finalize (hsound : world.Sound codec)
    (hcall : world.calls id = some ⟨index, scopeId, envelope, .finalizing claim result⟩) :
    StepCase codec (.finalize id now failure) world (step codec (.finalize id now failure) world).1
      (step codec (.finalize id now failure) world).2 := by
  simp only [step, hcall]
  have habout : Call.About ⟨index, scopeId, envelope, .finalizing claim result⟩
      (claim.scopeId, claim.replayKey) claim.envelopeHash := hsound.calls id _ hcall
  have hrows := finalizeEffect_advances codec (world.inners index) claim result now failure
    world.rows
  rcases finalizeEffect_cases codec (world.inners index) claim result now failure world.rows with
    ⟨error, hstore, h⟩ | ⟨row, row', hrow, hstatus, hhash, hhash', hencode, h⟩
  · rw [h] at hrows ⊢
    exact .returned _ rfl hcall hrows (explained_of_store hstore)
  · rw [h] at hrows ⊢
    have hrecord : row'.record = some ⟨row'.envelopeHash, row'.status, row'.outcomeJson,
        row'.errorJson⟩ := by
      refine row'.record_of_not_inProgress fun hprogress => ?_
      rcases encodeResult_status hencode with ⟨_, _, -, -, hdone, -⟩ | ⟨_, _, -, -, hdone, -⟩
      · rw [hprogress] at hdone
        exact absurd hdone (by decide)
      · rw [hprogress] at hdone
        exact absurd hdone (by decide)
    have hwrites : Record.Writes codec ⟨row'.envelopeHash, row'.status, row'.outcomeJson,
        row'.errorJson⟩ result := hencode
    refine .returned _ rfl hcall hrows (explained_of_record habout ?_ (.inr hwrites))
    simp only [Rows.set, if_true, Option.bind_some]
    exact hrecord

theorem Explained.of_replaying {outcome : Outcome}
    (h : Call.Sound codec rows ⟨index, scopeId, envelope, .replaying outcome⟩) :
    Explained codec rows ⟨index, scopeId, envelope, .replaying outcome⟩ (.ok outcome) := by
  obtain ⟨key, envelopeHash, record, habout, hrecord, -, hreads⟩ := h
  exact explained_of_record habout hrecord (.inl hreads)

end

theorem step_cases (input : Input Outcome) (hsound : world.Sound codec) :
    StepCase codec input world (step codec input world).1 (step codec input world).2 := by
  cases input with
  | startReplay index => exact .idle _
  | call id inner scopeId envelope =>
    simp only [step]
    split
    · exact .idle _
    · exact .moved _ (fun _ => .same _) trivial
  | prepare id now later failure =>
    rcases hcall : world.calls id with _ | ⟨index, scopeId, envelope, phase⟩
    · simp only [step, hcall]
      exact .idle _
    · cases phase with
      | preparing => exact step_prepare hsound hcall
      | _ =>
        simp only [step, hcall]
        exact .idle _
  | renew id now failure =>
    rcases hcall : world.calls id with _ | ⟨index, scopeId, envelope, phase⟩
    · simp only [step, hcall]
      exact .idle _
    · cases phase with
      | executing claim => exact step_renew hsound hcall
      | _ =>
        simp only [step, hcall]
        exact .idle _
  | executed id result =>
    rcases hcall : world.calls id with _ | ⟨index, scopeId, envelope, phase⟩
    · simp only [step, hcall]
      exact .idle _
    · cases phase with
      | executing claim =>
        simp only [step, hcall]
        have hclaim := hsound.calls id _ hcall
        exact .moved _ (fun _ => .same _) hclaim
      | _ =>
        simp only [step, hcall]
        exact .idle _
  | finalize id now failure =>
    rcases hcall : world.calls id with _ | ⟨index, scopeId, envelope, phase⟩
    · simp only [step, hcall]
      exact .idle _
    · cases phase with
      | finalizing claim result => exact step_finalize hsound hcall
      | _ =>
        simp only [step, hcall]
        exact .idle _
  | wake id =>
    rcases hcall : world.calls id with _ | ⟨index, scopeId, envelope, phase⟩
    · simp only [step, hcall]
      exact .idle _
    · cases phase with
      | replaying outcome =>
        simp only [step, hcall]
        exact .returned _ rfl hcall (fun _ => .same _)
          (Explained.of_replaying (hsound.calls id _ hcall))
      | _ =>
        simp only [step, hcall]
        exact .idle _
  | crash id =>
    simp only [step]
    split
    · exact .moved _ (fun _ => .same _) trivial
    · exact .idle _

theorem Advances.sound {old new : Option Row} (h : Advances codec old new)
    (hold : ∀ row, old = some row → row.Sound codec) : ∀ row, new = some row → row.Sound codec := by
  cases h with
  | same => exact hold
  | inserted h =>
    rintro row ⟨⟩
    exact Or.inl h
  | leased _ h' =>
    rintro row ⟨⟩
    exact Or.inl h'
  | recorded _ _ h' =>
    rintro row ⟨⟩
    exact Or.inr ⟨_, h'⟩

/-- A record stays as it is. -/
theorem Advances.keeps {old new : Option Row} (h : Advances codec old new)
    (hrecord : old.bind Row.record = some record) : new.bind Row.record = some record := by
  cases h with
  | same => exact hrecord
  | inserted => cases hrecord
  | leased h | recorded h => simp [Row.record, h] at hrecord

theorem Call.Sound.stays {rows' : Rows} (h : call.Sound codec rows)
    (hrows : ∀ key, Advances codec (rows key) (rows' key)) : call.Sound codec rows' := by
  obtain ⟨index, scopeId, envelope, phase⟩ := call
  cases phase with
  | replaying outcome =>
    obtain ⟨key, envelopeHash, record, habout, hrecord, hhash, hreads⟩ := h
    exact ⟨key, envelopeHash, record, habout, (hrows key).keeps hrecord, hhash, hreads⟩
  | _ => exact h

variable {output : Output Outcome} {world' : World Outcome}

theorem StepCase.advances (h : StepCase codec input world output world') (key : RowKey) :
    Advances codec (world.rows key) (world'.rows key) := by
  cases h with
  | idle => exact .same _
  | moved _ hrows | returned _ _ _ hrows => exact hrows key

theorem StepCase.sound (h : StepCase codec input world output world') (hsound : world.Sound codec) :
    world'.Sound codec := by
  refine ⟨fun key row hrow => (h.advances key).sound (hsound.rows key) row hrow, ?_⟩
  intro i call hcall
  cases h with
  | idle => exact hsound.calls i call hcall
  | @moved _ rows id new hrows hnew =>
    by_cases hi : i = id
    · simp only [setCall, if_pos hi, Option.some.injEq] at hcall
      exact hcall ▸ hnew
    · simp only [setCall, if_neg hi] at hcall
      exact (hsound.calls i call hcall).stays hrows
  | @returned _ rows id old result _ _ hrows _ =>
    by_cases hi : i = id
    · simp only [setPhase, setCall, if_pos hi, Option.some.injEq] at hcall
      rw [← hcall]
      trivial
    · simp only [setPhase, setCall, if_neg hi] at hcall
      exact (hsound.calls i call hcall).stays hrows

/-! ## Runs -/

abbrev Step (Outcome : Type) := Entry (Input Outcome) (World Outcome) (Output Outcome)

variable {inners : Nat → SqliteEffectReplayInner} {history : List (Step Outcome)}

variable (e : Step Outcome)

/-- The step has the call return the result. -/
def Returns (call : Call Outcome) (result : EffectResult Outcome) : Prop :=
  ∃ id, e.input.caller = some id ∧ e.before.calls id = some call ∧ e.output = .returned result

/-- The step is the transaction in which the call looks at its row. -/
def Prepares (id : Nat) (call : Call Outcome) (failure : Option String) : Prop :=
  (∃ now later, e.input = .prepare id now later failure) ∧ e.before.calls id = some call ∧
    call.phase = .preparing

/-- The step ends the call with this error, and changes no row. -/
def Refuses (id : Nat) (call : Call Outcome) (error : RuntimeEffectControllerError) : Prop :=
  e.output = .returned (.error error) ∧ e.after.rows = e.before.rows ∧
    e.after.calls id = some { call with phase := .ended }

/-- What a call is told that would be told this error, if the database does not fail. -/
def RuntimeEffectControllerError.orFailure (error : RuntimeEffectControllerError) :
    Option String → RuntimeEffectControllerError
  | none => error
  | some text => effectSqliteError text

theorem reachable_sound (reached : Reachable (step codec) (.initial inners) world) :
    world.Sound codec := by
  refine reached.invariant (P := World.Sound codec) ⟨?_, ?_⟩ fun s i hs => ?_
  · intro key row h
    cases h
  · intro id call h
    cases h
  · exact (step_cases i hs).sound hs

theorem cells_kept (hsound : world.Sound codec) (input : Input Outcome) :
    Keeps (cells world) (cells (step codec input world).2) :=
  fun key _ hrecord => ((step_cases input hsound).advances key).keeps hrecord

theorem Record.reads_of_writes (codec : Codec Outcome) (roundTrips : codec.RoundTrips)
    (h : record.Writes codec result) : record.Reads codec result := by
  rcases encodeResult_status h with
    ⟨outcome, json, rfl, hjson, hstatus, hcolumn⟩ | ⟨error, json, rfl, hjson, hstatus, hcolumn⟩
  · exact ⟨hstatus, json, hcolumn, roundTrips.outcome outcome json hjson⟩
  · exact ⟨hstatus, json, hcolumn, roundTrips.error error json hjson⟩

theorem Returns.explained {e : Step Outcome} (h : Returns e call result)
    (he : e = entryAt (step codec) e.input e.before) (hsound : e.before.Sound codec) :
    Explained codec e.after.rows call result := by
  obtain ⟨id, hcaller, hcall, houtput⟩ := h
  rw [he] at houtput ⊢
  simp only [entryAt] at houtput ⊢
  have hcase := step_cases e.input hsound
  rcases hstep : step codec e.input e.before with ⟨output, world'⟩
  rw [hstep] at hcase houtput
  cases houtput
  cases hcase with
  | returned _ hcaller' hcall' _ hresult =>
    rw [hcaller] at hcaller'
    cases hcaller'
    rw [hcall] at hcall'
    cases hcall'
    exact hresult

/-- A transaction that finds its row missing or of another hash ends the call, or fails. -/
theorem Prepares.refuses {e : Step Outcome} (h : Prepares e id call failure)
    (he : e = entryAt (step codec) e.input e.before) (habout : call.About key envelopeHash)
    (hrow : ∀ leaseToken now later, prepareRow codec (e.before.inners call.inner) leaseToken key.1
      key.2 envelopeHash call.envelope now later e.before.rows = (.error error, e.before.rows)) :
    Refuses e id call (error.orFailure failure) := by
  obtain ⟨⟨now, later, hinput⟩, hcall, hphase⟩ := h
  obtain ⟨hscope, hkey, hhash⟩ := habout
  obtain ⟨index, scopeId, envelope, phase⟩ := call
  cases hphase
  cases hscope
  rw [Refuses, he, hinput]
  simp only at hkey hhash hrow
  cases failure with
  | none =>
    simp [orFailure, entryAt, step, hcall, prepareEffect, hkey,
      hhash, write, hrow, setPhase, setCall, setInner]
  | some text =>
    simp [orFailure, entryAt, step, hcall, prepareEffect, hkey,
      hhash, write, setPhase, setCall, setInner]

theorem prepareRow_conflict (hrow : rows key = some row) (hhash : row.envelopeHash ≠ envelopeHash)
    (leaseToken : String) (now later : UInt64) :
    prepareRow codec inner leaseToken key.1 key.2 envelopeHash envelope now later rows =
      (.error (hashConflict key.1 key.2), rows) := by
  simp only [prepareRow, Prod.eta, hrow, ne_eq, hhash, not_false_eq_true, if_true]

theorem prepareRow_missing (hrow : rows key = none) (hmode : inner.replayMode = true)
    (leaseToken : String) (now later : UInt64) :
    prepareRow codec inner leaseToken key.1 key.2 envelopeHash envelope now later rows =
      (.error (replayMissing key.1 key.2), rows) := by
  simp only [prepareRow, Prod.eta, hrow, hmode, if_true]

/-- In every run at most one result is recorded under a key, it stays, and a call of the same
hash that returns once it is there returns it or an error of the log. A call of another hash,
or one in strict replay that finds no row, is refused. -/
theorem effect_recorded_once (run : Run (step codec) (.initial inners) history world) :
    (∀ d e key record record', Precedes history d e → Fills cells d key record →
      ¬ Fills cells e key record') ∧
    (∀ newer e older key record, history = newer ++ e :: older →
      cells e.after key = some record → cells world key = some record) ∧
    (∀ e ∈ history, ∀ call result key envelopeHash record, Returns e call result →
      call.About key envelopeHash → cells e.after key = some record →
      record.envelopeHash = envelopeHash → (record.Reads codec result ∨ record.Writes codec result ∨
        ∃ error, result = .error error ∧ error.ofStore) ∧
      (codec.RoundTrips → record.Reads codec result ∨
        ∃ error, result = .error error ∧ error.ofStore)) ∧
    (∀ e ∈ history, ∀ id call failure key envelopeHash row, Prepares e id call failure →
      call.About key envelopeHash → e.before.rows key = some row → row.envelopeHash ≠ envelopeHash →
      Refuses e id call ((hashConflict key.1 key.2).orFailure failure)) ∧
    ∀ e ∈ history, ∀ id call failure key envelopeHash, Prepares e id call failure →
      call.About key envelopeHash → (e.before.inners call.inner).replayMode = true →
      e.before.rows key = none →
      Refuses e id call ((replayMissing key.1 key.2).orFailure failure) := by
  have kept : ∀ s i, Reachable (step codec) (.initial inners) s →
      Keeps (cells s) (cells (step codec i s).2) :=
    fun s i reached => cells_kept (reachable_sound reached) i
  refine ⟨?_, fun newer e older key record shape h => stays kept run shape h, ?_, ?_, ?_⟩
  · rintro d e key record record' ⟨newer, older, shape, hd⟩ hfills
    exact filled_once kept run shape hd hfills
  · intro e he call result key envelopeHash record hreturns habout hrecord hhash
    obtain ⟨reached, hentry⟩ := run.entry he
    have hcases := hreturns.explained hentry (reachable_sound reached) key envelopeHash record
      habout hrecord hhash
    refine ⟨hcases, fun roundTrips => ?_⟩
    rcases hcases with hreads | hwrites | hstore
    · exact Or.inl hreads
    · exact Or.inl (Record.reads_of_writes codec roundTrips hwrites)
    · exact Or.inr hstore
  · intro e he id call failure key envelopeHash row hprepares habout hrow hhash
    exact hprepares.refuses (run.entry he).2 habout (prepareRow_conflict hrow hhash)
  · intro e he id call failure key envelopeHash hprepares habout hmode hrow
    exact hprepares.refuses (run.entry he).2 habout (prepareRow_missing hrow hmode)

/-! ## A lease that is lost -/

def exampleCodec : Codec String where
  outcomeToString := .ok
  outcomeFromStr := .ok
  errorToString error := .ok (error.code ++ ": " ++ error.message)
  errorFromStr _ := .error "unsupported"

def exampleInners : Nat → SqliteEffectReplayInner
  | 0 => ⟨"a", 1, false, 10⟩
  | _ => ⟨"b", 1, false, 10⟩

def exampleEnvelope : RuntimeEffectEnvelope := ⟨some "key", .ok "hash", none⟩

/-- The first controller executes for longer than its lease, and the second takes over. -/
def exampleInputs : List (Input String) :=
  [.call 0 0 "turn" exampleEnvelope, .call 1 1 "turn" exampleEnvelope, .prepare 0 0 0 none,
    .prepare 1 20 20 none, .executed 0 (.ok "first"), .executed 1 (.ok "second"),
    .finalize 1 21 none, .finalize 0 22 none]

def exampleRun : List (Step String) × World String :=
  perform (step exampleCodec) exampleInputs ([], .initial exampleInners)

def exampleRecord : Record := ⟨"hash", statusCompleted, some "second", none⟩

theorem exampleRun_run :
    Run (step exampleCodec) (.initial exampleInners) exampleRun.1 exampleRun.2 :=
  Run.perform .nil exampleInputs

/-- The second controller's result is still recorded at the end of the run. -/
theorem effect_recorded_once_exampleRun :
    cells exampleRun.2 ("turn", "key") = some exampleRecord := by
  obtain ⟨-, hstays, -⟩ := effect_recorded_once exampleRun_run
  exact hstays [_] _ _ ("turn", "key") exampleRecord rfl (by decide)

/-- The first controller returns after the other's result is recorded, and returns another. -/
theorem stale_call_returns_another : ∃ e ∈ exampleRun.1, ∃ call result key envelopeHash record,
    Returns e call result ∧ call.About key envelopeHash ∧ cells e.after key = some record ∧
      record.envelopeHash = envelopeHash ∧ ¬ record.Reads exampleCodec result ∧
        ¬ record.Writes exampleCodec result := by
  refine ⟨_, List.mem_cons_self, _,
    .error (leaseLost "before finalizing" "turn" "key"), ("turn", "key"), "hash", exampleRecord,
    ⟨0, rfl, rfl, ?_⟩, ⟨rfl, rfl, rfl⟩, by decide, rfl, ?_, ?_⟩
  · rfl
  · rintro ⟨hstatus, -⟩
    exact absurd hstatus (by decide)
  · intro h
    exact absurd (congrArg (fun r => r.toOption.map Prod.fst) h) (by decide)

end EffectReplay
