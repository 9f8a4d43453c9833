import Lash.CommitLogs
import Lash.SqliteSteps

/-!
# Replayed commits

Both stores look a stamped commit up in the turn-commit ledger before they check
anything but the session binding. Seen from outside they are commit stores: the
head revision and the ledger form a commit log, which every call follows. The
law of replays is proved for commit stores and then holds of both.
-/

namespace CommitReplay

open StoreTypes RuntimeCommits InMemoryStore Runs CommitLogs
open RuntimeCommit InMemorySessionStore StoreSteps

/-- A store as it appears to those who commit to it. -/
structure CommitStore (Call S Json : Type) where
  step : Call → S → Reply Json × S
  start : S
  commitOf : Call → Option (RuntimeCommit Json)
  head : S → Option (SessionHeadMeta Json)
  ledger : S → TurnCommitLedger Json
  leases : S → String → Option InMemorySessionExecutionLease
  setLease : S → String → InMemorySessionExecutionLease → S

variable {Call S Json : Type} {C : CommitStore Call S Json}

def commitOfOp : Op Json → Option (RuntimeCommit Json)
  | .commitRuntimeState commit => some commit
  | _ => none

def inMemory (Json : Type) : CommitStore (Host × Op Json) (InMemorySessionStore Json) Json where
  step := InMemoryStore.step
  start := .new
  commitOf call := commitOfOp call.2
  head := InMemorySessionStore.sessionHeadMeta
  ledger := InMemorySessionStore.runtimeTurnCommits
  leases := InMemorySessionStore.sessionExecutionLeases
  setLease := InMemorySessionStore.setLease

def sqlite (Json : Type) :
    CommitStore (SqliteStore.SqliteHost Json × Op Json) (SqliteStore.Store Json) Json where
  step := SqliteStore.step
  start := .new
  commitOf call := commitOfOp call.2
  head := SqliteStore.Store.sessionHead
  ledger := SqliteStore.Store.runtimeTurnCommits
  leases := SqliteStore.Store.sessionExecutionLeases
  setLease := SqliteStore.Store.setLease

def CommitStore.revision (C : CommitStore Call S Json) (s : S) : Nat :=
  headRevisionOf (C.head s)

/-- The call committed this for the first time: it was accepted, and not because
the ledger already knew it. -/
def CommitStore.Applied (C : CommitStore Call S Json) (e : Entry Call S (Reply Json))
    (commit : RuntimeCommit Json) (result : RuntimeCommitResult Json) : Prop :=
  C.commitOf e.input = some commit ∧ e.output = .commit (.ok result) ∧
    commit.findReplay (C.ledger e.before) = .ok none

/-- Nothing changed, or only the lease row that the commit gives back. -/
def CommitStore.OnlyReleases (C : CommitStore Call S Json) (commit : RuntimeCommit Json)
    (s after : S) : Prop :=
  after = s ∨ ∃ completion row, commit.releaseSessionExecutionLease = some completion ∧
    C.leases s completion.sessionId = some row ∧ row.carries completion = true ∧
    after = C.setLease s completion.sessionId row.released

/-- A commit whose stamp names the turn of a commit that was applied earlier in
the history. -/
structure CommitStore.Retry (C : CommitStore Call S Json)
    (history : List (Entry Call S (Reply Json))) (call : Call) where
  first : Entry Call S (Reply Json)
  commit : RuntimeCommit Json
  result : RuntimeCommitResult Json
  stamp : RuntimeTurnCommitStamp
  retry : RuntimeCommit Json
  again : RuntimeTurnCommitStamp
  earlier : first ∈ history
  applied : C.Applied first commit result
  stamped : commit.turnCommit = some stamp
  called : C.commitOf call = some retry
  restamped : retry.turnCommit = some again
  sameTurn : again.key = stamp.key

/-- What commits promise to those who repeat them, after any history. -/
structure CommitStore.ReplayLaw (C : CommitStore Call S Json) : Prop where
  replayed : ∀ history s call, Run C.step C.start history s → ∀ r : C.Retry history call,
    r.retry.sessionId = r.commit.sessionId →
    r.again.turnCommitHash = r.stamp.turnCommitHash →
    (C.step call s).1 = .commit (.ok r.result) ∧ C.OnlyReleases r.retry s (C.step call s).2
  conflicting : ∀ history s call, Run C.step C.start history s → ∀ r : C.Retry history call,
    r.retry.sessionId = r.commit.sessionId →
    r.again.turnCommitHash ≠ r.stamp.turnCommitHash →
    C.step call s = (.commit (.error r.again.conflict), s)
  foreign : ∀ history s call, Run C.step C.start history s → ∀ r : C.Retry history call,
    r.retry.sessionId ≠ r.commit.sessionId →
    ∃ e, C.step call s = (.commit (.error e), s)
  once : ∀ history s, Run C.step C.start history s → ∀ newer e older e',
    history = newer ++ e :: older → e' ∈ older →
    ∀ commit result stamp commit' result' stamp', C.Applied e commit result →
    commit.turnCommit = some stamp → C.Applied e' commit' result' →
    commit'.turnCommit = some stamp' → stamp.key ≠ stamp'.key
  counted : ∀ call s commit result, C.Applied (entryAt C.step call s) commit result →
    C.revision (C.step call s).2 = C.revision s + 1
  uncounted : ∀ call s,
    (∀ commit result, ¬ C.Applied (entryAt C.step call s) commit result) →
    C.revision (C.step call s).2 = C.revision s

open CommitStore

section Lawful

/-- How a commit that the ledger does not know ends: with an error, or by
raising the revision and recording its turn. -/
def CommitStore.Decides (C : CommitStore Call S Json) (commit : RuntimeCommit Json) (s : S)
    (out : Reply Json × S) : Prop :=
  (∃ e, out.1 = .commit (.error e) ∧ C.head out.2 = C.head s ∧ C.ledger out.2 = C.ledger s) ∨
  ∃ result head, out.1 = .commit (.ok result) ∧ C.head out.2 = some head ∧
    head.sessionId = commit.sessionId ∧ head.headRevision = C.revision s + 1 ∧
    C.ledger out.2 = commit.recordTurn result (C.ledger s)

/-- What a store has to satisfy, one call at a time. -/
structure CommitStore.Lawful (C : CommitStore Call S Json) : Prop where
  empty : ∀ key, C.ledger C.start key = none
  other : ∀ call s, C.commitOf call = none →
    C.head (C.step call s).2 = C.head s ∧ C.ledger (C.step call s).2 = C.ledger s
  unbound : ∀ call s commit e, C.commitOf call = some commit →
    commit.checkBinding (C.head s) = .error e → C.step call s = (.commit (.error e), s)
  refused : ∀ call s commit e, C.commitOf call = some commit →
    commit.checkBinding (C.head s) = .ok () → commit.findReplay (C.ledger s) = .error e →
    C.step call s = (.commit (.error e), s)
  known : ∀ call s commit result, C.commitOf call = some commit →
    commit.checkBinding (C.head s) = .ok () →
    commit.findReplay (C.ledger s) = .ok (some result) →
    (C.step call s).1 = .commit (.ok result) ∧ C.OnlyReleases commit s (C.step call s).2 ∧
      C.head (C.step call s).2 = C.head s ∧ C.ledger (C.step call s).2 = C.ledger s
  fresh : ∀ call s commit, C.commitOf call = some commit →
    commit.checkBinding (C.head s) = .ok () → commit.findReplay (C.ledger s) = .ok none →
    C.Decides commit s (C.step call s)

def CommitStore.log (C : CommitStore Call S Json) (s : S) :
    Log (String × String) (String × RuntimeCommitResult Json) where
  count := C.revision s
  recorded := C.ledger s

/-- What the call commits to the log. -/
def CommitStore.committed (C : CommitStore Call S Json) (e : Entry Call S (Reply Json)) :
    Option (Option ((String × String) × (String × RuntimeCommitResult Json))) :=
  match C.commitOf e.input, e.output with
  | some commit, .commit (.ok result) =>
    match commit.findReplay (C.ledger e.before) with
    | .ok none =>
      some (commit.turnCommit.map fun stamp => (stamp.key, stamp.turnCommitHash, result))
    | _ => none
  | _, _ => none

variable {commit : RuntimeCommit Json} {e : Entry Call S (Reply Json)}

theorem CommitStore.Applied.committed {result : RuntimeCommitResult Json}
    (applied : C.Applied e commit result) :
    C.committed e =
      some (commit.turnCommit.map fun stamp => (stamp.key, stamp.turnCommitHash, result)) := by
  obtain ⟨hcommit, hout, hreplay⟩ := applied
  rw [CommitStore.committed, hcommit, hout]
  simp only [hreplay]

theorem CommitStore.applied_of_committed (h : (C.committed e).isSome) :
    ∃ commit result, C.Applied e commit result := by
  rw [committed] at h
  split at h
  · rename_i commit result hcommit hout
    split at h
    · rename_i hreplay
      exact ⟨commit, result, hcommit, hout, hreplay⟩
    · simp at h
  · simp at h

variable {stamp : RuntimeTurnCommitStamp} {ledger : TurnCommitLedger Json}

theorem findReplay_session {found : Option (RuntimeCommitResult Json)}
    (stamped : commit.turnCommit = some stamp) (h : commit.findReplay ledger = .ok found) :
    stamp.sessionId = commit.sessionId := by
  by_contra hne
  simp [findReplay, stamped, hne] at h

theorem findReplay_free (stamped : commit.turnCommit = some stamp)
    (h : commit.findReplay ledger = .ok none) : ledger stamp.key = none := by
  have hsession := findReplay_session stamped h
  cases hrow : ledger stamp.key with
  | none => rfl
  | some row =>
    obtain ⟨storedHash, result⟩ := row
    simp only [findReplay, stamped, hsession, ne_eq, not_true_eq_false,
      if_false, hrow] at h
    split at h
    · simp at h
    · simp at h

theorem checkBinding_ok {head : SessionHeadMeta Json}
    (h : commit.checkBinding (some head) = .ok ()) :
    head.sessionId = commit.sessionId := by
  by_contra hne
  simp [checkBinding, hne] at h

variable {s : S}

/-- A commit that the ledger does not know keeps to the commit log. -/
theorem CommitStore.Decides.commits {call : Call} (called : C.commitOf call = some commit)
    (unknown : commit.findReplay (C.ledger s) = .ok none)
    (decides : C.Decides commit s (C.step call s)) :
    Commits (C.log s) (C.committed (entryAt C.step call s)) (C.log (C.step call s).2) := by
  rcases decides with ⟨e, hout, hhead, hledger⟩ | ⟨result, head, hout, hhead, _, hrev, hledger⟩
  · have hnone : C.committed (entryAt C.step call s) = none := by
      simp [committed, entryAt, called, hout]
    have hsame : C.log (C.step call s).2 = C.log s := by
      simp [CommitStore.log, revision, hhead, hledger]
    rw [hnone, hsame]
    exact .idle
  · have happlied : C.Applied (entryAt C.step call s) commit result := ⟨called, hout, unknown⟩
    have hcount : C.revision (C.step call s).2 = C.revision s + 1 := by
      rw [revision, hhead]
      exact hrev
    rw [happlied.committed]
    cases hstamp : commit.turnCommit with
    | none =>
      have hlog : C.log (C.step call s).2 =
          { C.log s with count := (C.log s).count + 1 } := by
        simp [CommitStore.log, hcount, hledger, recordTurn, hstamp]
      rw [hlog]
      exact .unkeyed
    | some stamp =>
      have hlog : C.log (C.step call s).2 =
          { count := (C.log s).count + 1
            recorded := Function.update (C.log s).recorded stamp.key
              (some (stamp.turnCommitHash, result)) } := by
        simp [CommitStore.log, hcount, hledger, recordTurn, hstamp]
      rw [hlog]
      exact .keyed _ _ (findReplay_free hstamp unknown)

theorem CommitStore.Lawful.follows (lawful : C.Lawful) :
    Follows C.step C.log C.committed := by
  intro call s
  have hidle : C.head (C.step call s).2 = C.head s → C.ledger (C.step call s).2 = C.ledger s →
      C.committed (entryAt C.step call s) = none →
      Commits (C.log s) (C.committed (entryAt C.step call s)) (C.log (C.step call s).2) := by
    intro hhead hledger hnone
    have hsame : C.log (C.step call s).2 = C.log s := by
      simp [CommitStore.log, revision, hhead, hledger]
    rw [hnone, hsame]
    exact .idle
  cases hcommit : C.commitOf call with
  | none =>
    obtain ⟨hhead, hledger⟩ := lawful.other call s hcommit
    exact hidle hhead hledger (by simp [committed, entryAt, hcommit])
  | some commit =>
    cases hbind : commit.checkBinding (C.head s) with
    | error e =>
      have hstep := lawful.unbound call s commit e hcommit hbind
      exact hidle (by rw [hstep]) (by rw [hstep])
        (by simp [committed, entryAt, hcommit, hstep])
    | ok _ =>
      cases hreplay : commit.findReplay (C.ledger s) with
      | error e =>
        have hstep := lawful.refused call s commit e hcommit hbind hreplay
        exact hidle (by rw [hstep]) (by rw [hstep])
          (by simp [committed, entryAt, hcommit, hstep])
      | ok found =>
        cases found with
        | some result =>
          obtain ⟨hout, _, hhead, hledger⟩ :=
            lawful.known call s commit result hcommit hbind hreplay
          exact hidle hhead hledger
            (by simp [committed, entryAt, hcommit, hout, hreplay])
        | none =>
          exact (lawful.fresh call s commit hcommit hbind hreplay).commits hcommit hreplay

/-- Every recorded turn belongs to the session that the head is bound to. -/
def CommitStore.Bound (C : CommitStore Call S Json) (s : S) : Prop :=
  ∀ key row, C.ledger s key = some row → ∃ head, C.head s = some head ∧ head.sessionId = key.1

theorem CommitStore.Decides.bound {out : Reply Json × S}
    (binding : commit.checkBinding (C.head s) = .ok ())
    (unknown : commit.findReplay (C.ledger s) = .ok none) (decides : C.Decides commit s out)
    (bound : C.Bound s) : C.Bound out.2 := by
  intro key row hrow
  rcases decides with ⟨e, _, hhead, hledger⟩ | ⟨result, head, _, hhead, hsession, _, hledger⟩
  · rw [hledger] at hrow
    rw [hhead]
    exact bound key row hrow
  · refine ⟨head, hhead, ?_⟩
    rw [hledger] at hrow
    have hold : C.ledger s key = some row → head.sessionId = key.1 := by
      intro hstored
      obtain ⟨old, hsome, hkey⟩ := bound key row hstored
      rw [hsome] at binding
      rw [hsession, ← checkBinding_ok binding, hkey]
    cases hstamp : commit.turnCommit with
    | none => exact hold (by simpa [recordTurn, hstamp] using hrow)
    | some stamp =>
      by_cases hkey : key = stamp.key
      · rw [hkey, hsession]
        exact (findReplay_session hstamp unknown).symm
      · exact hold (by simpa [recordTurn, hstamp, hkey] using hrow)

theorem CommitStore.Lawful.bound_step (lawful : C.Lawful) (s : S) (call : Call)
    (bound : C.Bound s) : C.Bound (C.step call s).2 := by
  have hkeep : C.head (C.step call s).2 = C.head s → C.ledger (C.step call s).2 = C.ledger s →
      C.Bound (C.step call s).2 := by
    intro hhead hledger key row hrow
    rw [hledger] at hrow
    rw [hhead]
    exact bound key row hrow
  cases hcommit : C.commitOf call with
  | none =>
    obtain ⟨hhead, hledger⟩ := lawful.other call s hcommit
    exact hkeep hhead hledger
  | some commit =>
    cases hbind : commit.checkBinding (C.head s) with
    | error e =>
      have hstep := lawful.unbound call s commit e hcommit hbind
      exact hkeep (by rw [hstep]) (by rw [hstep])
    | ok _ =>
      cases hreplay : commit.findReplay (C.ledger s) with
      | error e =>
        have hstep := lawful.refused call s commit e hcommit hbind hreplay
        exact hkeep (by rw [hstep]) (by rw [hstep])
      | ok found =>
        cases found with
        | some result =>
          obtain ⟨_, _, hhead, hledger⟩ :=
            lawful.known call s commit result hcommit hbind hreplay
          exact hkeep hhead hledger
        | none =>
          exact (lawful.fresh call s commit hcommit hbind hreplay).bound hbind hreplay
            bound

theorem CommitStore.Lawful.bound (lawful : C.Lawful) (reached : Reachable C.step C.start s) :
    C.Bound s := by
  refine reached.invariant ?_ lawful.bound_step
  intro key row hrow
  simp [lawful.empty key] at hrow

/-- What the earlier commit of a retried turn has recorded is in the ledger, and
the head is bound to its session. -/
theorem CommitStore.Lawful.recorded (lawful : C.Lawful) {history : List (Entry Call S (Reply Json))}
    {call : Call} (run : Run C.step C.start history s) (r : C.Retry history call) :
    C.ledger s r.stamp.key = some (r.stamp.turnCommitHash, r.result) ∧
      r.stamp.sessionId = r.commit.sessionId ∧
      ∃ head, C.head s = some head ∧ head.sessionId = r.commit.sessionId := by
  have hwhat := r.applied.committed
  rw [r.stamped, Option.map_some] at hwhat
  have hstored : C.ledger s r.stamp.key = some (r.stamp.turnCommitHash, r.result) :=
    lawful.follows.recorded run r.earlier hwhat
  have hsession := findReplay_session r.stamped r.applied.2.2
  refine ⟨hstored, hsession, ?_⟩
  obtain ⟨head, hhead, hkey⟩ := lawful.bound run.reachable _ _ hstored
  refine ⟨head, hhead, ?_⟩
  rw [hkey, ← hsession]
  rfl

/-- What a retry under the same session meets: its binding holds, and the ledger has the hash and
the result of the earlier commit. -/
theorem CommitStore.Lawful.meets (lawful : C.Lawful) {history : List (Entry Call S (Reply Json))}
    {call : Call} (run : Run C.step C.start history s) (r : C.Retry history call)
    (hsame : r.retry.sessionId = r.commit.sessionId) :
    r.retry.checkBinding (C.head s) = .ok () ∧ r.retry.findReplay (C.ledger s) =
      if r.again.turnCommitHash = r.stamp.turnCommitHash then .ok (some r.result)
      else .error r.again.conflict := by
  obtain ⟨hstored, hsession, head, hhead, hbound⟩ := lawful.recorded run r
  have hkeys : r.again.sessionId = r.stamp.sessionId := congrArg Prod.fst r.sameTurn
  refine ⟨by simp [checkBinding, hhead, hbound, hsame], ?_⟩
  simp [findReplay, r.restamped, hkeys, hsession, hsame, r.sameTurn, hstored, eq_comm]

/-- A store that is lawful call by call keeps the law of replays. -/
theorem CommitStore.Lawful.replayLaw (lawful : C.Lawful) : C.ReplayLaw where
  replayed := by
    intro history s call run r hsame hhash
    obtain ⟨hbind, hfound⟩ := lawful.meets run r hsame
    rw [if_pos hhash] at hfound
    obtain ⟨hout, honly, _⟩ := lawful.known call s r.retry r.result r.called hbind hfound
    exact ⟨hout, honly⟩
  conflicting := by
    intro history s call run r hsame hhash
    obtain ⟨hbind, hfound⟩ := lawful.meets run r hsame
    rw [if_neg hhash] at hfound
    exact lawful.refused call s r.retry _ r.called hbind hfound
  foreign := by
    intro history s call run r hother
    obtain ⟨_, _, head, hhead, hbound⟩ := lawful.recorded run r
    have hbind : r.retry.checkBinding (C.head s) =
        .error (.sessionBindingMismatch head.sessionId r.retry.sessionId) := by
      simp [checkBinding, hhead, hbound, Ne.symm hother]
    exact ⟨_, lawful.unbound call s r.retry _ r.called hbind⟩
  once := by
    intro history s run newer e older e' shape he' commit result stamp commit' result' stamp'
      happlied hstamp happlied' hstamp' hkeys
    have hwhat := happlied.committed
    have hwhat' := happlied'.committed
    rw [hstamp, Option.map_some] at hwhat
    rw [hstamp', Option.map_some, ← hkeys] at hwhat'
    exact lawful.follows.once run shape he' hwhat hwhat'
  counted := by
    intro call s commit result happlied
    have hcount := (lawful.follows call s).count_eq
    rw [happlied.committed, if_pos (by simp)] at hcount
    exact hcount
  uncounted := by
    intro call s hnone
    have hcount := (lawful.follows call s).count_eq
    have hnot : ¬ (C.committed (entryAt C.step call s)).isSome := by
      intro hsome
      obtain ⟨commit, result, happlied⟩ := applied_of_committed hsome
      exact hnone commit result happlied
    rw [if_neg hnot] at hcount
    exact hcount

end Lawful

section InMemory

theorem commitOfOp_eq_some {op : Op Json} {commit : RuntimeCommit Json}
    (h : commitOfOp op = some commit) : op = .commitRuntimeState commit := by
  cases op with
  | commitRuntimeState _ =>
    obtain rfl := Option.some.inj h
    rfl
  | _ => simp [commitOfOp] at h

theorem areaOf_of_commitOfOp {op : Op Json} (h : commitOfOp op = none) :
    areaOf op ≠ .commits := by
  intro harea
  obtain ⟨commit, rfl⟩ := areaOf_eq_commits harea
  simp [commitOfOp] at h

theorem inMemory_onlyReleases (commit : RuntimeCommit Json) (store : InMemorySessionStore Json) :
    (inMemory Json).OnlyReleases commit store (store.releaseAfterCommit commit) := by
  rw [releaseAfterCommit]
  cases hrelease : commit.releaseSessionExecutionLease with
  | none => exact Or.inl rfl
  | some completion =>
    dsimp only
    rw [releaseSessionExecutionLeaseInMemory]
    cases hrow : store.sessionExecutionLeases completion.sessionId with
    | none => exact Or.inl rfl
    | some row =>
      by_cases hcarries : row.carries completion = true
      · simp only [hcarries, if_true]
        exact Or.inr ⟨completion, row, hrelease, hrow, hcarries, rfl⟩
      · simp only [hcarries]
        exact Or.inl rfl

theorem inMemory_writeCommit_head (commit : RuntimeCommit Json)
    (queued : List (InMemoryQueuedBatch Json)) (pending : List (InMemoryPendingTurnInput Json))
    (store : InMemorySessionStore Json) :
    ∃ head, (store.writeCommit commit queued pending).sessionHeadMeta = some head ∧
      head.sessionId = commit.sessionId ∧ head.headRevision = store.headRevision + 1 :=
  ⟨_, rfl, rfl, rfl⟩

theorem inMemory_decides (host : Host) (commit : RuntimeCommit Json)
    (store : InMemorySessionStore Json)
    (unknown : commit.findReplay store.runtimeTurnCommits = .ok none) :
    (inMemory Json).Decides commit store
      (InMemoryStore.step (host, .commitRuntimeState commit) store) := by
  have houtcome := commitRuntimeState_outcome host store commit
  simp only [InMemoryStore.step]
  generalize store.commitRuntimeState host commit = out at houtcome
  cases houtcome with
  | rejected e front | queueExpired e front fails | inputsExpired e front queue fails =>
    exact Or.inl ⟨e, rfl, rfl, rfl⟩
  | replayed result bound stored => simp [unknown] at stored
  | applied front queue inputs =>
    obtain ⟨head, hhead, hsession, hrev⟩ := inMemory_writeCommit_head commit
      (queueScheme.remaining commit.completedQueueClaims store.queuedWork)
      (turnInputScheme.remaining commit.completedTurnInputClaims store.pendingTurnInputs) store
    refine Or.inr ⟨store.commitResult commit, head, rfl, ?_, hsession, hrev, ?_⟩
    · rw [Prod.map_snd, id_eq, releaseAfterCommit_eq]
      exact hhead
    · rw [Prod.map_snd, id_eq, releaseAfterCommit_eq]
      rfl

theorem inMemory_lawful : (inMemory Json).Lawful where
  empty := fun _ => rfl
  other := fun call s h => (step_keeps (areaOf_of_commitOfOp h)).head
  unbound := by
    rintro ⟨host, op⟩ s commit e hcommit hbind
    obtain rfl := commitOfOp_eq_some hcommit
    have hbind' : commit.checkBinding s.sessionHeadMeta = .error e := hbind
    simp [inMemory, InMemoryStore.step, commitRuntimeState, hbind']
  refused := by
    rintro ⟨host, op⟩ s commit e hcommit hbind hreplay
    obtain rfl := commitOfOp_eq_some hcommit
    have hbind' : commit.checkBinding s.sessionHeadMeta = .ok () := hbind
    have hreplay' : commit.findReplay s.runtimeTurnCommits = .error e := hreplay
    simp [inMemory, InMemoryStore.step, commitRuntimeState, hbind', hreplay']
  known := by
    rintro ⟨host, op⟩ s commit result hcommit hbind hreplay
    obtain rfl := commitOfOp_eq_some hcommit
    have hbind' : commit.checkBinding s.sessionHeadMeta = .ok () := hbind
    have hreplay' : commit.findReplay s.runtimeTurnCommits = .ok (some result) := hreplay
    have hstep : (inMemory Json).step (host, .commitRuntimeState commit) s =
        (.commit (.ok result), s.releaseAfterCommit commit) := by
      simp [inMemory, InMemoryStore.step, commitRuntimeState, hbind',
        hreplay']
    refine ⟨by rw [hstep], ?_, ?_, ?_⟩
    · rw [hstep]
      exact inMemory_onlyReleases commit s
    · rw [hstep, releaseAfterCommit_eq]
      rfl
    · rw [hstep, releaseAfterCommit_eq]
      rfl
  fresh := by
    rintro ⟨host, op⟩ s commit hcommit _ hreplay
    obtain rfl := commitOfOp_eq_some hcommit
    exact inMemory_decides host commit s hreplay

end InMemory

section Sqlite

open SqliteStore

theorem sqlite_onlyReleases (commit : RuntimeCommit Json) (db : Store Json) :
    (sqlite Json).OnlyReleases commit db (db.releaseAfterCommit commit) := by
  rw [Store.releaseAfterCommit]
  cases hrelease : commit.releaseSessionExecutionLease with
  | none => exact Or.inl rfl
  | some completion =>
    dsimp only
    rw [Store.releaseSessionExecutionLeaseConn]
    cases hrow : db.sessionExecutionLeases completion.sessionId with
    | none => exact Or.inl rfl
    | some row =>
      by_cases hcarries : row.carries completion = true
      · simp only [hcarries, if_true]
        exact Or.inr ⟨completion, row, hrelease, hrow, hcarries, rfl⟩
      · simp only [hcarries]
        exact Or.inl rfl

variable (host : SqliteHost Json)

theorem sqlite_writeCommit_head (commit : RuntimeCommit Json) (graphNodes : GraphNodeTable Json)
    (db : Store Json) :
    ∃ head, (db.writeCommit host commit graphNodes).sessionHead = some head ∧
      head.sessionId = commit.sessionId ∧ head.headRevision = db.headRevision + 1 :=
  ⟨_, rfl, rfl, rfl⟩

theorem sqlite_decides (commit : RuntimeCommit Json) (db : Store Json)
    (unknown : commit.findReplay db.runtimeTurnCommits = .ok none) :
    (sqlite Json).Decides commit db
      (SqliteStore.step (host, .commitRuntimeState commit) db) := by
  have houtcome := SqliteSteps.commitRuntimeState_outcome host db commit
  simp only [SqliteStore.step]
  generalize db.commitRuntimeState host commit = out at houtcome
  cases houtcome with
  | rejected e fails => exact Or.inl ⟨e, rfl, rfl, rfl⟩
  | replayed result bound stored => simp [unknown] at stored
  | applied graphNodes accepts written =>
    obtain ⟨head, hhead, hsession, hrev⟩ :=
      sqlite_writeCommit_head host commit graphNodes db
    refine Or.inr ⟨db.commitResult host commit, head, rfl, ?_, hsession, hrev, ?_⟩
    · rw [Prod.map_snd, id_eq, SqliteSteps.releaseAfterCommit_eq]
      exact hhead
    · rw [Prod.map_snd, id_eq, SqliteSteps.releaseAfterCommit_eq]
      rfl

theorem sqlite_lawful : (sqlite Json).Lawful where
  empty := fun _ => rfl
  other := fun call s h => (SqliteSteps.step_keeps (areaOf_of_commitOfOp h)).head
  unbound := by
    rintro ⟨host, op⟩ s commit e hcommit hbind
    obtain rfl := commitOfOp_eq_some hcommit
    have hbind' : commit.checkBinding s.sessionHead = .error e := hbind
    simp [sqlite, SqliteStore.step, Store.commitRuntimeState, hbind']
  refused := by
    rintro ⟨host, op⟩ s commit e hcommit hbind hreplay
    obtain rfl := commitOfOp_eq_some hcommit
    have hbind' : commit.checkBinding s.sessionHead = .ok () := hbind
    have hreplay' : commit.findReplay s.runtimeTurnCommits = .error e := hreplay
    simp [sqlite, SqliteStore.step, Store.commitRuntimeState, hbind', hreplay']
  known := by
    rintro ⟨host, op⟩ s commit result hcommit hbind hreplay
    obtain rfl := commitOfOp_eq_some hcommit
    have hbind' : commit.checkBinding s.sessionHead = .ok () := hbind
    have hreplay' : commit.findReplay s.runtimeTurnCommits = .ok (some result) := hreplay
    have hstep : (sqlite Json).step (host, .commitRuntimeState commit) s =
        (.commit (.ok result), s.releaseAfterCommit commit) := by
      simp [sqlite, SqliteStore.step, Store.commitRuntimeState, hbind', hreplay']
    refine ⟨by rw [hstep], ?_, ?_, ?_⟩
    · rw [hstep]
      exact sqlite_onlyReleases commit s
    · rw [hstep, SqliteSteps.releaseAfterCommit_eq]
      rfl
    · rw [hstep, SqliteSteps.releaseAfterCommit_eq]
      rfl
  fresh := by
    rintro ⟨host, op⟩ s commit hcommit _ hreplay
    obtain rfl := commitOfOp_eq_some hcommit
    exact sqlite_decides host commit s hreplay

end Sqlite

/-- In both stores, after any history of calls: a commit that repeats the stamp
and the hash of an applied one answers with the first result and at most gives
its lease back; with another hash it is refused and changes nothing; no turn is
applied twice; and the head revision counts the applied commits. -/
theorem commit_replay_idempotent (Json : Type) :
    (inMemory Json).ReplayLaw ∧ (sqlite Json).ReplayLaw :=
  ⟨inMemory_lawful.replayLaw, sqlite_lawful.replayLaw⟩

/-- A turn is committed and its lease released. The same commit is sent again,
now without a lease and with a stale revision, and gets the first answer. -/
theorem commit_replay_idempotent_after_release :
    let owner := LeaseOwnerIdentity.ofOpaque "a" "a:1"
    let fence : SessionExecutionLeaseFence := ⟨"s", owner, sessionLeaseToken "s" owner 0 1, 1⟩
    let commit := { RuntimeCommit.bare "s" fence with
      expectedHeadRevision := some 0
      releaseSessionExecutionLease := some fence
      turnCommit := some ⟨"s", "turn", "hash"⟩ }
    let leased := (InMemoryStore.step (.quiet 0, .tryClaimSessionExecutionLease "s" owner 10)
      (.new : InMemorySessionStore Unit)).2
    let committed := (InMemoryStore.step (.quiet 5, .commitRuntimeState commit) leased).2
    (InMemoryStore.step (.quiet 90, .commitRuntimeState commit) committed).1 =
      .commit (.ok (leased.commitResult commit)) := by
  intro owner fence commit leased committed
  have run : Run (inMemory Unit).step (inMemory Unit).start
      [entryAt InMemoryStore.step (.quiet 5, .commitRuntimeState commit) leased,
        entryAt InMemoryStore.step (.quiet 0, .tryClaimSessionExecutionLease "s" owner 10) .new]
      committed := (Run.nil.cons _).cons _
  have haccepted : (leased.commitRuntimeState (.quiet 5) commit).1 =
      .ok (leased.commitResult commit) := by decide
  have happlied : (inMemory Unit).Applied
      (entryAt InMemoryStore.step (.quiet 5, .commitRuntimeState commit) leased) commit
      (leased.commitResult commit) :=
    ⟨rfl, congrArg Reply.commit haccepted, rfl⟩
  exact ((commit_replay_idempotent Unit).1.replayed _ _ (.quiet 90, .commitRuntimeState commit)
    run ⟨_, commit, _, _, commit, _, by simp, happlied, rfl, rfl, rfl, rfl⟩ rfl rfl).1

end CommitReplay
