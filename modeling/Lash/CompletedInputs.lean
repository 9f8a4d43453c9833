import Lash.SqliteSteps
import Lash.StrandedInputs

/-!
# Completing turn inputs in the two stores

The in-memory store looks each named input up and wants its claim on it; the
database counts the inputs of the claim and compares their number with the
number of names. Both should accept a commit exactly when every input it names
is under the claim that names it. Here is when they do.
-/

namespace CompletedInputs

open StoreTypes TurnInputs RuntimeCommits ClaimTables InMemoryStore StoreSteps SqliteStore
  SqliteSteps StrandedInputs List Except

variable {Json : Type} {host : SqliteHost Json} {commit : RuntimeCommit Json}
  {memory : InMemorySessionStore Json} {db : Store Json}

/-- The commit with none of its turn-input completions. -/
def withoutInputs (commit : RuntimeCommit Json) : RuntimeCommit Json :=
  { commit with completedTurnInputClaims := [] }

/-- Both stores hold the same pending inputs, and would carry out the commit if it
completed none of them. -/
structure Comparable (host : SqliteHost Json) (commit : RuntimeCommit Json)
    (memory : InMemorySessionStore Json) (db : Store Json) : Prop where
  rows : memory.pendingTurnInputs = db.pendingTurnInputs.rows
  memoryNew : commit.findReplay memory.runtimeTurnCommits = .ok none
  sqliteNew : commit.findReplay db.runtimeTurnCommits = .ok none
  memory : (memory.commitRuntimeState host.toHost (withoutInputs commit)).1.isOk = true
  sqlite : (db.commitRuntimeState host (withoutInputs commit)).1.isOk = true

variable (claims : List TurnInputCompletion)

variable (rows : List (InMemoryPendingTurnInput Json))

/-- Every input that a completion names is stamped with the completion's claim. -/
def OwnsAll : Prop :=
  ∀ c ∈ claims, ∀ id ∈ c.inputIds, ∃ row ∈ rows, row.input.inputId = id ∧
    row.claimedBy c.sessionId c.claimId c.leaseToken = true

instance (claims : List TurnInputCompletion) (rows : List (InMemoryPendingTurnInput Json)) :
    Decidable (OwnsAll claims rows) :=
  inferInstanceAs (Decidable (∀ c ∈ claims, ∀ id ∈ c.inputIds, ∃ row ∈ rows, _ ∧ _))

/-- The ids of the rows that no completion names. -/
def leftIds : List String :=
  (rows.map (·.input.inputId)).filter fun id => decide (id ∉ claims.flatMap (·.inputIds))

/-- Both stores accept the commit exactly when its completions own all they name,
and take out the named inputs and no others. -/
structure CompletionLaw (host : SqliteHost Json) (commit : RuntimeCommit Json)
    (memory : InMemorySessionStore Json) (db : Store Json) : Prop where
  memoryAccepts : (memory.commitRuntimeState host.toHost commit).1.isOk = true ↔
    OwnsAll commit.completedTurnInputClaims memory.pendingTurnInputs
  sqliteAccepts : (db.commitRuntimeState host commit).1.isOk = true ↔
    OwnsAll commit.completedTurnInputClaims db.pendingTurnInputs.rows
  memoryCompletes : (memory.commitRuntimeState host.toHost commit).1.isOk = true →
    (memory.commitRuntimeState host.toHost commit).2.pendingTurnInputs.map (·.input.inputId) =
      leftIds commit.completedTurnInputClaims memory.pendingTurnInputs
  sqliteCompletes : (db.commitRuntimeState host commit).1.isOk = true →
    (db.commitRuntimeState host commit).2.pendingTurnInputs.rows.map (·.input.inputId) =
      leftIds commit.completedTurnInputClaims db.pendingTurnInputs.rows

/-- Of the session of the commit, with as many names as its claim has inputs. -/
def WholeClaim (commit : RuntimeCommit Json) (rows : List (InMemoryPendingTurnInput Json))
    (c : TurnInputCompletion) : Prop :=
  c.sessionId = commit.sessionId ∧ ownedTurnInputRows c rows = c.inputIds.length

instance (commit : RuntimeCommit Json) (rows : List (InMemoryPendingTurnInput Json))
    (c : TurnInputCompletion) : Decidable (WholeClaim commit rows c) :=
  inferInstanceAs (Decidable (_ ∧ _))

/-- Completions that own all they name complete whole claims of the session and
name no input twice; where some do not, the numbers or the session show it. -/
def NumbersTell (commit : RuntimeCommit Json) (rows : List (InMemoryPendingTurnInput Json)) :
    Prop :=
  (OwnsAll commit.completedTurnInputClaims rows →
    (commit.completedTurnInputClaims.flatMap (·.inputIds)).Nodup ∧
      ∀ c ∈ commit.completedTurnInputClaims, WholeClaim commit rows c) ∧
  (¬ OwnsAll commit.completedTurnInputClaims rows →
    ∃ c ∈ commit.completedTurnInputClaims, ¬ WholeClaim commit rows c)

section Memory

variable {store : InMemorySessionStore Json} {h : Host}

/-- A commit that is no replay is carried out exactly when it passes the front and
all its completions settle. -/
theorem memory_ok_iff (fresh : commit.findReplay store.runtimeTurnCommits = .ok none) :
    (store.commitRuntimeState h commit).1.isOk = true ↔ PassesFront h commit store ∧
        queueScheme.Settles commit.completedQueueClaims store.queuedWork ∧
        turnInputScheme.Settles commit.completedTurnInputClaims store.pendingTurnInputs := by
  have houtcome := StoreSteps.commitRuntimeState_outcome h store commit
  generalize store.commitRuntimeState h commit = out at houtcome
  cases houtcome with
  | rejected e front => simp [Except.isOk, Except.toBool, front]
  | replayed result bound stored => simp [fresh] at stored
  | queueExpired e front fails | inputsExpired e front queue fails =>
    simp [Except.isOk, Except.toBool, fails]
  | applied front queue inputs => simp [Except.isOk, Except.toBool, front, queue, inputs]

theorem map_inputId_deferInterrupted (pending : List (InMemoryPendingTurnInput Json)) :
    (deferInterruptedTurnInputs commit pending).map (·.input.inputId) =
      pending.map (·.input.inputId) := by
  rw [deferInterruptedTurnInputs]
  split
  · rfl
  · rw [map_map]
    refine map_congr_left fun row _ => ?_
    simp only [Function.comp_apply, InMemoryPendingTurnInput.deferInterrupted]
    split <;> rfl

/-- A row is owned by a completion exactly when it is named, if all that is named
is owned. -/
theorem map_inputId_remaining {claims : List TurnInputCompletion}
    {rows : List (InMemoryPendingTurnInput Json)}
    (distinct : (rows.map (·.input.inputId)).Nodup) (owned : OwnsAll claims rows) :
    (turnInputScheme.remaining claims rows).map (·.input.inputId) = leftIds claims rows := by
  rw [leftIds, filter_map, ClaimScheme.remaining]
  congr 1
  refine filter_congr fun row hrow => ?_
  rw [Bool.eq_iff_iff, all_eq_true]
  simp only [Function.comp_apply, decide_eq_true_eq, Bool.not_eq_true', mem_flatMap,
    not_exists, not_and]
  constructor
  · intro hfree c hc hnamed
    obtain ⟨other, hother, hid, hheld⟩ := owned c hc _ hnamed
    have hrow' : other = row := inj_on_of_nodup_map distinct hother hrow hid
    have howns : turnInputScheme.owns c row = true :=
      ClaimScheme.owns_iff.mpr ⟨hrow' ▸ hheld, hnamed⟩
    rw [hfree c hc] at howns
    exact absurd howns (by simp)
  · intro hfree c hc
    rw [Bool.eq_false_iff]
    intro howns
    exact hfree c hc (ClaimScheme.owns_iff.mp howns).2

theorem memory_completes (fresh : commit.findReplay store.runtimeTurnCommits = .ok none)
    (ok : (store.commitRuntimeState h commit).1.isOk = true) :
    (store.commitRuntimeState h commit).2.pendingTurnInputs.map (·.input.inputId) =
      (turnInputScheme.remaining commit.completedTurnInputClaims store.pendingTurnInputs).map
        (·.input.inputId) := by
  have houtcome := StoreSteps.commitRuntimeState_outcome h store commit
  generalize store.commitRuntimeState h commit = out at houtcome ok
  cases houtcome with
  | rejected e front | queueExpired e front fails | inputsExpired e front queue fails =>
    simp [Except.isOk, Except.toBool] at ok
  | replayed result bound stored => simp [fresh] at stored
  | applied front queue inputs =>
    rw [StoreSteps.releaseAfterCommit_eq]
    exact map_inputId_deferInterrupted _

end Memory

section Sqlite

theorem firstError_ok_iff {C : Type} {check : C → Except StoreError Unit} {claims : List C} :
    firstError check claims = .ok () ↔ ∀ c ∈ claims, check c = .ok () := by
  induction claims with
  | nil => simp [firstError]
  | cons c claims ih =>
    rw [firstError, forall_mem_cons]
    cases hc : check c with
    | error e => simp
    | ok _ => simpa using ih

theorem ensureTurnInputCompletion_ok_iff {rows : List (InMemoryPendingTurnInput Json)}
    {c : TurnInputCompletion} :
    ensureTurnInputCompletion commit.sessionId rows c = .ok () ↔ WholeClaim commit rows c := by
  rw [ensureTurnInputCompletion, ensureTurnInputCompletionOwnsAllInputs, WholeClaim]
  split
  · rename_i hother
    simp [hother]
  · rename_i hsame
    rw [not_not] at hsame
    split
    · rename_i hcount
      simp [hcount]
    · rename_i hcount
      rw [not_not] at hcount
      simp [hsame, hcount]

theorem sqlite_ok_iff (fresh : commit.findReplay db.runtimeTurnCommits = .ok none) :
    (db.commitRuntimeState host commit).1.isOk = true ↔
      Accepts host commit db ∧ (writeGraph commit.graph db.graphNodes).isSome = true := by
  have houtcome := SqliteSteps.commitRuntimeState_outcome host db commit
  generalize db.commitRuntimeState host commit = out at houtcome
  cases houtcome with
  | rejected e fails => simpa [Except.isOk, Except.toBool] using fails
  | replayed result bound stored => simp [fresh] at stored
  | applied graphNodes accepts written => simp [Except.isOk, Except.toBool, accepts, written]

theorem map_inputId_deleteCompletedInputs (claims : List TurnInputCompletion)
    (table : TurnInputTable Json) :
    (deleteCompletedInputs claims table).rows.map (·.input.inputId) =
      (turnInputScheme.remaining claims table.rows).map (·.input.inputId) := by
  congr 1
  refine filter_congr fun row _ => ?_
  rw [not_any_eq_all_not]

theorem map_inputId_update (table : TurnInputTable Json) :
    (table.update (interruptedRow commit) deferredRow fun _ => rfl).rows.map (·.input.inputId) =
      table.rows.map (·.input.inputId) := by
  simp only [KeyedTable.update, map_map]
  refine map_congr_left fun row _ => ?_
  simp only [Function.comp_apply]
  split <;> rfl

theorem sqlite_completes (fresh : commit.findReplay db.runtimeTurnCommits = .ok none)
    (ok : (db.commitRuntimeState host commit).1.isOk = true) :
    (db.commitRuntimeState host commit).2.pendingTurnInputs.rows.map (·.input.inputId) =
      (turnInputScheme.remaining commit.completedTurnInputClaims db.pendingTurnInputs.rows).map
        (·.input.inputId) := by
  have houtcome := SqliteSteps.commitRuntimeState_outcome host db commit
  generalize db.commitRuntimeState host commit = out at houtcome ok
  cases houtcome with
  | rejected e fails => simp [Except.isOk, Except.toBool] at ok
  | replayed result bound stored => simp [fresh] at stored
  | applied graphNodes accepts written =>
    rw [SqliteSteps.releaseAfterCommit_eq]
    refine (map_inputId_update _).trans ?_
    exact map_inputId_deleteCompletedInputs _ _

end Sqlite

section Comparison

/-- The in-memory store accepts completions that own all they name and name no
input twice. -/
theorem Comparable.memory_accepts (same : Comparable host commit memory db) :
    (memory.commitRuntimeState host.toHost commit).1.isOk = true ↔
      (commit.completedTurnInputClaims.flatMap (·.inputIds)).Nodup ∧
        OwnsAll commit.completedTurnInputClaims memory.pendingTurnInputs := by
  have hnew : (withoutInputs commit).findReplay memory.runtimeTurnCommits = .ok none :=
    same.memoryNew
  have hwithout := (memory_ok_iff hnew).mp same.memory
  have hdistinct : (memory.pendingTurnInputs.map turnInputScheme.key).Nodup := by
    rw [same.rows]
    exact db.pendingTurnInputs.distinct
  rw [memory_ok_iff same.memoryNew, ClaimScheme.settles_iff hdistinct]
  constructor
  · rintro ⟨-, -, hsettles⟩
    exact hsettles
  · intro hsettles
    exact ⟨hwithout.1, hwithout.2.1, hsettles⟩

/-- The database accepts completions of whole claims, by their numbers. -/
theorem Comparable.sqlite_accepts (same : Comparable host commit memory db) :
    (db.commitRuntimeState host commit).1.isOk = true ↔
      ∀ c ∈ commit.completedTurnInputClaims, WholeClaim commit db.pendingTurnInputs.rows c := by
  have hnew : (withoutInputs commit).findReplay db.runtimeTurnCommits = .ok none := same.sqliteNew
  obtain ⟨haccepts, hgraph⟩ := (sqlite_ok_iff hnew).mp same.sqlite
  rw [sqlite_ok_iff same.sqliteNew]
  constructor
  · rintro ⟨haccepts', -⟩ c hc
    exact ensureTurnInputCompletion_ok_iff.mp (firstError_ok_iff.mp haccepts'.inputs c hc)
  · intro hwhole
    refine ⟨⟨haccepts.binding, same.sqliteNew, haccepts.lease, haccepts.revision,
      haccepts.queue, ?_⟩, hgraph⟩
    exact firstError_ok_iff.mpr fun c hc => ensureTurnInputCompletion_ok_iff.mpr (hwhole c hc)

/-- The two stores accept the same commits and complete the same inputs, exactly
those that are named, if and only if the numbers tell. -/
theorem completion_law_iff (same : Comparable host commit memory db) :
    CompletionLaw host commit memory db ↔ NumbersTell commit db.pendingTurnInputs.rows := by
  have hmemory := same.memory_accepts
  have hsqlite := same.sqlite_accepts
  rw [same.rows] at hmemory
  constructor
  · intro law
    have hmemoryLaw := law.memoryAccepts
    rw [same.rows, hmemory] at hmemoryLaw
    have hsqliteLaw := law.sqliteAccepts
    rw [hsqlite] at hsqliteLaw
    refine ⟨fun howned => ⟨(hmemoryLaw.mpr howned).1, hsqliteLaw.mpr howned⟩, fun hnot => ?_⟩
    have hfails := mt hsqliteLaw.mp hnot
    push Not at hfails
    exact hfails
  · rintro ⟨howned, hforeign⟩
    have howns : (db.commitRuntimeState host commit).1.isOk = true →
        OwnsAll commit.completedTurnInputClaims db.pendingTurnInputs.rows := by
      intro hok
      by_contra hnot
      obtain ⟨c, hc, hpart⟩ := hforeign hnot
      exact hpart (hsqlite.mp hok c hc)
    have hleft := fun h : OwnsAll commit.completedTurnInputClaims db.pendingTurnInputs.rows =>
      map_inputId_remaining db.pendingTurnInputs.distinct h
    refine ⟨?_, ⟨howns, fun h => hsqlite.mpr (howned h).2⟩, fun hok => ?_, fun hok => ?_⟩
    · rw [same.rows, hmemory]
      exact ⟨And.right, fun h => ⟨(howned h).1, h⟩⟩
    · rw [memory_completes same.memoryNew hok, same.rows]
      exact hleft (hmemory.mp hok).2
    · rw [sqlite_completes same.sqliteNew hok]
      exact hleft (howns hok)

end Comparison

section Example

/-- A database with the lease and the claimed input of the in-memory store. -/
def acceptedDatabase : Store Unit :=
  { Store.new with
    sessionExecutionLeases := acceptedStore.sessionExecutionLeases
    pendingTurnInputs := ⟨acceptedStore.pendingTurnInputs, by decide⟩ }

variable (inputIds : List String)

/-- The worker's claim on the input, as a completion that names these inputs. -/
def completionNaming : TurnInputCompletion where
  sessionId := "s"
  claimId := turnInputClaimId 1 1
  leaseToken := claimLeaseToken "s" worker (turnInputClaimId 1 1) 2
  inputIds := inputIds

def commitCompleting : RuntimeCommit Unit :=
  { RuntimeCommit.bare "s" workerFence with
    completedTurnInputClaims := [completionNaming inputIds] }

theorem comparable_commitCompleting :
    Comparable (.quiet 3) (commitCompleting inputIds) acceptedStore acceptedDatabase where
  rows := rfl
  memoryNew := rfl
  sqliteNew := rfl
  memory := by
    have h : (acceptedStore.commitRuntimeState (.quiet 3)
        (RuntimeCommit.bare "s" workerFence)).1.isOk = true := by decide
    exact h
  sqlite := by
    have h : (acceptedDatabase.commitRuntimeState (.quiet 3)
        (RuntimeCommit.bare "s" workerFence)).1.isOk = true := by decide
    exact h

/-- The completion of the claimed input. -/
theorem completion_law_claimed_input :
    CompletionLaw (.quiet 3) (commitCompleting ["input"]) acceptedStore acceptedDatabase := by
  have howned : OwnsAll [completionNaming ["input"]] acceptedDatabase.pendingTurnInputs.rows := by
    decide
  refine (completion_law_iff (comparable_commitCompleting ["input"])).mpr ⟨fun _ => ?_, ?_⟩
  · decide
  · intro hnot
    exact absurd howned hnot

/-- A completion that names another input in the place of the claimed one is
accepted by the database, which completes nothing, and refused in memory. -/
theorem foreign_input_accepted :
    Comparable (.quiet 3) (commitCompleting ["other"]) acceptedStore acceptedDatabase ∧
      ¬ OwnsAll [completionNaming ["other"]] acceptedDatabase.pendingTurnInputs.rows ∧
      (acceptedStore.commitRuntimeState (.quiet 3)
        (commitCompleting ["other"])).1.isOk = false ∧
      (acceptedDatabase.commitRuntimeState (.quiet 3)
        (commitCompleting ["other"])).1.isOk = true ∧
      (acceptedDatabase.commitRuntimeState (.quiet 3)
        (commitCompleting ["other"])).2.pendingTurnInputs.rows.map (·.input.inputId) =
          ["input"] := by
  refine ⟨comparable_commitCompleting ["other"], ?_, ?_, ?_, ?_⟩
  all_goals decide

end Example

end CompletedInputs
