import Lash.FencedRegisters
import Lash.StoreSteps

/-!
# One writer per session

The lease row of a session is a fenced register whose holder is an owner, an
incarnation and a lease token. Every call moves the register by one step, so
what is known of fenced registers carries over to whole histories of the store:
one fence at a time, tokens that grow, and fences that stay dead. Nothing is
assumed about the clock.
-/

namespace LeaseSafety

open StoreTypes RuntimeCommits InMemoryStore StoreSteps FencedRegisters Runs
open InMemorySessionStore SessionExecutionLeaseClaimOutcome InMemorySessionExecutionLease

variable {Json : Type} {store : InMemorySessionStore Json} {host : Host}

abbrev Holder := String × String × String

def holderOf (owner : LeaseOwnerIdentity) (leaseToken : String) : Holder :=
  (owner.ownerId, owner.incarnationId, leaseToken)

def rowRegister (row : InMemorySessionExecutionLease) : Register Holder where
  counter := row.fencingToken
  holder := row.leaseToken.bind fun leaseToken => row.owner.map (holderOf · leaseToken)

def leaseRegister (store : InMemorySessionStore Json) (sessionId : String) :
    Register Holder :=
  rowRegister (store.leaseEntry sessionId)

/-- The store's row for the session of the fence is held by that fence. -/
def Held (store : InMemorySessionStore Json) (fence : SessionExecutionLeaseFence) : Prop :=
  Admits (leaseRegister store fence.sessionId) fence.fencingToken
    (holderOf fence.owner fence.leaseToken)

variable {row : InMemorySessionExecutionLease} {fence : SessionExecutionLeaseFence}

theorem carries_iff : row.carries fence = true ↔
      Admits (rowRegister row) fence.fencingToken (holderOf fence.owner fence.leaseToken) := by
  obtain ⟨owner, leaseToken, fencingToken, _, _, owned⟩ := row
  cases leaseToken with
  | none => simp [carries, Admits, rowRegister]
  | some token =>
    cases owner with
    | none => simp at owned
    | some owner =>
      simp [carries, Admits, rowRegister, holderOf, LeaseOwnerIdentity.sameIncarnation]
      tauto

theorem leaseEntry_setLease (store : InMemorySessionStore Json) (sessionId other : String)
    (row : InMemorySessionExecutionLease) :
    (store.setLease sessionId row).leaseEntry other =
      if other = sessionId then row else store.leaseEntry other := by
  by_cases h : other = sessionId
  · subst h
    simp [leaseEntry, setLease]
  · simp [leaseEntry, setLease, h]

theorem leaseRegister_setLease (store : InMemorySessionStore Json)
    (sessionId other : String) (row : InMemorySessionExecutionLease) :
    leaseRegister (store.setLease sessionId row) other =
      if other = sessionId then rowRegister row else leaseRegister store other := by
  unfold leaseRegister
  rw [leaseEntry_setLease]
  split <;> rfl

variable {sessionId : String}

/-- Writing the row of one session moves every session's register if it moves
that one. -/
theorem setLease_move (moves : Move u64Max (leaseRegister store sessionId) (rowRegister row))
    (other : String) :
    Move u64Max (leaseRegister store other)
      (leaseRegister (store.setLease sessionId row) other) := by
  rw [leaseRegister_setLease]
  split
  · rename_i h
    subst h
    exact moves
  · exact .keep

theorem leaseEntry_of_row (h : store.sessionExecutionLeases sessionId = some row) :
    store.leaseEntry sessionId = row := by
  simp [leaseEntry, h]

theorem rowRegister_acquired (row : InMemorySessionExecutionLease) (sessionId : String)
    (owner : LeaseOwnerIdentity) (now leaseTtlMs : Nat) :
    rowRegister (row.acquired sessionId owner now leaseTtlMs) = (rowRegister row).take u64Max
        (holderOf owner (sessionLeaseToken sessionId owner now
          (saturatingAdd row.fencingToken 1))) := rfl

theorem rowRegister_released (row : InMemorySessionExecutionLease) :
    rowRegister row.released = (rowRegister row).drop := rfl

/-- Releasing drops the register of the fence's session if the fence holds it,
and changes nothing otherwise. -/
theorem release_cases (store : InMemorySessionStore Json)
    (completion : SessionExecutionLeaseCompletion) :
    (Held store completion ∧ ∃ row, row.released = row ∧
        store.releaseSessionExecutionLeaseInMemory completion =
          store.setLease completion.sessionId row ∧
        rowRegister row = (leaseRegister store completion.sessionId).drop) ∨
    (¬ Held store completion ∧ store.releaseSessionExecutionLeaseInMemory completion = store) := by
  unfold InMemorySessionStore.releaseSessionExecutionLeaseInMemory
  cases hrow : store.sessionExecutionLeases completion.sessionId with
  | none =>
    refine Or.inr ⟨?_, rfl⟩
    rintro ⟨-, hholder⟩
    simp [leaseRegister, leaseEntry, hrow, rowRegister,
      InMemorySessionExecutionLease.default] at hholder
  | some row =>
    have hheld : Held store completion ↔ row.carries completion = true := by
      rw [carries_iff, Held, leaseRegister, leaseEntry_of_row hrow]
    by_cases hcarries : row.carries completion = true
    · refine Or.inl ⟨hheld.mpr hcarries, row.released, rfl, ?_, ?_⟩
      · simp only [hcarries, if_true]
      · rw [rowRegister_released, leaseRegister, leaseEntry_of_row hrow]
    · refine Or.inr ⟨fun h => hcarries (hheld.mp h), ?_⟩
      simp only [hcarries, Bool.false_eq_true, if_false]

theorem release_move (completion : SessionExecutionLeaseCompletion) (sessionId : String) :
    Move u64Max (leaseRegister store sessionId)
      (leaseRegister (store.releaseSessionExecutionLeaseInMemory completion) sessionId) := by
  rcases release_cases store completion with ⟨-, row, -, hstore, hrow⟩ | ⟨-, hstore⟩
  · rw [hstore]
    refine setLease_move ?_ sessionId
    rw [hrow]
    exact .drop
  · rw [hstore]
    exact .keep

theorem releaseAfterCommit_move (store : InMemorySessionStore Json)
    (commit : RuntimeCommit Json) (sessionId : String) :
    Move u64Max (leaseRegister store sessionId)
      (leaseRegister (store.releaseAfterCommit commit) sessionId) := by
  unfold releaseAfterCommit
  split
  · exact .keep
  · exact release_move _ sessionId

theorem acquire_move (sessionId : String) (owner : LeaseOwnerIdentity) (now leaseTtlMs : Nat)
    (other : String) :
    Move u64Max (leaseRegister store other)
      (leaseRegister (store.acquireSessionExecutionLeaseInMemory sessionId owner
        (store.leaseEntry sessionId) now leaseTtlMs).2 other) := by
  refine setLease_move ?_ other
  rw [rowRegister_acquired]
  exact .take _

/-- Every call moves every lease register by at most one step. -/
theorem step_move (call : Host × Op Json) (store : InMemorySessionStore Json) (sessionId : String) :
    Move u64Max (leaseRegister store sessionId)
      (leaseRegister (step call store).2 sessionId) := by
  obtain ⟨host, op⟩ := call
  cases op with
  | commitRuntimeState commit =>
    have houtcome := commitRuntimeState_outcome host store commit
    simp only [step, Prod.map_snd, id_eq]
    generalize store.commitRuntimeState host commit = out at houtcome
    cases houtcome with
    | rejected e front | queueExpired e front fails | inputsExpired e front queue fails =>
      exact .keep
    | replayed result bound stored => exact releaseAfterCommit_move store commit sessionId
    | applied front queue inputs =>
      exact releaseAfterCommit_move (store.writeCommit commit _ _) commit sessionId
  | tryClaimSessionExecutionLease id owner leaseTtlMs =>
    simp only [step, Prod.map_snd, id_eq, tryClaimSessionExecutionLease]
    split
    · split
      · refine setLease_move ?_ sessionId
        exact .keep
      · exact .keep
    · exact acquire_move _ _ _ _ sessionId
  | reclaimSessionExecutionLease id owner observed leaseTtlMs =>
    simp only [step, Prod.map_snd, id_eq, reclaimSessionExecutionLease]
    split
    · split
      · exact acquire_move _ _ _ _ sessionId
      · exact .keep
    · exact acquire_move _ _ _ _ sessionId
  | renewSessionExecutionLease fence leaseTtlMs =>
    simp only [step, Prod.map_snd, id_eq, renewSessionExecutionLease]
    split
    · exact .keep
    · rename_i row hrow
      split
      · refine setLease_move ?_ sessionId
        rw [leaseRegister, leaseEntry_of_row hrow]
        exact .keep
      · exact .keep
  | releaseSessionExecutionLease completion => exact release_move completion sessionId
  | _ =>
    unfold leaseRegister leaseEntry
    rw [(step_keeps (by simp [areaOf])).leases (by simp [areaOf])]
    exact .keep

def Verifies (host : Host) (store : InMemorySessionStore Json) (sessionId : String)
    (fence : SessionExecutionLeaseFence) : Prop :=
  store.verifySessionExecutionLease host sessionId fence = .ok ()

theorem Verifies.held (h : Verifies host store sessionId fence) :
    fence.sessionId = sessionId ∧ Held store fence := by
  unfold Verifies verifySessionExecutionLease at h
  split at h
  · simp at h
  · rename_i hsession
    split at h
    · simp at h
    · rename_i row hrow
      split at h
      · rename_i hpass
        rw [Bool.and_eq_true, carries_iff] at hpass
        refine ⟨not_not.mp hsession, ?_⟩
        rw [Held, leaseRegister, leaseEntry_of_row hrow]
        exact hpass.1
      · simp at h

variable (e : StoreEntry Json)

/-- The call answered that the caller now has this lease. -/
def Acquires (lease : SessionExecutionLease) : Prop :=
  e.output = .leaseClaim (.ok (.acquired lease))

/-- The call extends a live lease that the same incarnation already has. -/
def reEnters (call : Host × Op Json) (store : InMemorySessionStore Json) : Bool :=
  match call.2 with
  | .tryClaimSessionExecutionLease sessionId owner _ =>
    (store.leaseEntry sessionId).isLive call.1.timestampMs &&
      (store.leaseEntry sessionId).owner.any (·.sameIncarnation owner)
  | _ => false

def FreshlyAcquires (lease : SessionExecutionLease) : Prop :=
  Acquires e lease ∧ reEnters e.input e.before = false

/-- The call gives the fence back: a release, or a commit that was accepted. -/
def Releases (fence : SessionExecutionLeaseFence) : Prop :=
  e.input.2 = .releaseSessionExecutionLease fence ∨
    ∃ commit result, e.input.2 = .commitRuntimeState commit ∧
      commit.releaseSessionExecutionLease = some fence ∧ e.output = .commit (.ok result)

theorem held_of_row (sessionId : String) (held : row.leaseToken.isSome) : Admits (rowRegister row)
      (inMemorySessionExecutionLease sessionId row held).fencingToken
      (holderOf (inMemorySessionExecutionLease sessionId row held).owner
        (inMemorySessionExecutionLease sessionId row held).leaseToken) := by
  obtain ⟨owner, leaseToken, fencingToken, _, _, owned⟩ := row
  cases leaseToken with
  | none => simp at held
  | some token =>
    cases owner with
    | none => simp at owned
    | some owner => exact ⟨rfl, rfl⟩

theorem held_setLease (store : InMemorySessionStore Json) (held : row.leaseToken.isSome) :
    Held (store.setLease sessionId row)
      (inMemorySessionExecutionLease sessionId row held).fence := by
  have hregister : leaseRegister (store.setLease sessionId row)
      (inMemorySessionExecutionLease sessionId row held).fence.sessionId = rowRegister row := by
    rw [leaseRegister_setLease]
    exact if_pos rfl
  unfold Held
  rw [hregister]
  exact held_of_row sessionId held

theorem acquired_held (store : InMemorySessionStore Json) (sessionId : String)
    (owner : LeaseOwnerIdentity) (now leaseTtlMs : Nat) :
    let out := store.acquireSessionExecutionLeaseInMemory sessionId owner
      (store.leaseEntry sessionId) now leaseTtlMs
    Held out.2 out.1.fence ∧ out.1.sessionId = sessionId ∧ leaseRegister out.2 sessionId =
        (leaseRegister store sessionId).take u64Max
          (holderOf out.1.owner out.1.leaseToken) := by
  refine ⟨held_setLease store _, rfl, ?_⟩
  simp only [acquireSessionExecutionLeaseInMemory, leaseRegister_setLease, if_true]
  rfl

variable {lease : SessionExecutionLease} {call : Host × Op Json}

/-- Whoever is told to have a lease holds it, and a fresh one was taken. -/
theorem acquires_spec (h : Acquires (entryAt step call store) lease) :
    Held (step call store).2 lease.fence ∧ (reEnters call store = false →
        leaseRegister (step call store).2 lease.sessionId =
          (leaseRegister store lease.sessionId).take u64Max
            (holderOf lease.owner lease.leaseToken)) := by
  obtain ⟨host, op⟩ := call
  cases op with
  | tryClaimSessionExecutionLease sessionId owner leaseTtlMs =>
    simp only [Acquires, entryAt, step, Prod.map_fst, Prod.map_snd, id_eq,
      Reply.leaseClaim.injEq, tryClaimSessionExecutionLease] at h ⊢
    split at h
    · rename_i hlive
      split at h
      · rename_i hsame
        simp only [Except.ok.injEq, acquired.injEq] at h
        subst h
        simp only [hlive, hsame, dif_pos, if_true, reEnters, Bool.and_self,
          Bool.true_eq_false, false_implies, and_true]
        exact held_setLease store _
      · simp at h
    · rename_i hlive
      simp only [Except.ok.injEq, acquired.injEq] at h
      subst h
      simp only [hlive, Bool.false_eq_true, dif_neg, not_false_eq_true]
      obtain ⟨hheld, hsession, hregister⟩ := acquired_held store sessionId owner
        host.timestampMs leaseTtlMs
      exact ⟨hheld, fun _ => by rw [hsession]; exact hregister⟩
  | reclaimSessionExecutionLease sessionId owner observed leaseTtlMs =>
    simp only [Acquires, entryAt, step, Prod.map_fst, Prod.map_snd, id_eq,
      Reply.leaseClaim.injEq, reclaimSessionExecutionLease] at h ⊢
    obtain ⟨hheld, hsession, hregister⟩ := acquired_held store sessionId owner
      host.timestampMs leaseTtlMs
    split at h
    · rename_i hlive
      split at h
      · rename_i hdead
        simp only [Except.ok.injEq, acquired.injEq] at h
        subst h
        simp only [hlive, dif_pos, if_pos hdead]
        exact ⟨hheld, fun _ => by rw [hsession]; exact hregister⟩
      · simp at h
    · rename_i hlive
      simp only [Except.ok.injEq, acquired.injEq] at h
      subst h
      simp only [hlive, Bool.false_eq_true, dif_neg, not_false_eq_true]
      exact ⟨hheld, fun _ => by rw [hsession]; exact hregister⟩
  | _ => simp [Acquires, entryAt, step] at h

/-- The fence opens nothing any more. -/
structure Dead (store : InMemorySessionStore Json) (fence : SessionExecutionLeaseFence) :
    Prop where
  verify : ∀ host sessionId, ¬ Verifies host store sessionId fence
  commit : ∀ host commit, commit.sessionExecutionLease = some fence →
    ¬ PassesFront host commit store
  renew : ∀ host leaseTtlMs, store.renewSessionExecutionLease host fence leaseTtlMs =
    (.error (.sessionExecutionLeaseExpired fence.sessionId), store)
  release : store.releaseSessionExecutionLeaseInMemory fence = store

theorem dead_of_not_held (h : ¬ Held store fence) : Dead store fence where
  verify := fun _ _ hverifies => h hverifies.held.2
  commit := by
    rintro host commit hfence ⟨-, -, hlease, -⟩
    simp only [checkLease, hfence] at hlease
    exact h (Verifies.held hlease).2
  renew := by
    intro host leaseTtlMs
    unfold renewSessionExecutionLease
    cases hrow : store.sessionExecutionLeases fence.sessionId with
    | none => rfl
    | some row =>
      have hcarries : row.carries fence = false := by
        rw [← Bool.not_eq_true, carries_iff]
        rwa [Held, leaseRegister, leaseEntry_of_row hrow] at h
      simp [hcarries]
  release := by
    rcases release_cases store fence with ⟨hheld, -⟩ | ⟨-, hsame⟩
    · exact absurd hheld h
    · exact hsame

/-- A fence that was handed out is held until it is spent, below the limit. -/
theorem issued_of_acquires {history older newer : List (StoreEntry Json)} {d : StoreEntry Json}
    (run : StoreRun history store) (shape : history = newer ++ d :: older)
    (acquired : Acquires d lease) (below : lease.fencingToken < u64Max) :
    Issued (leaseRegister store lease.sessionId) lease.fencingToken
      (holderOf lease.owner lease.leaseToken) := by
  refine run.later (P := fun s => Issued (leaseRegister s lease.sessionId)
    lease.fencingToken (holderOf lease.owner lease.leaseToken)) shape ?_ ?_
  · obtain ⟨_, hd, _⟩ := run.split shape
    rw [hd] at acquired ⊢
    exact Or.inl (acquires_spec acquired).1
  · intro s call _ hissued
    exact (step_move call s lease.sessionId).issued below hissued

theorem releases_spent (h : Releases (entryAt step call store) fence)
    (issued : Issued (leaseRegister store fence.sessionId) fence.fencingToken
      (holderOf fence.owner fence.leaseToken)) :
    Spent (leaseRegister (step call store).2 fence.sessionId) fence.fencingToken := by
  -- giving back a fence spends it: either it held the row, or it was spent before
  have hgiven : ∀ s : InMemorySessionStore Json,
      Issued (leaseRegister s fence.sessionId) fence.fencingToken
        (holderOf fence.owner fence.leaseToken) →
      Spent (leaseRegister (s.releaseSessionExecutionLeaseInMemory fence) fence.sessionId)
        fence.fencingToken := by
    intro s hs
    rcases release_cases s fence with ⟨hheld, row, -, hstore, hrow⟩ | ⟨hnot, hsame⟩
    · rw [hstore, leaseRegister_setLease, if_pos rfl, hrow]
      exact spent_drop hs.le
    · rw [hsame]
      exact hs.resolve_left hnot
  obtain ⟨host, op⟩ := call
  rcases h with hop | ⟨commit, result, hop, hrelease, hout⟩
  · simp only [entryAt] at hop
    subst hop
    exact hgiven store issued
  · simp only [entryAt] at hop hout
    subst hop
    have houtcome := commitRuntimeState_outcome host store commit
    simp only [step, Prod.map_fst, Prod.map_snd, id_eq, Reply.commit.injEq] at hout ⊢
    generalize store.commitRuntimeState host commit = out at houtcome hout
    cases houtcome with
    | rejected e front | queueExpired e front fails | inputsExpired e front queue fails =>
      simp at hout
    | replayed result bound stored =>
      simp only [releaseAfterCommit, hrelease]
      exact hgiven store issued
    | applied front queue inputs =>
      simp only [releaseAfterCommit, hrelease]
      exact hgiven (store.writeCommit commit _ _) issued

/-- Single writer. After any history of calls on the store: at most one owner,
incarnation and fencing token verifies for a session; a fresh acquisition has a
greater fencing token than every earlier one of its session; and a fence that was
handed out and then superseded or given back never verifies, renews or releases
again. The last two speak of fences whose token is below the largest `u64`. -/
theorem single_writer {history : List (StoreEntry Json)} (run : StoreRun history store) :
    (∀ sessionId host host' fence fence',
      Verifies host store sessionId fence → Verifies host' store sessionId fence' →
      fence.owner.sameIncarnation fence'.owner ∧ fence.leaseToken = fence'.leaseToken ∧
        fence.fencingToken = fence'.fencingToken) ∧
    (∀ newer e older d earlier later, history = newer ++ e :: older → d ∈ older →
      Acquires d earlier → FreshlyAcquires e later → earlier.sessionId = later.sessionId →
      earlier.fencingToken < u64Max → earlier.fencingToken < later.fencingToken) ∧
    (∀ newer e older d lease, history = newer ++ e :: older → d ∈ older →
      Acquires d lease → lease.fencingToken < u64Max →
      ((∃ later, FreshlyAcquires e later ∧ later.sessionId = lease.sessionId) ∨
        Releases e lease.fence) → Dead store lease.fence) := by
  refine ⟨?_, ?_, ?_⟩
  · intro sessionId host host' fence fence' h h'
    obtain ⟨hsession, hheld⟩ := h.held
    obtain ⟨hsession', hheld'⟩ := h'.held
    unfold Held at hheld hheld'
    rw [hsession] at hheld
    rw [hsession'] at hheld'
    obtain ⟨htoken, hholder⟩ := hheld.unique hheld'
    simp only [holderOf, Prod.mk.injEq] at hholder
    exact ⟨LeaseOwnerIdentity.sameIncarnation_iff.mpr ⟨hholder.1, hholder.2.1⟩, hholder.2.2, htoken⟩
  · intro newer e older d earlier later shape hd hearlier hlater hsession below
    obtain ⟨hbefore, he, _⟩ := run.split shape
    obtain ⟨newer', older', shape'⟩ := List.append_of_mem hd
    have hissued := issued_of_acquires hbefore shape' hearlier below
    obtain ⟨hacquires, hfresh⟩ := hlater
    rw [he] at hacquires hfresh
    obtain ⟨hheld, htaken⟩ := acquires_spec hacquires
    have htoken : (leaseRegister (step e.input e.before).2 later.sessionId).counter =
        later.fencingToken := hheld.1
    rw [htaken hfresh] at htoken
    have hle := hissued.le
    rw [hsession] at hle
    simp only [Register.take] at htoken
    omega
  · intro newer e older d lease shape hd hacquired below hend
    obtain ⟨hbefore, he, _⟩ := run.split shape
    obtain ⟨newer', older', shape'⟩ := List.append_of_mem hd
    have hissued := issued_of_acquires hbefore shape' hacquired below
    have hspent : Spent (leaseRegister e.after lease.sessionId) lease.fencingToken := by
      rw [he] at hend ⊢
      rcases hend with ⟨later, ⟨hacquires, hfresh⟩, hsession⟩ | hreleases
      · have htaken := (acquires_spec hacquires).2 hfresh
        rw [hsession] at htaken
        show Spent (leaseRegister (step e.input e.before).2 lease.sessionId) _
        rw [htaken]
        exact spent_take hissued.le below
      · exact releases_spent hreleases hissued
    have hnow : Spent (leaseRegister store lease.sessionId) lease.fencingToken :=
      run.later (P := fun s => Spent (leaseRegister s lease.sessionId) lease.fencingToken)
        shape hspent fun s call _ h => (step_move call s lease.sessionId).spent below h
    exact dead_of_not_held hnow.not_admits

/-- Worker `a` claims, lets the lease run out, and worker `b` takes it over:
`b` has a greater token, and `a`'s fence is dead. -/
theorem single_writer_takeover : let a := LeaseOwnerIdentity.ofOpaque "a" "a:1"
    let b := LeaseOwnerIdentity.ofOpaque "b" "b:1"
    let first := (step (.quiet 0, .tryClaimSessionExecutionLease "s" a 10)
      (.new : InMemorySessionStore Unit)).2
    let second := (step (.quiet 20, .tryClaimSessionExecutionLease "s" b 10) first).2
    1 < 2 ∧ Verifies (.quiet 25) second "s" ⟨"s", b, sessionLeaseToken "s" b 20 2, 2⟩ ∧
      Dead second ⟨"s", a, sessionLeaseToken "s" a 0 1, 1⟩ := by
  intro a b first second
  have run : StoreRun [entryAt step (.quiet 20, .tryClaimSessionExecutionLease "s" b 10) first,
      entryAt step (.quiet 0, .tryClaimSessionExecutionLease "s" a 10) .new] second :=
    (Run.nil.cons _).cons _
  obtain ⟨-, hgrows, hdead⟩ := single_writer run
  have hacquired : Acquires
      (entryAt step (.quiet 0, .tryClaimSessionExecutionLease "s" a 10)
        (.new : InMemorySessionStore Unit))
      ⟨"s", a, sessionLeaseToken "s" a 0 1, 1, 0, 10⟩ := rfl
  have hfresh : FreshlyAcquires
      (entryAt step (.quiet 20, .tryClaimSessionExecutionLease "s" b 10) first)
      ⟨"s", b, sessionLeaseToken "s" b 20 2, 2, 20, 30⟩ := ⟨rfl, rfl⟩
  have hverifies : second.verifySessionExecutionLease (.quiet 25) "s"
      ⟨"s", b, sessionLeaseToken "s" b 20 2, 2⟩ = .ok () := by decide
  exact ⟨hgrows [] _ _ _ _ _ rfl (by simp) hacquired hfresh rfl (by decide), hverifies,
    hdead [] _ _ _ _ rfl (by simp) hacquired (by decide) (Or.inl ⟨_, hfresh, rfl⟩)⟩

end LeaseSafety
