import Lash.ProcessLogs

/-!
# The handles granted to session scopes

The grants are kept under the id of a scope, which joins the session and its frame as
texts. Two scopes have one id exactly when the session id of one goes on into the frame id
of the other; all other scopes are isolated from each other.
-/

namespace HandleGrants

open ProcessRecords LocalProcesses ProcessLogs Runs

variable {rules : ProcessRules} (registry : TestLocalProcessRegistry rules)

/-! ## Calls on the grants -/

def setGrant (scopeId processId : String) (grant : Option ProcessHandleGrant) :
    TestLocalProcessRegistry rules :=
  { registry with
    grants := fun other process =>
      if other = scopeId ∧ process = processId then grant else registry.grants other process }

variable (scope : SessionScope)

variable (processId : String)

def grantHandle (descriptor : ProcessHandleDescriptor) :
    Except PluginError ProcessHandleGrant × TestLocalProcessRegistry rules :=
  match registry.getProcess processId with
  | none => (.error (unknownProcess processId), registry)
  | some _ =>
    let grant := ⟨scope.sessionId, processId, descriptor⟩
    (.ok grant, setGrant registry scope.id processId (some grant))

def revokeHandle : TestLocalProcessRegistry rules :=
  setGrant registry scope.id processId none

/-- Where a handle is not granted, the ones before it stay transferred. -/
def transferHandleGrants (fromScope toScope : SessionScope)
    (registry : TestLocalProcessRegistry rules) :
    List String → Except PluginError Unit × TestLocalProcessRegistry rules
  | [] => (.ok (), registry)
  | processId :: processIds =>
    match registry.grants fromScope.id processId with
    | none =>
      (.error (.session (s!"process handle `{processId}` is not granted to session " ++
        s!"`{fromScope.sessionId}`")), registry)
    | some grant =>
      transferHandleGrants fromScope toScope
        (setGrant (setGrant registry fromScope.id processId none) toScope.id processId
          (some ⟨toScope.sessionId, processId, grant.descriptor⟩)) processIds

/-- The entry of a process in the list of the grants of a scope. -/
def listedHandle : Option (ProcessHandleGrant × ProcessRecord rules) :=
  (registry.grants scope.id processId).bind fun grant =>
    (registry.getProcess grant.processId).map fun record => (grant, record)

def hasHandleGrant : Bool :=
  (registry.grants scope.id processId).isSome && (registry.managed processId).isSome

inductive HandleOp where
  | grant (scope : SessionScope) (processId : String) (descriptor : ProcessHandleDescriptor)
  | revoke (scope : SessionScope) (processId : String)
  | transfer (fromScope toScope : SessionScope) (processIds : List String)

def HandleOp.scopes : HandleOp → List SessionScope
  | .grant scope _ _ | .revoke scope _ => [scope]
  | .transfer fromScope toScope _ => [fromScope, toScope]

def handleStep (op : HandleOp) (registry : TestLocalProcessRegistry rules) :
    Except PluginError Unit × TestLocalProcessRegistry rules :=
  match op with
  | .grant scope processId descriptor =>
    let (result, registry) := grantHandle registry scope processId descriptor
    (result.map fun _ => (), registry)
  | .revoke scope processId => (.ok (), revokeHandle registry scope processId)
  | .transfer fromScope toScope processIds =>
    transferHandleGrants fromScope toScope registry processIds

/-! ## What a call leaves alone -/

variable {registry}

/-- The processes and the grants kept under this id are the same. -/
def Keeps (scopeId : String) (registry registry' : TestLocalProcessRegistry rules) : Prop :=
  registry'.managed = registry.managed ∧ registry'.grants scopeId = registry.grants scopeId

theorem Keeps.trans {scopeId : String} {second third : TestLocalProcessRegistry rules}
    (h : Keeps scopeId registry second) (h' : Keeps scopeId second third) :
    Keeps scopeId registry third :=
  ⟨h'.1.trans h.1, h'.2.trans h.2⟩

theorem keeps_setGrant {scopeId other : String} (grant : Option ProcessHandleGrant)
    (different : scopeId ≠ other) :
    Keeps other registry (setGrant registry scopeId processId grant) := by
  refine ⟨rfl, funext fun process => ?_⟩
  exact if_neg fun h => different h.1.symm

theorem keeps_transfer {fromScope toScope : SessionScope} {other : String}
    (hfrom : fromScope.id ≠ other) (hto : toScope.id ≠ other) (processIds : List String) :
    Keeps other registry (transferHandleGrants fromScope toScope registry processIds).2 := by
  induction processIds generalizing registry with
  | nil => exact ⟨rfl, rfl⟩
  | cons processId processIds ih =>
    rw [transferHandleGrants]
    split
    · exact ⟨rfl, rfl⟩
    · exact ((keeps_setGrant processId none hfrom).trans (keeps_setGrant processId _ hto)).trans ih

theorem keeps_step {op : HandleOp} {other : String}
    (different : ∀ scope ∈ op.scopes, scope.id ≠ other) :
    Keeps other registry (handleStep op registry).2 := by
  cases op with
  | grant scope processId descriptor =>
    simp only [handleStep, grantHandle]
    split
    · exact ⟨rfl, rfl⟩
    · exact keeps_setGrant _ _ (different scope (.head _))
  | revoke scope processId => exact keeps_setGrant _ _ (different scope (.head _))
  | transfer fromScope toScope processIds =>
    exact keeps_transfer (different _ (.head _)) (different _ (.tail _ (.head _))) processIds

theorem keeps_run {other : String} (ops : List HandleOp)
    (different : ∀ op ∈ ops, ∀ scope ∈ op.scopes, scope.id ≠ other)
    (history : List (Entry HandleOp (TestLocalProcessRegistry rules) (Except PluginError Unit))) :
    Keeps other registry (perform handleStep ops (history, registry)).2 := by
  induction ops generalizing registry history with
  | nil => exact ⟨rfl, rfl⟩
  | cons op ops ih =>
    exact (keeps_step (different op (.head _))).trans
      (ih (fun op hop => different op (.tail _ hop)) _)

/-- Whatever is called for the one scope, the other sees the handles it saw before. -/
def Isolated (one other : SessionScope) : Prop :=
  ∀ (rules : ProcessRules) (registry : TestLocalProcessRegistry rules) (ops : List HandleOp)
    (processId : String), (∀ op ∈ ops, ∀ scope ∈ op.scopes, scope = one) →
    let after := (perform handleStep ops ([], registry)).2
    hasHandleGrant after other processId = hasHandleGrant registry other processId ∧
      listedHandle after other processId = listedHandle registry other processId

theorem isolated_of_id_ne {one other : SessionScope} (different : one.id ≠ other.id) :
    Isolated one other := by
  intro rules registry ops processId hops
  have keeps : Keeps other.id registry (perform handleStep ops ([], registry)).2 :=
    keeps_run ops (fun op hop scope hscope => by rwa [hops op hop scope hscope]) []
  obtain ⟨hmanaged, hgrants⟩ := keeps
  constructor
  · simp only [hasHandleGrant, hmanaged, hgrants]
  · simp only [listedHandle, TestLocalProcessRegistry.getProcess, hmanaged, hgrants]

/-! ## The ids of scopes -/

def separator : List Char := '/' :: "frame:".toList

/-- The part of a scope's id behind its session id. -/
def frameSuffix : List Char :=
  match scope.agentFrameId with
  | some frameId => separator ++ frameId.toList
  | none => []

/-- The session id of the second scope goes on into the frame id of the first. -/
def Spills (one other : SessionScope) : Prop :=
  ∃ begun, other.sessionId.toList = one.sessionId.toList ++ separator ++ begun ∧
    one.agentFrameId.map String.toList = some (begun ++ frameSuffix other)

variable {one other : SessionScope}

theorem id_toList (framed : one.agentFrameId ≠ some "") :
    one.id.toList = "session:".toList ++ (one.sessionId.toList ++ frameSuffix one) := by
  obtain ⟨sessionId, _ | frameId⟩ := one
  · simp [SessionScope.id, frameSuffix, toString]
  · have hframe : frameId.isEmpty = false := by
      rw [Bool.eq_false_iff, ne_eq, String.isEmpty_iff]
      exact fun h => framed (congrArg some h)
    simp [SessionScope.id, frameSuffix, separator, toString, hframe]

theorem Spills.ne (spills : Spills one other) : one ≠ other := by
  rintro rfl
  obtain ⟨begun, hsession, -⟩ := spills
  have hlength := congrArg List.length hsession
  simp [separator] at hlength

/-- Equal texts of which the first has the shorter session id. -/
theorem eq_or_spills {longer : List Char}
    (hsession : other.sessionId.toList = one.sessionId.toList ++ longer)
    (hsuffix : frameSuffix one = longer ++ frameSuffix other) : one = other ∨ Spills one other := by
  obtain ⟨session, frame⟩ := one
  obtain ⟨session', frame'⟩ := other
  cases longer with
  | nil =>
    left
    rw [List.append_nil] at hsession
    obtain rfl := String.toList_inj.mp hsession
    cases frame <;> cases frame' <;> simp_all [frameSuffix, separator, String.toList_inj]
  | cons c longer =>
    right
    cases frame with
    | none => cases hsuffix
    | some frameId =>
      rcases List.append_eq_append_iff.mp hsuffix with
        ⟨begun, hbegun, hframe⟩ | ⟨rest, hrest, hlate⟩
      · exact ⟨begun, by rw [hsession, hbegun, List.append_assoc], congrArg some hframe⟩
      · cases rest with
        | nil =>
          refine ⟨[], by rw [hsession, hrest, List.append_nil, List.append_nil], ?_⟩
          exact congrArg some hlate.symm
        | cons r rest =>
          -- The other suffix would begin inside the separator, where no slash stands.
          have hmem : r ∈ "frame:".toList := by simp [(List.cons.inj hrest).2]
          cases frame' with
          | none => cases hlate
          | some frameId' =>
            obtain rfl : '/' = r := (List.cons.inj hlate).1
            exact absurd hmem (by decide)

/-- Two scopes have one id exactly when they are equal or one spills into the other. -/
theorem id_eq_iff (framed : one.agentFrameId ≠ some "") (framed' : other.agentFrameId ≠ some "") :
    one.id = other.id ↔ one = other ∨ Spills one other ∨ Spills other one := by
  rw [← String.toList_inj, id_toList framed, id_toList framed', List.append_cancel_left_eq]
  constructor
  · intro htext
    rcases List.append_eq_append_iff.mp htext with ⟨longer, hsession, hsuffix⟩ |
      ⟨longer, hsession, hsuffix⟩
    · exact (eq_or_spills hsession hsuffix).imp_right .inl
    · exact (eq_or_spills hsession hsuffix).imp Eq.symm .inr
  · have spilled : ∀ {one other : SessionScope}, Spills one other →
        one.sessionId.toList ++ frameSuffix one = other.sessionId.toList ++ frameSuffix other := by
      rintro ⟨session, _ | frameId⟩ other ⟨begun, hsession, hframe⟩
      · cases hframe
      · have hframe : frameId.toList = begun ++ frameSuffix other := Option.some.inj hframe
        simp only [frameSuffix, hframe, hsession, List.append_assoc]
    rintro (rfl | spills | spills)
    · rfl
    · exact spilled spills
    · exact (spilled spills).symm

/-- For scopes whose frame ids are not empty: equal ids mean equal scopes and different scopes
are isolated from each other, exactly when neither session id goes on into the frame id of the
other. -/
theorem scopes_isolated_iff (framed : one.agentFrameId ≠ some "")
    (framed' : other.agentFrameId ≠ some "") :
    ((one.id = other.id → one = other) ∧ (one ≠ other → Isolated one other ∧ Isolated other one)) ↔
      ¬ Spills one other ∧ ¬ Spills other one := by
  have hids := id_eq_iff framed framed'
  constructor
  · rintro ⟨hequal, -⟩
    constructor
    · exact fun spills => spills.ne (hequal (hids.mpr (.inr (.inl spills))))
    · exact fun spills => spills.ne (hequal (hids.mpr (.inr (.inr spills)))).symm
  · rintro ⟨hone, hother⟩
    have different : one ≠ other → one.id ≠ other.id := by
      intro hne hid
      rcases hids.mp hid with hequal | spills | spills
      · exact hne hequal
      · exact hone spills
      · exact hother spills
    refine ⟨fun hid => by_contra fun hne => different hne hid, fun hne => ⟨?_, ?_⟩⟩
    · exact isolated_of_id_ne (different hne)
    · exact isolated_of_id_ne (different hne).symm

theorem scopes_isolated_sessions : ((SessionScope.mk "a" none).id = (SessionScope.mk "b" none).id →
        SessionScope.mk "a" none = ⟨"b", none⟩) ∧
      (SessionScope.mk "a" none ≠ ⟨"b", none⟩ →
        Isolated ⟨"a", none⟩ ⟨"b", none⟩ ∧ Isolated ⟨"b", none⟩ ⟨"a", none⟩) := by
  refine (scopes_isolated_iff (by decide) (by decide)).mpr ⟨?_, ?_⟩ <;>
  · rintro ⟨begun, -, hframe⟩
    cases hframe

/-- A registry with one process, whose handle is granted to this scope. -/
def oneHandle : TestLocalProcessRegistry bitRules :=
  (handleStep (.grant scope "p" ⟨none, none⟩)
    (emptyRegistry.setManaged "p"
      ⟨TestLocalProcessRegistry.fromPreparedRegistration ⟨"p", (), [], none⟩ "h" 0, [],
        fun _ => none, []⟩)).2

/-- The handle of frame "b" of session "a" is seen and revoked by a session without a frame. -/
theorem joined_ids_collide :
    (SessionScope.mk "a" (some "b")).id = (SessionScope.mk "a/frame:b" none).id ∧
    hasHandleGrant (oneHandle ⟨"a", some "b"⟩) ⟨"a/frame:b", none⟩ "p" = true ∧
    hasHandleGrant (handleStep (.revoke ⟨"a/frame:b", none⟩ "p") (oneHandle ⟨"a", some "b"⟩)).2
      ⟨"a", some "b"⟩ "p" = false := by
  decide

/-! ## What is granted -/

/-- A grant names the process it is kept for, which is registered, and the session of a scope of
the id it is kept under. -/
def Granted (registry : TestLocalProcessRegistry rules) : Prop :=
  ∀ scopeId processId grant, registry.grants scopeId processId = some grant →
    grant.processId = processId ∧ (registry.managed processId).isSome ∧
      ∃ scope : SessionScope, scope.id = scopeId ∧ scope.sessionId = grant.sessionId

theorem Granted.set (granted : Granted registry) (scope : SessionScope) {processId : String}
    (descriptor : Option ProcessHandleDescriptor)
    (known : descriptor.isSome → (registry.managed processId).isSome) :
    Granted (setGrant registry scope.id processId
      (descriptor.map fun descriptor => ⟨scope.sessionId, processId, descriptor⟩)) := by
  intro scopeId other grant h
  simp only [setGrant] at h
  split at h
  · next hsame =>
    obtain ⟨rfl, rfl⟩ := hsame
    obtain ⟨descriptor, hdescriptor, rfl⟩ := Option.map_eq_some_iff.mp h
    exact ⟨rfl, known (by rw [hdescriptor]; rfl), scope, rfl, rfl⟩
  · exact granted scopeId other grant h

theorem Granted.step (granted : Granted registry) (op : HandleOp) :
    Granted (handleStep op registry).2 := by
  cases op with
  | grant scope processId descriptor =>
    simp only [handleStep, grantHandle]
    split
    · exact granted
    · next record hrecord =>
      refine granted.set scope (some descriptor) fun _ => ?_
      rw [TestLocalProcessRegistry.getProcess, Option.map_eq_some_iff] at hrecord
      obtain ⟨managed, hmanaged, -⟩ := hrecord
      rw [hmanaged]
      rfl
  | revoke scope processId => exact granted.set scope none fun h => nomatch h
  | transfer fromScope toScope processIds =>
    simp only [handleStep]
    induction processIds generalizing registry with
    | nil => exact granted
    | cons processId processIds ih =>
      rw [transferHandleGrants]
      split
      · exact granted
      · next grant hgrant =>
        have known := (granted _ _ grant hgrant).2.1
        exact ih ((granted.set fromScope none fun h => nomatch h).set toScope
          (some grant.descriptor) fun _ => known)

/-- In every run a grant names its own process and the session it is kept for, so a handle is
listed exactly where it is found granted. -/
theorem listed_where_granted (granted : Granted registry) (ops : List HandleOp) :
    Granted (perform handleStep ops ([], registry)).2 ∧ ∀ scope processId,
      (listedHandle (perform handleStep ops ([], registry)).2 scope processId).isSome =
        hasHandleGrant (perform handleStep ops ([], registry)).2 scope processId := by
  have hrun : ∀ history, Granted (perform handleStep ops (history, registry)).2 := by
    induction ops generalizing registry with
    | nil => exact fun _ => granted
    | cons op ops ih => exact fun _ => ih (granted.step op) _
  refine ⟨hrun [], fun scope processId => ?_⟩
  rw [listedHandle, hasHandleGrant]
  cases hgrant : (perform handleStep ops ([], registry)).2.grants scope.id processId with
  | none => rfl
  | some grant =>
    rw [Option.bind_some, Option.isSome_map, (hrun [] _ _ grant hgrant).1]
    simp [TestLocalProcessRegistry.getProcess]

theorem listed_where_granted_moved :
    let moved := (perform handleStep [.transfer ⟨"a", none⟩ ⟨"b", none⟩ ["p"]]
      ([], oneHandle ⟨"a", none⟩)).2
    (listedHandle moved ⟨"b", none⟩ "p").isSome = hasHandleGrant moved ⟨"b", none⟩ "p" :=
  (listed_where_granted (Granted.step (by intro _ _ _ h; cases h) _) _).2 _ _

end HandleGrants
