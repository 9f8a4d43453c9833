import Lash.DecimalNames
import Lash.LashlangProcesses

/-!
# Lashlang processes that are cut and restarted

A process that is restarted makes the requests of an uncut run again, under the same names: its
events are in the log already, its effects are recorded, and only the time since when it waits
may be read anew as long as the wait was not announced. This fails where a name is drawn at
random or a duration is read off the clock.
-/

namespace ProcessReplays

open ScriptValues ScriptBuiltins ProcessRecords ProcessLogs LashlangProcesses DecimalNames List

/-! ## The names of events and waits -/

section Keys

variable {processId name name' : String} {m n : Nat}

/-- Names of one shape are told apart by the name before the last colon and the number behind. -/
theorem named_numeral_injective {xs ys : List Char}
    (h : xs ++ ':' :: Nat.toDigits 10 m = ys ++ ':' :: Nat.toDigits 10 n) : xs = ys ∧ m = n := by
  have hreverse := congrArg reverse h
  simp only [reverse_append, reverse_cons, append_assoc, singleton_append]
    at hreverse
  have hcolon (k : Nat) : ':' ∉ (Nat.toDigits 10 k).reverse := fun hmem =>
    colon_not_mem_toDigits k (mem_reverse.mp hmem)
  obtain ⟨hdigits, hnames⟩ := append_cons_inj (hcolon m) (hcolon n) hreverse
  exact ⟨reverse_injective hnames, toDigits_injective (reverse_injective hdigits)⟩

theorem toList_eventKey : (eventKey processId n).toList =
    "process:".toList ++ processId.toList ++ (":event".toList ++ ':' :: Nat.toDigits 10 n) := by
  simp [eventKey, ToString.toString]

theorem toList_waitKey : (processSignalWaitKey processId name n).toList =
    "process:".toList ++ processId.toList ++
      (":signal.".toList ++ name.toList ++ ':' :: Nat.toDigits 10 n) := by
  simp [processSignalWaitKey, ToString.toString]

theorem toList_waitingKey : (waitingKey processId name n).toList =
    "process:".toList ++ processId.toList ++
      (":waiting:signal.".toList ++ name.toList ++ ':' :: Nat.toDigits 10 n) := by
  simp [waitingKey, ToString.toString]

theorem toList_resumedKey : (resumedKey processId name n).toList =
    "process:".toList ++ processId.toList ++
      (":resumed:signal.".toList ++ name.toList ++ ':' :: Nat.toDigits 10 n) := by
  simp [resumedKey, ToString.toString]

theorem eventKey_injective (h : eventKey processId m = eventKey processId n) : m = n := by
  have hlist := congrArg String.toList h
  rw [toList_eventKey, toList_eventKey, append_cancel_left_eq] at hlist
  exact (named_numeral_injective hlist).2

/-- The keys of one tag tell the name and the number of a wait. -/
theorem signalKey_injective {key : String → Nat → String} {base tag : List Char}
    (htoList : ∀ name n, (key name n).toList =
      base ++ (tag ++ name.toList ++ ':' :: Nat.toDigits 10 n))
    (h : key name m = key name' n) : name = name' ∧ m = n := by
  have hlist := congrArg String.toList h
  rw [htoList, htoList, append_cancel_left_eq] at hlist
  obtain ⟨hname, hnumber⟩ := named_numeral_injective hlist
  rw [append_cancel_left_eq] at hname
  exact ⟨String.toList_injective hname, hnumber⟩

theorem waitKey_injective
    (h : processSignalWaitKey processId name m = processSignalWaitKey processId name' n) :
    name = name' ∧ m = n :=
  signalKey_injective (fun _ _ => toList_waitKey) h

theorem waitingKey_injective (h : waitingKey processId name m = waitingKey processId name' n) :
    name = name' ∧ m = n :=
  signalKey_injective (fun _ _ => toList_waitingKey) h

theorem resumedKey_injective (h : resumedKey processId name m = resumedKey processId name' n) :
    name = name' ∧ m = n :=
  signalKey_injective (fun _ _ => toList_resumedKey) h

theorem eventKey_ne_waitKey : eventKey processId m ≠ processSignalWaitKey processId name n := by
  intro h
  have hlist := congrArg String.toList h
  rw [toList_eventKey, toList_waitKey, append_cancel_left_eq] at hlist
  simp at hlist

theorem eventKey_ne_waitingKey : eventKey processId m ≠ waitingKey processId name n := by
  intro h
  have hlist := congrArg String.toList h
  rw [toList_eventKey, toList_waitingKey, append_cancel_left_eq] at hlist
  simp at hlist

theorem eventKey_ne_resumedKey : eventKey processId m ≠ resumedKey processId name n := by
  intro h
  have hlist := congrArg String.toList h
  rw [toList_eventKey, toList_resumedKey, append_cancel_left_eq] at hlist
  simp at hlist

theorem waitKey_ne_waitingKey :
    processSignalWaitKey processId name m ≠ waitingKey processId name' n := by
  intro h
  have hlist := congrArg String.toList h
  rw [toList_waitKey, toList_waitingKey, append_cancel_left_eq] at hlist
  simp at hlist

theorem waitKey_ne_resumedKey :
    processSignalWaitKey processId name m ≠ resumedKey processId name' n := by
  intro h
  have hlist := congrArg String.toList h
  rw [toList_waitKey, toList_resumedKey, append_cancel_left_eq] at hlist
  simp at hlist

theorem waitingKey_ne_resumedKey : waitingKey processId name m ≠ resumedKey processId name' n := by
  intro h
  have hlist := congrArg String.toList h
  rw [toList_waitingKey, toList_resumedKey, append_cancel_left_eq] at hlist
  simp at hlist

end Keys

/-! ## Where the host stands -/

/-- The operations whose requests have names and contents of their own. An await and a cancel draw
a call id, and a deadline is turned into a duration by the clock. -/
def isSteady : AbilityOp → Bool
  | .await _ | .cancel _ | .sleep .untilDeadline _ => false
  | _ => true

/-- The operations are such, and each single resource call is answered as these tools do, so that it
is answered alike when it is made again. -/
def Steady (tools : String → String → Json → Outcome) : Request → Reply → Prop
  | .perform op, _ => isSteady op = true
  | .call callId toolId args, reply => reply = .outcome (tools callId toolId args)
  | _, _ => True

theorem Steady.operation {tools : String → String → Json → Outcome} {q : Request} {reply : Reply}
    (steady : Steady tools q reply) : ∀ op, q = .perform op → isSteady op = true := by
  rintro op rfl
  exact steady

section Places

variable (processId : String) (bridge : Bridge) (program : Program)

/-- The keys of the events and waits that the counters have gone past. -/
def Counted (counters : Counters) (key : String) : Prop :=
  (∃ n < counters.eventSequence, key = eventKey processId n) ∨
    ∃ name n, 1 ≤ n ∧ n ≤ counters.signalWaitOrdinals name ∧
      (key = processSignalWaitKey processId name n ∨ key = waitingKey processId name n ∨
        key = resumedKey processId name n)

/-- The keys that the operation under way has still to use. -/
def Pending : Place → String → Prop
  | .emitting n _ _, key => key = eventKey processId n
  | .resolving name n, key | .setting name n _, key =>
    key = processSignalWaitKey processId name n ∨ key = waitingKey processId name n ∨
      key = resumedKey processId name n
  | .announcing name n _, key =>
    key = waitingKey processId name n ∨ key = resumedKey processId name n
  | .receiving name n, key | .clearing name n _, key | .resuming name n _, key =>
    key = resumedKey processId name n
  | _, _ => False

def UsedTurn (counters : Counters) : Turn → String → Prop
  | .inl place, key => Counted processId counters key ∧ ¬ Pending processId place key
  | .inr _, key => Counted processId counters key

/-- The keys of the events and waits before this state. -/
def Used : State → String → Prop
  | .ended _, _ => True
  | .entering _ counters _, key => Counted processId counters key
  | .within _ counters place, key => UsedTurn processId counters (.inl place) key

/-- What is known where the host stands, if all operations were steady ones. -/
def Formed (counters : Counters) : Place → Prop
  | .emitting n eventType payload => n < counters.eventSequence ∧
      ∃ kind value, eventType = eventTypeOf kind ∧ processEventPayload bridge value = .ok payload
  | .resolving name n | .setting name n _ | .announcing name n _ | .receiving name n
  | .clearing name n _ | .resuming name n _ => 1 ≤ n ∧ n = counters.signalWaitOrdinals name
  | .drawing _ _ | .handling _ _ _ | .reading _ _ => False
  | _ => True

def FormedTurn (counters : Counters) : Turn → Prop
  | .inl place => Formed bridge counters place
  | .inr _ => True

def FormedState : State → Prop
  | .within _ counters place => Formed bridge counters place
  | _ => True

end Places

section Moves

variable {processId : String} {bridge : Bridge} {program : Program} {counters : Counters}
  {key : String} {answers : List Answer} {turn : Turn}

theorem settle_formed (h : FormedTurn bridge counters turn) :
    FormedState bridge (settle program answers counters turn) := by
  cases turn with
  | inl place => exact h
  | inr answer =>
    simp only [settle, enter]
    split <;> trivial

theorem settle_used (h : UsedTurn processId counters turn key) :
    Used processId (settle program answers counters turn) key := by
  cases turn with
  | inl place => exact h
  | inr answer =>
    simp only [settle, enter]
    split
    · trivial
    · exact h

variable {place : Place}

theorem turnOf_eq_inl {α : Type} {f : α → Place} {result : Except String α} :
    turnOf f result = .inl place ↔ ∃ value, result = .ok value ∧ f value = place := by
  cases result <;> simp [turnOf]

theorem afterRegistry_eq_inl {result : Except PluginError Unit} :
    afterRegistry turn result = .inl place ↔ result = .ok () ∧ turn = .inl place := by
  cases result <;> simp [afterRegistry]

/-- How the host goes on from one place to another: where it goes on at all, or stays where it is
because the reply is of another kind. -/
inductive GoesOn : Place → Reply → Place → Prop
  | drawn {cancel : Bool} {handle : Json} {id : String} :
      GoesOn (.drawing cancel handle) (.uuid id) (.handling cancel id handle)
  | read {sequence deadlineMs now : Nat} :
      GoesOn (.reading sequence deadlineMs) (.time now) (.sleeping sequence (deadlineMs - now))
  | resolved {name : String} {n sinceMs : Nat} :
      GoesOn (.resolving name n) (.time sinceMs) (.setting name n sinceMs)
  | set {name : String} {n sinceMs : Nat} :
      GoesOn (.setting name n sinceMs) (.registry (.ok ())) (.announcing name n sinceMs)
  | announced {name : String} {n sinceMs : Nat} :
      GoesOn (.announcing name n sinceMs) (.registry (.ok ())) (.receiving name n)
  | received {name : String} {n : Nat} {payload : Value} :
      GoesOn (.receiving name n) (.outcome (.ok payload)) (.clearing name n payload)
  | cleared {name : String} {n : Nat} {payload : Value} :
      GoesOn (.clearing name n payload) (.registry (.ok ())) (.resuming name n payload)
  | stays {place : Place} {reply : Reply} : GoesOn place reply place

variable {place' : Place} {reply : Reply}

theorem resume_goesOn (h : place.resume reply = .inl place') : GoesOn place reply place' := by
  cases place <;> cases reply <;>
    simp only [Place.resume, answerOf, answerNull, turnOf_eq_inl, afterRegistry_eq_inl,
      reduceCtorEq, Sum.inl.injEq, and_false] at h
  all_goals first
    | (subst h; constructor)
    | (obtain ⟨rfl, rfl⟩ := h; constructor)
    | (obtain ⟨_, rfl, rfl⟩ := h; constructor)

/-- A place goes on to one with fewer keys to use. -/
theorem GoesOn.pending (h : GoesOn place reply place') (hpending : Pending processId place' key) :
    Pending processId place key := by
  cases h with
  | drawn | read => cases hpending
  | resolved | stays | received | cleared => exact hpending
  | set | announced => exact .inr hpending

theorem GoesOn.formed (h : GoesOn place reply place') (hformed : Formed bridge counters place) :
    Formed bridge counters place' := by
  cases h with
  | drawn | read => cases hformed
  | resolved | set | announced | received | cleared | stays => exact hformed

/-- A key that the counters have gone past is not made again. -/
theorem not_counted_event :
    ¬ Counted processId counters (eventKey processId counters.eventSequence) := by
  rintro (⟨n, hlt, heq⟩ | ⟨name, n, -, -, heq | heq | heq⟩)
  · exact absurd (eventKey_injective heq) (Nat.ne_of_gt hlt)
  · exact eventKey_ne_waitKey heq
  · exact eventKey_ne_waitingKey heq
  · exact eventKey_ne_resumedKey heq

theorem not_counted_signal {name : String} {ordinal : Nat}
    (h : counters.signalWaitOrdinals name < ordinal)
    (hkey : key = processSignalWaitKey processId name ordinal ∨
      key = waitingKey processId name ordinal ∨ key = resumedKey processId name ordinal) :
    ¬ Counted processId counters key := by
  have hover {other : String} {n : Nat} (hle : n ≤ counters.signalWaitOrdinals other)
      (hsame : name = other ∧ ordinal = n) : False := by
    obtain ⟨rfl, rfl⟩ := hsame
    omega
  rintro (⟨n, -, heq⟩ | ⟨other, n, -, hle, heq⟩)
  · rcases hkey with rfl | rfl | rfl
    · exact eventKey_ne_waitKey heq.symm
    · exact eventKey_ne_waitingKey heq.symm
    · exact eventKey_ne_resumedKey heq.symm
  · rcases hkey with rfl | rfl | rfl <;> rcases heq with heq | heq | heq
    · exact hover hle (waitKey_injective heq)
    · exact waitKey_ne_waitingKey heq
    · exact waitKey_ne_resumedKey heq
    · exact waitKey_ne_waitingKey heq.symm
    · exact hover hle (waitingKey_injective heq)
    · exact waitingKey_ne_resumedKey heq
    · exact waitKey_ne_resumedKey heq.symm
    · exact waitingKey_ne_resumedKey heq.symm
    · exact hover hle (resumedKey_injective heq)

variable {op : AbilityOp}

/-- The keys counted so far stay counted, and the operation that begins does not use them. -/
theorem begin_used (h : Counted processId counters key) :
    UsedTurn processId (begin processId bridge counters op).1
      (begin processId bridge counters op).2 key := by
  have hturn {α : Type} {f : α → Place} {result : Except String α}
      (hf : ∀ value, ¬ Pending processId (f value) key) :
      UsedTurn processId counters (turnOf f result) key := by
    cases result with
    | ok value => exact ⟨h, hf value⟩
    | error error => exact h
  cases op with
  | resourceOperation call | await handle | cancel handle | startProcess start site =>
    exact hturn fun _ => not_false
  | resourceOperationBatch calls =>
    simp only [begin, beginBatch]
    split
    · exact h
    · exact ⟨h, not_false⟩
  | processEvent kind value =>
    have hlater : Counted processId
        { counters with eventSequence := counters.eventSequence + 1 } key := by
      rcases h with ⟨n, hlt, heq⟩ | hsignal
      · exact .inl ⟨n, Nat.lt_succ_of_lt hlt, heq⟩
      · exact .inr hsignal
    simp only [begin]
    cases processEventPayload bridge value with
    | error error => exact hlater
    | ok payload =>
      refine ⟨hlater, ?_⟩
      rintro rfl
      exact not_counted_event h
  | sleep kind value =>
    cases kind with
    | forDuration | untilDeadline =>
      simp only [begin]
      split
      · exact ⟨h, not_false⟩
      · exact h
  | waitSignal name =>
    simp only [begin]
    split
    · refine ⟨?_, fun hpending => not_counted_signal (Nat.lt_succ_self _) hpending h⟩
      rcases h with hevent | ⟨other, n, hpos, hle, heq⟩
      · exact .inl hevent
      · refine .inr ⟨other, n, hpos, ?_, heq⟩
        dsimp only
        by_cases hother : other = name
        · rw [if_pos hother]
          subst hother
          omega
        · rw [if_neg hother]
          exact hle
    · exact h
  | signalRun run name payload =>
    simp only [begin]
    split
    · exact ⟨h, not_false⟩
    · exact h
    · exact h
  | print value => exact h

theorem begin_formed (steady : isSteady op = true) :
    FormedTurn bridge (begin processId bridge counters op).1
      (begin processId bridge counters op).2 := by
  have hturn {α : Type} {f : α → Place} {result : Except String α}
      (hf : ∀ value, Formed bridge counters (f value)) :
      FormedTurn bridge counters (turnOf f result) := by
    cases result with
    | ok value => exact hf value
    | error error => trivial
  cases op with
  | resourceOperation call | startProcess start site => exact hturn fun _ => trivial
  | resourceOperationBatch calls =>
    simp only [begin, beginBatch]
    split <;> trivial
  | await handle | cancel handle => cases steady
  | processEvent kind value =>
    simp only [begin]
    cases hpayload : processEventPayload bridge value with
    | error error => trivial
    | ok payload => exact ⟨Nat.lt_succ_self _, kind, value, rfl, hpayload⟩
  | sleep kind value =>
    cases kind with
    | forDuration =>
      simp only [begin]
      split <;> trivial
    | untilDeadline => cases steady
  | waitSignal name =>
    simp only [begin]
    split
    · refine ⟨by omega, ?_⟩
      simp only [if_true]
    · trivial
  | signalRun run name payload =>
    simp only [begin]
    split <;> trivial
  | print value => trivial

/-- No operation begins with the announcement of a wait. -/
theorem begin_ne_announcing {name : String} {n sinceMs : Nat} :
    (begin processId bridge counters op).2 ≠ .inl (.announcing name n sinceMs) := by
  have hturn {α : Type} {f : α → Place} {result : Except String α}
      (hf : ∀ value, f value ≠ .announcing name n sinceMs) :
      turnOf f result ≠ .inl (.announcing name n sinceMs) := by
    intro h
    obtain ⟨value, -, hvalue⟩ := turnOf_eq_inl.mp h
    exact hf value hvalue
  cases op with
  | resourceOperation call | await handle | cancel handle | startProcess start site
  | processEvent kind value => exact hturn fun _ => nofun
  | resourceOperationBatch calls =>
    simp only [begin, beginBatch]
    split <;> nofun
  | sleep kind value =>
    cases kind with
    | forDuration | untilDeadline =>
      simp only [begin]
      split <;> nofun
  | waitSignal name | signalRun run name payload =>
    simp only [begin]
    split <;> nofun
  | print value => nofun

end Moves

/-! ## Requests -/

section Requests

variable {processId : String} {bridge : Bridge} {program : Program} {s : State} {reply : Reply}
  {key : String}

theorem request_cases {q : Request} (h : s.request processId = some q) :
    (∃ answers counters op, s = .entering answers counters op ∧ q = .perform op) ∨
      ∃ answers counters place, s = .within answers counters place ∧
        q = place.request processId := by
  cases s with
  | ended outcome => cases h
  | entering answers counters op => exact .inl ⟨_, _, _, rfl, (Option.some.inj h).symm⟩
  | within answers counters place => exact .inr ⟨_, _, _, rfl, (Option.some.inj h).symm⟩

variable {eventType : String} {payload : Json}

/-- The places where the host appends an event. -/
theorem append_place {place : Place} (h : place.request processId = .append eventType payload key) :
    (∃ n, place = .emitting n eventType payload ∧ key = eventKey processId n) ∨
      (∃ name n sinceMs, place = .announcing name n sinceMs ∧ eventType = "process.waiting" ∧
        payload = waitingPayload (signalWait processId name n sinceMs) ∧
        key = waitingKey processId name n) ∨
      ∃ name n value, place = .resuming name n value ∧ eventType = "process.resumed" ∧
        payload = resumedPayload processId name n ∧ key = resumedKey processId name n := by
  cases place with
  | emitting n eventType payload =>
    obtain ⟨rfl, rfl, rfl⟩ := Request.append.inj h
    exact .inl ⟨n, rfl, rfl⟩
  | announcing name n sinceMs =>
    obtain ⟨rfl, rfl, rfl⟩ := Request.append.inj h
    exact .inr (.inl ⟨name, n, sinceMs, rfl, rfl, rfl, rfl⟩)
  | resuming name n value =>
    obtain ⟨rfl, rfl, rfl⟩ := Request.append.inj h
    exact .inr (.inr ⟨name, n, value, rfl, rfl, rfl, rfl⟩)
  | _ => cases h

/-- The events that the host appends. -/
def OwnEvent (processId : String) (bridge : Bridge) (eventType : String) (payload : Json) : Prop :=
  (∃ kind value, eventType = eventTypeOf kind ∧ processEventPayload bridge value = .ok payload) ∨
    (∃ wait, eventType = "process.waiting" ∧ payload = waitingPayload wait) ∨
    ∃ name n, eventType = "process.resumed" ∧ payload = resumedPayload processId name n

theorem append_own (hs : FormedState bridge s)
    (h : s.request processId = some (.append eventType payload key)) :
    OwnKey processId key ∧ OwnEvent processId bridge eventType payload := by
  rcases request_cases h with ⟨answers, counters, op, rfl, hq⟩ | ⟨answers, counters, place, rfl, hq⟩
  · cases hq
  · rcases append_place hq.symm with ⟨n, rfl, rfl⟩ | ⟨name, n, sinceMs, rfl, rfl, rfl, rfl⟩ |
      ⟨name, n, value, rfl, rfl, rfl, rfl⟩
    · exact ⟨.inl ⟨n, rfl⟩, .inl hs.2⟩
    · exact ⟨.inr ⟨name, n, .inl rfl⟩, .inr (.inl ⟨_, rfl, rfl⟩)⟩
    · exact ⟨.inr ⟨name, n, .inr rfl⟩, .inr (.inr ⟨name, n, rfl, rfl⟩)⟩

/-- The host appends under keys that it has not used. -/
theorem append_fresh (h : s.request processId = some (.append eventType payload key)) :
    ¬ Used processId s key := by
  rcases request_cases h with ⟨answers, counters, op, rfl, hq⟩ | ⟨answers, counters, place, rfl, hq⟩
  · cases hq
  · rintro ⟨-, hfree⟩
    rcases append_place hq.symm with ⟨n, rfl, rfl⟩ | ⟨name, n, sinceMs, rfl, rfl, rfl, rfl⟩ |
      ⟨name, n, value, rfl, rfl, rfl, rfl⟩
    · exact hfree rfl
    · exact hfree (.inl rfl)
    · exact hfree rfl

variable {name : String}

theorem waitSince_place {n : Nat} (h : s.request processId = some (.waitSince name n)) :
    ∃ answers counters, s = .within answers counters (.resolving name n) := by
  rcases request_cases h with ⟨answers, counters, op, rfl, hq⟩ | ⟨answers, counters, place, rfl, hq⟩
  · cases hq
  · cases place <;> cases hq
    exact ⟨answers, counters, rfl⟩

theorem setProcessWait_place {wait : WaitState}
    (h : s.request processId = some (.setProcessWait wait)) :
    ∃ answers counters name n sinceMs, s = .within answers counters (.setting name n sinceMs) ∧
      wait = signalWait processId name n sinceMs := by
  rcases request_cases h with ⟨answers, counters, op, rfl, hq⟩ | ⟨answers, counters, place, rfl, hq⟩
  · cases hq
  · cases place <;> cases hq
    exact ⟨answers, counters, _, _, _, rfl, rfl⟩

/-- The host asks since when it waits before it uses the keys of the wait. -/
theorem waitSince_fresh {n : Nat} (h : s.request processId = some (.waitSince name n)) :
    ¬ Used processId s (processSignalWaitKey processId name n) ∧
      ¬ Used processId s (waitingKey processId name n) := by
  obtain ⟨answers, counters, rfl⟩ := waitSince_place h
  constructor
  · rintro ⟨-, hfree⟩
    exact hfree (.inl rfl)
  · rintro ⟨-, hfree⟩
    exact hfree (.inr (.inl rfl))

/-! ## Replies -/

theorem resume_formed {q : Request} (hs : FormedState bridge s)
    (asked : s.request processId = some q)
    (steady : ∀ op, q = .perform op → isSteady op = true) :
    FormedState bridge (s.resume processId bridge program reply) := by
  rcases request_cases asked with ⟨answers, counters, op, rfl, rfl⟩ |
    ⟨answers, counters, place, rfl, rfl⟩
  · exact settle_formed (begin_formed (steady op rfl))
  · simp only [State.resume]
    cases hturn : place.resume reply with
    | inl place' => exact (resume_goesOn hturn).formed hs
    | inr answer => exact settle_formed trivial

theorem resume_used (h : Used processId s key) :
    Used processId (s.resume processId bridge program reply) key := by
  cases s with
  | ended outcome => trivial
  | entering answers counters op => exact settle_used (begin_used h)
  | within answers counters place =>
    obtain ⟨hcounted, hfree⟩ := h
    refine settle_used ?_
    cases hturn : place.resume reply with
    | inl place' =>
      exact ⟨hcounted, fun hpending => hfree ((resume_goesOn hturn).pending hpending)⟩
    | inr answer => exact hcounted

/-- The key of an event that was appended is used. -/
theorem resume_appended (hs : FormedState bridge s)
    (asked : s.request processId = some (.append eventType payload key)) :
    Used processId (s.resume processId bridge program (.registry (.ok ()))) key := by
  rcases request_cases asked with ⟨answers, counters, op, rfl, hq⟩ |
    ⟨answers, counters, place, rfl, hq⟩
  · cases hq
  · refine settle_used ?_
    rcases append_place hq.symm with ⟨n, rfl, rfl⟩ | ⟨name, n, sinceMs, rfl, rfl, rfl, rfl⟩ |
      ⟨name, n, value, rfl, rfl, rfl, rfl⟩
    · exact .inl ⟨n, hs.1, rfl⟩
    · exact ⟨.inr ⟨name, n, hs.1, hs.2.le, .inr (.inl rfl)⟩, waitingKey_ne_resumedKey⟩
    · exact .inr ⟨name, n, hs.1, hs.2.le, .inr (.inr rfl)⟩

/-- The key of a wait that was set is used. -/
theorem resume_waiting {wait : WaitState} (hs : FormedState bridge s)
    (asked : s.request processId = some (.setProcessWait wait)) :
    Used processId (s.resume processId bridge program (.registry (.ok ()))) wait.key := by
  obtain ⟨answers, counters, name, n, sinceMs, rfl, rfl⟩ := setProcessWait_place asked
  refine ⟨.inr ⟨name, n, hs.1, hs.2.le, .inl rfl⟩, ?_⟩
  rintro (h | h)
  · exact waitKey_ne_waitingKey h
  · exact waitKey_ne_resumedKey h

/-- The announcement of a wait comes behind the setting of it. -/
theorem resume_announcing {answers : List Answer} {counters : Counters} {n sinceMs : Nat}
    (h : s.resume processId bridge program reply =
      .within answers counters (.announcing name n sinceMs)) :
    (reply = .registry (.ok ()) ∧ s = .within answers counters (.setting name n sinceMs)) ∨
      s = .within answers counters (.announcing name n sinceMs) := by
  have hsettle {answers' : List Answer} {counters' : Counters} {turn : Turn}
      (h : settle program answers' counters' turn =
        .within answers counters (.announcing name n sinceMs)) :
      answers' = answers ∧ counters' = counters ∧ turn = .inl (.announcing name n sinceMs) := by
    cases turn with
    | inl place =>
      obtain ⟨rfl, rfl, rfl⟩ := State.within.inj h
      exact ⟨rfl, rfl, rfl⟩
    | inr answer =>
      simp only [settle, enter] at h
      split at h <;> cases h
  cases s with
  | ended outcome => cases h
  | entering answers' counters' op => exact absurd (hsettle h).2.2 begin_ne_announcing
  | within answers' counters' place =>
    obtain ⟨rfl, rfl, hturn⟩ := hsettle h
    cases resume_goesOn hturn with
    | set => exact .inl ⟨rfl, rfl⟩
    | stays => exact .inr rfl

end Requests

end ProcessReplays
