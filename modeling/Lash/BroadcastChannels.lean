import Mathlib.Algebra.Group.Nat.Defs
import Mathlib.Logic.Function.Basic
import Mathlib.Data.List.Basic

/-!
# Broadcast channels

Every receiver of a channel reads every value that is sent after it was made. The channel
keeps at least as many values as it was asked to; a receiver that is further behind is told
how many values it has lost and goes on with the oldest one that is kept. The operations are
a parameter with these laws.
-/

namespace BroadcastChannels

open List Function

inductive Received (A : Type) where
  | value (a : A)
  | lagged (lost : Nat)
  | closed
  | empty
  deriving DecidableEq

/-- The operations on the state of all channels, in which senders and receivers are numbers. The
laws are about the last two fields: the capacity a channel was asked for, while its sender stands,
and the channel of a receiver with the values sent there that it has not passed. -/
structure Broadcast (A : Type) where
  Hub : Type
  new : Hub
  create : Hub → Nat → Option (Nat × Nat × Hub)
  subscribe : Hub → Nat → Nat × Hub
  send : Hub → Nat → A → Option Hub
  close : Hub → Nat → Hub
  dropReceiver : Hub → Nat → Hub
  recv : Hub → Nat → Received A × Hub
  capacityOf : Hub → Nat → Option Nat
  unread : Hub → Nat → Option (Nat × List A)

variable {A : Type}

/-- Making a channel of a larger capacity panics. -/
def maxChannelCapacity : Nat := (2 ^ 64 - 1) / 2

/-- A value that is sent on the channel is one more to read for its receivers. -/
def push (c : Nat) (a : A) (held : Nat × List A) : Nat × List A :=
  if held.1 = c then (held.1, held.2 ++ [a]) else held

/-- What a receiver can get: the next value, word of the values it has lost, of which the channel
still keeps as many as it was asked to, or nothing where nothing is left. -/
inductive Reads (capacity : Nat) : Received A → List A → List A → Prop
  | value {a : A} {rest : List A} : Reads capacity (.value a) (a :: rest) rest
  | lagged {lost rest : List A} (missed : lost ≠ []) (kept : capacity ≤ rest.length) :
      Reads capacity (.lagged lost.length) (lost ++ rest) rest
  | empty : Reads capacity .empty [] []

/-- What is documented of the operations: a channel of a capacity in range can be made, it and the
receivers that are made are new, sending succeeds where somebody receives, and a receiver loses no
value that its channel has to keep. -/
structure Documented (b : Broadcast A) : Prop where
  creates : ∀ {hub capacity}, 0 < capacity → capacity ≤ maxChannelCapacity →
    b.create hub capacity ≠ none
  created : ∀ {hub capacity c r hub'}, b.create hub capacity = some (c, r, hub') →
    b.capacityOf hub c = none ∧ b.unread hub r = none ∧
      b.capacityOf hub' = update (b.capacityOf hub) c (some capacity) ∧
      b.unread hub' = update (b.unread hub) r (some (c, []))
  subscribed : ∀ {hub c r hub'}, b.capacityOf hub c ≠ none → b.subscribe hub c = (r, hub') →
    b.unread hub r = none ∧ b.capacityOf hub' = b.capacityOf hub ∧
      b.unread hub' = update (b.unread hub) r (some (c, []))
  sends : ∀ {hub c r a values}, b.capacityOf hub c ≠ none → b.unread hub r = some (c, values) →
    b.send hub c a ≠ none
  sent : ∀ {hub c a hub'}, b.send hub c a = some hub' →
    b.capacityOf hub' = b.capacityOf hub ∧ ∀ r, b.unread hub' r = (b.unread hub r).map (push c a)
  closed : ∀ {hub c}, b.capacityOf (b.close hub c) = update (b.capacityOf hub) c none ∧
    b.unread (b.close hub c) = b.unread hub
  dropped : ∀ {hub r}, b.capacityOf (b.dropReceiver hub r) = b.capacityOf hub ∧
    b.unread (b.dropReceiver hub r) = update (b.unread hub) r none
  received : ∀ {hub r c capacity values}, b.unread hub r = some (c, values) →
    b.capacityOf hub c = some capacity →
    b.capacityOf (b.recv hub r).2 = b.capacityOf hub ∧
      ∃ rest, Reads capacity (b.recv hub r).1 values rest ∧
        b.unread (b.recv hub r).2 = update (b.unread hub) r (some (c, rest))

/-! ## Channels that keep as many values as they are asked to -/

/-- The channels with their capacity, and whether the sender stands. -/
structure PlainHub (A : Type) where
  channels : List (Nat × Bool)
  receivers : List (Option (Nat × List A))

def PlainHub.capacityOf (hub : PlainHub A) (c : Nat) : Option Nat :=
  hub.channels[c]?.bind fun channel => if channel.2 then some channel.1 else none

def PlainHub.unread (hub : PlainHub A) (r : Nat) : Option (Nat × List A) := hub.receivers[r]?.join

/-- What a receiver gets of these values, and what is left of them. -/
def readValues (capacity : Nat) (isOpen : Bool) : List A → Received A × List A
  | [] => (if isOpen then .empty else .closed, [])
  | a :: rest =>
    if rest.length < capacity then (.value a, rest)
    else (.lagged (rest.length + 1 - capacity), (a :: rest).drop (rest.length + 1 - capacity))

def plain (A : Type) : Broadcast A where
  Hub := PlainHub A
  new := ⟨[], []⟩
  create hub capacity :=
    if 0 < capacity ∧ capacity ≤ maxChannelCapacity then
      some (hub.channels.length, hub.receivers.length,
        ⟨hub.channels ++ [(capacity, true)], hub.receivers ++ [some (hub.channels.length, [])]⟩)
    else none
  subscribe hub c :=
    (hub.receivers.length, { hub with receivers := hub.receivers ++ [some (c, [])] })
  send hub c a :=
    if hub.receivers.any (·.any (·.1 = c)) then
      some { hub with receivers := hub.receivers.map (·.map (push c a)) }
    else none
  close hub c := { hub with channels := hub.channels.modify c fun channel => (channel.1, false) }
  dropReceiver hub r := { hub with receivers := hub.receivers.set r none }
  recv hub r :=
    match hub.unread r with
    | none => (.closed, hub)
    | some (c, values) =>
      let channel := hub.channels[c]?.getD (0, false)
      let (received, rest) := readValues channel.1 channel.2 values
      (received, { hub with receivers := hub.receivers.set r (some (c, rest)) })
  capacityOf := PlainHub.capacityOf
  unread := PlainHub.unread

theorem reads_readValues (capacity : Nat) (values : List A) :
    Reads capacity (readValues capacity true values).1 values
      (readValues capacity true values).2 := by
  cases values with
  | nil => exact .empty
  | cons a rest =>
    rw [readValues]
    split
    · exact .value
    · generalize hlost : rest.length + 1 - capacity = lost
      -- the lost values are those before the ones that are kept
      have hlength : ((a :: rest).take lost).length = lost := by
        rw [length_take, length_cons]
        omega
      have hreads : Reads capacity (.lagged ((a :: rest).take lost).length)
          ((a :: rest).take lost ++ (a :: rest).drop lost) ((a :: rest).drop lost) := by
        refine .lagged (ne_nil_of_length_pos (by omega)) ?_
        rw [length_drop, length_cons]
        omega
      rwa [hlength, take_append_drop] at hreads

/-- A new last receiver is one more entry. -/
theorem unread_concat (receivers : List (Option (Nat × List A)))
    (channels channels' : List (Nat × Bool)) (held : Nat × List A) :
    (PlainHub.mk channels' (receivers ++ [some held])).unread =
      update (PlainHub.mk channels receivers).unread receivers.length (some held) := by
  funext r
  rw [update_apply]
  split
  · rename_i hr
    simp [PlainHub.unread, hr]
  · rename_i hr
    rcases Nat.lt_or_ge r receivers.length with hlt | hge
    · simp [PlainHub.unread, getElem?_append_left hlt]
    · have hbeyond : (receivers ++ [some held])[r]? = none := by
        rw [getElem?_eq_none_iff, length_append, length_singleton]
        omega
      simp only [PlainHub.unread, hbeyond, getElem?_eq_none hge]

/-- A receiver that stands is set to another value. -/
theorem unread_set {hub : PlainHub A} {r : Nat} {held : Option (Nat × List A)}
    (stands : r < hub.receivers.length ∨ held = none) :
    PlainHub.unread { hub with receivers := hub.receivers.set r held } =
      update hub.unread r held := by
  funext r'
  rw [update_apply, PlainHub.unread, getElem?_set]
  by_cases hr : r' = r
  · subst hr
    rcases stands with hlt | rfl
    · simp [hlt]
    · by_cases hlt : r' < hub.receivers.length <;> simp [hlt]
  · rw [if_neg (Ne.symm hr), if_neg hr, PlainHub.unread]

theorem plain_documented (A : Type) : Documented (plain A) where
  creates hpos hle h := by simp [plain, hpos, hle] at h
  created {hub capacity c r hub'} h := by
    dsimp only [plain] at h hub hub'
    split at h
    · simp only [Option.some.injEq, Prod.mk.injEq] at h
      obtain ⟨rfl, rfl, rfl⟩ := h
      refine ⟨by simp [plain, PlainHub.capacityOf], by simp [plain, PlainHub.unread], ?_,
        unread_concat _ _ _ _⟩
      funext c
      rw [update_apply]
      split
      · rename_i hc
        simp [plain, PlainHub.capacityOf, hc]
      · rename_i hc
        rcases Nat.lt_or_ge c hub.channels.length with hlt | hge
        · simp [plain, PlainHub.capacityOf, getElem?_append_left hlt]
        · have hbeyond : (hub.channels ++ [(capacity, true)])[c]? = none := by
            rw [getElem?_eq_none_iff, length_append, length_singleton]
            omega
          simp only [plain, PlainHub.capacityOf, hbeyond, getElem?_eq_none hge]
    · cases h
  subscribed {hub c r hub'} _ h := by
    obtain ⟨rfl, rfl⟩ := Prod.mk.inj h
    exact ⟨by simp [plain, PlainHub.unread], rfl, unread_concat _ _ _ _⟩
  sends {hub c r a values} _ h hnone := by
    have hlistens : hub.receivers.any (·.any (·.1 = c)) = true :=
      any_eq_true.mpr ⟨_, mem_of_getElem? (Option.join_eq_some_iff.mp h), by simp⟩
    simp [plain, hlistens] at hnone
  sent {hub c a hub'} h := by
    dsimp only [plain] at h hub hub'
    split at h
    · obtain rfl := Option.some.inj h
      refine ⟨rfl, fun r => ?_⟩
      dsimp only [plain, PlainHub.unread]
      rw [getElem?_map]
      cases hub.receivers[r]? with
      | none => rfl
      | some held => rfl
    · cases h
  closed {hub c} := by
    refine ⟨?_, rfl⟩
    funext c'
    rw [update_apply]
    by_cases hc : c' = c
    · subst hc
      cases hchannel : hub.channels[c']? <;> simp [plain, PlainHub.capacityOf, hchannel]
    · cases hchannel : hub.channels[c']? <;>
        simp [plain, PlainHub.capacityOf, hchannel, hc, Ne.symm hc]
  dropped := ⟨rfl, unread_set (.inr rfl)⟩
  received {hub r c capacity values} hunread hcapacity := by
    obtain ⟨⟨capacity', isOpen⟩, hchannel, hopen⟩ := Option.bind_eq_some_iff.mp hcapacity
    dsimp only at hopen
    split at hopen
    · rename_i hstands
      obtain rfl := Option.some.inj hopen
      subst hstands
      have hrecv : (plain A).recv hub r = ((readValues capacity' true values).1, { hub with
          receivers := hub.receivers.set r (some (c, (readValues capacity' true values).2)) }) := by
        dsimp only [plain] at hunread ⊢
        rw [hunread]
        dsimp only
        rw [hchannel, Option.getD_some]
      have hlt := (List.getElem?_eq_some_iff.mp (Option.join_eq_some_iff.mp hunread)).1
      rw [hrecv]
      exact ⟨rfl, _, reads_readValues capacity' values, unread_set (.inl hlt)⟩
    · cases hopen

/-! ## What the items of a receiver stand for -/

/-- The items stand for these values: a lag of `n` stands for `n` values. -/
inductive Covers : List (Received A) → List A → Prop
  | nil : Covers [] []
  | value {a : A} {items : List (Received A)} {values : List A} (rest : Covers items values) :
      Covers (.value a :: items) (a :: values)
  | lagged {lost : List A} {items : List (Received A)} {values : List A}
      (rest : Covers items values) : Covers (.lagged lost.length :: items) (lost ++ values)

theorem Covers.append {items items' : List (Received A)} {values values' : List A}
    (h : Covers items values) (h' : Covers items' values') :
    Covers (items ++ items') (values ++ values') := by
  induction h with
  | nil => exact h'
  | value _ ih => exact .value ih
  | @lagged lost _ _ _ ih =>
    rw [append_assoc]
    exact .lagged ih

end BroadcastChannels
