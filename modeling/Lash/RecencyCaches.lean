/-!
# Caches that keep the most recent results

A cache holds at most `capacity` entries, the least recently used first. A lookup says which
entries would answer it and what to compute when none does; an entry that answers moves to
the back, a computed one pushes the front one out when there is no room.

`Cache.lookups_of_agree`: where every entry that answers a lookup was computed for a lookup
that would have computed the same, a run answers as if nothing were cached.
-/

namespace RecencyCaches

open List

structure Cache (E : Type) where
  entries : List E
  hits : Nat
  misses : Nat
  evictions : Nat
  capacity : Nat

variable {E D R ε : Type}

namespace Cache

def withCapacity (capacity : Nat) : Cache E := ⟨[], 0, 0, 0, capacity⟩

/-- The entry that answers: the last one used, or else the first that matches. -/
def found (matching : E → Bool) (c : Cache E) : Option E :=
  (c.entries.getLast?.filter matching).or (c.entries.find? matching)

def insert (entry : E) (c : Cache E) : Cache E :=
  if c.capacity = 0 then c
  else if c.entries.length = c.capacity then
    { c with entries := c.entries.tail ++ [entry], evictions := c.evictions + 1 }
  else { c with entries := c.entries ++ [entry] }

def getOrCompute (matching : E → Bool) (compute : Except ε E) (c : Cache E) :
    Except ε E × Cache E :=
  match c.entries.getLast?.filter matching with
  | some entry => (.ok entry, { c with hits := c.hits + 1 })
  | none =>
    match c.entries.find? matching with
    | some entry =>
      (.ok entry,
        { c with hits := c.hits + 1, entries := c.entries.eraseP matching ++ [entry] })
    | none =>
      let missed := { c with misses := c.misses + 1 }
      match compute with
      | .error error => (.error error, missed)
      | .ok entry => (.ok entry, missed.insert entry)

/-- The answers of a run of lookups. -/
def lookups (matching : R → E → Bool) (compute : R → Except ε E) :
    Cache E → List R → List (Except ε E)
  | _, [] => []
  | c, r :: rest =>
    let step := c.getOrCompute (matching r) (compute r)
    step.1 :: lookups matching compute step.2 rest

/-! ## One lookup -/

variable {c : Cache E}

theorem found_matches {matching : E → Bool} {entry : E} (h : c.found matching = some entry) :
    entry ∈ c.entries ∧ matching entry = true := by
  rw [found, Option.or_eq_some_iff] at h
  rcases h with hlast | ⟨-, hfind⟩
  · rw [Option.filter_eq_some_iff] at hlast
    exact ⟨mem_of_getLast? hlast.1, hlast.2⟩
  · exact ⟨mem_of_find?_eq_some hfind, find?_some hfind⟩

theorem getOrCompute_answer (matching : E → Bool) (compute : Except ε E) (c : Cache E) :
    (c.getOrCompute matching compute).1 = match c.found matching with
      | some entry => .ok entry
      | none => compute := by
  unfold getOrCompute found
  cases c.entries.getLast?.filter matching with
  | some entry => rfl
  | none =>
    cases c.entries.find? matching with
    | some entry => rfl
    | none =>
      cases compute with
      | error error | ok entry => rfl

theorem mem_insert {entry e : E} (h : e ∈ (c.insert entry).entries) :
    e ∈ c.entries ∨ e = entry := by
  unfold insert at h
  split at h
  · exact .inl h
  · split at h
    · rcases mem_append.mp h with h | h
      · exact .inl (mem_of_mem_tail h)
      · exact .inr (mem_singleton.mp h)
    · rcases mem_append.mp h with h | h
      · exact .inl h
      · exact .inr (mem_singleton.mp h)

/-- Every entry was there before or has just been computed. -/
theorem mem_getOrCompute {matching : E → Bool} {compute : Except ε E} {e : E}
    (h : e ∈ (c.getOrCompute matching compute).2.entries) : e ∈ c.entries ∨ compute = .ok e := by
  unfold getOrCompute at h
  split at h
  · exact .inl h
  · split at h
    next entry hfind =>
      rcases mem_append.mp h with h | h
      · exact .inl (mem_of_mem_eraseP h)
      · rw [mem_singleton.mp h]
        exact .inl (mem_of_find?_eq_some hfind)
    next =>
      split at h
      · exact .inl h
      next entry =>
        rcases mem_insert h with h | h
        · exact .inl h
        · exact .inr (by rw [h])

/-! ## What the entries were computed for -/

def map (f : D → E) (c : Cache D) : Cache E := { c with entries := c.entries.map f }

theorem insert_map (f : D → E) (entry : D) (c : Cache D) :
    (c.insert entry).map f = (c.map f).insert (f entry) := by
  unfold insert map
  simp only [length_map]
  split
  · rfl
  · split
    · simp
    · simp

/-- Entries may carry more than a lookup reads of them. -/
theorem getOrCompute_map (f : D → E) (matching : E → Bool) (compute : Except ε D) (c : Cache D) :
    (c.map f).getOrCompute matching (f <$> compute) =
      (f <$> (c.getOrCompute (matching ∘ f) compute).1,
        (c.getOrCompute (matching ∘ f) compute).2.map f) := by
  have hlast : (c.map f).entries.getLast?.filter matching =
      (c.entries.getLast?.filter (matching ∘ f)).map f := by
    simp only [map, getLast?_map, Option.filter_map, Function.comp_def]
  have hfind : (c.map f).entries.find? matching = (c.entries.find? (matching ∘ f)).map f := by
    simp only [map, find?_map, Function.comp_def]
  unfold getOrCompute
  rw [hlast, hfind]
  cases c.entries.getLast?.filter (matching ∘ f) with
  | some entry => rfl
  | none =>
    cases c.entries.find? (matching ∘ f) with
    | some entry =>
      refine Prod.ext rfl ?_
      simp [map, eraseP_map, Function.comp_def]
    | none =>
      cases compute with
      | error error => rfl
      | ok entry =>
        exact Prod.ext rfl (insert_map f entry { c with misses := c.misses + 1 }).symm

section Traces

variable (matching : R → E → Bool) (compute : R → Except ε E)

/-- A lookup in the cache whose entries remember what they were computed for. -/
def traced (c : Cache (R × E)) (r : R) : Except ε (R × E) × Cache (R × E) :=
  c.getOrCompute (fun entry => matching r entry.2) ((r, ·) <$> compute r)

/-- In a run from `c`, every entry that answers a lookup was computed for one that `agree`s. -/
def HitsAgree (agree : R → R → Prop) : Cache (R × E) → List R → Prop
  | _, [] => True
  | c, r :: rest =>
    (∀ entry, c.found (fun entry => matching r entry.2) = some entry → agree entry.1 r) ∧
      HitsAgree agree (traced matching compute c r).2 rest

/-- Each entry is what its lookup computes. -/
def Filled (c : Cache (R × E)) : Prop := ∀ entry ∈ c.entries, compute entry.1 = .ok entry.2

variable {matching compute}

theorem Filled.withCapacity (capacity : Nat) : Filled compute (withCapacity capacity) :=
  fun _ h => nomatch h

theorem mem_traced {c : Cache (R × E)} {r : R} {entry : R × E}
    (h : entry ∈ (traced matching compute c r).2.entries) :
    entry ∈ c.entries ∨ entry.1 = r ∧ compute r = .ok entry.2 := by
  rcases mem_getOrCompute h with hold | hnew
  · exact .inl hold
  · right
    cases hcompute : compute r with
    | error error =>
      rw [hcompute] at hnew
      cases hnew
    | ok e =>
      rw [hcompute] at hnew
      cases hnew
      exact ⟨rfl, rfl⟩

theorem Filled.traced {c : Cache (R × E)} (filled : Filled compute c) (r : R) :
    Filled compute (traced matching compute c r).2 := by
  intro entry hmem
  rcases mem_traced hmem with hold | ⟨hr, hcompute⟩
  · exact filled entry hold
  · rw [hr]
    exact hcompute

/-- Forgetting what the entries were computed for gives the cache itself. -/
theorem traced_erased (c : Cache (R × E)) (r : R) :
    (c.map Prod.snd).getOrCompute (matching r) (compute r) =
      (Prod.snd <$> (traced matching compute c r).1,
        (traced matching compute c r).2.map Prod.snd) := by
  have hcompute : Prod.snd <$> ((r, ·) <$> compute r : Except ε (R × E)) = compute r := by
    cases compute r with
    | error error | ok e => rfl
  have h := getOrCompute_map Prod.snd (matching r) ((r, ·) <$> compute r : Except ε (R × E)) c
  rwa [hcompute] at h

variable {agree : R → R → Prop}

theorem lookups_of_agree_from
    (same : ∀ r r' e, agree r r' → matching r' e = true → compute r = .ok e → compute r' = .ok e)
    (requests : List R) (c : Cache (R × E)) (filled : Filled compute c)
    (hits : HitsAgree matching compute agree c requests) :
    (c.map Prod.snd).lookups matching compute requests = requests.map compute := by
  induction requests generalizing c with
  | nil => rfl
  | cons r rest ih =>
    obtain ⟨now, later⟩ := hits
    have hanswer : Prod.snd <$> (traced matching compute c r).1 = compute r := by
      rw [traced, getOrCompute_answer]
      cases hfound : c.found fun entry => matching r entry.2 with
      | none =>
        cases compute r with
        | error error | ok e => rfl
      | some entry =>
        obtain ⟨hmem, hmatches⟩ := found_matches hfound
        exact (same entry.1 r entry.2 (now entry hfound) hmatches
          (filled entry hmem)).symm
    simp only [lookups, traced_erased, map_cons, hanswer]
    rw [ih _ (filled.traced r) later]

/-- A run from the empty cache whose hits agree answers as if nothing were cached. -/
theorem lookups_of_agree
    (same : ∀ r r' e, agree r r' → matching r' e = true → compute r = .ok e → compute r' = .ok e)
    (capacity : Nat) (requests : List R)
    (hits : HitsAgree matching compute agree (withCapacity capacity) requests) :
    (withCapacity capacity).lookups matching compute requests = requests.map compute :=
  lookups_of_agree_from same requests (withCapacity capacity) (Filled.withCapacity capacity) hits

end Traces

end Cache

end RecencyCaches
