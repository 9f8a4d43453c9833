import Lash.ReturnedTurns

/-!
# The difference of two token ledgers

The difference is taken key by key and merged row by row. It fails exactly when a counter
went down, and merged into the older ledger it gives the counters of the newer one, where
no difference and no total of one overflows. Rows whose counters are all zero are skipped on
both ways, so a key that counts nothing is not carried over.
-/

namespace LedgerDiffs

open RuntimeCommits ReturnedTurns List

def noUsage : TokenUsage := ⟨0, 0, 0, 0⟩

/-- The usage under a key in the index of a ledger, where a later row replaces an earlier one. -/
def lookupUsage : List TokenLedgerEntry → String × String → Option TokenUsage
  | [], _ => none
  | entry :: ledger, key =>
    (lookupUsage ledger key).or (if ledgerKey entry = key then some entry.usage else none)

/-- The counters of a key, which are zero where the ledger has no row for it. -/
def usageOf (ledger : List TokenLedgerEntry) (key : String × String) : TokenUsage :=
  (lookupUsage ledger key).getD noUsage

variable (before after : List TokenLedgerEntry)

def keyDelta (key : String × String) : TokenUsage :=
  let afterUsage := usageOf after key
  let beforeUsage := usageOf before key
  { inputTokens := afterUsage.inputTokens - beforeUsage.inputTokens
    outputTokens := afterUsage.outputTokens - beforeUsage.outputTokens
    cachedInputTokens := afterUsage.cachedInputTokens - beforeUsage.cachedInputTokens
    reasoningTokens := afterUsage.reasoningTokens - beforeUsage.reasoningTokens }

def keyLe (key other : String × String) : Bool :=
  decide (key.1 < other.1) || (key.1 == other.1 && decide (key.2 ≤ other.2))

/-- The keys of both ledgers, sorted and each once. -/
def ledgerKeys : List (String × String) :=
  ((before.map ledgerKey ++ after.map ledgerKey).mergeSort keyLe).dedup

def diffKeys : List (String × String) → Except String (List TokenLedgerEntry)
  | [] => .ok []
  | key :: keys =>
    let delta := keyDelta before after key
    if delta.inputTokens < 0 ∨ delta.outputTokens < 0 ∨ delta.cachedInputTokens < 0 ∨
        delta.reasoningTokens < 0 then
      .error s!"token ledger decreased for source/model ({key.1}, {key.2})"
    else
      (diffKeys keys).map fun rows =>
        if delta.total = 0 ∧ delta.cachedInputTokens = 0 then rows
        else ⟨key.1, key.2, delta⟩ :: rows

def diffTokenLedger : Except String (List TokenLedgerEntry) :=
  diffKeys before after (ledgerKeys before after)

/-! ## Ledgers as maps -/

variable {before after} {ledger rows : List TokenLedgerEntry} {key : String × String}

theorem lookupUsage_of_not_mem (absent : key ∉ ledger.map ledgerKey) :
    lookupUsage ledger key = none := by
  induction ledger with
  | nil => rfl
  | cons entry ledger ih =>
    rw [map_cons, mem_cons, not_or] at absent
    rw [lookupUsage, ih absent.2, if_neg (Ne.symm absent.1), Option.or_none]

theorem usageOf_of_not_mem (absent : key ∉ ledger.map ledgerKey) :
    usageOf ledger key = noUsage := by
  rw [usageOf, lookupUsage_of_not_mem absent, Option.getD_none]

theorem usageOf_cons {entry : TokenLedgerEntry} (new : ledgerKey entry ∉ ledger.map ledgerKey) :
    usageOf (entry :: ledger) key =
      if ledgerKey entry = key then entry.usage else usageOf ledger key := by
  by_cases hkey : ledgerKey entry = key
  · rw [if_pos hkey, usageOf, lookupUsage, if_pos hkey, lookupUsage_of_not_mem (hkey ▸ new)]
    rfl
  · rw [if_neg hkey, usageOf, lookupUsage, if_neg hkey, Option.or_none, usageOf]

theorem add_noUsage (usage : TokenUsage) : usage.add noUsage = usage := by
  simp [TokenUsage.add, noUsage]

theorem noUsage_add (usage : TokenUsage) : noUsage.add usage = usage := by
  simp [TokenUsage.add, noUsage]

theorem usageOf_addLedgerEntry {entry : TokenLedgerEntry}
    (distinct : (ledger.map ledgerKey).Nodup) :
    usageOf (addLedgerEntry ledger entry) key =
      if ledgerKey entry = key then (usageOf ledger key).add entry.usage
      else usageOf ledger key := by
  induction ledger with
  | nil =>
    rw [addLedgerEntry, usageOf_cons not_mem_nil, usageOf_of_not_mem not_mem_nil, noUsage_add]
  | cons existing ledger ih =>
    rw [map_cons, nodup_cons] at distinct
    rw [addLedgerEntry, usageOf_cons distinct.1]
    by_cases hsame : existing.source = entry.source ∧ existing.model = entry.model
    · have hkeys : ledgerKey existing = ledgerKey entry := Prod.ext hsame.1 hsame.2
      have hadd : ∀ usage, usageOf ({ existing with usage } :: ledger) key =
          if ledgerKey existing = key then usage else usageOf ledger key :=
        fun usage => usageOf_cons distinct.1
      rw [if_pos hsame, ← hkeys, hadd]
      split <;> rfl
    · have hkeys : ledgerKey existing ≠ ledgerKey entry := fun h =>
        hsame ⟨congrArg Prod.fst h, congrArg Prod.snd h⟩
      have hnew : ledgerKey existing ∉ (addLedgerEntry ledger entry).map ledgerKey := by
        rw [addLedgerEntry_keys]
        split
        · exact distinct.1
        · simpa [hkeys] using distinct.1
      rw [if_neg hsame, usageOf_cons hnew, ih distinct.2]
      by_cases hkey : ledgerKey existing = key
      · rw [if_pos hkey, if_neg (hkey ▸ hkeys.symm), if_pos hkey]
      · rw [if_neg hkey, if_neg hkey]

/-- Merging rows of different keys adds the counters of each. -/
theorem usageOf_merged (distinct : (ledger.map ledgerKey).Nodup)
    (rowsDistinct : (rows.map ledgerKey).Nodup)
    (counted : ∀ row ∈ rows, ¬ (row.usage.total = 0 ∧ row.usage.cachedInputTokens = 0)) :
    ((rows.foldl mergeLedgerEntry ledger).map ledgerKey).Nodup ∧ ∀ key,
      usageOf (rows.foldl mergeLedgerEntry ledger) key =
        (usageOf ledger key).add (usageOf rows key) := by
  induction rows generalizing ledger with
  | nil => exact ⟨distinct, fun key => (add_noUsage _).symm⟩
  | cons row rows ih =>
    rw [map_cons, nodup_cons] at rowsDistinct
    rw [forall_mem_cons] at counted
    have hmerge : mergeLedgerEntry ledger row = addLedgerEntry ledger row := if_neg counted.1
    obtain ⟨hdistinct, hkeys⟩ := ih (addLedgerEntry_nodup row distinct) rowsDistinct.2 counted.2
    rw [foldl_cons, hmerge]
    refine ⟨hdistinct, fun key => ?_⟩
    rw [hkeys, usageOf_addLedgerEntry distinct, usageOf_cons rowsDistinct.1]
    by_cases hkey : ledgerKey row = key
    · have hrows : usageOf rows key = noUsage := usageOf_of_not_mem (hkey ▸ rowsDistinct.1)
      rw [if_pos hkey, if_pos hkey, hrows, add_noUsage]
    · rw [if_neg hkey, if_neg hkey]

/-! ## The rows of a difference -/

/-- Some counter of the key is smaller afterwards. -/
def Decreased (before after : List TokenLedgerEntry) (key : String × String) : Prop :=
  (usageOf after key).inputTokens < (usageOf before key).inputTokens ∨
    (usageOf after key).outputTokens < (usageOf before key).outputTokens ∨
    (usageOf after key).cachedInputTokens < (usageOf before key).cachedInputTokens ∨
    (usageOf after key).reasoningTokens < (usageOf before key).reasoningTokens

/-- The integer is a 64-bit one. -/
def Fits (n : Int) : Prop := -2 ^ 63 ≤ n ∧ n < 2 ^ 63

instance (n : Int) : Decidable (Fits n) := inferInstanceAs (Decidable (_ ∧ _))

/-- No difference of two counters of the key overflows, nor the total of the differences where no
counter went down. -/
structure NoOverflow (before after : List TokenLedgerEntry) (key : String × String) : Prop where
  inputTokens :
    Fits ((usageOf after key).inputTokens.toInt - (usageOf before key).inputTokens.toInt)
  outputTokens :
    Fits ((usageOf after key).outputTokens.toInt - (usageOf before key).outputTokens.toInt)
  cachedInputTokens : Fits ((usageOf after key).cachedInputTokens.toInt -
    (usageOf before key).cachedInputTokens.toInt)
  reasoningTokens :
    Fits ((usageOf after key).reasoningTokens.toInt - (usageOf before key).reasoningTokens.toInt)
  total : ¬ Decreased before after key →
    Fits ((keyDelta before after key).inputTokens.toInt +
      (keyDelta before after key).outputTokens.toInt +
      (keyDelta before after key).reasoningTokens.toInt)

theorem toInt_sub_of_fits {a b : Int64} (fits : Fits (a.toInt - b.toInt)) :
    (a - b).toInt = a.toInt - b.toInt := by
  rw [Int64.toInt_sub]
  exact Int.bmod_eq_of_le fits.1 fits.2

theorem toInt_add_of_fits {a b : Int64} (fits : Fits (a.toInt + b.toInt)) :
    (a + b).toInt = a.toInt + b.toInt := by
  rw [Int64.toInt_add]
  exact Int.bmod_eq_of_le fits.1 fits.2

/-- A difference that does not overflow is negative where the counter went down. -/
theorem sub_neg_of_fits {a b : Int64} (fits : Fits (a.toInt - b.toInt)) : a - b < 0 ↔ a < b := by
  rw [Int64.lt_iff_toInt_lt, Int64.lt_iff_toInt_lt, toInt_sub_of_fits fits, Int64.toInt_zero]
  omega

variable {keys : List (String × String)}

theorem decreased_iff (fits : NoOverflow before after key) :
    ((keyDelta before after key).inputTokens < 0 ∨ (keyDelta before after key).outputTokens < 0 ∨
      (keyDelta before after key).cachedInputTokens < 0 ∨
      (keyDelta before after key).reasoningTokens < 0) ↔ Decreased before after key := by
  simp only [keyDelta, Decreased, sub_neg_of_fits fits.inputTokens,
    sub_neg_of_fits fits.outputTokens, sub_neg_of_fits fits.cachedInputTokens,
    sub_neg_of_fits fits.reasoningTokens]

theorem add_keyDelta :
    (usageOf before key).add (keyDelta before after key) = usageOf after key := by
  have hback : ∀ a b : Int64, a + (b - a) = b := fun a b => by
    rw [Int64.add_comm, Int64.sub_add_cancel]
  simp [TokenUsage.add, keyDelta, hback]

/-- A difference without a decrease counts nothing exactly when all its counters are zero. -/
theorem uncounted_iff (fits : NoOverflow before after key)
    (kept : ¬ Decreased before after key) :
    ((keyDelta before after key).total = 0 ∧ (keyDelta before after key).cachedInputTokens = 0) ↔
      keyDelta before after key = noUsage := by
  have htotal := fits.total kept
  rw [← decreased_iff fits] at kept
  simp only [not_or, Int64.lt_iff_toInt_lt, Int64.toInt_zero, Int.not_lt] at kept
  obtain ⟨hinput, houtput, -, hreasoning⟩ := kept
  constructor
  · rintro ⟨hzero, hcached⟩
    have hsum := congrArg Int64.toInt hzero
    have hfirst : Fits ((keyDelta before after key).inputTokens.toInt +
        (keyDelta before after key).outputTokens.toInt) := by
      rw [Fits] at htotal ⊢
      omega
    rw [← toInt_add_of_fits hfirst] at htotal
    rw [TokenUsage.total, toInt_add_of_fits htotal, toInt_add_of_fits hfirst,
      Int64.toInt_zero] at hsum
    cases hdelta : keyDelta before after key
    simp only [hdelta] at hinput houtput hreasoning hsum hcached
    simp only [noUsage, TokenUsage.mk.injEq, ← Int64.toInt_inj, hcached, Int64.toInt_zero]
    refine ⟨?_, ?_, trivial, ?_⟩ <;> omega
  · intro hdelta
    rw [hdelta]
    exact ⟨rfl, rfl⟩

theorem noOverflow_of_same (same : usageOf after key = usageOf before key) :
    NoOverflow before after key := by
  have hdelta : keyDelta before after key = noUsage := by simp [keyDelta, same, noUsage]
  refine ⟨?_, ?_, ?_, ?_, fun _ => ?_⟩
  · rw [same, Int.sub_self]
    decide
  · rw [same, Int.sub_self]
    decide
  · rw [same, Int.sub_self]
    decide
  · rw [same, Int.sub_self]
    decide
  · rw [hdelta]
    decide

variable (fits : ∀ key, NoOverflow before after key)
include fits

theorem diffKeys_error : (∃ error, diffKeys before after keys = .error error) ↔
      ∃ key ∈ keys, Decreased before after key := by
  induction keys with
  | nil => simp [diffKeys]
  | cons key keys ih =>
    rw [diffKeys, exists_mem_cons_iff, ← ih]
    by_cases hkey : Decreased before after key
    · rw [if_pos ((decreased_iff (fits key)).mpr hkey)]
      exact iff_of_true ⟨_, rfl⟩ (.inl hkey)
    · rw [if_neg ((decreased_iff (fits key)).not.mpr hkey)]
      cases diffKeys before after keys <;> simp [Except.map, hkey]

theorem diffKeys_ok (distinct : keys.Nodup) (h : diffKeys before after keys = .ok rows) :
    rows.map ledgerKey <+ keys ∧
      (∀ row ∈ rows, ¬ (row.usage.total = 0 ∧ row.usage.cachedInputTokens = 0)) ∧
      ∀ key ∈ keys, usageOf rows key = keyDelta before after key := by
  induction keys generalizing rows with
  | nil =>
    cases h
    exact ⟨.slnil, by simp, by simp⟩
  | cons key keys ih =>
    rw [nodup_cons] at distinct
    rw [diffKeys] at h
    split at h
    · cases h
    · next hkept =>
      cases hrest : diffKeys before after keys with
      | error error =>
        rw [hrest] at h
        cases h
      | ok rest =>
        obtain ⟨hsub, hcounted, hkeys⟩ := ih distinct.2 hrest
        have hnew : key ∉ rest.map ledgerKey := fun hmem => distinct.1 (hsub.subset hmem)
        rw [hrest] at h
        obtain rfl := Except.ok.inj h
        dsimp only
        split
        · next hzero =>
          refine ⟨hsub.cons _, hcounted, forall_mem_cons.mpr ⟨?_, hkeys⟩⟩
          rw [usageOf_of_not_mem hnew,
            (uncounted_iff (fits key) ((decreased_iff (fits key)).not.mp hkept)).mp hzero]
        · next hzero =>
          refine ⟨hsub.cons_cons _, forall_mem_cons.mpr ⟨hzero, hcounted⟩, fun other hother => ?_⟩
          refine (usageOf_cons hnew).trans ?_
          by_cases hsame : key = other
          · exact hsame ▸ if_pos rfl
          · exact (if_neg hsame).trans
              (hkeys other ((mem_cons.mp hother).resolve_left (Ne.symm hsame)))

/-- The difference of two ledgers fails exactly when a counter of some key went down. Otherwise its
rows, merged into the first ledger, give every key the counters it has in the second. -/
theorem diff_merges (distinct : (before.map ledgerKey).Nodup) :
    ((∃ error, diffTokenLedger before after = .error error) ↔ ∃ key, Decreased before after key) ∧
    ∀ rows, diffTokenLedger before after = .ok rows →
      ((rows.foldl mergeLedgerEntry before).map ledgerKey).Nodup ∧
      ∀ key, usageOf (rows.foldl mergeLedgerEntry before) key = usageOf after key := by
  have hkeys : ∀ {key}, key ∈ ledgerKeys before after ↔
      key ∈ before.map ledgerKey ∨ key ∈ after.map ledgerKey := by
    intro key
    rw [ledgerKeys, mem_dedup, mem_mergeSort, mem_append]
  constructor
  · rw [diffTokenLedger, diffKeys_error fits]
    refine ⟨fun ⟨key, _, hkey⟩ => ⟨key, hkey⟩, fun ⟨key, hkey⟩ => ⟨key, ?_, hkey⟩⟩
    by_contra hmem
    rw [hkeys, not_or] at hmem
    simp [Decreased, usageOf_of_not_mem hmem.1, usageOf_of_not_mem hmem.2] at hkey
  · intro rows hrows
    obtain ⟨hsub, hcounted, hdeltas⟩ := diffKeys_ok fits (nodup_dedup _) hrows
    obtain ⟨hdistinct, hmerged⟩ :=
      usageOf_merged distinct (hsub.nodup (nodup_dedup _)) hcounted
    refine ⟨hdistinct, fun key => ?_⟩
    rw [hmerged]
    by_cases hmem : key ∈ ledgerKeys before after
    · rw [hdeltas key hmem, add_keyDelta]
    · have hrow : key ∉ rows.map ledgerKey := fun h => hmem (hsub.subset h)
      rw [hkeys, not_or] at hmem
      rw [usageOf_of_not_mem hmem.1, usageOf_of_not_mem hmem.2, usageOf_of_not_mem hrow,
        add_noUsage]

omit fits

/-- A ledger of two rows, one of which grows, and one row is new. -/
def ledgerBefore : List TokenLedgerEntry :=
  [⟨"turn", "m", ⟨1, 2, 0, 0⟩⟩, ⟨"turn", "n", ⟨5, 0, 3, 1⟩⟩]

def ledgerAfter : List TokenLedgerEntry :=
  [⟨"turn", "n", ⟨6, 0, 3, 1⟩⟩, ⟨"turn", "m", ⟨1, 2, 0, 0⟩⟩, ⟨"tool", "m", ⟨0, 0, 2, 0⟩⟩]

theorem diff_merges_grown :
    ((∃ error, diffTokenLedger ledgerBefore ledgerAfter = .error error) ↔
      ∃ key, Decreased ledgerBefore ledgerAfter key) ∧
    ∀ rows, diffTokenLedger ledgerBefore ledgerAfter = .ok rows →
      ((rows.foldl mergeLedgerEntry ledgerBefore).map ledgerKey).Nodup ∧
      ∀ key, usageOf (rows.foldl mergeLedgerEntry ledgerBefore) key = usageOf ledgerAfter key := by
  refine diff_merges (fun key => ?_) (by decide)
  by_cases hrows : key = ("turn", "n") ∨ key = ("tool", "m")
  · rcases hrows with rfl | rfl
    · exact ⟨by decide, by decide, by decide, by decide, fun _ => by decide⟩
    · exact ⟨by decide, by decide, by decide, by decide, fun _ => by decide⟩
  · rw [not_or] at hrows
    refine noOverflow_of_same ?_
    simp [usageOf, lookupUsage, ledgerBefore, ledgerAfter, ledgerKey, Ne.symm hrows.1,
      Ne.symm hrows.2]

/-- A row that counts nothing is not carried over, a row is lost whose total wraps around to zero,
and a difference that overflows is taken for a decrease. -/
theorem diff_skips_zero_row :
    (diffTokenLedger [] [⟨"turn", "m", noUsage⟩] = .ok [] ∧
      lookupUsage ([].foldl mergeLedgerEntry []) ("turn", "m") ≠
        lookupUsage [⟨"turn", "m", noUsage⟩] ("turn", "m")) ∧
    diffTokenLedger [] [⟨"turn", "m", ⟨Int64.maxValue, Int64.maxValue, 0, 2⟩⟩] = .ok [] ∧
    diffTokenLedger [⟨"turn", "m", ⟨-1, 0, 0, 0⟩⟩] [⟨"turn", "m", ⟨Int64.maxValue, 0, 0, 0⟩⟩] =
      .error "token ledger decreased for source/model (turn, m)" := by
  refine ⟨⟨?_, by decide⟩, ?_, ?_⟩
  · rw [diffTokenLedger, ledgerKeys, map_nil, nil_append, map_singleton, mergeSort_singleton]
    decide
  · rw [diffTokenLedger, ledgerKeys, map_nil, nil_append, map_singleton, mergeSort_singleton]
    decide
  · have hkeys : ledgerKeys [⟨"turn", "m", ⟨-1, 0, 0, 0⟩⟩]
        [⟨"turn", "m", ⟨Int64.maxValue, 0, 0, 0⟩⟩] = [("turn", "m")] := by
      simp [ledgerKeys, ledgerKey, mergeSort, keyLe]
    rw [diffTokenLedger, hkeys]
    rfl

end LedgerDiffs
