import Lash.ToolRegistries

/-!
# Rebinding stored tools to the sources

A restore, a fork or an applied state asks all registered sources for every stored id. What
comes back depends on the id alone: the manifest of the one source that answers, or the
stored manifest as an orphan where nobody does.
-/

namespace ToolRebinding

open NameTables ToolRegistries ToolRegistry List

variable {C D : Type} {sources : Table (ToolSource C D)} {mode : RebindMode}

def reboundEntry (sources : Table (ToolSource C D)) (id : String)
    (entry : ToolStateEntry C D) : ToolRegistryEntry C D :=
  match idMatches sources id with
  | [] => { ToolRegistryEntry.orphaned entry.manifest with member := entry.member }
  | (sourceId, manifest) :: _ =>
    { ToolRegistryEntry.new manifest sourceId with member := entry.member }

structure Rebinds (sources : Table (ToolSource C D)) (mode : RebindMode) (id : String)
    (entry : ToolStateEntry C D) : Prop where
  keyed : id = entry.manifest.id
  single : (idMatches sources id).length ≤ 1
  answered : mode = .rejectUnresolved → entry.orphaned = false → idMatches sources id ≠ []

/-- A stored table that validation and rebinding accept. -/
structure Admitted (sources : Table (ToolSource C D)) (mode : RebindMode)
    (entries : Table (ToolStateEntry C D)) : Prop where
  valid : validateUniqueManifestEntries entries = .ok ()
  rebinds : ∀ id entry, entries.get id = some entry → Rebinds sources mode id entry

variable {rebound : ReboundTools C D}
  {rest : List (String × ToolStateEntry C D)} {entry : ToolStateEntry C D} {id : String}

theorem rebindEntries_cons (h : Rebinds sources mode id entry) :
    rebindEntries sources mode ((id, entry) :: rest) rebound = rebindEntries sources mode rest
        ⟨rebound.tools.set id (reboundEntry sources id entry),
          rebound.orphaned ++ if (idMatches sources id).isEmpty then [id] else []⟩ := by
  have hsingle := h.single
  rw [rebindEntries, if_neg (not_not.mpr h.keyed)]
  unfold reboundEntry
  cases hmatches : idMatches sources id with
  | nil =>
    have hnot : ¬ (mode = .rejectUnresolved ∧ entry.orphaned = false) := fun hboth =>
      h.answered hboth.1 hboth.2 hmatches
    simp only [if_neg hnot, isEmpty_nil, if_true]
  | cons first others =>
    cases others with
    | nil => simp
    | cons second others =>
      rw [hmatches] at hsingle
      simp at hsingle

theorem rebindEntries_error (h : ¬ Rebinds sources mode id entry) :
    ∃ error, rebindEntries sources mode ((id, entry) :: rest) rebound = .error error := by
  rw [rebindEntries]
  by_cases hkeyed : id = entry.manifest.id
  · rw [if_neg (not_not.mpr hkeyed)]
    cases hmatches : idMatches sources id with
    | nil =>
      by_cases hmode : mode = .rejectUnresolved ∧ entry.orphaned = false
      · exact ⟨_, if_pos hmode⟩
      · refine absurd ⟨hkeyed, by rw [hmatches]; simp, fun hreject hlive => ?_⟩ h
        exact absurd ⟨hreject, hlive⟩ hmode
    | cons first others =>
      cases others with
      | nil =>
        refine absurd ⟨hkeyed, by rw [hmatches]; simp, fun _ _ => ?_⟩ h
        rw [hmatches]
        exact cons_ne_nil _ _
      | cons second others => exact ⟨_, rfl⟩
  · exact ⟨_, if_pos hkeyed⟩

variable {entries : List (String × ToolStateEntry C D)}

theorem rebindEntries_ok (h : ∀ entry ∈ entries, Rebinds sources mode entry.1 entry.2) :
    rebindEntries sources mode entries rebound = .ok ⟨entries.foldl (fun tools entry =>
          tools.set entry.1 (reboundEntry sources entry.1 entry.2)) rebound.tools,
        rebound.orphaned ++ (entries.map Prod.fst).filter fun id =>
          (idMatches sources id).isEmpty⟩ := by
  induction entries generalizing rebound with
  | nil => simp [rebindEntries]
  | cons first rest ih =>
    obtain ⟨id, entry⟩ := first
    rw [rebindEntries_cons (h (id, entry) mem_cons_self),
      ih fun other hmem => h other (mem_cons_of_mem _ hmem)]
    cases hempty : (idMatches sources id).isEmpty <;> simp [hempty]

theorem rebindEntries_refused (h : ¬ ∀ entry ∈ entries, Rebinds sources mode entry.1 entry.2) :
    ∃ error, rebindEntries sources mode entries rebound = .error error := by
  induction entries generalizing rebound with
  | nil => exact absurd (fun _ hmem => nomatch hmem) h
  | cons first rest ih =>
    obtain ⟨id, entry⟩ := first
    by_cases hfirst : Rebinds sources mode id entry
    · rw [rebindEntries_cons hfirst]
      refine ih fun hrest => h fun other hmem => ?_
      rcases mem_cons.mp hmem with rfl | hmem
      · exact hfirst
      · exact hrest other hmem
    · exact rebindEntries_error hfirst

/-- The ids that nobody answers for. -/
def unanswered (sources : Table (ToolSource C D)) (entries : Table (ToolStateEntry C D)) :
    List String :=
  (entries.entries.map Prod.fst).filter fun id => (idMatches sources id).isEmpty

theorem rebind_ok {entries : Table (ToolStateEntry C D)}
    (h : ∀ id entry, entries.get id = some entry → Rebinds sources mode id entry) :
    rebindToolStateEntries entries sources mode =
      .ok ⟨entries.mapValues (reboundEntry sources), unanswered sources entries⟩ := by
  have hall : ∀ entry ∈ entries.entries, Rebinds sources mode entry.1 entry.2 :=
    fun entry hmem => h entry.1 entry.2 (Table.mem_entries_iff.mp hmem)
  rw [rebindToolStateEntries, rebindEntries_ok hall, Table.foldl_set_eq_mapValues]
  rfl

theorem rebind_refused {entries : Table (ToolStateEntry C D)}
    (h : ¬ ∀ id entry, entries.get id = some entry → Rebinds sources mode id entry) :
    ∃ error, rebindToolStateEntries entries sources mode = .error error :=
  rebindEntries_refused fun hall => h fun id entry hget =>
    hall (id, entry) (Table.mem_entries_iff.mpr hget)

/-! ## The operations that rebind -/

variable {snapshot : ToolState C D} {registry : ToolRegistry C D}

/-- The registry with the stored tools rebound in place of its own. -/
def reboundRegistry (snapshot : ToolState C D) (generation : Nat)
    (registry : ToolRegistry C D) : ToolRegistry C D :=
  { registry with
    tools := snapshot.tools.mapValues (reboundEntry registry.sources), generation := generation }

theorem restoreState_ok (h : Admitted registry.sources .orphanUnresolved snapshot.tools) :
    registry.restoreState snapshot =
      (.ok ⟨snapshot.generation, unanswered registry.sources snapshot.tools⟩,
        reboundRegistry snapshot snapshot.generation registry) := by
  rw [restoreState, h.valid, rebind_ok h.rebinds]
  rfl

theorem Admitted.refused {entries : Table (ToolStateEntry C D)}
    (h : ¬ Admitted sources mode entries) :
    (∃ error, validateUniqueManifestEntries entries = .error error) ∨
      validateUniqueManifestEntries entries = .ok () ∧
        ∃ error, rebindToolStateEntries entries sources mode = .error error := by
  cases hvalid : validateUniqueManifestEntries entries with
  | error error => exact .inl ⟨error, rfl⟩
  | ok _ => exact .inr ⟨rfl, rebind_refused fun hrebinds => h ⟨hvalid, hrebinds⟩⟩

theorem restoreState_refused
    (h : ¬ Admitted registry.sources .orphanUnresolved snapshot.tools) :
    ∃ error, registry.restoreState snapshot = (.error error, registry) := by
  unfold restoreState
  rcases Admitted.refused h with ⟨error, hinvalid⟩ | ⟨hvalid, error, hrebind⟩
  · exact ⟨error, by rw [hinvalid]⟩
  · exact ⟨error, by rw [hvalid, hrebind]⟩

theorem applyState_ok (hgeneration : snapshot.generation = registry.generation)
    (h : Admitted registry.sources .rejectUnresolved snapshot.tools) :
    registry.applyState snapshot = (.ok (nextGeneration registry.generation),
        reboundRegistry snapshot (nextGeneration registry.generation) registry) := by
  rw [applyState, if_neg (not_not.mpr hgeneration), h.valid, rebind_ok h.rebinds]
  rfl

theorem applyState_refused
    (h : ¬ (snapshot.generation = registry.generation ∧
      Admitted registry.sources .rejectUnresolved snapshot.tools)) :
    ∃ error, registry.applyState snapshot = (.error error, registry) := by
  unfold applyState
  split
  · exact ⟨_, rfl⟩
  next hgeneration =>
    rcases Admitted.refused fun hadmitted => h ⟨not_not.mp hgeneration, hadmitted⟩ with
      ⟨error, hinvalid⟩ | ⟨hvalid, error, hrebind⟩
    · exact ⟨error, by rw [hinvalid]⟩
    · exact ⟨error, by rw [hvalid, hrebind]⟩

theorem forkWithState_ok (h : Admitted registry.sources .orphanUnresolved snapshot.tools) :
    registry.forkWithState snapshot = .ok ⟨registry.sources, max snapshot.generation 1,
        snapshot.tools.mapValues (reboundEntry registry.sources), 0⟩ := by
  rw [forkWithState, h.valid, rebind_ok h.rebinds]

theorem forkWithState_refused
    (h : ¬ Admitted registry.sources .orphanUnresolved snapshot.tools) :
    ∃ error, registry.forkWithState snapshot = .error error := by
  unfold forkWithState
  rcases Admitted.refused h with ⟨error, hinvalid⟩ | ⟨hvalid, error, hrebind⟩
  · exact ⟨error, by rw [hinvalid]⟩
  · exact ⟨error, by rw [hvalid, hrebind]⟩

/-! ## Who answers -/

variable {manifest : ToolManifest C D} {sourceId : String}

theorem firstAnswer_mem {ask : ToolSource C D → Option (ToolManifest C D)}
    (h : firstAnswer sources ask = some (sourceId, manifest)) :
    ∃ source raw, sources.get sourceId = some source ∧ ask source = some raw ∧
      manifest = manifestWithCompactContract source raw := by
  obtain ⟨⟨named, source⟩, hmem, hask⟩ := exists_of_findSome?_eq_some h
  obtain ⟨raw, hraw, heq⟩ := Option.map_eq_some_iff.mp hask
  cases heq
  exact ⟨source, raw, Table.mem_entries_iff.mp hmem, hraw, rfl⟩

theorem firstAnswer_byId (id : String) :
    firstAnswer sources (fun source => source.resolveManifestById id) =
      (idMatches sources id).head? := by
  unfold firstAnswer idMatches
  rw [head?_filterMap]

theorem firstAnswer_provides
    (h : firstAnswer sources (fun source => source.resolveManifestById id) =
      some (sourceId, manifest)) :
    ∃ source, sources.get sourceId = some source ∧ source.Provides id := by
  obtain ⟨source, raw, hsource, hraw, -⟩ := firstAnswer_mem h
  exact ⟨source, hsource, .inr (.inr (by rw [hraw]; rfl))⟩

/-- An entry is bound to a source that provides its id. -/
theorem rebound_provides {stored : ToolStateEntry C D}
    (hbound : (reboundEntry sources id stored).binding = .bound sourceId) :
    ∃ source, sources.get sourceId = some source ∧ source.Provides id := by
  unfold reboundEntry at hbound
  cases hmatches : idMatches sources id with
  | nil =>
    rw [hmatches] at hbound
    cases hbound
  | cons first rest =>
    have hfirst : firstAnswer sources (fun source => source.resolveManifestById id) =
        some (first.1, first.2) := by
      rw [firstAnswer_byId, hmatches]
      rfl
    rw [hmatches] at hbound
    cases hbound
    exact firstAnswer_provides hfirst

end ToolRebinding
