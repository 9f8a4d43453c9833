import Lash.ToolRegistries

/-!
# Tools without ambiguity

Every entry of a registry stands under the id of its own manifest, no two entries have one
name, and a bound entry names a registered source that provides the tool. Registering and
removing sources keeps this whatever the sources answer; rebinding keeps it where the
manifests that come back carry the ids they were asked for and names nobody else has.
-/

namespace UnambiguousTools

open NameTables ToolRegistries ToolRegistry List Option Table

variable {C D : Type} {sources : Table (ToolSource C D)} {tools : Table (ToolRegistryEntry C D)}

structure Unambiguous (sources : Table (ToolSource C D))
    (tools : Table (ToolRegistryEntry C D)) : Prop where
  keyed : ∀ id entry, tools.get id = some entry → entry.manifest.id = id
  named : ∀ id entry other otherEntry, tools.get id = some entry →
    tools.get other = some otherEntry → entry.manifest.name = otherEntry.manifest.name →
      id = other
  provided : ∀ id entry sourceId, tools.get id = some entry → entry.binding = .bound sourceId →
    ∃ source, sources.get sourceId = some source ∧ source.Provides id

theorem Unambiguous.empty : Unambiguous (empty : Table (ToolSource C D)) empty where
  keyed _ _ h := nomatch h
  named _ _ _ _ h := nomatch h
  provided _ _ _ h := nomatch h

variable {entry : ToolRegistryEntry C D} {id : String}

theorem Unambiguous.unique {other : String} {otherEntry : ToolRegistryEntry C D}
    (clear : Unambiguous sources tools) (hentry : tools.get id = some entry)
    (hother : tools.get other = some otherEntry)
    (hname : entry.manifest.name = otherEntry.manifest.name) : id = other ∧ entry = otherEntry := by
  have hid := clear.named id entry other otherEntry hentry hother hname
  subst hid
  rw [hentry, some.injEq] at hother
  exact ⟨rfl, hother⟩

theorem Unambiguous.retain (clear : Unambiguous sources tools)
    (keep : String → ToolRegistryEntry C D → Bool) :
    Unambiguous sources (tools.retain keep) := by
  have hold : ∀ id entry, (tools.retain keep).get id = some entry →
      tools.get id = some entry := fun id entry h => by
    rw [get_retain, filter_eq_some_iff] at h
    exact h.1
  refine ⟨fun id entry h => clear.keyed id entry (hold id entry h),
    fun id entry other otherEntry h h' =>
      clear.named id entry other otherEntry (hold id entry h) (hold other otherEntry h'),
    fun id entry sourceId h => clear.provided id entry sourceId (hold id entry h)⟩

variable {manifest : ToolManifest C D} {sourceId : String} {source : ToolSource C D}

/-- One more entry, bound to a source that provides it, under a name of its own. -/
theorem Unambiguous.insert {member : Bool} (clear : Unambiguous sources tools)
    (hid : manifest.id = id) (hname : ∀ other entry, tools.get other = some entry →
      entry.manifest.name = manifest.name → other = id)
    (hsource : sources.get sourceId = some source) (provides : source.Provides id) :
    Unambiguous sources (tools.set id
      { ToolRegistryEntry.new manifest sourceId with member := member }) := by
  constructor
  · intro other entry h
    rw [get_set] at h
    split at h
    next heq =>
      cases h
      exact hid.trans heq.symm
    next => exact clear.keyed other entry h
  · intro first entry second secondEntry h h' heq
    rw [get_set] at h h'
    split at h
    next hfirst =>
      cases h
      split at h'
      next hsecond => exact hfirst.trans hsecond.symm
      next => exact hfirst.trans (hname second secondEntry h' heq.symm).symm
    next =>
      split at h'
      next hsecond =>
        cases h'
        exact (hname first entry h heq).trans hsecond.symm
      next => exact clear.named first entry second secondEntry h h' heq
  · intro other entry named h hbound
    rw [get_set] at h
    split at h
    next heq =>
      cases h
      cases hbound
      exact ⟨source, hsource, heq ▸ provides⟩
    next => exact clear.provided other entry named h hbound

/-! ## What the checks find -/

variable {manifests : List (ToolManifest C D)}

theorem validateManifests_ok {names ids : List String}
    (h : validateManifests names ids manifests = .ok ()) :
    (manifests.Pairwise fun a b => a.name ≠ b.name ∧ a.id ≠ b.id) ∧
      ∀ manifest ∈ manifests, manifest.name ∉ names ∧ manifest.id ∉ ids := by
  induction manifests generalizing names ids with
  | nil => exact ⟨.nil, fun _ hmem => nomatch hmem⟩
  | cons first rest ih =>
    simp only [validateManifests] at h
    split at h
    · cases h
    split at h
    · cases h
    next hid =>
      split at h
      · cases h
      split at h
      · cases h
      next hname =>
        obtain ⟨hpair, hrest⟩ := ih h
        constructor
        · refine pairwise_cons.mpr ⟨fun manifest hmem => ⟨?_, ?_⟩, hpair⟩
          · exact fun heq => (hrest manifest hmem).1 (heq ▸ mem_cons_self)
          · exact fun heq => (hrest manifest hmem).2 (heq ▸ mem_cons_self)
        · intro manifest hmem
          rcases mem_cons.mp hmem with rfl | hmem
          · exact ⟨hname, hid⟩
          · exact ⟨fun hin => (hrest manifest hmem).1 (mem_cons_of_mem _ hin),
              fun hin => (hrest manifest hmem).2 (mem_cons_of_mem _ hin)⟩

/-- Validated manifests of one name are one manifest. -/
theorem validated_unique (h : validateUniqueManifests manifests = .ok ())
    {first second : ToolManifest C D} (hfirst : first ∈ manifests) (hsecond : second ∈ manifests)
    (hname : first.name = second.name) : first = second := by
  refine List.Pairwise.forall_of_forall_of_flip (R := fun a b => a.name = b.name → a = b)
    ?_ ?_ ?_ hfirst hsecond hname
  · exact fun _ _ _ => rfl
  · exact (validateManifests_ok h).1.imp fun hne heq => absurd heq hne.1
  · exact (validateManifests_ok h).1.imp fun hne heq => absurd heq.symm hne.1

variable {advertised : List (ToolManifest C D)}

theorem rejectConflicts_ok (h : rejectConflicts tools sourceId advertised = .ok ()) :
    ∀ manifest ∈ advertised, idConflict tools sourceId manifest = none ∧
      nameConflict tools sourceId manifest = none := by
  induction advertised with
  | nil => exact fun _ hmem => nomatch hmem
  | cons first rest ih =>
    simp only [rejectConflicts] at h
    split at h
    · cases h
    next hid =>
      split at h
      · cases h
      next hname =>
        intro manifest hmem
        rcases mem_cons.mp hmem with rfl | hmem
        · exact ⟨hid, hname⟩
        · exact ih h manifest hmem

theorem no_nameConflict {bound : String} (h : nameConflict tools sourceId manifest = none)
    (hentry : tools.get id = some entry) (hbound : entry.binding = .bound bound)
    (hname : entry.manifest.name = manifest.name) : bound = sourceId := by
  have hnone := findSome?_eq_none_iff.mp h (id, entry) (mem_entries_iff.mpr hentry)
  by_contra hne
  simp [hbound, ToolBinding.sourceId, hne, hname] at hnone

/-! ## Registering a source -/

theorem advertises_false (h : advertises advertised id entry = false)
    (hmem : manifest ∈ advertised) :
    manifest.id ≠ id ∧ manifest.name ≠ entry.manifest.name := by
  simp only [advertises, Bool.or_eq_false_iff, List.any_eq_false, beq_iff_eq] at h
  exact ⟨h.1 manifest hmem, h.2 manifest hmem⟩

/-- What is left of the entries before the advertised tools come in. -/
structure LeftBy (sourceId : String) (advertised : List (ToolManifest C D))
    (tools kept : Table (ToolRegistryEntry C D)) : Prop where
  old : ∀ id entry, kept.get id = some entry → tools.get id = some entry
  elsewhere : ∀ id entry, kept.get id = some entry → entry.binding ≠ .bound sourceId
  unnamed : ∀ id entry, kept.get id = some entry → ∀ manifest ∈ advertised,
    manifest.name ≠ entry.manifest.name

theorem overlay_leaves (sourceId : String) (advertised : List (ToolManifest C D))
    (tools : Table (ToolRegistryEntry C D)) :
    LeftBy sourceId advertised tools
      (tools.retain (keepsEntry .overlayReplacingConflicts sourceId advertised)) := by
  have hkept : ∀ id entry,
      (tools.retain (keepsEntry .overlayReplacingConflicts sourceId advertised)).get id =
        some entry → tools.get id = some entry ∧ entry.binding ≠ .bound sourceId ∧
          advertises advertised id entry = false := by
    intro id entry h
    rw [get_retain, filter_eq_some_iff] at h
    obtain ⟨hold, hkeep⟩ := h
    simp only [keepsEntry, Bool.and_eq_true, bne_iff_ne, Bool.not_eq_true'] at hkeep
    exact ⟨hold, fun hbound => hkeep.1 (by rw [hbound]; rfl), hkeep.2⟩
  exact ⟨fun id entry h => (hkept id entry h).1, fun id entry h => (hkept id entry h).2.1,
    fun id entry h manifest hmem => (advertises_false (hkept id entry h).2.2 hmem).2⟩

/-- The conflict check makes up for what the strict policy keeps. -/
theorem strict_leaves (checked : rejectConflicts tools sourceId advertised = .ok ()) :
    LeftBy sourceId advertised tools
      (tools.retain (keepsEntry .rejectExternalConflicts sourceId advertised)) := by
  constructor
  · intro id entry h
    rw [get_retain, filter_eq_some_iff] at h
    exact h.1
  · intro id entry h hbound
    rw [get_retain, filter_eq_some_iff] at h
    simp [keepsEntry, hbound] at h
  · intro id entry h manifest hmem hname
    rw [get_retain, filter_eq_some_iff] at h
    obtain ⟨hold, hkeep⟩ := h
    cases hbinding : entry.binding with
    | bound bound =>
      have hsame := no_nameConflict (rejectConflicts_ok checked manifest hmem).2 hold hbinding
        hname.symm
      simp [keepsEntry, hbinding, hsame] at hkeep
    | orphaned =>
      have hfalse : advertises advertised id entry = false := by
        simpa [keepsEntry, hbinding] using hkeep
      exact (advertises_false hfalse hmem).2 hname

variable {kept : Table (ToolRegistryEntry C D)}

theorem get_insertAdvertised {previous : Table (ToolRegistryEntry C D)}
    (h : (insertAdvertised previous sourceId kept advertised).get id = some entry) :
    (entry.manifest ∈ advertised ∧ entry.manifest.id = id ∧ entry.binding = .bound sourceId) ∨
      kept.get id = some entry := by
  unfold insertAdvertised at h
  induction advertised generalizing kept with
  | nil => exact .inr h
  | cons first rest ih =>
    rcases ih h with ⟨hmem, hid, hbound⟩ | hkept
    · exact .inl ⟨mem_cons_of_mem _ hmem, hid, hbound⟩
    · rw [get_set] at hkept
      split at hkept
      next heq =>
        cases hkept
        exact .inl ⟨mem_cons_self, heq.symm, rfl⟩
      next => exact .inr hkept

theorem registered (clear : Unambiguous sources tools) (valid : validateUniqueManifests
      (source.advertisedTools.map (manifestWithCompactContract source)) = .ok ())
    (left : LeftBy source.id (source.advertisedTools.map (manifestWithCompactContract source))
      tools kept) :
    Unambiguous (sources.set source.id source)
      (insertAdvertised tools source.id kept
        (source.advertisedTools.map (manifestWithCompactContract source))) := by
  constructor
  · intro id entry h
    rcases get_insertAdvertised h with ⟨-, hid, -⟩ | hkept
    · exact hid
    · exact clear.keyed id entry (left.old id entry hkept)
  · intro id entry other otherEntry h h' hname
    rcases get_insertAdvertised h with ⟨hmem, hid, -⟩ | hkept
    · rcases get_insertAdvertised h' with ⟨hmem', hid', -⟩ | hkept'
      · rw [← hid, ← hid', validated_unique valid hmem hmem' hname]
      · exact absurd hname (left.unnamed other otherEntry hkept' _ hmem)
    · rcases get_insertAdvertised h' with ⟨hmem', -, -⟩ | hkept'
      · exact absurd hname.symm (left.unnamed id entry hkept _ hmem')
      · exact clear.named id entry other otherEntry (left.old id entry hkept)
          (left.old other otherEntry hkept') hname
  · intro id entry sourceId h hbound
    rcases get_insertAdvertised h with ⟨hmem, hid, hsource⟩ | hkept
    · rw [hsource] at hbound
      cases hbound
      obtain ⟨manifest, hadvertised, heq⟩ := mem_map.mp hmem
      refine ⟨source, by rw [get_set, if_pos rfl], .inl ⟨manifest, hadvertised, ?_⟩⟩
      rw [← hid, ← heq, manifestWithCompactContract_id]
    · obtain ⟨old, hold, provides⟩ := clear.provided id entry sourceId (left.old id entry hkept)
        hbound
      have hne : sourceId ≠ source.id := fun heq =>
        left.elsewhere id entry hkept (by rw [hbound, heq])
      exact ⟨old, by rw [get_set, if_neg hne, hold], provides⟩

end UnambiguousTools
