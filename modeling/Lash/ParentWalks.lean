import Mathlib.Data.List.Nodup
import Mathlib.Data.List.Perm.Subperm

/-!
# Walks along a partial successor function

`Walk next start path` says that repeatedly following `next` from `start` ends
and visits exactly `path`. The executable `walk` follows the successor with a
bound on the number of visits. A bound on the vertices is also a bound on every
ending walk, so with that much fuel `walk` answers `none` exactly when the loop
without a bound never ends.
-/

namespace ParentWalks

open List Option Function

universe u v

variable {V : Type u}

inductive Walk (next : V → Option V) : Option V → List V → Prop
  | stop : Walk next none []
  | visit {v : V} {path : List V} (rest : Walk next (next v) path) :
      Walk next (some v) (v :: path)

def walk (next : V → Option V) : Nat → Option V → Option (List V)
  | _, none => some []
  | 0, some _ => none
  | fuel + 1, some v => (walk next fuel (next v)).map (v :: ·)

variable {next : V → Option V} {start : Option V} {path : List V}

theorem walk_sound {fuel : Nat} (h : walk next fuel start = some path) : Walk next start path := by
  induction fuel generalizing start path with
  | zero =>
    cases start with
    | none =>
      obtain rfl : [] = path := by simpa [walk] using h
      exact .stop
    | some v => simp [walk] at h
  | succ fuel ih =>
    cases start with
    | none =>
      obtain rfl : [] = path := by simpa [walk] using h
      exact .stop
    | some v =>
      obtain ⟨rest, hrest, rfl⟩ := map_eq_some_iff.mp h
      exact .visit (ih hrest)

section

variable (w : Walk next start path)
include w

theorem Walk.walk_eq {fuel : Nat} (enough : path.length ≤ fuel) :
    walk next fuel start = some path := by
  induction w generalizing fuel with
  | stop => cases fuel <;> rfl
  | @visit v path rest ih =>
    cases fuel with
    | zero => simp at enough
    | succ fuel =>
      have hrest : walk next fuel (next v) = some path := ih (by simpa using enough)
      simp only [walk, hrest, map_some]

theorem Walk.unique {other : List V} (w' : Walk next start other) : path = other := by
  induction w generalizing other with
  | stop => cases w'; rfl
  | visit rest ih =>
    cases w' with
    | visit rest' => rw [ih rest']

/-- The rest of a walk after any vertex it visits is the walk from there. -/
theorem Walk.after {v : V} (hv : v ∈ path) :
    ∃ rest, Walk next (some v) (v :: rest) ∧ rest.length < path.length := by
  induction w with
  | stop => simp at hv
  | @visit u path rest ih =>
    rcases mem_cons.mp hv with rfl | hmem
    · exact ⟨path, .visit rest, by simp⟩
    · obtain ⟨tail, htail, hlt⟩ := ih hmem
      exact ⟨tail, htail, by simp only [length_cons]; omega⟩

theorem Walk.nodup : path.Nodup := by
  induction w with
  | stop => exact nodup_nil
  | @visit v path rest ih =>
    refine nodup_cons.mpr ⟨fun hv => ?_, ih⟩
    obtain ⟨tail, htail, hlt⟩ := rest.after hv
    have hsame := htail.unique (.visit rest)
    simp only [cons.injEq, true_and] at hsame
    subst hsame
    omega

theorem Walk.next_mem {v u : V} (hv : v ∈ path) (h : next v = some u) : u ∈ path := by
  induction w with
  | stop => simp at hv
  | @visit x path rest ih =>
    rcases mem_cons.mp hv with rfl | hmem
    · rw [h] at rest
      cases rest with
      | visit _ => simp
    · exact mem_cons_of_mem _ (ih hmem)

/-- A walk ends at the vertex that has no successor. -/
theorem Walk.getLast_of_none {v : V} (hv : v ∈ path) (h : next v = none) :
    path.getLast? = some v := by
  induction w with
  | stop => simp at hv
  | @visit x path rest ih =>
    rcases mem_cons.mp hv with rfl | hmem
    · rw [h] at rest
      cases rest with
      | stop => rfl
    · rw [getLast?_cons, ih hmem]
      rfl

theorem Walk.congr {next' : V → Option V} (agree : ∀ v ∈ path, next' v = next v) :
    Walk next' start path := by
  induction w with
  | stop => exact .stop
  | @visit v path rest ih =>
    refine .visit ?_
    rw [agree v mem_cons_self]
    exact ih fun u hu => agree u (mem_cons_of_mem _ hu)

end

variable {vertices : List V}

theorem Walk.subset (w : Walk next start path) (starts : ∀ v ∈ start, v ∈ vertices)
    (stays : ∀ v ∈ vertices, ∀ u ∈ next v, u ∈ vertices) : path ⊆ vertices := by
  induction w with
  | stop => exact nil_subset _
  | @visit v path rest ih =>
    have hv : v ∈ vertices := starts v rfl
    exact cons_subset.mpr ⟨hv, ih (stays v hv)⟩

/-- With one unit of fuel per vertex the bounded walk is the unbounded one. -/
theorem walk_length_eq_some_iff (starts : ∀ v ∈ start, v ∈ vertices)
    (stays : ∀ v ∈ vertices, ∀ u ∈ next v, u ∈ vertices) :
    walk next vertices.length start = some path ↔ Walk next start path :=
  ⟨walk_sound, fun w => w.walk_eq (w.nodup.subperm (w.subset starts stays)).length_le⟩

theorem walk_eq_some_iff {n : Nat} {next : Nat → Option Nat} {start : Option Nat}
    {path : List Nat} (starts : ∀ v ∈ start, v < n)
    (stays : ∀ v, v < n → ∀ u ∈ next v, u < n) :
    walk next n start = some path ↔ Walk next start path := by
  have hrange := @walk_length_eq_some_iff Nat next start path (range n)
    (fun v hv => mem_range.mpr (starts v hv))
    (fun v hv u hu => mem_range.mpr (stays v (mem_range.mp hv) u hu))
  rwa [length_range] at hrange

section Images

variable {W : Type v} {next' : W → Option W} {f : V → Option W}

/-- A walk seen through a map that commutes with the successors. -/
theorem Walk.image (commutes : ∀ v, (next v).bind f = (f v).bind next')
    (w : Walk next start path) : Walk next' (start.bind f) (path.filterMap f) := by
  induction w with
  | stop => exact .stop
  | @visit v path rest ih =>
    rw [commutes] at ih
    rw [bind_some]
    cases hv : f v with
    | none =>
      rw [hv, bind_none] at ih
      rw [filterMap_cons_none hv]
      exact ih
    | some w =>
      rw [hv, bind_some] at ih
      rw [filterMap_cons_some hv]
      exact .visit ih

/-- If the map only misses vertices without a successor, there are no other walks. -/
theorem walk_image_iff (commutes : ∀ v, (next v).bind f = (f v).bind next')
    (ends : ∀ v, f v = none → next v = none) {path' : List W} :
    Walk next' (start.bind f) path' ↔ ∃ path, Walk next start path ∧ path' = path.filterMap f := by
  constructor
  · intro w
    generalize hstart : start.bind f = start' at w
    induction w generalizing start with
    | stop =>
      cases start with
      | none => exact ⟨[], .stop, rfl⟩
      | some v =>
        have hv : f v = none := hstart
        have hstop : Walk next (next v) [] := by
          rw [ends v hv]
          exact .stop
        exact ⟨[v], .visit hstop, by rw [filterMap_cons_none hv, filterMap_nil]⟩
    | @visit w path' rest ih =>
      obtain ⟨v, rfl, hv⟩ := bind_eq_some_iff.mp hstart
      have hnext : (next v).bind f = next' w := by rw [commutes, hv, bind_some]
      obtain ⟨path, hpath, rfl⟩ := ih hnext
      exact ⟨v :: path, .visit hpath, by rw [filterMap_cons_some hv]⟩
  · rintro ⟨path, w, rfl⟩
    exact w.image commutes

end Images

section Cuts

variable {keep : V → Bool} {v : V}

/-- The vertices that following `next` from `start` comes to. -/
inductive Climbs (next : V → Option V) : Option V → V → Prop
  | here {v : V} : Climbs next (some v) v
  | up {v u : V} (above : Climbs next (next v) u) : Climbs next (some v) u

/-- Above a vertex that is dropped everything is dropped, up to the end. -/
def DropsTop (next : V → Option V) (keep : V → Bool) (start : Option V) : Prop :=
  ∀ v, Climbs next start v → keep v = false →
    ∃ path, Walk next (some v) path ∧ ∀ u ∈ path, keep u = false

/-- The walk that ends where the next vertex is dropped. -/
def cut (next : V → Option V) (keep : V → Bool) (v : V) : Option V :=
  (next v).filter keep

theorem Climbs.walk (climbs : Climbs next start v) (w : Walk next start path) :
    ∃ rest, Walk next (some v) rest ∧ rest ⊆ path := by
  induction climbs generalizing path with
  | here => exact ⟨path, w, List.Subset.refl _⟩
  | up above ih =>
    cases w with
    | visit tail =>
      obtain ⟨rest, hrest, hsub⟩ := ih tail
      exact ⟨rest, hrest, subset_cons_of_subset _ hsub⟩

theorem walk_filter_of_dropsTop (top : DropsTop next keep start) {path' : List V} :
    Walk (cut next keep) (start.filter keep) path' ↔
      ∃ path, Walk next start path ∧ path' = path.filter keep := by
  constructor
  · intro w
    generalize hstart : start.filter keep = start' at w
    induction w generalizing start with
    | stop =>
      cases start with
      | none => exact ⟨[], .stop, rfl⟩
      | some v =>
        have hdropped : keep v = false := by
          simpa [filter_some] using hstart
        obtain ⟨path, hpath, hall⟩ := top v .here hdropped
        exact ⟨path, hpath, (filter_eq_nil_iff.mpr fun u hu => by simp [hall u hu]).symm⟩
    | @visit v path' rest ih =>
      obtain ⟨rfl, hkept⟩ := filter_eq_some_iff.mp hstart
      obtain ⟨path, hpath, rfl⟩ := ih (fun u hu => top u (.up hu)) rfl
      exact ⟨v :: path, .visit hpath, by rw [filter_cons_of_pos hkept]⟩
  · rintro ⟨path, w, rfl⟩
    induction w with
    | stop => exact .stop
    | @visit v path rest ih =>
      cases hkept : keep v with
      | true =>
        rw [filter_cons_of_pos hkept, filter_some, if_pos hkept]
        exact .visit (ih fun u hu => top u (.up hu))
      | false =>
        obtain ⟨other, hother, hall⟩ := top v .here hkept
        obtain rfl := hother.unique (.visit rest)
        rw [filter_eq_nil_iff.mpr fun u hu => by simp [hall u hu], filter_some, hkept]
        exact .stop

/-- Dropping vertices from the walks and cutting the walks at them is the same thing
exactly if they are dropped from the top. -/
theorem dropsTop_iff : DropsTop next keep start ↔
    ∀ path', Walk (cut next keep) (start.filter keep) path' ↔
      ∃ path, Walk next start path ∧ path' = path.filter keep := by
  refine ⟨fun top path' => walk_filter_of_dropsTop top, fun same v climbs hdropped => ?_⟩
  have hdrops : ∀ {start : Option V} {v : V}, start = some v → keep v = false →
      (∀ path', Walk (cut next keep) (start.filter keep) path' ↔
        ∃ path, Walk next start path ∧ path' = path.filter keep) →
      ∃ path, Walk next (some v) path ∧ ∀ u ∈ path, keep u = false := by
    rintro _ v rfl hdropped same
    have hstop : Walk (cut next keep) ((some v).filter keep) [] := by
      rw [filter_some, hdropped]
      exact .stop
    obtain ⟨path, hpath, hnil⟩ := (same []).mp hstop
    exact ⟨path, hpath, fun u hu => by
      simpa using filter_eq_nil_iff.mp hnil.symm u hu⟩
  induction climbs with
  | here => exact hdrops rfl hdropped same
  | @up w u above ih =>
    cases hkept : keep w with
    | true =>
      refine ih (fun path' => ?_) hdropped
      have hcut := same (w :: path')
      rw [filter_some, if_pos hkept] at hcut
      constructor
      · intro rest
        obtain ⟨path, hpath, heq⟩ := hcut.mp (.visit rest)
        cases hpath with
        | @visit _ path hpath =>
          rw [filter_cons_of_pos hkept, cons.injEq] at heq
          exact ⟨path, hpath, heq.2⟩
      · rintro ⟨path, hpath, rfl⟩
        have hall := hcut.mpr ⟨w :: path, .visit hpath, by rw [filter_cons_of_pos hkept]⟩
        cases hall with
        | visit rest => exact rest
    | false =>
      obtain ⟨path, hpath, hall⟩ := hdrops rfl hkept same
      obtain ⟨rest, hrest, hsub⟩ := (Climbs.up above).walk hpath
      exact ⟨rest, hrest, fun u hu => hall u (hsub hu)⟩

end Cuts

section Ends

/-- Every walk ends. -/
def Ends (next : V → Option V) : Prop := ∀ start, ∃ path, Walk next start path

variable {v : V} {next' : V → Option V}

theorem Climbs.mono (more : ∀ v u, next v = some u → next' v = some u)
    (climbs : Climbs next start v) : Climbs next' start v := by
  induction climbs with
  | here => exact .here
  | @up w u above ih =>
    refine .up ?_
    cases hw : next w with
    | none =>
      rw [hw] at above
      cases above
    | some x =>
      rw [more w x hw, ← hw]
      exact ih

theorem Climbs.mem (climbs : Climbs next start v) (w : Walk next start path) : v ∈ path := by
  induction climbs generalizing path with
  | here =>
    cases w
    exact mem_cons_self
  | up above ih =>
    cases w with
    | visit rest => exact mem_cons_of_mem _ (ih rest)

theorem Climbs.extend {u : V} (climbs : Climbs next start v) (h : next v = some u) :
    Climbs next start u := by
  induction climbs with
  | here =>
    refine .up ?_
    rw [h]
    exact .here
  | up above ih => exact .up (ih h)

/-- What a walk visits from one of its vertices on is the walk from there. -/
theorem Walk.drop {front back : List V} (w : Walk next start (front ++ v :: back)) :
    Walk next (some v) (v :: back) := by
  induction front generalizing start with
  | nil =>
    cases w with
    | visit rest => exact .visit rest
  | cons u front ih =>
    cases w with
    | visit rest => exact ih rest

theorem climbs_of_mem (w : Walk next start path) (hv : v ∈ path) : Climbs next start v := by
  induction w with
  | stop => cases hv
  | visit rest ih =>
    rcases mem_cons.mp hv with rfl | hrest
    · exact .here
    · exact .up (ih hrest)

/-- Where every walk ends, no vertex is above itself. -/
theorem Ends.acyclic (ends : Ends next) (v : V) : ¬ Climbs next (next v) v := by
  intro climbs
  obtain ⟨path, w⟩ := ends (some v)
  have hnodup := w.nodup
  cases w with
  | visit rest => exact (nodup_cons.mp hnodup).1 (climbs.mem rest)

theorem Ends.anti (ends : Ends next) (fewer : ∀ v u, next' v = some u → next v = some u) :
    Ends next' := by
  intro start
  obtain ⟨path, w⟩ := ends start
  induction w with
  | stop => exact ⟨[], .stop⟩
  | @visit v path rest ih =>
    cases hv : next' v with
    | none =>
      have hstop : Walk next' (next' v) [] := by
        rw [hv]
        exact .stop
      exact ⟨[v], .visit hstop⟩
    | some u =>
      obtain ⟨tail, htail⟩ := ih
      rw [fewer v u hv, ← hv] at htail
      exact ⟨v :: tail, .visit htail⟩

/-- A vertex that had no successor gets one: all walks still end exactly if the
successor's walk did not end at that vertex. -/
theorem ends_update_iff [DecidableEq V] {above : Option V} (last : next v = none) :
    Ends (Function.update next v above) ↔ Ends next ∧ ¬ Climbs next above v := by
  have hmore : ∀ w u, next w = some u → update next v above w = some u := by
    intro w u hw
    have hother : w ≠ v := by
      rintro rfl
      rw [last] at hw
      cases hw
    rw [update_of_ne hother, hw]
  constructor
  · intro ends
    refine ⟨ends.anti hmore, fun climbs => ends.acyclic v ?_⟩
    rw [update_self]
    exact climbs.mono hmore
  · rintro ⟨ends, away⟩ start
    obtain ⟨top, htop⟩ := ends above
    have habove : Walk (update next v above) above top := by
      refine htop.congr fun u hu => update_of_ne ?_ _ _
      rintro rfl
      exact away (climbs_of_mem htop hu)
    obtain ⟨path, w⟩ := ends start
    induction w with
    | stop => exact ⟨[], .stop⟩
    | @visit w path rest ih =>
      by_cases hw : w = v
      · subst hw
        refine ⟨w :: top, .visit ?_⟩
        rwa [update_self]
      · obtain ⟨tail, htail⟩ := ih
        refine ⟨w :: tail, .visit ?_⟩
        rwa [update_of_ne hw]

theorem climbs_update_iff [DecidableEq V] {u : V} {above : Option V} (last : next v = none)
    (other : u ≠ v) : Climbs (Function.update next v above) (some v) u ↔ Climbs next above u := by
  constructor
  · have hold : ∀ {start}, Climbs (update next v above) start u →
        Climbs next start u ∨ Climbs next above u := by
      intro start climbs
      induction climbs with
      | here => exact .inl .here
      | @up w u _ ih =>
        by_cases hw : w = v
        · subst hw
          rw [update_self] at ih
          exact .inr ((ih other).elim id id)
        · rw [update_of_ne hw] at ih
          exact (ih other).imp_left .up
    intro climbs
    rcases hold climbs with hstart | habove
    · cases hstart with
      | here => exact absurd rfl other
      | up hnone =>
        rw [last] at hnone
        cases hnone
    · exact habove
  · intro climbs
    refine .up ?_
    rw [update_self]
    refine climbs.mono fun w x hw => ?_
    have hother : w ≠ v := by
      rintro rfl
      rw [last] at hw
      cases hw
    rw [update_of_ne hother, hw]

end Ends

end ParentWalks
