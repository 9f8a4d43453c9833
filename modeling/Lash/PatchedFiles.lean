import Lash.ScriptNumbers
import Mathlib.Logic.Function.Basic

/-!
# Files under a patch

The sections of a patch are applied one after another, each by reading, writing and removing
files. An update that moves its file writes the target and then removes the source, also where
the two are one. A file is text under its one resolved path: files that are not UTF-8 and other
paths to the same file are left out.
-/

namespace PatchedFiles

open ScriptNumbers List Function

/-! ## Paths -/

inductive Component where
  | rootDir
  | curDir
  | parentDir
  | normal (name : String)
deriving DecidableEq

abbrev Path := List Component

variable (lines : List String)

variable (display : String)

/-- The texts of the files, by their resolved paths. -/
abbrev Files := Path → Option String

/-- What the operating system refuses, and the texts of reports. -/
structure Host where
  display : Path → String
  displayRelative : (base path : Path) → String
  compactDiff : (old new displayPath : String) → String
  createDirAll : Files → Path → Except String Unit
  write : Files → Path → Except String Unit
  remove : Files → Path → Except String Unit
  notFound : String

variable (host : Host)

/-- The files are those of the map, less the lost ones. -/
structure Lacks (lost : List Path) (files meant : Files) : Prop where
  absent : ∀ path ∈ lost, files path = none ∧ (meant path).isSome = true
  same : ∀ path, path ∉ lost → files path = meant path

variable {host} {cwd : Path} {lost : List Path} {files meant after : Files} {path : Path}

theorem Lacks.get {contents : String} (lacks : Lacks lost files meant)
    (h : files path = some contents) : path ∉ lost ∧ meant path = some contents := by
  have hnot : path ∉ lost := by
    intro hmem
    rw [(lacks.absent path hmem).1] at h
    cases h
  exact ⟨hnot, (lacks.same path hnot).symm.trans h⟩

/-- A written file is no longer lost. -/
theorem Lacks.write (lacks : Lacks lost files meant) (path : Path) (contents : String) :
    Lacks (lost.filter (· ≠ path)) (Function.update files path (some contents))
      (Function.update meant path (some contents)) := by
  constructor
  · intro other hmem
    rw [mem_filter, decide_eq_true_eq] at hmem
    rw [update_of_ne hmem.2, update_of_ne hmem.2]
    exact lacks.absent other hmem.1
  · intro other hnot
    by_cases hother : other = path
    · rw [hother, update_self, update_self]
    · rw [update_of_ne hother, update_of_ne hother]
      refine lacks.same other fun hmem => hnot ?_
      exact mem_filter.mpr ⟨hmem, decide_eq_true hother⟩

/-- A file that is there can be removed on both sides. -/
theorem Lacks.remove (lacks : Lacks lost files meant) (hnot : path ∉ lost) :
    Lacks lost (Function.update files path none) (Function.update meant path none) := by
  constructor
  · intro other hmem
    have hother : other ≠ path := by
      rintro rfl
      exact hnot hmem
    rw [update_of_ne hother, update_of_ne hother]
    exact lacks.absent other hmem
  · intro other hmem
    by_cases hother : other = path
    · rw [hother, update_self, update_self]
    · rw [update_of_ne hother, update_of_ne hother]
      exact lacks.same other hmem

/-- A file that is moved onto itself is gone, though it should have its new text. -/
theorem Lacks.lose (lacks : Lacks lost files meant) (path : Path) (contents : String) :
    Lacks (path :: lost) (Function.update files path none)
      (Function.update meant path (some contents)) := by
  constructor
  · intro other hmem
    by_cases hother : other = path
    · rw [hother, update_self, update_self]
      exact ⟨rfl, rfl⟩
    · rw [update_of_ne hother, update_of_ne hother]
      exact lacks.absent other (mem_of_ne_of_mem hother hmem)
  · intro other hnot
    obtain ⟨hother, hrest⟩ := ne_and_not_mem_of_not_mem_cons hnot
    rw [update_of_ne hother, update_of_ne hother]
    exact lacks.same other hrest

end PatchedFiles
