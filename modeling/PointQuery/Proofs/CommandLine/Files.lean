import PointQuery.CommandLine.Run
import PointQuery.Proofs.Text.Parts
/-!
# The files of a run

A run reads the files that its command line names and no others, so it is enough to have read those
beforehand: `runInvocation_filesRead`. In a folder a path may also start with a point for the folder
itself: `find_here`.
-/

namespace PointQuery

/-! ## Paths in a folder -/

namespace Folder

variable {f : Folder} {part next : String}

/-- A part that stays where it is makes no difference before another one. -/
theorem follow_idle (h : isIdle part = true) (place : Place) (parts : List String) :
    f.follow place (part :: next :: parts) = f.follow place (next :: parts) := by
  cases hfolder : f.isFolder place with
  | true =>
      rw [follow.eq_def]
      simp only [hfolder, h, Bool.not_true, Bool.false_eq_true, if_false, if_true]
  | false =>
      rw [follow.eq_def, follow.eq_def]
      simp only [hfolder, Bool.not_false, if_true]

theorem pathParts_here (path : String) : pathParts ("./" ++ path) = "." :: pathParts path := by
  have hpoint : "./".toList = ['.', '/'] := by decide
  rw [pathParts, String.toList_append, hpoint]
  simp [Text.parts, pathParts]

/-- A path may start with a point for the folder itself. -/
theorem find_here {path : String} (hne : path ≠ "") (hrelative : path.toList.head? ≠ some '/') :
    f.find ("./" ++ path) = f.find path := by
  have hpoint : "./".toList = ['.', '/'] := by decide
  have hlonger : ¬ ("./" ++ path = "" ∨ ("./" ++ path).toList.head? = some '/') := by
    simp [hpoint]
  have hparts : pathParts path ≠ [] := by simpa [pathParts] using Text.parts_ne_nil '/' path.toList
  obtain ⟨part, parts, hpath⟩ := List.exists_cons_of_ne_nil hparts
  rw [find, find, if_neg hlonger, if_neg (not_or.mpr ⟨hne, hrelative⟩), pathParts_here, hpath,
    follow_idle rfl]

end Folder

/-! ## The files that are named -/

namespace CommandLine

variable {files files' : String → TextFile}

/-- An invocation reads the files that it names, and no others. -/
theorem runInvocation_congr {i : Invocation} (h : ∀ path ∈ i.paths, files path = files' path) :
    runInvocation files i = runInvocation files' i := by
  have hload (path : String) (hpath : path ∈ i.paths) {A : Type}
      (describe : String → Except Json.Failure A) :
      loadFrom files path describe = loadFrom files' path describe := by
    rw [loadFrom, loadFrom, h path hpath]
  obtain ⟨config, verbose, command⟩ := i
  rw [runInvocation, runInvocation]
  cases config with
  | none =>
      cases command with
      | nearest options => simp only [hload options.schema (by simp [Invocation.paths])]
      | schema path => simp only [hload path (by simp [Invocation.paths])]
  | some settings =>
      have hsettings := hload settings (by simp [Invocation.paths]) Config.ofJson
      cases command with
      | nearest options =>
          simp only [hsettings, hload options.schema (by simp [Invocation.paths])]
      | schema path => simp only [hsettings, hload path (by simp [Invocation.paths])]

theorem filesRead_of_mem {paths : List String} {path : String} (h : path ∈ paths) :
    filesRead (paths.map fun path => (path, files path)) path = files path := by
  induction paths with
  | nil => cases h
  | cons first paths ih =>
      rw [filesRead, List.map_cons, List.lookup_cons]
      by_cases hfirst : path = first
      · rw [hfirst, beq_self_eq_true]
        rfl
      · rw [beq_eq_false_iff_ne.mpr hfirst]
        exact ih (List.mem_of_ne_of_mem hfirst h)

/-- The files that an invocation names can be read beforehand. -/
theorem runInvocation_filesRead (files : String → TextFile) (i : Invocation) :
    runInvocation (filesRead (i.paths.map fun path => (path, files path))) i =
      runInvocation files i :=
  runInvocation_congr fun _ hpath => filesRead_of_mem hpath

/-- In two folders with the same files at the paths that a command line names, a run comes to the
same. -/
theorem runIn_congr {folder folder' : Folder} {env : Environment} {arguments : List String}
    (h : ∀ i, parse env arguments = .ok i → ∀ path ∈ i.paths, folder.find path = folder'.find path) :
    runIn folder env arguments = runIn folder' env arguments := by
  rw [runIn, runIn, run, run]
  cases hi : parse env arguments with
  | ok i => exact runInvocation_congr (h i hi)
  | error e => rfl

end CommandLine

end PointQuery
