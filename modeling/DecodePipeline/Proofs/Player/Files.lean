import DecodePipeline.Player.MemoryFiles

/-!
This module contains what it changes in a file system to put a file somewhere: only what is found at
that place. Paths lead where they led before.
-/

namespace DecodePipeline
namespace MemoryFiles

variable {fs : MemoryFiles} {place : FilePlace} {node : FileNode}

theorem lookup_filter_of_ne {other : FilePlace} (hne : other ≠ place)
    (nodes : List (FilePlace × FileNode))
    : (nodes.filter (·.1 != place)).lookup other = nodes.lookup other := by
  induction nodes with
  | nil => rfl
  | cons entry nodes ih =>
    cases hkept : entry.1 != place with
    | true => rw [List.filter_cons_of_pos (by exact hkept), List.lookup_cons, List.lookup_cons, ih]
    | false =>
      have heq : entry.1 = place := by simpa using hkept
      rw [List.filter_cons_of_neg (by simp [heq]), ih, List.lookup_cons, heq, beq_false_of_ne hne]

theorem node?_put (hplace : place ≠ []) : (fs.put place node).node? place = some node := by
  simp [node?, put, hplace]

theorem node?_put_of_ne {other : FilePlace} (hne : other ≠ place)
    : (fs.put place node).node? other = fs.node? other := by
  unfold node? put
  dsimp only
  rw [List.lookup_cons, beq_false_of_ne hne, lookup_filter_of_ne hne]

theorem isDirectory_put {other : FilePlace} (hplace : fs.isDirectory place = false)
    (hother : fs.isDirectory other)
    : (fs.put place node).isDirectory other := by
  have hne : other ≠ place := by
    rintro rfl
    cases hplace.symm.trans hother
  unfold isDirectory
  rwa [node?_put_of_ne hne]

theorem isSome_node?_put {other : FilePlace} (hother : (fs.node? other).isSome)
    : ((fs.put place node).node? other).isSome := by
  by_cases hempty : other = []
  . subst hempty
    rfl
  . by_cases heq : other = place
    . subst heq
      rw [node?_put hempty]
      rfl
    . rwa [node?_put_of_ne heq]

theorem enter_put {other reached : FilePlace} {name : String}
    (henter : fs.enter other name = .ok reached)
    : (fs.put place node).enter other name = .ok reached := by
  unfold enter at henter ⊢
  split at henter
  . cases henter
  . next hshort =>
    split at henter
    . next hthere => rwa [if_neg hshort, if_pos (isSome_node?_put hthere)]
    . cases henter

theorem walk_put (hplace : fs.isDirectory place = false) {other reached : FilePlace}
    {steps : List PathStep} (hwalk : fs.walk other steps = .ok reached)
    : (fs.put place node).walk other steps = .ok reached := by
  induction steps generalizing other with
  | nil => exact hwalk
  | cons step steps ih =>
    unfold walk at hwalk ⊢
    split at hwalk
    . next hdirectory =>
      rw [if_pos (isDirectory_put hplace hdirectory)]
      cases step with
      | stay => exact ih hwalk
      | up => exact ih hwalk
      | enter name =>
        cases henter : fs.enter other name with
        | error fault =>
          simp only [henter] at hwalk
          cases hwalk
        | ok next =>
          simp only [henter] at hwalk
          simp only [enter_put henter]
          exact ih hwalk
    . cases hwalk

theorem target_cases {text : String} (htarget : fs.target text = .ok place)
    : ∃ path name directory, path? text = .ok path
        ∧ path.steps.getLast? = some (.enter name)
        ∧ fs.walk (fs.start path) path.steps.dropLast = .ok directory
        ∧ fs.isDirectory directory ∧ path.wantsDirectory = false
        ∧ name.utf8ByteSize ≤ FilePath.maxNameSize ∧ place = name :: directory := by
  unfold target at htarget
  cases hpath : path? text with
  | error fault =>
    rw [hpath] at htarget
    cases htarget
  | ok path =>
    rw [hpath] at htarget
    dsimp only [bind, Except.bind] at htarget
    split at htarget
    . next name hlast =>
      split at htarget
      . cases htarget
      . next directory hwalk =>
        split at htarget
        . cases htarget
        . next hdirectory =>
          split at htarget
          . cases htarget
          . next hwants =>
            split at htarget
            . cases htarget
            . next hname =>
              cases htarget
              exact ⟨path, name, directory, rfl, hlast, hwalk, by simpa using hdirectory,
                by simpa using hwants, by omega, rfl⟩
    . split at htarget <;> cases htarget

theorem target_of_walk {text name : String} {path : FilePath} {directory : FilePlace}
    (hpath : path? text = .ok path) (hlast : path.steps.getLast? = some (.enter name))
    (hwalk : fs.walk (fs.start path) path.steps.dropLast = .ok directory)
    (hdirectory : fs.isDirectory directory) (hwants : path.wantsDirectory = false)
    (hname : name.utf8ByteSize ≤ FilePath.maxNameSize)
    : fs.target text = .ok (name :: directory) := by
  unfold target
  rw [hpath]
  dsimp only [bind, Except.bind]
  rw [hlast]
  dsimp only
  rw [hwalk]
  simp [hdirectory, hwants, Nat.not_lt.mpr hname, pure, Except.pure]

theorem target_put (hplace : fs.isDirectory place = false) {text : String} {reached : FilePlace}
    (htarget : fs.target text = .ok reached)
    : (fs.put place node).target text = .ok reached := by
  rcases target_cases htarget with
    ⟨path, name, directory, hpath, hlast, hwalk, hdirectory, hwants, hname, rfl⟩
  exact target_of_walk hpath hlast (walk_put hplace hwalk) (isDirectory_put hplace hdirectory)
    hwants hname

theorem target_ne_nil {text : String} (htarget : fs.target text = .ok place) : place ≠ [] := by
  rcases target_cases htarget with ⟨_, _, _, _, _, _, _, _, _, rfl⟩
  exact List.cons_ne_nil _ _

theorem create_of_file {text : String} (htarget : fs.target text = .ok place)
    (hfile : fs.node? place = none ∨ ∃ old, fs.node? place = some (.file old))
    : fs.create text = (.ok (.file []), fs.put place (.file .empty)) := by
  unfold create
  rw [htarget]
  dsimp only
  unfold createAt
  rcases hfile with hnone | ⟨old, hold⟩
  . rw [hnone]
  . rw [hold]

theorem isDirectory_of_file
    (hfile : fs.node? place = none ∨ ∃ old, fs.node? place = some (.file old))
    : fs.isDirectory place = false := by
  unfold isDirectory
  rcases hfile with hnone | ⟨old, hold⟩
  . rw [hnone]
    rfl
  . rw [hold]
    exact beq_false_of_ne nofun

theorem node?_save {dump : StreamDump MemorySink} {pieces : List ByteArray}
    (hsink : dump.buffer.sink = .file pieces) (htarget : fs.target dump.path = .ok place)
    : (fs.save dump).node? place = some (.file dump.buffer.sink.content) := by
  unfold save
  rw [htarget, hsink]
  exact node?_put (target_ne_nil htarget)

end MemoryFiles
end DecodePipeline
