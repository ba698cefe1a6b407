import CommandShell.Proofs.CallEffects
import CommandShell.Proofs.Refinement
import CommandShell.Proofs.SessionRuns

/-!
# File trees of sessions

A new session has the directories along the path of its home and nothing else.  Whatever is
invoked in a session, its file tree only grows, and so the links of its directories form a tree
at all times.
-/

namespace CommandShell

namespace Workspace

variable {α : Type}

theorem growsTo_run (surroundings : Surroundings) (routine : Routine α) (workspace : Workspace) :
    workspace.tree.GrowsTo (run surroundings routine workspace).2.tree := by
  induction routine generalizing workspace with
  | done | fail | panic => exact .refl
  | call request next ih =>
      exact (workspace.effect_perform surroundings request).growsTo.trans (ih _ _)

theorem tree_reclaim (workspace : Workspace) (process : ProcessId) :
    (workspace.reclaim process).tree = workspace.tree := by
  unfold reclaim
  split <;> rfl

theorem growsTo_invoke (workspace : Workspace) (history : List String)
    (commands : List CommandInfo) (routine : Routine α) :
    workspace.tree.GrowsTo (workspace.invoke history commands routine).2.tree := by
  dsimp only [invoke]
  rw [tree_reclaim]
  exact growsTo_run _ routine { workspace with processes := workspace.processes.start.2 }

theorem keptBy_isTree (routine : Routine α) :
    KeptBy (fun workspace => workspace.tree.IsTree) routine :=
  fun workspace history commands isTree =>
    isTree.growsTo (workspace.growsTo_invoke history commands routine)

end Workspace

namespace Session

variable {config : Config} {created : Session}

theorem makeDirectories_new (begun : new config = .ok created) :
    ∃ id, FileTree.empty.makeDirectories "/" (Path.resolve "/" config.home) =
      (.ok id, created.workspace.tree) := by
  simp only [new] at begun
  split at begun
  next => cases begun
  next id tree made =>
    rw [← Except.ok.inj begun]
    exact ⟨id, made⟩

theorem isTree_performAll (begun : new config = .ok created) (operations : List Operation) :
    (created.performAll operations).workspace.tree.IsTree := by
  have first : created.workspace.tree.IsTree := by
    obtain ⟨id, made⟩ := makeDirectories_new begun
    have grown := FileTree.isTree_empty.of_perform
      (.makeDirectories "/" (Path.resolve "/" config.home))
    rwa [FileTree.perform, made] at grown
  have upholds : created.Upholds fun workspace => workspace.tree.IsTree :=
    ⟨first, fun _ _ => Workspace.keptBy_isTree _⟩
  refine (upholds.performAll (fun _ _ isTree => isTree) fun operation _ => ?_).now
  cases operation with
  | register command => exact fun _ => Workspace.keptBy_isTree _
  | init routine => exact Workspace.keptBy_isTree routine
  | setFarewell | runStartup | execute | runLine | handle => trivial

/-- The tree of a new session as a map: directories along the path of the home. -/
theorem represents_new (begun : new config = .ok created) :
    ∃ map, created.workspace.tree.Represents map ∧ ∀ names, map.item? names =
      if names <+: Path.components (Path.resolve "/" config.home) then some .directory
      else none := by
  have home := Path.isCanonical_resolve Path.isCanonical_root config.home
  obtain ⟨id, made⟩ := makeDirectories_new begun
  have atTop : Path.IsCanonical
      (FileTree.Operation.makeDirectories "/" (Path.resolve "/" config.home)).current :=
    Path.isCanonical_root
  obtain ⟨outcome, represents⟩ :=
    FileTree.refines_perform FileTree.isTree_empty FileTree.represents_empty atTop
  rw [FileTree.perform, made] at outcome represents
  refine ⟨_, represents, fun names => ?_⟩
  rw [PathMap.item?_after, ← outcome]
  simp only [Except.map, PathMap.itemAfter, Path.resolve_of_isCanonical "/" home]
  by_cases along : names <+: Path.components (Path.resolve "/" config.home)
  · rw [if_pos along, if_pos along]
  · rw [if_neg along, if_neg along]
    -- The root is in the tree already, but it lies along every path.
    apply if_neg
    rintro rfl
    exact along List.nil_prefix

end Session

end CommandShell
