import CommandShell.Proofs.CallEffects
import CommandShell.Proofs.CallRestrictions
import CommandShell.Proofs.FailedOperations
import CommandShell.Proofs.SessionRuns

/-!
# The current directory exists

A new session creates its home directory, whatever path the configuration gives for it.
From there on file trees only grow, so the current directory can be lost by a change of
the current path alone; and of the built-in commands only one makes such a change, after
it has looked whether there is a directory.
-/

namespace CommandShell

namespace FileTree

/-- Whether a path, taken as it stands, leads to a directory. -/
def HasDirectory (tree : FileTree) (path : String) : Prop :=
  ∃ id, tree.lookup path = some id ∧ tree.kind? id = some .directory

theorem GrowsTo.hasDirectory {tree after : FileTree} (grown : tree.GrowsTo after)
    {path : String} (present : tree.HasDirectory path) : after.HasDirectory path := by
  obtain ⟨id, found, isDirectory⟩ := present
  exact ⟨id, grown.lookup_eq_some found, grown.kind?_eq_some isDirectory⟩

theorem isDirectory_iff {tree : FileTree} {current path : String} :
    tree.isDirectory current path ↔ tree.HasDirectory (Path.resolve current path) := by
  rw [isDirectory, decide_eq_true_iff, find?, Option.bind_eq_some_iff]
  rfl

/-- In the empty tree any canonical path can be made a directory. -/
theorem makeDirectories_empty {path : String} (canonical : Path.IsCanonical path) :
    ∃ id tree, empty.makeDirectories "/" path = (.ok id, tree) ∧ tree.HasDirectory path := by
  have areNames : ∀ name ∈ Path.components path, Path.IsName name :=
    fun _ member => Path.isName_of_mem_components member
  have rootDirectory : empty.kind? root = some .directory := rfl
  obtain ⟨id, made⟩ := @makeDirectoriesFrom_eq_ok _ _ [] _ rootDirectory
    (child?_empty root) areNames
  obtain ⟨arrives, isDirectory⟩ := (makeDirectoriesFrom_spec rootDirectory areNames).2 id made
  refine ⟨id, _, ?_, id, arrives, isDirectory⟩
  rw [makeDirectories, Path.resolve_of_isCanonical "/" canonical]
  exact Prod.ext made rfl

end FileTree

namespace Workspace

/-- Whether the current path is canonical and leads to a directory. -/
structure AtDirectory (workspace : Workspace) : Prop where
  canonical : Path.IsCanonical workspace.current
  exists_directory : workspace.tree.HasDirectory workspace.current

namespace AtDirectory

variable {workspace after : Workspace}

theorem grown (atDirectory : workspace.AtDirectory) (same : after.current = workspace.current)
    (grown : workspace.tree.GrowsTo after.tree) : after.AtDirectory where
  canonical := same ▸ atDirectory.canonical
  exists_directory := by
    rw [same]
    exact grown.hasDirectory atDirectory.exists_directory

theorem mapOutput (atDirectory : workspace.AtDirectory) (change : Output → Output) :
    (workspace.mapOutput change).AtDirectory :=
  ⟨atDirectory.canonical, atDirectory.exists_directory⟩

theorem reclaim (atDirectory : workspace.AtDirectory) (process : ProcessId) :
    (workspace.reclaim process).AtDirectory := by
  unfold Workspace.reclaim
  split
  · exact atDirectory
  · exact ⟨atDirectory.canonical, atDirectory.exists_directory⟩

end AtDirectory

theorem keptBy_atDirectory {α : Type} {routine : Routine α}
    (kept : ∀ surroundings workspace, AtDirectory workspace →
      AtDirectory (run surroundings routine workspace).2) :
    KeptBy AtDirectory routine := by
  intro workspace history commands before
  have started : { workspace with processes := workspace.processes.start.2 }.AtDirectory :=
    ⟨before.canonical, before.exists_directory⟩
  exact (kept _ _ started).reclaim _

end Workspace

/-- Whether a call leaves the current path alone. -/
def Call.StaysPut : Call → Prop
  | setCurrent _ => False
  | _ => True

/-- Whether a call changes neither the file tree nor the current path. -/
def Call.OnlyLooks : Call → Prop
  | openFile _ create => create = false
  | write _ _ | truncate _ | makeDirectory _ | setCurrent _ => False
  | _ => True

theorem Call.OnlyLooks.staysPut {request : Call} (onlyLooks : request.OnlyLooks) :
    request.StaysPut := by
  cases request with
  | setCurrent path => exact onlyLooks.elim
  | _ => trivial

/-- Whether a call neither changes the current path nor writes to the output. -/
def Call.IsQuiet : Call → Prop
  | setCurrent _ | print _ | printLine _ => False
  | _ => True

theorem Workspace.current_perform (workspace : Workspace) (surroundings : Surroundings)
    {request : Call} (staysPut : request.StaysPut) :
    (workspace.perform surroundings request).2.current = workspace.current := by
  cases request with
  | setCurrent path => exact staysPut.elim
  | openFile path create =>
      simp only [perform, openFile]
      split <;> rfl
  | write handle text =>
      simp only [perform, write]
      split
      · rfl
      · split <;> rfl
  | truncate handle =>
      simp only [perform, truncate]
      split <;> rfl
  | read | close | openHandles | print | printLine | list | makeDirectory | current | tree
  | process | history | commands | note => rfl

theorem Workspace.keptBy_of_staysPut {α : Type} {routine : Routine α}
    (staysPut : routine.AsksOnly Call.StaysPut) : KeptBy AtDirectory routine := by
  apply keptBy_atDirectory
  intro surroundings workspace before
  apply run_of_asksOnly _ staysPut before
  intro reached request isAllowed atDirectory
  exact atDirectory.grown (reached.current_perform surroundings isAllowed)
    (reached.effect_perform surroundings request).growsTo

section Builtins

open Builtins Routine Workspace

variable (arguments : List String)

theorem asksOnly_pathArgument {allowed : Call → Prop} :
    (pathArgument arguments).AsksOnly allowed := by
  cases arguments with
  | nil => trivial
  | cons path rest => trivial

theorem onlyLooks_help : (help arguments).AsksOnly Call.OnlyLooks := by
  cases arguments with
  | nil => exact .bind (.ask trivial) fun _ => .pure _
  | cons name rest =>
      refine .bind (.bind (.ask trivial) fun _ => .pure _) fun info => ?_
      cases info with
      | none => trivial
      | some info => exact .pure _

theorem onlyLooks_ls : (ls arguments).AsksOnly Call.OnlyLooks := by
  refine .bind (.bind (.ask trivial) .ofExcept) fun entries => ?_
  split
  · exact .pure _
  · exact .pure _

theorem onlyLooks_cat : (cat arguments).AsksOnly Call.OnlyLooks := by
  refine .bind (asksOnly_pathArgument arguments) fun path => ?_
  refine .bind (.bind (.ask rfl) .ofExcept) fun handle => ?_
  refine .bind (.bind (.ask trivial) .ofExcept) fun content => ?_
  exact .bind (.ask trivial) fun _ => .pure _

theorem onlyLooks_history : (history arguments).AsksOnly Call.OnlyLooks := by
  refine .bind (.ask trivial) fun lines => ?_
  split
  · exact .pure _
  · exact .pure _

theorem staysPut_mkdir : (mkdir arguments).AsksOnly Call.StaysPut := by
  refine .bind (asksOnly_pathArgument arguments) fun path => ?_
  exact .bind (.bind (.ask trivial) .ofExcept) fun _ => .pure _

theorem staysPut_touch : (touch arguments).AsksOnly Call.StaysPut := by
  refine .bind (asksOnly_pathArgument arguments) fun path => ?_
  refine .bind (.bind (.ask trivial) .ofExcept) fun handle => ?_
  exact .bind (.ask trivial) fun _ => .pure _

/-- Of the built-in commands three change the file tree or the current path. -/
theorem cases_of_mem_builtins {command : Command} (member : command ∈ Builtins.all) :
    (command.name = "cd" ∧ command.body = cd) ∨
      (command.name = "mkdir" ∧ command.body = mkdir) ∨
      (command.name = "touch" ∧ command.body = touch) ∨
      ∀ arguments, (command.body arguments).AsksOnly Call.OnlyLooks := by
  simp only [Builtins.all, List.mem_cons, List.not_mem_nil, or_false] at member
  rcases member with rfl | rfl | rfl | rfl | rfl | rfl | rfl | rfl | rfl | rfl | rfl | rfl
  · exact .inr (.inr (.inr onlyLooks_help))
  · exact .inr (.inr (.inr onlyLooks_ls))
  · exact .inl ⟨rfl, rfl⟩
  · exact .inr (.inr (.inr fun _ => .bind (.ask trivial) fun _ => .pure _))
  · exact .inr (.inr (.inr onlyLooks_cat))
  · exact .inr (.inl ⟨rfl, rfl⟩)
  · exact .inr (.inr (.inl ⟨rfl, rfl⟩))
  · exact .inr (.inr (.inr fun _ => .pure _))
  · exact .inr (.inr (.inr fun _ => .pure _))
  · exact .inr (.inr (.inr fun _ => .pure _))
  · exact .inr (.inr (.inr onlyLooks_history))
  · exact .inr (.inr (.inr fun _ => .pure _))

/-- The change of directory resolves the path, looks whether there is a directory, and
sets the resolved path.  The look resolves it a second time, which changes nothing. -/
theorem run_cd (surroundings : Surroundings) (workspace : Workspace) (path : String)
    (rest : List String) :
    run surroundings (cd (path :: rest)) workspace =
      let target := Path.resolve workspace.current path
      if workspace.tree.isDirectory workspace.current target then
        (.done .silent, { workspace with current := target })
      else (.failed (.notADirectory target), workspace) := by
  have resolved : run surroundings (Routine.resolve path) workspace =
      (.done (Path.resolve workspace.current path), workspace) := rfl
  have looked (target : String) : run surroundings (Routine.isDirectory target) workspace =
      (.done (workspace.tree.isDirectory workspace.current target), workspace) := rfl
  dsimp only [cd]
  rw [run_bind, resolved, andThen, run_bind, looked, andThen]
  split
  · rfl
  · rfl

section ChangeOfDirectory

variable {workspace : Workspace} (canonical : Path.IsCanonical workspace.current)
  (surroundings : Surroundings) {path target : String} (rest : List String)
  (resolved : Path.resolve workspace.current path = target)

include canonical resolved

theorem isDirectory_iff_of_resolve :
    workspace.tree.isDirectory workspace.current target ↔
      workspace.tree.HasDirectory target := by
  have again : Path.resolve workspace.current target = target := by
    rw [← resolved]
    exact Path.resolve_of_isCanonical _ (Path.isCanonical_resolve canonical path)
  rw [FileTree.isDirectory_iff, again]

theorem run_cd_of_directory (present : workspace.tree.HasDirectory target) :
    run surroundings (cd (path :: rest)) workspace =
      (.done .silent, { workspace with current := target }) := by
  have seen := (isDirectory_iff_of_resolve canonical resolved).mpr present
  rw [run_cd, resolved]
  exact if_pos seen

theorem run_cd_of_no_directory (absent : ¬ workspace.tree.HasDirectory target) :
    run surroundings (cd (path :: rest)) workspace =
      (.failed (.notADirectory target), workspace) := by
  have notSeen := mt (isDirectory_iff_of_resolve canonical resolved).mp absent
  rw [run_cd, resolved]
  exact if_neg notSeen

end ChangeOfDirectory

theorem keptBy_cd : KeptBy AtDirectory (cd arguments) := by
  apply keptBy_atDirectory
  intro surroundings workspace before
  cases arguments with
  | nil => exact before
  | cons path rest =>
      have canonical := before.canonical
      by_cases present : workspace.tree.HasDirectory (Path.resolve workspace.current path)
      · rw [run_cd_of_directory canonical surroundings rest rfl present]
        exact ⟨Path.isCanonical_resolve canonical path, present⟩
      · rw [run_cd_of_no_directory canonical surroundings rest rfl present]
        exact before

/-- Of the built-in commands one changes the current path. -/
theorem eq_cd_or_staysPut_of_mem_builtins {command : Command}
    (member : command ∈ Builtins.all) :
    command.body = cd ∨ (command.body arguments).AsksOnly Call.StaysPut := by
  rcases cases_of_mem_builtins member with ⟨-, isCd⟩ | ⟨-, body⟩ | ⟨-, body⟩ | onlyLooks
  · exact .inl isCd
  · rw [body]
    exact .inr (staysPut_mkdir arguments)
  · rw [body]
    exact .inr (staysPut_touch arguments)
  · exact .inr ((onlyLooks arguments).imp fun _ => Call.OnlyLooks.staysPut)

theorem keptBy_of_mem_builtins {command : Command} (member : command ∈ Builtins.all) :
    KeptBy AtDirectory (command.body arguments) := by
  rcases eq_cd_or_staysPut_of_mem_builtins arguments member with isCd | staysPut
  · rw [isCd]
    exact keptBy_cd arguments
  · exact keptBy_of_staysPut staysPut

/-- The demonstration files are created in place and without a word. -/
theorem quiet_seed : Demo.seed.AsksOnly Call.IsQuiet := by
  refine .bind (.forM fun path => ?_) fun _ => .forM fun file => ?_
  · refine .bind (.bind (.ask trivial) fun _ => .bind (.ask trivial) fun _ => .pure _)
      fun isDirectory => ?_
    split
    · exact .pure _
    · exact .bind (.ask trivial) .ofExcept
  · refine .bind (.bind (.ask trivial) .ofExcept) fun handle => ?_
    refine .bind (.bind (.ask trivial) .ofExcept) fun _ => ?_
    exact .bind (.bind (.ask trivial) .ofExcept) fun _ => .ask trivial

theorem staysPut_seed : Demo.seed.AsksOnly Call.StaysPut :=
  quiet_seed.imp fun request quiet => by
    cases request with
    | setCurrent path => exact quiet.elim
    | _ => trivial

end Builtins

theorem Registry.mem_of_find?_registerAll {registry : Registry} {commands : List Command}
    {name : String} {found : Command}
    (entry : (registry.registerAll commands).find? name = some found) :
    found ∈ commands ∨ registry.find? name = some found := by
  induction commands generalizing registry with
  | nil => exact .inr entry
  | cons command rest ih =>
      rcases ih entry with later | before
      · exact .inl (List.mem_cons_of_mem _ later)
      · rw [find?_register] at before
        split at before
        next => exact .inl (Option.some.inj before ▸ List.mem_cons_self)
        next => exact .inr before

namespace Session

open Workspace

/-- Whether an operation brings no routine along but the one for the demonstration
files. -/
def Operation.IsOrdinary : Operation → Prop
  | register _ => False
  | init routine => routine = Demo.seed
  | _ => True

theorem Operation.IsOrdinary.upholds {operation : Operation} (ordinary : operation.IsOrdinary) :
    operation.Upholds AtDirectory := by
  cases operation with
  | register command => exact ordinary.elim
  | init routine =>
      have isSeed : routine = Demo.seed := ordinary
      rw [isSeed]
      exact keptBy_of_staysPut staysPut_seed
  | setFarewell | runStartup | execute | runLine | handle => trivial

/-- A session can be made for every configuration, and begins in a directory. -/
theorem exists_new (config : Config) :
    ∃ session, Session.new config = .ok session ∧ session.Upholds AtDirectory := by
  have canonical := Path.isCanonical_resolve Path.isCanonical_root config.home
  obtain ⟨id, tree, made, present⟩ := FileTree.makeDirectories_empty canonical
  simp only [Session.new, made, Except.ok.injEq, exists_eq_left']
  refine ⟨⟨canonical, present⟩, ?_⟩
  intro name command entry arguments
  rcases Registry.mem_of_find?_registerAll entry with builtin | before
  · exact keptBy_of_mem_builtins arguments builtin
  · cases before

/-- The current directory always exists.  Every configuration gives a session, and after
any operations on it with the built-in commands the current path is canonical and leads to
a directory. -/
theorem current_is_directory (config : Config) :
    ∃ session, Session.new config = .ok session ∧
      ∀ operations : List Operation, (∀ operation ∈ operations, operation.IsOrdinary) →
        Path.IsCanonical (session.performAll operations).workspace.current ∧
          (session.performAll operations).workspace.tree.HasDirectory
            (session.performAll operations).workspace.current := by
  obtain ⟨session, created, upholds⟩ := exists_new config
  refine ⟨session, created, fun operations ordinary => ?_⟩
  have kept := upholds.performAll (fun _ change before => before.mapOutput change)
    fun operation member => (ordinary operation member).upholds
  exact ⟨kept.now.canonical, kept.now.exists_directory⟩

/-- Operations that move around from a home whose path is written loosely. -/
def wandering : List Operation :=
  [.init Demo.seed, .runLine "mkdir ../work", .runLine "cd ./../work/", .execute "cd" ["gone"]]

theorem current_is_directory_wandering :
    ∃ session, Session.new { home := "users//old/../new/." } = .ok session ∧
      (∀ operation ∈ wandering, operation.IsOrdinary) ∧
      (session.performAll wandering).workspace.current = "/users/work" ∧
      Path.IsCanonical (session.performAll wandering).workspace.current ∧
      (session.performAll wandering).workspace.tree.HasDirectory
        (session.performAll wandering).workspace.current := by
  obtain ⟨session, created, always⟩ := current_is_directory { home := "users//old/../new/." }
  have evaluated : Session.new { home := "users//old/../new/." } = .ok _ := rfl
  obtain rfl := Except.ok.inj (evaluated.symm.trans created)
  have ordinary : ∀ operation ∈ wandering, operation.IsOrdinary := by
    simp [wandering, Operation.IsOrdinary]
  refine ⟨_, created, ordinary, ?_, always wandering ordinary⟩
  decide +kernel

end Session

end CommandShell
