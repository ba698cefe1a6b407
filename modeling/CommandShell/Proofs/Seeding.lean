import CommandShell.Proofs.Layouts
import CommandShell.Proofs.OpenFiles
import CommandShell.Proofs.Reclamation
import CommandShell.Proofs.Refusals
import CommandShell.Proofs.Renamings
import CommandShell.Proofs.SessionTrees

/-!
# The demonstration files

The demonstration files are a layout of two directories and two files.  They are created through
the calls of a running command, and what such a run does to the file tree is what laying out the
layout does to it.
-/

namespace CommandShell

def Outcome.ofExcept {α : Type} : Except Failure α → Outcome α
  | .ok value => .done value
  | .error failure => .failed failure

namespace Workspace

variable (surroundings : Surroundings) (workspace : Workspace)

theorem run_ofExcept {α : Type} (outcome : Except Failure α) :
    run surroundings (.ofExcept outcome) workspace = (.ofExcept outcome, workspace) := by
  cases outcome <;> rfl

theorem run_truncate (handle : Handle) :
    run surroundings (Routine.truncate handle) workspace =
      (.ofExcept (workspace.truncate handle).1, (workspace.truncate handle).2) :=
  (run_ask_bind surroundings (.truncate handle) .ofExcept workspace).trans (run_ofExcept _ _ _)

theorem run_write (handle : Handle) (text : String) :
    run surroundings (Routine.write handle text) workspace =
      (.ofExcept (workspace.write handle text).1, (workspace.write handle text).2) :=
  (run_ask_bind surroundings (.write handle text) .ofExcept workspace).trans (run_ofExcept _ _ _)

/-- Whether a run has done to a workspace what was done to its tree: it has ended alike, and
beside the tree it has changed nothing but the tables. -/
def Follows (made : Except Failure Unit × FileTree) (ended : Outcome Unit × Workspace) : Prop :=
  ∃ handles processes,
    ended = (.ofExcept made.1, { workspace with tree := made.2, handles, processes })

variable {workspace}

theorem Follows.andThen {made : Except Failure Unit × FileTree} {routine next : Routine Unit}
    {later : FileTree → Except Failure Unit × FileTree}
    (first : workspace.Follows made (run surroundings routine workspace))
    (onward : ∀ after : Workspace, after.current = workspace.current →
      after.Follows (later after.tree) (run surroundings next after)) :
    workspace.Follows (FileTree.andThen later made)
      (run surroundings (routine >>= fun _ => next) workspace) := by
  obtain ⟨handles, processes, ended⟩ := first
  rw [run_bind, ended]
  rcases made with ⟨failure | value, tree⟩
  · exact ⟨handles, processes, rfl⟩
  · obtain ⟨moreHandles, moreProcesses, endedLater⟩ :=
      onward { workspace with tree, handles, processes } rfl
    exact ⟨moreHandles, moreProcesses, endedLater⟩

theorem follows_ensureDirectory (workspace : Workspace) (path : String) :
    workspace.Follows (workspace.tree.install workspace.current ⟨path, .directory⟩)
      (run surroundings (Demo.ensureDirectory path) workspace) := by
  have looked : run surroundings (Routine.isDirectory path) workspace =
      (.done (workspace.tree.isDirectory workspace.current path), workspace) := rfl
  rw [Demo.ensureDirectory, run_bind, looked, Workspace.andThen, FileTree.install_directory]
  split
  · exact ⟨workspace.handles, workspace.processes, rfl⟩
  · rw [run_makeDirectory, run_ofExcept, makeDirectory_eq]
    exact ⟨workspace.handles, workspace.processes, rfl⟩

/-- An open file is overwritten by dropping its content and appending the new one. -/
theorem run_overwrite (workspace : Workspace) {handle : Handle} {node : NodeId} (content : String)
    (bound : workspace.handles.node handle = .ok node)
    (isFile : workspace.tree.kind? node = some .file) :
    run surroundings
        (do Routine.truncate handle; Routine.write handle content; Routine.close handle)
        workspace =
      (.done (), { workspace with
        tree := workspace.tree.updateContent node fun _ => content }.close
          surroundings.process handle) := by
  have emptied : workspace.truncate handle =
      (.ok (), { workspace with tree := workspace.tree.updateContent node fun _ => "" }) :=
    truncate_of_bound bound
  have isStillFile : (workspace.tree.updateContent node fun _ => "").kind? node = some .file := by
    rw [FileTree.kind?_updateContent, isFile]
  have written := @write_of_bound
    { workspace with tree := workspace.tree.updateContent node fun _ => "" } handle node bound
    isStillFile content
  have closed (after : Workspace) : run surroundings (Routine.close handle) after =
      (.done (), after.close surroundings.process handle) := rfl
  rw [run_bind, run_truncate, emptied, Outcome.ofExcept, Workspace.andThen, run_bind, run_write,
    written, Outcome.ofExcept, Workspace.andThen, closed]
  simp only [FileTree.updateContent_updateContent, String.empty_append]

theorem follows_writeFile (workspace : Workspace) (path content : String) :
    workspace.Follows (workspace.tree.install workspace.current ⟨path, .file content⟩)
      (run surroundings (Demo.writeFile path content) workspace) := by
  rw [FileTree.install_file, FileTree.writeFile, Demo.writeFile, run_bind, run_openFile,
    run_ofExcept]
  rcases opened : workspace.tree.openFile workspace.current path true with
    ⟨failure | node, tree⟩
  · rw [openFile_of_error opened]
    exact ⟨workspace.handles, workspace.processes, rfl⟩
  · rw [openFile_of_ok opened, Outcome.ofExcept, Workspace.andThen,
      run_overwrite surroundings _ content Handles.node_bind_self
        (FileTree.kind?_of_openFile opened)]
    exact ⟨_, _, rfl⟩

/-- The run: routines that each install a fixture lay out the fixtures. -/
theorem follows_forM {ι : Type} (action : ι → Routine Unit) (fixture : ι → Fixture)
    (each : ∀ item (workspace : Workspace),
      workspace.Follows (workspace.tree.install workspace.current (fixture item))
        (run surroundings (action item) workspace))
    (items : List ι) (workspace : Workspace) :
    workspace.Follows (workspace.tree.lay workspace.current (items.map fixture))
      (run surroundings (items.forM action) workspace) := by
  induction items generalizing workspace with
  | nil => exact ⟨workspace.handles, workspace.processes, rfl⟩
  | cons item rest ih =>
      refine (each item workspace).andThen surroundings fun after same => ?_
      rw [← same]
      exact ih after

end Workspace

namespace Demo

/-- The demonstration files as a layout. -/
def layout : List Fixture :=
  directories.map (fun path => ⟨path, .directory⟩) ++
    files.map fun file => ⟨file.1, .file file.2⟩

theorem seed_eq : seed =
    (directories.forM ensureDirectory >>= fun _ =>
      files.forM fun file => writeFile file.1 file.2) :=
  rfl

theorem follows_seed (surroundings : Surroundings) (workspace : Workspace) :
    workspace.Follows (workspace.tree.lay workspace.current layout)
      (Workspace.run surroundings seed workspace) := by
  rw [seed_eq, layout, FileTree.lay_append]
  have eachDirectory (path : String) (workspace : Workspace) :=
    Workspace.follows_ensureDirectory surroundings workspace path
  have front := Workspace.follows_forM surroundings ensureDirectory (fun path => ⟨path, .directory⟩)
    eachDirectory directories workspace
  refine front.andThen surroundings fun after same => ?_
  rw [← same]
  have eachFile (file : String × String) (workspace : Workspace) :=
    Workspace.follows_writeFile surroundings workspace file.1 file.2
  exact Workspace.follows_forM surroundings _ _ eachFile files after

theorem grounded_layout : FileTree.Grounded [[]] layout := by
  refine .cons ⟨["home"], by decide, by decide⟩ (by decide) (by decide) (by decide) ?_
  refine .cons ⟨["home", "friends"], by decide, by decide⟩ (by decide) (by decide) (by decide) ?_
  refine .cons ⟨["home", "about"], by decide, by decide⟩ (by decide) (by decide) (by decide) ?_
  refine .cons ⟨["home", "friends", "Rachael"], by decide, by decide⟩ (by decide) (by decide)
    (by decide) ?_
  exact .nil _

theorem forall_mem_layout {holds : Fixture → Prop} :
    (∀ fixture ∈ layout, holds fixture) ↔
      holds ⟨"/home", .directory⟩ ∧ holds ⟨"/home/friends", .directory⟩ ∧
        holds ⟨"/home/about", .file "this is about me"⟩ ∧
        holds ⟨"/home/friends/Rachael", .file "this is about Rachael"⟩ := by
  simp [layout, directories, files]

end Demo

namespace FileTree

variable {tree after : FileTree} {map next : PathMap}

/-- Whether a path leads nowhere, or to something of the kind. -/
def Admits (tree : FileTree) (path : String) (kind : NodeKind) : Prop :=
  tree.lookup path = none ∨ ∃ id, tree.lookup path = some id ∧ tree.kind? id = some kind

/-- Whether a path leads to a file with the content. -/
def HasContent (tree : FileTree) (path content : String) : Prop :=
  ∃ id, tree.lookup path = some id ∧ tree.content? id = some content

/-- What a tree has become when the demonstration files have been put into it. -/
structure Seeded (tree after : FileTree) : Prop where
  home : after.HasDirectory "/home"
  friends : after.HasDirectory "/home/friends"
  about : after.HasContent "/home/about" "this is about me"
  rachael : after.HasContent "/home/friends/Rachael" "this is about Rachael"
  /-- What was there before is where it was. -/
  stays : ∀ path id, tree.lookup path = some id → after.lookup path = some id
  /-- Other paths lead to the same nodes as before, which hold the same. -/
  others : ∀ path, Path.components path ∉ Demo.layout.map Fixture.names →
    after.lookup path = tree.lookup path ∧
      ∀ id, tree.lookup path = some id →
        after.kind? id = tree.kind? id ∧ after.content? id = tree.content? id

theorem admits_iff_fits (isTree : tree.IsTree) (represents : tree.Represents map)
    {fixture : Fixture} :
    tree.Admits fixture.path fixture.item.kind ↔ fixture.Fits map := by
  rw [Fixture.Fits, Fixture.names, ← (represents.shows isTree).lookup, Admits]
  cases found : tree.lookup fixture.path with
  | none => simp
  | some id =>
      obtain ⟨item, known⟩ := item?_isSome (isTree.lt_nodeCount_of_walk_root found)
      simp [kind?_eq_map_item?, known]

theorem hasDirectory_of_item? (represents : tree.Represents map) {path : String}
    (shown : map.item? (Path.components path) = some .directory) : tree.HasDirectory path :=
  represents.exists_directory shown

theorem hasContent_of_item? (represents : tree.Represents map) {path content : String}
    (shown : map.item? (Path.components path) = some (.file content)) :
    tree.HasContent path content := by
  rw [← represents] at shown
  obtain ⟨id, arrives, item⟩ := Option.bind_eq_some_iff.mp shown
  refine ⟨id, arrives, ?_⟩
  rw [content?_eq_bind_item?, item]
  rfl

theorem seeded_of_laid (isTree : tree.IsTree) (represents : tree.Represents map)
    (afterTree : after.IsTree) (represented : after.Represents next)
    (grown : tree.GrowsTo after) (laid : Laid Demo.layout map next) : tree.Seeded after := by
  obtain ⟨home, friends, about, rachael⟩ := Demo.forall_mem_layout.mp laid.shown
  refine ⟨hasDirectory_of_item? represented home, hasDirectory_of_item? represented friends,
    hasContent_of_item? represented about, hasContent_of_item? represented rachael,
    fun path id => grown.lookup_eq_some, fun path elsewhere => ?_⟩
  have same : next.item? (Path.components path) = map.item? (Path.components path) := by
    refine laid.others _ fun fixture member here => elsewhere ?_
    exact List.mem_map.mpr ⟨fixture, member, here.symm⟩
  cases found : tree.lookup path with
  | none =>
      have absent := (represented.shows afterTree).lookup_isSome path
      rw [same, ← (represents.shows isTree).lookup_isSome, found] at absent
      refine ⟨?_, fun id there => by cases there⟩
      cases reached : after.lookup path with
      | none => rfl
      | some id => simp [reached] at absent
  | some id =>
      refine ⟨grown.lookup_eq_some found, fun other there => ?_⟩
      obtain rfl := Option.some.inj there
      have item : after.item? id = tree.item? id := by
        rw [← represented.item?_of_walk (grown.lookup_eq_some found), same,
          represents.item?_of_walk found]
      rw [kind?_eq_map_item?, item, ← kind?_eq_map_item?, content?_eq_bind_item?, item,
        ← content?_eq_bind_item?]
      exact ⟨rfl, rfl⟩

end FileTree

namespace Session

theorem growsTo_perform_init (session : Session) (routine : Routine Unit) :
    session.workspace.tree.GrowsTo (session.perform (.init routine)).2.workspace.tree :=
  session.workspace.growsTo_invoke session.editor.history session.registry.infos routine

theorem idle_perform_init {session : Session} (idle : session.workspace.Idle)
    (routine : Routine Unit) : (session.perform (.init routine)).2.workspace.Idle :=
  idle.invoke routine session.editor.history session.registry.infos

/-- The demonstration files are created as a layout is laid out. -/
theorem exists_perform_seed (session : Session) :
    let laid := session.workspace.tree.lay session.workspace.current Demo.layout
    ∃ handles processes, session.perform (.init Demo.seed) =
      (.ofExcept laid.1, { session with
        workspace := { session.workspace with tree := laid.2, handles, processes } }) := by
  obtain ⟨surroundings, begun, handles, processes, invoked⟩ := session.exists_invoke_eq Demo.seed
  obtain ⟨ranHandles, ranProcesses, ran⟩ := Demo.follows_seed surroundings
    { session.workspace with processes := begun }
  exact ⟨handles, processes, invoked _ _ ran⟩

/-- What the creation of the demonstration files comes to. -/
inductive Provision (session : Session) : Prop where
  | refused (fixture : Fixture) (member : fixture ∈ Demo.layout)
      (inTheWay : ¬ session.workspace.tree.Admits fixture.path fixture.item.kind)
      (failed : (session.perform (.init Demo.seed)).1 = .failed fixture.refusal)
  | seeded (admitted : ∀ fixture ∈ Demo.layout,
        session.workspace.tree.Admits fixture.path fixture.item.kind)
      (after : FileTree) (handles : Handles) (processes : Processes)
      (performed : session.perform (.init Demo.seed) = (.done (), { session with
        workspace := { session.workspace with tree := after, handles, processes } }))
      (shown : session.workspace.tree.Seeded after)
      (stays : after.lay session.workspace.current Demo.layout = (.ok (), after))

variable {session : Session}

theorem provision (isTree : session.workspace.tree.IsTree)
    (canonical : Path.IsCanonical session.workspace.current) : session.Provision := by
  have represents := isTree.represents_pathMap
  have rootGiven : ∀ names ∈ [([] : List String)],
      isTree.pathMap.item? names = some .directory := by
    simp [PathMap.root]
  obtain ⟨handles, processes, performed⟩ := session.exists_perform_seed
  cases FileTree.laying isTree represents canonical Demo.grounded_layout rootGiven with
  | refused before fixture behind split fit unfit after result =>
      rw [result] at performed
      dsimp only [Outcome.ofExcept] at performed
      have member : fixture ∈ Demo.layout := by simp [split]
      have inTheWay := mt (FileTree.admits_iff_fits isTree represents).mp unfit
      exact .refused fixture member inTheWay (congrArg Prod.fst performed)
  | laid fit after next result afterTree represented laid =>
      rw [result] at performed
      dsimp only [Outcome.ofExcept] at performed
      have grown := session.growsTo_perform_init Demo.seed
      rw [performed] at grown
      refine .seeded (fun fixture member => ?_) after handles processes performed
        (FileTree.seeded_of_laid isTree represents afterTree represented grown laid)
        (FileTree.lay_of_shown afterTree represented canonical Demo.grounded_layout.isCanonical
          laid.shown)
      exact (FileTree.admits_iff_fits isTree represents).mpr (fit fixture member)

theorem Provision.done_iff (provision : session.Provision) :
    (session.perform (.init Demo.seed)).1 = .done () ↔
      ∀ fixture ∈ Demo.layout, session.workspace.tree.Admits fixture.path fixture.item.kind := by
  cases provision with
  | refused fixture member inTheWay failed =>
      rw [failed]
      exact ⟨nofun, fun admitted => absurd (admitted fixture member) inTheWay⟩
  | seeded admitted after handles processes performed shown stays =>
      rw [performed]
      exact ⟨fun _ => admitted, fun _ => rfl⟩

theorem Provision.failed_iff (provision : session.Provision) :
    (∃ failure, (session.perform (.init Demo.seed)).1 = .failed failure) ↔
      ¬ ∀ fixture ∈ Demo.layout, session.workspace.tree.Admits fixture.path fixture.item.kind := by
  rw [← provision.done_iff]
  cases provision with
  | refused fixture member inTheWay failed =>
      rw [failed]
      exact ⟨fun _ => nofun, fun _ => ⟨_, rfl⟩⟩
  | seeded admitted after handles processes performed shown stays =>
      rw [performed]
      exact ⟨nofun, fun notDone => absurd rfl notDone⟩

/-- A new session has directories along the path of its home and nothing else, so only a file
can have something in its way. -/
theorem admits_new {config : Config} {created : Session} (begun : new config = .ok created)
    (fixture : Fixture) :
    created.workspace.tree.Admits fixture.path fixture.item.kind ↔
      (fixture.names <+: Path.components (Path.resolve "/" config.home) →
        fixture.item.kind = .directory) := by
  obtain ⟨map, represents, items⟩ := represents_new begun
  have isTree : created.workspace.tree.IsTree := isTree_performAll begun []
  rw [FileTree.admits_iff_fits isTree represents, Fixture.Fits, items]
  by_cases along : fixture.names <+: Path.components (Path.resolve "/" config.home)
  · simp [along, PathMap.Item.kind, eq_comm]
  · simp [along]

theorem failed_new_iff {config : Config} {created : Session} (begun : new config = .ok created) :
    (∃ failure, (created.perform (.init Demo.seed)).1 = .failed failure) ↔
      Path.components "/home/about" <+: Path.components (Path.resolve "/" config.home) ∨
        Path.components "/home/friends/Rachael" <+:
          Path.components (Path.resolve "/" config.home) := by
  have isTree : created.workspace.tree.IsTree := isTree_performAll begun []
  have canonical : Path.IsCanonical created.workspace.current := by
    obtain ⟨tree, rfl⟩ := exists_eq_of_new begun
    exact Path.isCanonical_resolve Path.isCanonical_root config.home
  rw [(provision isTree canonical).failed_iff]
  simp only [admits_new begun]
  rw [Demo.forall_mem_layout]
  simp only [Fixture.names, PathMap.Item.kind, reduceCtorEq, imp_true_iff, imp_false, true_and,
    not_and_or, not_not]

/-- The demonstration files can be created exactly if nothing is in the way, and creating them
a second time changes nothing.  In every session that operations make of a new one and that
stands in a canonical directory: the creation is done if each of the two directories is missing
or a directory, and each of the two files is missing or a file, and otherwise it fails and says
what is in the way.  When it is done the four paths have what they are wanted to have, whatever the
files held before, and all other paths lead to the same nodes, which hold the same.  In any case
the current directory and the output are what they were, and no handle is left open.  Done once
more it is done again, and leaves the tree as it is, node for node.  In a new session it fails for
the homes at or below the two files, and for no others. -/
theorem seeding_exactly_if_admitted {config : Config} {created : Session}
    (begun : new config = .ok created) (operations : List Operation)
    (canonical : Path.IsCanonical (created.performAll operations).workspace.current) :
    let session := created.performAll operations
    let tree := session.workspace.tree
    let seeded := session.perform (.init Demo.seed)
    let again := seeded.2.perform (.init Demo.seed)
    (seeded.1 = .done () ↔
      tree.Admits "/home" .directory ∧ tree.Admits "/home/friends" .directory ∧
        tree.Admits "/home/about" .file ∧ tree.Admits "/home/friends/Rachael" .file) ∧
    (seeded.1 ≠ .done () → ∃ fixture ∈ Demo.layout,
      ¬ tree.Admits fixture.path fixture.item.kind ∧ seeded.1 = .failed fixture.refusal) ∧
    (seeded.1 = .done () → tree.Seeded seeded.2.workspace.tree ∧
      again.1 = .done () ∧ again.2.workspace.tree = seeded.2.workspace.tree) ∧
    seeded.2.workspace.current = session.workspace.current ∧ seeded.2.output = session.output ∧
    seeded.2.workspace.handles.count = 0 ∧
    ((∃ failure, (created.perform (.init Demo.seed)).1 = .failed failure) ↔
      Path.components "/home/about" <+: Path.components (Path.resolve "/" config.home) ∨
        Path.components "/home/friends/Rachael" <+:
          Path.components (Path.resolve "/" config.home)) := by
  intro session tree seeded again
  have isTree : tree.IsTree := isTree_performAll begun operations
  have provision : session.Provision := provision isTree canonical
  have doneIff := provision.done_iff
  rw [Demo.forall_mem_layout] at doneIff
  obtain ⟨handles, processes, performed⟩ := session.exists_perform_seed
  have idle : session.workspace.Idle := idle_performAll begun operations
  have still : seeded.2.workspace.current = session.workspace.current ∧
      seeded.2.output = session.output ∧ seeded.2.workspace.handles.count = 0 := by
    have noHandle := (idle_perform_init idle Demo.seed).handles
    dsimp only [seeded]
    rw [performed] at noHandle ⊢
    exact ⟨rfl, rfl, noHandle⟩
  refine ⟨doneIff, ?_, ?_, still.1, still.2.1, still.2.2, failed_new_iff begun⟩
  · intro notDone
    cases provision with
    | refused fixture member inTheWay failed => exact ⟨fixture, member, inTheWay, failed⟩
    | seeded admitted after handles processes performed shown stays =>
        exact absurd (congrArg Prod.fst performed) notDone
  · intro done
    cases provision with
    | refused fixture member inTheWay failed =>
        rw [failed] at done
        cases done
    | seeded admitted after handles processes performed shown stays =>
        obtain ⟨moreHandles, moreProcesses, more⟩ := seeded.2.exists_perform_seed
        dsimp only [seeded, again] at more ⊢
        rw [performed] at more ⊢
        rw [more]
        exact ⟨shown, by rw [stays]; rfl, by rw [stays]⟩

/-- Operations that leave files with other contents where the demonstration files belong. -/
def cluttering : List Operation :=
  [.init (Demo.writeFile "../about" "old"), .runLine "mkdir ../friends",
    .runLine "touch ../friends/Rachael", .runLine "touch notes"]

theorem seeding_exactly_if_admitted_cluttered :
    ∃ created blocked, new { home := "/home/ada" } = .ok created ∧
      new { home := "/home/friends/Rachael/x" } = .ok blocked ∧
      let session := created.performAll cluttering
      let tree := session.workspace.tree
      let seeded := session.perform (.init Demo.seed)
      let again := seeded.2.perform (.init Demo.seed)
      Path.IsCanonical session.workspace.current ∧ tree.lookup "/home/about" = some 3 ∧
        tree.content? 3 = some "old" ∧ seeded.1 = .done () ∧
        tree.Seeded seeded.2.workspace.tree ∧ again.1 = .done () ∧
        again.2.workspace.tree = seeded.2.workspace.tree ∧
        seeded.2.workspace.tree.content? 3 = some "this is about me" ∧
        seeded.2.workspace.handles.count = 0 ∧
        ∃ failure, (blocked.perform (.init Demo.seed)).1 = .failed failure := by
  obtain ⟨created, begun, -⟩ := exists_new { home := "/home/ada" }
  obtain ⟨blocked, begunBlocked, upholds⟩ := exists_new { home := "/home/friends/Rachael/x" }
  have told : (new { home := "/home/ada" }).map (fun created =>
      let session := created.performAll cluttering
      let seeded := session.perform (.init Demo.seed)
      (session.workspace.current, session.workspace.tree.lookup "/home/about",
        session.workspace.tree.content? 3, seeded.1, seeded.2.workspace.tree.content? 3)) =
      .ok ("/home/ada", some 3, some "old", .done (), some "this is about me") := by
    decide +kernel
  rw [begun] at told
  simp only [Except.map, Except.ok.injEq, Prod.mk.injEq] at told
  obtain ⟨current, found, old, done, overwritten⟩ := told
  have canonical : Path.IsCanonical (created.performAll cluttering).workspace.current := by
    rw [current]
    exact ⟨["home", "ada"], by decide, by decide⟩
  obtain ⟨-, -, succeeds, -, -, noHandle, -⟩ :=
    seeding_exactly_if_admitted begun cluttering canonical
  obtain ⟨shown, doneAgain, same⟩ := succeeds done
  have failing := (seeding_exactly_if_admitted begunBlocked [] upholds.now.canonical).2.2.2.2.2.2
  exact ⟨created, blocked, begun, begunBlocked, canonical, found, old, done, shown, doneAgain, same,
    overwritten, noHandle, failing.mpr (.inr (by decide +kernel))⟩

end Session

end CommandShell
