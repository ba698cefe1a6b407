import CommandShell.Proofs.Invocations

/-!
# Reading what was written

A handle stands for the file that the path of its latest opening led to.  Several handles
may stand for one file, and a number that was closed may come to stand for another one.
Through every open handle a process reads what the file held when the process began,
with everything that it has done to the file since, under whichever handle it did so.
-/

namespace CommandShell

namespace FileTree

/-- The content of a file, and no text for a node that is none. -/
def text (tree : FileTree) (id : NodeId) : String :=
  (tree.content? id).getD ""

section Texts

variable {tree : FileTree}

theorem content?_eq_text {id : NodeId} (isFile : tree.kind? id = some .file) :
    tree.content? id = some (tree.text id) := by
  obtain ⟨content, known⟩ := kind?_eq_file_iff.mp isFile
  rw [text, known, Option.getD_some]

theorem text_attach {parent : NodeId} {name : String} {node : Node}
    (vacant : tree.Vacant parent name) (bare : node.IsBare) (id : NodeId) :
    (tree.attach parent name node).2.text id = tree.text id := by
  rw [text, text, content?_attach vacant.lt_nodeCount]
  split
  next new =>
    have absent : tree.node? id = none := node?_eq_none_iff.mpr (Nat.le_of_eq new.symm)
    rw [content?, absent]
    rcases bare with rfl | rfl <;> rfl
  next => rfl

theorem text_updateContent {id : NodeId} (isFile : tree.kind? id = some .file)
    (change : String → String) (other : NodeId) :
    (tree.updateContent id change).text other =
      if id = other then change (tree.text other) else tree.text other := by
  rw [text, content?_updateContent]
  split
  next same =>
    rw [content?_eq_text (same ▸ isFile)]
    rfl
  next => rfl

theorem text_openFile (current path : String) (create : Bool) (id : NodeId) :
    (tree.openFile current path create).2.text id = tree.text id := by
  cases tree.opening current path create with
  | refused failure told result => rw [result]
  | found opened isFile leads result => rw [result]
  | created asked parent free result =>
      rw [result]
      exact text_attach free.vacant (.inr rfl) id

theorem text_makeDirectory (current path : String) (id : NodeId) :
    (tree.makeDirectory current path).2.text id = tree.text id := by
  cases tree.creation current path with
  | refused failure told result => rw [result]
  | created parent free result =>
      rw [result]
      exact text_attach free.vacant (.inl rfl) id

theorem node?_updateContent_of_ne {id other : NodeId} (different : other ≠ id)
    (change : String → String) :
    (tree.updateContent id change).node? other = tree.node? other := by
  rw [node?_updateContent, if_neg (Ne.symm different)]

end Texts

end FileTree

namespace Invocation

/-- The file that the path of the latest opening under a handle led to. -/
def opening? (invocation : Invocation) (handle : Handle) : List Call → Option NodeId
  | [] => none
  | request :: earlier =>
      match request with
      | .openFile path create =>
          let before := invocation.after earlier
          match before.openFile invocation.surroundings.process path create with
          | (.ok opened, after) =>
              if opened = handle then after.tree.find? before.current path
              else invocation.opening? handle earlier
          | (.error _, _) => invocation.opening? handle earlier
      | _ => invocation.opening? handle earlier

/-- Whether a handle is open after calls and stands for a file. -/
def Denotes (invocation : Invocation) (calls : List Call) (handle : Handle) (file : NodeId) :
    Prop :=
  handle ∈ invocation.openHandles calls ∧ invocation.opening? handle calls = some file

instance (invocation : Invocation) (calls : List Call) (handle : Handle) (file : NodeId) :
    Decidable (invocation.Denotes calls handle file) :=
  inferInstanceAs (Decidable (_ ∧ _))

/-- What a file holds after calls: what it held in the beginning, with every text that was
written under a handle of the file behind it, and nothing from before the latest time that
it was truncated under one. -/
def expected (invocation : Invocation) (file : NodeId) : List Call → String
  | [] => invocation.begun.tree.text file
  | request :: earlier =>
      let before := invocation.expected file earlier
      match request with
      | .write handle text =>
          if invocation.Denotes earlier handle file then before ++ text else before
      | .truncate handle => if invocation.Denotes earlier handle file then "" else before
      | _ => before

/-- What calls on handles and files come to after other calls. -/
structure ReadsItsWrites (invocation : Invocation) (calls : List Call) : Prop where
  /-- A call on a handle that is not open fails and changes nothing. -/
  closed : ∀ handle ∉ invocation.openHandles calls,
    let here := invocation.after calls
    let failure := Failure.invalidHandle handle
    here.perform invocation.surroundings (.read handle) = (.error failure, here) ∧
      (∀ text,
        here.perform invocation.surroundings (.write handle text) = (.error failure, here)) ∧
      here.perform invocation.surroundings (.truncate handle) = (.error failure, here)
  /-- A call on an open handle reads or changes its file and no other node. -/
  opened : ∀ handle ∈ invocation.openHandles calls, ∃ file,
    let here := invocation.after calls
    invocation.Denotes calls handle file ∧ here.tree.kind? file = some .file ∧
      here.perform invocation.surroundings (.read handle) =
        (.ok (invocation.expected file calls), here) ∧
      (∀ text, ∃ tree,
        here.perform invocation.surroundings (.write handle text) = (.ok (), { here with tree }) ∧
          tree.content? file = some (invocation.expected file calls ++ text) ∧
          ∀ other ≠ file, tree.node? other = here.tree.node? other) ∧
      ∃ tree,
        here.perform invocation.surroundings (.truncate handle) = (.ok (), { here with tree }) ∧
          tree.content? file = some "" ∧
          ∀ other ≠ file, tree.node? other = here.tree.node? other
  /-- Every file holds what was written to it. -/
  content : ∀ file, (invocation.after calls).tree.kind? file = some .file →
    (invocation.after calls).tree.content? file = some (invocation.expected file calls)
  /-- An opening that fails changes nothing. -/
  failedOpening : ∀ path create failure,
    invocation.reply calls (.openFile path create) = .error failure →
      invocation.after (.openFile path create :: calls) = invocation.after calls

end Invocation

namespace Workspace

variable {workspace : Workspace} {process : ProcessId} {handle : Handle}

/-- How an opening ends: with its failure and no change, or with the file that the path
leads to behind a new handle. -/
theorem openFile_cases (workspace : Workspace) (process : ProcessId) (path : String)
    (create : Bool) :
    (∃ failure, workspace.openFile process path create = (.error failure, workspace)) ∨
      ∃ node tree, workspace.openFile process path create =
        (.ok (workspace.handles.bind node).1,
          { workspace with
            tree
            handles := (workspace.handles.bind node).2
            processes := workspace.processes.opened process (workspace.handles.bind node).1 }) ∧
        tree.find? workspace.current path = some node ∧
        ∀ id, tree.text id = workspace.tree.text id := by
  have kept := @FileTree.text_openFile workspace.tree workspace.current path create
  unfold openFile
  split
  next failure tree result =>
    refine .inl ⟨failure, ?_⟩
    rw [FileTree.eq_of_openFile_error result]
  next node tree result =>
    rw [result] at kept
    exact .inr ⟨node, tree, rfl, FileTree.find?_of_openFile result, kept⟩

theorem read_of_bound {node : NodeId} (bound : workspace.handles.node handle = .ok node)
    (isFile : workspace.tree.kind? node = some .file) :
    workspace.read handle = .ok (workspace.tree.text node) := by
  rw [read, bound]
  dsimp only
  rw [FileTree.content?_eq_text isFile]

theorem write_of_bound {node : NodeId} (bound : workspace.handles.node handle = .ok node)
    (isFile : workspace.tree.kind? node = some .file) (text : String) :
    workspace.write handle text =
      (.ok (), { workspace with tree := workspace.tree.updateContent node (· ++ text) }) := by
  rw [write, bound]
  dsimp only
  rw [FileTree.content?_eq_text isFile]

theorem truncate_of_bound {node : NodeId} (bound : workspace.handles.node handle = .ok node) :
    workspace.truncate handle =
      (.ok (), { workspace with tree := workspace.tree.updateContent node fun _ => "" }) := by
  rw [truncate, bound]

section Closed

variable (closed : workspace.handles.node handle = .error (.invalidHandle handle))

include closed

theorem read_of_closed : workspace.read handle = .error (.invalidHandle handle) := by
  rw [read, closed]

theorem write_of_closed (text : String) :
    workspace.write handle text = (.error (.invalidHandle handle), workspace) := by
  rw [write, closed]

theorem truncate_of_closed :
    workspace.truncate handle = (.error (.invalidHandle handle), workspace) := by
  rw [truncate, closed]

end Closed

end Workspace

theorem Handles.node_cases (handles : Handles) (handle : Handle) :
    (∃ node, handles.node handle = .ok node) ∨
      handles.node handle = .error (.invalidHandle handle) := by
  unfold Handles.node
  cases handles.slots.get? handle with
  | some node => exact .inl ⟨node, rfl⟩
  | none => exact .inr rfl

namespace Invocation

/-- What links the calls made so far to the tables and the tree: the accounts are in order,
a bound handle is bound to the file that its latest opening found, and every file holds what
is expected of it. -/
structure Tracks (invocation : Invocation) (calls : List Call) : Prop where
  ledger : ∃ record, Workspace.Ledger invocation.surroundings.process record
    (invocation.after calls)
  bound : ∀ {handle node}, (invocation.after calls).handles.node handle = .ok node →
    invocation.opening? handle calls = some node
  text : ∀ file, (invocation.after calls).tree.text file = invocation.expected file calls

namespace Tracks

variable {invocation : Invocation} {earlier calls : List Call}

theorem mem_openHandles_iff (tracks : invocation.Tracks calls) {handle : Handle} :
    handle ∈ invocation.openHandles calls ↔
      ∃ node, (invocation.after calls).handles.node handle = .ok node := by
  obtain ⟨record, ledger⟩ := tracks.ledger
  exact ledger.mem_openHandles_iff

theorem denotes_iff (tracks : invocation.Tracks calls) {handle : Handle} {file : NodeId} :
    invocation.Denotes calls handle file ↔
      (invocation.after calls).handles.node handle = .ok file := by
  constructor
  · rintro ⟨isOpen, opened⟩
    obtain ⟨node, bound⟩ := tracks.mem_openHandles_iff.mp isOpen
    rw [tracks.bound bound] at opened
    rw [bound, Option.some.inj opened]
  · intro bound
    exact ⟨tracks.mem_openHandles_iff.mpr ⟨file, bound⟩, tracks.bound bound⟩

theorem isFile (tracks : invocation.Tracks calls) {handle : Handle} {file : NodeId}
    (bound : (invocation.after calls).handles.node handle = .ok file) :
    (invocation.after calls).tree.kind? file = some .file := by
  obtain ⟨record, ledger⟩ := tracks.ledger
  exact ledger.areFiles handle file bound

theorem exists_ledger_cons (tracks : invocation.Tracks earlier) (request : Call) :
    ∃ record, Workspace.Ledger invocation.surroundings.process record
      (invocation.after (request :: earlier)) := by
  obtain ⟨record, ledger⟩ := tracks.ledger
  exact ledger.after_effect (Workspace.effect_perform _ _ request)

/-- A call that leaves the table of handles alone is no opening for the later calls. -/
theorem cons_of_handles_eq (tracks : invocation.Tracks earlier) {request : Call}
    (handles : (invocation.after (request :: earlier)).handles =
      (invocation.after earlier).handles)
    (opening : ∀ handle,
      invocation.opening? handle (request :: earlier) = invocation.opening? handle earlier)
    (text : ∀ file, (invocation.after (request :: earlier)).tree.text file =
      invocation.expected file (request :: earlier)) :
    invocation.Tracks (request :: earlier) := by
  refine ⟨tracks.exists_ledger_cons request, fun {handle node} bound => ?_, text⟩
  rw [handles] at bound
  rw [opening, tracks.bound bound]

theorem openFile (tracks : invocation.Tracks earlier) (path : String) (create : Bool) :
    invocation.Tracks (.openFile path create :: earlier) := by
  rcases (invocation.after earlier).openFile_cases invocation.surroundings.process path create
    with ⟨failure, failed⟩ | ⟨opened, tree, result, found, kept⟩
  · apply tracks.cons_of_handles_eq
    · simp only [after, Workspace.perform, failed]
    · simp only [opening?, failed, implies_true]
    · simp only [after, Workspace.perform, failed, expected]
      exact tracks.text
  · refine ⟨tracks.exists_ledger_cons _, fun {handle node} bound => ?_, fun file => ?_⟩
    · simp only [after, Workspace.perform, result, Handles.node_eq_ok_iff,
        Handles.get?_bind] at bound
      simp only [opening?, result, found]
      split at bound
      next fresh => rw [if_pos fresh.symm, bound]
      next older =>
        rw [if_neg (Ne.symm older)]
        exact tracks.bound (Handles.node_eq_ok_iff.mpr bound)
    · simp only [after, Workspace.perform, result, expected]
      exact (kept file).trans (tracks.text file)

/-- A change of the content behind a handle shows in the file that the handle denotes, and
nowhere else. -/
theorem text_updateContent (tracks : invocation.Tracks earlier) {handle : Handle}
    {node : NodeId} (bound : (invocation.after earlier).handles.node handle = .ok node)
    (change : String → String) (file : NodeId) :
    ((invocation.after earlier).tree.updateContent node change).text file =
      if invocation.Denotes earlier handle file then change (invocation.expected file earlier)
      else invocation.expected file earlier := by
  rw [FileTree.text_updateContent (tracks.isFile bound), tracks.text]
  have same : invocation.Denotes earlier handle file ↔ node = file := by
    rw [tracks.denotes_iff, bound, Except.ok.injEq]
  simp only [same]

theorem not_denotes_of_closed (tracks : invocation.Tracks earlier) {handle : Handle}
    (closed : (invocation.after earlier).handles.node handle = .error (.invalidHandle handle))
    (file : NodeId) : ¬ invocation.Denotes earlier handle file := by
  rw [tracks.denotes_iff, closed]
  exact nofun

theorem write (tracks : invocation.Tracks earlier) (handle : Handle) (text : String) :
    invocation.Tracks (.write handle text :: earlier) := by
  rcases (invocation.after earlier).handles.node_cases handle with ⟨node, bound⟩ | closed
  · have written := Workspace.write_of_bound bound (tracks.isFile bound) text
    apply tracks.cons_of_handles_eq
    · simp only [after, Workspace.perform, written]
    · simp only [opening?, implies_true]
    · simp only [after, Workspace.perform, written, expected]
      exact tracks.text_updateContent bound _
  · have refused := Workspace.write_of_closed closed text
    apply tracks.cons_of_handles_eq
    · simp only [after, Workspace.perform, refused]
    · simp only [opening?, implies_true]
    · intro file
      simp only [after, Workspace.perform, refused, expected,
        tracks.not_denotes_of_closed closed, if_false, tracks.text]

theorem truncate (tracks : invocation.Tracks earlier) (handle : Handle) :
    invocation.Tracks (.truncate handle :: earlier) := by
  rcases (invocation.after earlier).handles.node_cases handle with ⟨node, bound⟩ | closed
  · have emptied := Workspace.truncate_of_bound bound
    apply tracks.cons_of_handles_eq
    · simp only [after, Workspace.perform, emptied]
    · simp only [opening?, implies_true]
    · simp only [after, Workspace.perform, emptied, expected]
      exact tracks.text_updateContent bound _
  · have refused := Workspace.truncate_of_closed closed
    apply tracks.cons_of_handles_eq
    · simp only [after, Workspace.perform, refused]
    · simp only [opening?, implies_true]
    · intro file
      simp only [after, Workspace.perform, refused, expected,
        tracks.not_denotes_of_closed closed, if_false, tracks.text]

theorem close (tracks : invocation.Tracks earlier) (handle : Handle) :
    invocation.Tracks (.close handle :: earlier) := by
  refine ⟨tracks.exists_ledger_cons _, fun {other node} bound => ?_, tracks.text⟩
  simp only [after, Workspace.perform, Workspace.close, Handles.node_eq_ok_iff,
    Handles.get?_close] at bound
  split at bound
  next => cases bound
  next => exact tracks.bound (Handles.node_eq_ok_iff.mpr bound)

/-- The step: every call keeps the link. -/
theorem cons (tracks : invocation.Tracks earlier) (request : Call) :
    invocation.Tracks (request :: earlier) := by
  cases request with
  | openFile path create => exact tracks.openFile path create
  | write handle text => exact tracks.write handle text
  | truncate handle => exact tracks.truncate handle
  | close handle => exact tracks.close handle
  | makeDirectory path =>
      apply tracks.cons_of_handles_eq
      · rfl
      · simp only [opening?, implies_true]
      · simp only [after, Workspace.perform, Workspace.makeDirectory_eq, expected,
          FileTree.text_makeDirectory, tracks.text, implies_true]
  | read | openHandles | print | printLine | list | setCurrent | current | tree | process
  | history | commands | note =>
      apply tracks.cons_of_handles_eq
      · rfl
      · simp only [opening?, implies_true]
      · simp only [after, Workspace.perform, expected]
        exact tracks.text

theorem readsItsWrites (tracks : invocation.Tracks calls) :
    invocation.ReadsItsWrites calls where
  closed := by
    intro handle notOpen
    rcases (invocation.after calls).handles.node_cases handle with ⟨node, bound⟩ | closed
    · exact absurd (tracks.mem_openHandles_iff.mpr ⟨node, bound⟩) notOpen
    · refine ⟨?_, fun text => ?_, ?_⟩
      · exact Prod.ext (Workspace.read_of_closed closed) rfl
      · exact Workspace.write_of_closed closed text
      · exact Workspace.truncate_of_closed closed
  opened := by
    intro handle isOpen
    obtain ⟨file, bound⟩ := tracks.mem_openHandles_iff.mp isOpen
    have isFile := tracks.isFile bound
    have content (change : String → String) :
        ((invocation.after calls).tree.updateContent file change).content? file =
          some (change (invocation.expected file calls)) := by
      rw [FileTree.content?_updateContent, if_pos rfl, FileTree.content?_eq_text isFile,
        tracks.text]
      rfl
    refine ⟨file, tracks.denotes_iff.mpr bound, isFile, ?_,
      fun text => ⟨_, ?_, content (· ++ text), ?_⟩, _, ?_, content fun _ => "", ?_⟩
    · rw [← tracks.text]
      exact Prod.ext (Workspace.read_of_bound bound isFile) rfl
    · exact Workspace.write_of_bound bound isFile text
    · exact fun other different => FileTree.node?_updateContent_of_ne different _
    · exact Workspace.truncate_of_bound bound
    · exact fun other different => FileTree.node?_updateContent_of_ne different _
  content := by
    intro file isFile
    rw [FileTree.content?_eq_text isFile, tracks.text]
  failedOpening := by
    intro path create failure failed
    rcases (invocation.after calls).openFile_cases invocation.surroundings.process path create
      with ⟨_, result⟩ | ⟨_, _, result, -⟩
    · exact congrArg Prod.snd result
    · exact nomatch (congrArg Prod.fst result).symm.trans failed

end Tracks

end Invocation

namespace Session

theorem tracks {session : Session} (idle : session.workspace.Idle) (calls : List Call) :
    session.invocation.Tracks calls := by
  induction calls with
  | nil =>
      refine ⟨session.exists_ledger_after idle [], ?_, fun file => rfl⟩
      intro handle node bound
      have free := Slots.count_eq_zero_iff.mp idle.handles handle
      rw [Handles.node_eq_ok_iff] at bound
      exact nomatch free.symm.trans bound
  | cons request earlier ih => exact ih.cons request

/-- A process reads its own writes, at every point of every invocation: handles that are not
open are refused without a change, and through every open one the process reads and changes
the file that its path led to, as all its calls on the file have left it. -/
theorem reads_its_writes {config : Config} {created : Session}
    (begun : Session.new config = .ok created) (operations : List Operation) :
    let session := created.performAll operations
    (∀ calls, session.invocation.ReadsItsWrites calls) ∧
      ∀ {α : Type} (routine : Routine α), ∀ moment ∈ session.invokeMoments routine,
        ∃ calls, moment.workspace = session.invocation.after calls := by
  have idle := idle_performAll begun operations
  refine ⟨fun calls => (tracks idle calls).readsItsWrites, ?_⟩
  intro α routine moment member
  obtain ⟨calls, rfl⟩ := exists_calls_of_mem_invokeMoments routine member
  exact ⟨calls, rfl⟩

/-- Two handles of one file, one of which is closed and comes to stand for another file. -/
def aliasing : List Call :=
  [.openFile "notes" true, .write 0 "lost", .openFile "./notes" false, .truncate 1,
    .write 0 "kept", .close 0, .setCurrent "/", .openFile "notes" true, .write 0 "other",
    .openFile "/home" true].reverse

theorem reads_its_writes_aliasing :
    ∃ created, Session.new {} = .ok created ∧
      let session := created.performAll [.init careless]
      session.invocation.openHandles aliasing = [1, 0] ∧
      session.invocation.opening? 0 aliasing = some 4 ∧
      session.invocation.opening? 1 aliasing = some 2 ∧
      ((session.invocation.after aliasing).read 0).toOption = some "other" ∧
      ((session.invocation.after aliasing).read 1).toOption = some "kept" ∧
      ((session.invocation.after aliasing).read 2).toOption = none ∧
      (∀ calls, session.invocation.ReadsItsWrites calls) ∧
      ∀ {α : Type} (routine : Routine α), ∀ moment ∈ session.invokeMoments routine,
        ∃ calls, moment.workspace = session.invocation.after calls := by
  have created : Session.new {} = .ok _ := rfl
  refine ⟨_, created, ?_, ?_, ?_, ?_, ?_, ?_, reads_its_writes created [.init careless]⟩
  all_goals decide +kernel

end Session

end CommandShell
