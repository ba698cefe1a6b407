import CommandShell.Proofs.Alphabets

/-!
# Built-in commands write legible texts

A built-in command puts its texts together from what it is given, from what it is told in
reply to its calls, and from texts of its own.  If the first two have no control characters,
then neither has what it leaves in the file tree, and what it writes has none but line ends.
-/

namespace CommandShell

/-- Whether a text has no control characters. -/
abbrev Printable (text : String) : Prop :=
  WrittenIn (fun char => Edit.isControl char = false) text

/-- Whether a text has no control characters but line ends. -/
abbrev Legible (text : String) : Prop :=
  WrittenIn (fun char => Edit.isControl char = false ∨ char = '\n') text

section Texts

theorem Printable.legible {text : String} (printable : Printable text) : Legible text :=
  fun char member => .inl (printable char member)

theorem Legible.endLine {text : String} (legible : Legible text) : Legible (text ++ "\n") :=
  legible.append (by decide)

theorem printable_padding (width : Nat) (text : String) :
    Printable (Builtins.padding width text) := by
  refine writtenIn_ofList.mpr fun char member => ?_
  rw [List.eq_of_mem_replicate member]
  rfl

theorem isControl_eq_false_of_isDigit {char : Char} (isDigit : char.isDigit = true) :
    Edit.isControl char = false := by
  rw [Char.isDigit, Bool.and_eq_true, decide_eq_true_iff, decide_eq_true_iff] at isDigit
  have fromZero : 48 ≤ char.val.toNat := UInt32.le_iff_toNat_le.mp isDigit.1
  have toNine : char.val.toNat ≤ 57 := UInt32.le_iff_toNat_le.mp isDigit.2
  have notBelow : ¬ char.val < 0x20 := fun below => by
    have small : char.val.toNat < 32 := UInt32.lt_iff_toNat_lt.mp below
    omega
  have notAbove : ¬ 0x7f ≤ char.val := fun above => by
    have large : 127 ≤ char.val.toNat := UInt32.le_iff_toNat_le.mp above
    omega
  simp only [Edit.isControl, notBelow, notAbove, decide_false, Bool.false_and, Bool.or_false]

theorem printable_toString (number : Nat) : Printable (toString number) := by
  intro char member
  have isDecimal : char ∈ Nat.toDigits 10 number := by
    rw [← Nat.toList_repr]
    exact member
  exact isControl_eq_false_of_isDigit
    (Nat.isDigit_of_mem_toDigits (by decide) (by decide) isDecimal)

theorem printable_resolve {current path : String} (currentPrintable : Printable current)
    (pathPrintable : Printable path) : Printable (Path.resolve current path) :=
  Path.writtenIn_resolve (by rfl) currentPrintable pathPrintable

end Texts

namespace Failure

/-- Whether a failure is told without control characters. -/
def IsPrintable (failure : Failure) : Prop :=
  Printable failure.message

variable {path : String} (printable : Printable path)

include printable

theorem isPrintable_notADirectory : (notADirectory path).IsPrintable :=
  .append (by decide) printable

theorem isPrintable_notAFile : (notAFile path).IsPrintable :=
  .append (by decide) printable

theorem isPrintable_alreadyExists : (alreadyExists path).IsPrintable :=
  .append (by decide) printable

theorem isPrintable_commandNotFound : (commandNotFound path).IsPrintable :=
  .append (by decide) printable

omit printable in
theorem isPrintable_invalidHandle (handle : Nat) : (invalidHandle handle).IsPrintable :=
  .append (by decide) (printable_toString handle)

end Failure

/-- Whether a reply is a good one, or a failure that is told without control characters. -/
def Replies {α : Type} (good : α → Prop) : Except Failure α → Prop
  | .ok value => good value
  | .error failure => failure.IsPrintable

namespace FileTree

/-- Whether no name and no content in a tree has control characters. -/
structure IsPrintable (tree : FileTree) : Prop where
  name : ∀ {directory : NodeId} {name : String} {id : NodeId},
    tree.child? directory name = some id → Printable name
  content : ∀ {id : NodeId} {content : String},
    tree.content? id = some content → Printable content

theorem isPrintable_empty : empty.IsPrintable where
  name := fun entry => by
    rw [child?_empty] at entry
    cases entry
  content := fun {id content} found => by
    have isFile : empty.kind? id = some .file := kind?_eq_file_iff.mpr ⟨content, found⟩
    obtain rfl : id = 0 := Nat.lt_one_iff.mp (lt_nodeCount_of_kind? isFile)
    cases isFile

namespace IsPrintable

variable {tree : FileTree} {current path : String}

theorem attach (printable : tree.IsPrintable) {parent : NodeId} {name : String} {node : Node}
    (vacant : tree.Vacant parent name) (bare : node.IsBare) (named : Printable name) :
    (tree.attach parent name node).2.IsPrintable where
  name := fun entry => by
    rw [child?_attach_of_vacant vacant bare] at entry
    split at entry
    next same => exact same.2 ▸ named
    next => exact printable.name entry
  content := fun found => by
    rw [content?_attach vacant.lt_nodeCount] at found
    split at found
    next =>
      rcases bare with rfl | rfl
      · cases found
      · exact Option.some.inj found ▸ writtenIn_empty
    next => exact printable.content found

theorem updateContent (printable : tree.IsPrintable) (id : NodeId) {change : String → String}
    (kept : ∀ content, Printable content → Printable (change content)) :
    (tree.updateContent id change).IsPrintable where
  name := fun entry => by
    rw [child?_updateContent] at entry
    exact printable.name entry
  content := fun found => by
    rw [content?_updateContent] at found
    split at found
    next =>
      obtain ⟨before, known, rfl⟩ := Option.map_eq_some_iff.mp found
      exact kept before (printable.content known)
    next => exact printable.content found

theorem makeDirectoriesFrom (printable : tree.IsPrintable) {directory : NodeId}
    {passed names : List String} (isDirectory : tree.kind? directory = some .directory)
    (areNames : ∀ name ∈ names, Path.IsName name) (named : ∀ name ∈ names, Printable name) :
    (tree.makeDirectoriesFrom directory passed names).2.IsPrintable := by
  induction names generalizing tree directory passed with
  | nil => exact printable
  | cons name rest ih =>
      obtain ⟨isName, restNames⟩ := List.forall_mem_cons.mp areNames
      obtain ⟨nameNamed, restNamed⟩ := List.forall_mem_cons.mp named
      cases entry : tree.child? directory name with
      | none =>
          have vacant : tree.Vacant directory name := ⟨isDirectory, entry, isName⟩
          rw [makeDirectoriesFrom_of_free entry]
          exact ih (printable.attach vacant (.inl rfl) nameNamed) (kind?_attach_new vacant)
            restNames restNamed
      | some next =>
          by_cases nextDirectory : tree.kind? next = some .directory
          · rw [makeDirectoriesFrom_of_directory entry nextDirectory]
            exact ih printable nextDirectory restNames restNamed
          · rw [makeDirectoriesFrom_of_file entry nextDirectory]
            exact printable

section Resolved

variable (printable : tree.IsPrintable) (resolved : Printable (Path.resolve current path))

include printable resolved

theorem makeDirectory :
    Replies (fun _ => True) (tree.makeDirectory current path).1 ∧
      (tree.makeDirectory current path).2.IsPrintable := by
  obtain ⟨above, leaf⟩ := Path.writtenIn_splitParent (by rfl) resolved
  cases tree.creation current path with
  | refused failure told result =>
      rw [result]
      rcases told with rfl | rfl
      · exact ⟨Failure.isPrintable_alreadyExists resolved, printable⟩
      · exact ⟨Failure.isPrintable_notADirectory above, printable⟩
  | created parent free result =>
      rw [result]
      exact ⟨trivial, printable.attach free.vacant (.inl rfl) leaf⟩

theorem openFile (create : Bool) :
    Replies (fun _ => True) (tree.openFile current path create).1 ∧
      (tree.openFile current path create).2.IsPrintable := by
  obtain ⟨above, leaf⟩ := Path.writtenIn_splitParent (by rfl) resolved
  cases tree.opening current path create with
  | refused failure told result =>
      rw [result]
      rcases told with rfl | rfl
      · exact ⟨Failure.isPrintable_notAFile resolved, printable⟩
      · exact ⟨Failure.isPrintable_notADirectory above, printable⟩
  | found id isFile leads result =>
      rw [result]
      exact ⟨trivial, printable⟩
  | created asked parent free result =>
      rw [result]
      exact ⟨trivial, printable.attach free.vacant (.inr rfl) leaf⟩

theorem list :
    Replies (fun entries => ∀ entry ∈ entries, Printable entry.name) (tree.list current path) := by
  cases found : (tree.lookup (Path.resolve current path)).bind tree.entries? with
  | none =>
      simp only [FileTree.list, found]
      exact Failure.isPrintable_notADirectory resolved
  | some entries =>
      simp only [FileTree.list, found]
      intro entry member
      obtain ⟨id, -, listed⟩ := Option.bind_eq_some_iff.mp found
      obtain ⟨children, isDirectory, rfl⟩ := Option.map_eq_some_iff.mp listed
      obtain ⟨⟨name, child⟩, inside, shown⟩ := List.mem_filterMap.mp member
      obtain ⟨node, -, rfl⟩ := Option.map_eq_some_iff.mp shown
      have link : tree.child? id name = some child := by
        rw [child?, isDirectory]
        exact (children.find?_eq_some_iff).mpr inside
      exact printable.name link

end Resolved

end IsPrintable

end FileTree

/-- Whether what is known about a command has no control characters. -/
structure CommandInfo.IsPrintable (info : CommandInfo) : Prop where
  name : Printable info.name
  description : Printable info.description
  usage : Printable info.usage

namespace Call

/-- Whether a call brings along no control characters but the line ends that it prints. -/
def IsPrintable : Call → Prop
  | openFile path _ | list path | makeDirectory path | setCurrent path => Printable path
  | write _ text => Printable text
  | print text | printLine text => Legible text
  | _ => True

/-- Whether a reply tells no control characters. -/
def Admits : (request : Call) → request.Reply → Prop
  | openFile _ _, reply => Replies (fun _ => True) reply
  | read _, reply => Replies Printable reply
  | write _ _, reply => Replies (fun _ => True) reply
  | truncate _, reply => Replies (fun _ => True) reply
  | list _, reply => Replies (fun entries => ∀ entry ∈ entries, Printable entry.name) reply
  | makeDirectory _, reply => Replies (fun _ => True) reply
  | current, reply => Printable reply
  | history, reply => ∀ command ∈ reply, Printable command
  | commands, reply => ∀ info ∈ reply, info.IsPrintable
  | _, _ => True

end Call

namespace Routine

variable {α β : Type}

/-- Whether a routine makes printable calls only and comes to a good end or a printable
failure, as long as the replies are printable. -/
def Prints (good : α → Prop) : Routine α → Prop
  | done value => good value
  | fail failure => failure.IsPrintable
  | panic _ => True
  | call request next => request.IsPrintable ∧
      ∀ reply, request.Admits reply → (next reply).Prints good

namespace Prints

variable {good : α → Prop}

theorem pure {value : α} (isGood : good value) : (pure value : Routine α).Prints good :=
  isGood

theorem ask {request : Call} (printable : request.IsPrintable) :
    (ask request).Prints request.Admits :=
  ⟨printable, fun _ admitted => admitted⟩

theorem ofExcept {outcome : Except Failure α} (replies : Replies good outcome) :
    (ofExcept outcome).Prints good := by
  cases outcome with
  | ok value => exact replies
  | error failure => exact replies

theorem bind {result : β → Prop} {routine : Routine α} {next : α → Routine β}
    (first : routine.Prints good) (later : ∀ value, good value → (next value).Prints result) :
    (routine >>= next).Prints result := by
  induction routine with
  | done value => exact later value first
  | fail failure => exact first
  | panic message => trivial
  | call request resume ih =>
      exact ⟨first.1, fun reply admitted => ih reply (first.2 reply admitted)⟩

theorem forM {items : List α} {action : α → Routine PUnit}
    (each : ∀ item ∈ items, (action item).Prints fun _ => True) :
    (items.forM action).Prints fun _ => True := by
  induction items with
  | nil => trivial
  | cons item rest ih =>
      obtain ⟨here, later⟩ := List.forall_mem_cons.mp each
      exact here.bind fun _ _ => ih later

end Prints

end Routine

/-- Whether an outcome is a good one, or a failure that is told without control characters. -/
def Outcome.Told {α : Type} (good : α → Prop) : Outcome α → Prop
  | done value => good value
  | failed failure => failure.IsPrintable
  | panicked _ => True

/-- Whether no control characters stand in the surroundings of a routine. -/
structure Surroundings.IsPrintable (surroundings : Surroundings) : Prop where
  history : ∀ command ∈ surroundings.history, Printable command
  commands : ∀ info ∈ surroundings.commands, info.IsPrintable

/-- Whether no control characters stand in a workspace but line ends on its output. -/
structure Workspace.IsPrintable (workspace : Workspace) : Prop where
  current : Printable workspace.current
  tree : workspace.tree.IsPrintable
  output : Legible workspace.output.text

theorem Handles.isPrintable_of_node {handles : Handles} {handle : Handle} {failure : Failure}
    (failed : handles.node handle = .error failure) : failure.IsPrintable := by
  unfold node at failed
  split at failed
  next => cases failed
  next =>
    cases failed
    exact Failure.isPrintable_invalidHandle handle

namespace Workspace.IsPrintable

variable {workspace : Workspace} (printable : workspace.IsPrintable)

include printable

theorem write (text : String) (legible : Legible text) :
    (workspace.mapOutput (·.write text)).IsPrintable :=
  ⟨printable.current, printable.tree, printable.output.append legible⟩

theorem openFile (process : ProcessId) {path : String} (named : Printable path)
    (create : Bool) :
    Replies (fun _ => True) (workspace.openFile process path create).1 ∧
      (workspace.openFile process path create).2.IsPrintable := by
  obtain ⟨replies, kept⟩ :=
    printable.tree.openFile (printable_resolve printable.current named) create
  rcases result : workspace.tree.openFile workspace.current path create with
    ⟨failure | node, tree⟩
  · rw [result] at replies kept
    rw [openFile_of_error result]
    exact ⟨replies, printable.current, kept, printable.output⟩
  · rw [result] at kept
    rw [openFile_of_ok result]
    exact ⟨trivial, printable.current, kept, printable.output⟩

theorem makeDirectory {path : String} (named : Printable path) :
    Replies (fun _ => True) (workspace.makeDirectory path).1 ∧
      (workspace.makeDirectory path).2.IsPrintable := by
  obtain ⟨replies, kept⟩ :=
    printable.tree.makeDirectory (printable_resolve printable.current named)
  rw [makeDirectory_eq]
  refine ⟨?_, printable.current, kept, printable.output⟩
  rcases outcome : (workspace.tree.makeDirectory workspace.current path).1 with failure | node
  · rw [outcome] at replies
    exact replies
  · trivial

theorem read (handle : Handle) : Replies Printable (workspace.read handle) := by
  unfold Workspace.read
  split
  next failure failed => exact Handles.isPrintable_of_node failed
  next node _ =>
    split
    next => exact Failure.isPrintable_invalidHandle handle
    next content found => exact printable.tree.content found

theorem append (handle : Handle) {text : String} (added : Printable text) :
    Replies (fun _ => True) (workspace.write handle text).1 ∧
      (workspace.write handle text).2.IsPrintable := by
  unfold Workspace.write
  split
  next failure failed => exact ⟨Handles.isPrintable_of_node failed, printable⟩
  next node _ =>
    split
    next => exact ⟨Failure.isPrintable_invalidHandle handle, printable⟩
    next =>
      exact ⟨trivial, printable.current,
        printable.tree.updateContent node fun _ before => before.append added, printable.output⟩

theorem truncate (handle : Handle) :
    Replies (fun _ => True) (workspace.truncate handle).1 ∧
      (workspace.truncate handle).2.IsPrintable := by
  unfold Workspace.truncate
  split
  next failure failed => exact ⟨Handles.isPrintable_of_node failed, printable⟩
  next node _ =>
    exact ⟨trivial, printable.current,
      printable.tree.updateContent node fun _ _ => writtenIn_empty, printable.output⟩

/-- The step: a printable call gets a printable reply and keeps a workspace printable. -/
theorem perform {surroundings : Surroundings} (around : surroundings.IsPrintable)
    {request : Call} (asked : request.IsPrintable) :
    request.Admits (workspace.perform surroundings request).1 ∧
      (workspace.perform surroundings request).2.IsPrintable := by
  cases request with
  | openFile path create => exact printable.openFile surroundings.process asked create
  | read handle => exact ⟨printable.read handle, printable⟩
  | write handle text => exact printable.append handle asked
  | truncate handle => exact printable.truncate handle
  | print text => exact ⟨trivial, printable.write text asked⟩
  | printLine text => exact ⟨trivial, printable.write _ asked.endLine⟩
  | list path =>
      rw [Workspace.perform]
      exact ⟨printable.tree.list (printable_resolve printable.current asked), printable⟩
  | makeDirectory path =>
      rw [Workspace.perform]
      exact printable.makeDirectory asked
  | setCurrent path => exact ⟨trivial, asked, printable.tree, printable.output⟩
  | current => exact ⟨printable.current, printable⟩
  | history => exact ⟨around.history, printable⟩
  | commands => exact ⟨around.commands, printable⟩
  | close | note => exact ⟨trivial, printable.current, printable.tree, printable.output⟩
  | openHandles | tree | process => exact ⟨trivial, printable⟩

omit printable in
/-- The run: so does a routine that makes printable calls. -/
theorem run {α : Type} {good : α → Prop} {surroundings : Surroundings}
    (around : surroundings.IsPrintable) {routine : Routine α} (prints : routine.Prints good)
    {workspace : Workspace} (printable : workspace.IsPrintable) :
    (Workspace.run surroundings routine workspace).1.Told good ∧
      (Workspace.run surroundings routine workspace).2.IsPrintable := by
  induction routine generalizing workspace with
  | done value => exact ⟨prints, printable⟩
  | fail failure => exact ⟨prints, printable⟩
  | panic message => exact ⟨trivial, printable⟩
  | call request next ih =>
      obtain ⟨admitted, kept⟩ := printable.perform around prints.1
      exact ih _ (prints.2 _ admitted) kept

theorem reclaim (process : ProcessId) : (workspace.reclaim process).IsPrintable := by
  obtain ⟨handles, processes, reclaimed⟩ := workspace.exists_reclaim_eq process
  rw [reclaimed]
  exact ⟨printable.current, printable.tree, printable.output⟩

end Workspace.IsPrintable

end CommandShell
