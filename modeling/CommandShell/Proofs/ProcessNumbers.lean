import CommandShell.Proofs.SlotNumbers
import CommandShell.Proofs.Tables

/-!
# The table of processes as a map

Seen from outside, the table of processes is a map from the numbers of the live processes to
lists of handles.  A new process gets the lowest number that no live one has, and an empty
list, whatever an earlier process with the number has left open.  The list of a process holds
the handles that it has opened and not closed again, once each and in the order in which they
were first opened since they were last closed.
-/

namespace CommandShell

/-- Whether a list of handles is in the order of the moments since which they are held, and
holds all handles that are held at all. -/
structure ListsSince (since : Handle → Option Nat) (handles : List Handle) : Prop where
  ascending : handles.Pairwise fun earlier later =>
    ∃ first second, since earlier = some first ∧ since later = some second ∧ first < second
  mem_iff : ∀ handle, handle ∈ handles ↔ (since handle).isSome

namespace ListsSince

variable {since : Handle → Option Nat} {handles : List Handle}

theorem nodup (lists : ListsSince since handles) : handles.Nodup := by
  refine lists.ascending.imp ?_
  rintro earlier later ⟨first, second, isFirst, isSecond, before⟩ rfl
  have same : first = second := Option.some.inj (isFirst.symm.trans isSecond)
  exact absurd before (same ▸ Nat.lt_irrefl first)

theorem congr {others : Handle → Option Nat} (lists : ListsSince since handles)
    (same : ∀ handle, others handle = since handle) : ListsSince others handles := by
  rwa [funext same]

/-- A handle that is held for the first time goes to the end. -/
theorem append (lists : ListsSince since handles) {now : Nat}
    (past : ∀ handle moment, since handle = some moment → moment < now) {opened : Handle}
    (fresh : opened ∉ handles) :
    ListsSince (fun handle => if handle = opened then some now else since handle)
      (handles ++ [opened]) where
  ascending := by
    have other {handle : Handle} (listed : handle ∈ handles) : handle ≠ opened :=
      fun same => fresh (same ▸ listed)
    refine List.pairwise_append.mpr ⟨?_, List.pairwise_singleton _ _, ?_⟩
    · refine lists.ascending.imp_of_mem fun {earlier later} listed laterListed before => ?_
      rwa [if_neg (other listed), if_neg (other laterListed)]
    · intro earlier listed last isLast
      obtain ⟨moment, held⟩ := Option.isSome_iff_exists.mp ((lists.mem_iff earlier).mp listed)
      rw [List.mem_singleton.mp isLast, if_neg (other listed), if_pos rfl]
      exact ⟨moment, now, held, rfl, past earlier moment held⟩
  mem_iff handle := by
    rw [List.mem_append, List.mem_singleton, lists.mem_iff]
    split
    next same => simp [same]
    next different => simp [different]

theorem filter (lists : ListsSince since handles) (closed : Handle) :
    ListsSince (fun handle => if handle = closed then none else since handle)
      (handles.filter (· ≠ closed)) where
  ascending := by
    have other {handle : Handle} (kept : handle ∈ handles.filter (· ≠ closed)) :
        handle ≠ closed := of_decide_eq_true (List.mem_filter.mp kept).2
    refine (lists.ascending.filter _).imp_of_mem fun {earlier later} kept laterKept before => ?_
    rwa [if_neg (other kept), if_neg (other laterKept)]
  mem_iff handle := by
    rw [List.mem_filter, lists.mem_iff]
    split
    next same => simp [same]
    next different => simp [different]

end ListsSince

namespace Processes

/-- What can be asked of a table of processes. -/
inductive Request where
  | start
  | opened (id : ProcessId) (handle : Handle)
  | closed (id : ProcessId) (handle : Handle)
  | finish (id : ProcessId)
  | get (id : ProcessId)
  deriving DecidableEq, Repr

/-- A request with the reply to it, if there is one. -/
inductive Event where
  | started (given : ProcessId)
  | opened (id : ProcessId) (handle : Handle)
  | closed (id : ProcessId) (handle : Handle)
  | finished (id : ProcessId) (reply : Option ProcessRecord)
  | looked (id : ProcessId) (reply : Option ProcessRecord)
  deriving DecidableEq, Repr

def answer (processes : Processes) : Request → Event × Processes
  | .start => (.started processes.start.1, processes.start.2)
  | .opened id handle => (.opened id handle, processes.opened id handle)
  | .closed id handle => (.closed id handle, processes.closed id handle)
  | .finish id => (.finished id (processes.finish id).1, (processes.finish id).2)
  | .get id => (.looked id (processes.get? id), processes)

/-- A new table after requests, the latest of them first. -/
def after : List Request → Processes
  | [] => empty
  | request :: earlier => ((after earlier).answer request).2

/-- What happens at a new table in the course of requests, the latest of them first. -/
def events : List Request → List Event
  | [] => []
  | request :: earlier => ((after earlier).answer request).1 :: events earlier

/-- Whether a process has been started and has not been finished since. -/
def isLive (id : ProcessId) : List Event → Bool
  | [] => false
  | event :: earlier =>
      match event with
      | .started given => given = id || isLive id earlier
      | .finished other _ => other ≠ id && isLive id earlier
      | _ => isLive id earlier

/-- The moment at which a process has first opened a handle since it has last closed it, and
since it was started.  The moments are counted by the events before them. -/
def heldSince (id : ProcessId) (handle : Handle) : List Event → Option Nat
  | [] => none
  | event :: earlier =>
      match event with
      | .started given => if given = id then none else heldSince id handle earlier
      | .opened other opened =>
          if other = id ∧ opened = handle then
            some ((heldSince id handle earlier).getD earlier.length)
          else heldSince id handle earlier
      | .closed other closed =>
          if other = id ∧ closed = handle then none else heldSince id handle earlier
      | _ => heldSince id handle earlier

/-- Whether a record is what events have made of a process. -/
structure IsRecordAfter (events : List Event) (id : ProcessId) (record : ProcessRecord) :
    Prop where
  id_eq : record.id = id
  lists : ListsSince (heldSince id · events) record.handles

/-- Whether a table is the map that events have made, and hands out its lowest free number. -/
structure IsMapAfter (events : List Event) (processes : Processes) : Prop where
  isSome_get? : ∀ id, (processes.get? id).isSome = isLive id events
  record : ∀ id record, processes.get? id = some record → IsRecordAfter events id record
  start_free : isLive processes.start.1 events = false
  start_lowest : ∀ lower < processes.start.1, isLive lower events = true
  get?_start : ∀ other, processes.start.2.get? other =
    if other = processes.start.1 then some { id := processes.start.1, handles := [] }
    else processes.get? other
  opened_free : ∀ id handle, isLive id events = false → processes.opened id handle = processes
  get?_opened : ∀ id handle, ∀ other ≠ id,
    (processes.opened id handle).get? other = processes.get? other
  closed_free : ∀ id handle, isLive id events = false → processes.closed id handle = processes
  get?_closed : ∀ id handle, ∀ other ≠ id,
    (processes.closed id handle).get? other = processes.get? other
  finish : ∀ id, (processes.finish id).1 = processes.get? id
  get?_finish : ∀ id other, (processes.finish id).2.get? other =
    if other = id then none else processes.get? other
  finish_free : ∀ id, isLive id events = false → (processes.finish id).2 = processes
  /-- What is counted are the live processes. -/
  count_card : ∃ live : Finset ProcessId,
    (∀ id, id ∈ live ↔ isLive id events = true) ∧ processes.count = live.card

section Records

variable {id : ProcessId} {record : ProcessRecord} {earlier : List Event}

/-- Handles are held since past moments. -/
theorem lt_length_of_heldSince {events : List Event} {handle : Handle} {moment : Nat}
    (held : heldSince id handle events = some moment) : moment < events.length := by
  induction events generalizing moment with
  | nil => cases held
  | cons event earlier ih =>
      have past {moment : Nat} (before : heldSince id handle earlier = some moment) :
          moment < (event :: earlier).length := Nat.lt_succ_of_lt (ih before)
      cases event with
      | opened other opened =>
          rw [heldSince] at held
          split at held
          next =>
            cases before : heldSince id handle earlier with
            | none =>
                rw [before] at held
                cases held
                exact Nat.lt_succ_self _
            | some first =>
                rw [before] at held
                cases held
                exact past before
          next => exact past held
      | started given | closed other closed =>
          rw [heldSince] at held
          split at held
          next => cases held
          next => exact past held
      | finished other reply | looked other reply => exact past held

namespace IsRecordAfter

theorem new (events : List Event) (id : ProcessId) :
    IsRecordAfter (.started id :: events) id { id, handles := [] } where
  id_eq := rfl
  lists := ⟨.nil, fun handle => by simp [heldSince]⟩

theorem still (isRecord : IsRecordAfter earlier id record) {event : Event}
    (same : ∀ handle, heldSince id handle (event :: earlier) = heldSince id handle earlier) :
    IsRecordAfter (event :: earlier) id record :=
  ⟨isRecord.id_eq, isRecord.lists.congr same⟩

theorem opened (isRecord : IsRecordAfter earlier id record) (handle : Handle) :
    IsRecordAfter (.opened id handle :: earlier) id (record.opened handle) := by
  have lists := isRecord.lists
  unfold ProcessRecord.opened
  split
  next listed =>
    -- The handle keeps its place, because it is held since an earlier moment.
    obtain ⟨moment, held⟩ := Option.isSome_iff_exists.mp ((lists.mem_iff handle).mp listed)
    refine isRecord.still fun other => ?_
    by_cases same : handle = other
    · subst same
      simp [heldSince, held]
    · simp [heldSince, same]
  next unlisted =>
    have unheld : heldSince id handle earlier = none := by
      rwa [lists.mem_iff, Option.not_isSome_iff_eq_none] at unlisted
    refine ⟨isRecord.id_eq, (lists.append (fun _ _ => lt_length_of_heldSince) unlisted).congr
      fun other => ?_⟩
    by_cases same : handle = other
    · subst same
      simp [heldSince, unheld]
    · simp [heldSince, same, Ne.symm same]

theorem closed (isRecord : IsRecordAfter earlier id record) (handle : Handle) :
    IsRecordAfter (.closed id handle :: earlier) id (record.closed handle) := by
  refine ⟨isRecord.id_eq, (isRecord.lists.filter handle).congr fun other => ?_⟩
  simp [heldSince, eq_comm]

end IsRecordAfter

end Records

section Answers

/-- Whether the records of a table are those of the live processes, as events have made
them. -/
structure Follows (events : List Event) (processes : Processes) : Prop where
  isSome_get? : ∀ id, (processes.get? id).isSome = isLive id events
  record : ∀ id record, processes.get? id = some record → IsRecordAfter events id record

variable {processes : Processes} {id : ProcessId} {earlier : List Event}

namespace Follows

variable (follows : Follows earlier processes)

include follows

theorem start : Follows (.started processes.start.1 :: earlier) processes.start.2 := by
  constructor
  · intro other
    rw [Processes.get?_start, isLive, ← follows.isSome_get?]
    by_cases own : other = processes.start.1
    · simp [own]
    · simp [own, Ne.symm own]
  · intro other record found
    rw [Processes.get?_start] at found
    split at found
    next own =>
      cases found
      subst own
      exact .new earlier _
    next different =>
      exact (follows.record other record found).still fun handle => if_neg (Ne.symm different)

theorem modify {after : Processes} {event : Event} {change : ProcessRecord → ProcessRecord}
    (get? : ∀ other, after.get? other =
      if id = other then (processes.get? other).map change else processes.get? other)
    (live : ∀ other, isLive other (event :: earlier) = isLive other earlier)
    (own : ∀ record, IsRecordAfter earlier id record →
      IsRecordAfter (event :: earlier) id (change record))
    (others : ∀ other, id ≠ other → ∀ handle,
      heldSince other handle (event :: earlier) = heldSince other handle earlier) :
    Follows (event :: earlier) after := by
  constructor
  · intro other
    rw [get?, live, ← follows.isSome_get?]
    split
    · rw [Option.isSome_map]
    · rfl
  · intro other record found
    rw [get?] at found
    split at found
    next isOwn =>
      obtain ⟨before, known, rfl⟩ := Option.map_eq_some_iff.mp found
      subst isOwn
      exact own before (follows.record id before known)
    next different => exact (follows.record other record found).still (others other different)

theorem opened (id : ProcessId) (handle : Handle) :
    Follows (.opened id handle :: earlier) (processes.opened id handle) :=
  follows.modify (fun _ => Processes.get?_opened handle) (fun _ => rfl)
    (fun _ isRecord => isRecord.opened handle)
    fun _ different _ => if_neg fun same => different same.1

theorem closed (id : ProcessId) (handle : Handle) :
    Follows (.closed id handle :: earlier) (processes.closed id handle) :=
  follows.modify (fun _ => Processes.get?_closed handle) (fun _ => rfl)
    (fun _ isRecord => isRecord.closed handle)
    fun _ different _ => if_neg fun same => different same.1

theorem finish (id : ProcessId) :
    Follows (.finished id (processes.finish id).1 :: earlier) (processes.finish id).2 := by
  constructor
  · intro other
    rw [Processes.get?_finish, isLive, ← follows.isSome_get?]
    by_cases same : id = other <;> simp [same]
  · intro other record found
    rw [Processes.get?_finish] at found
    split at found
    next => cases found
    next => exact (follows.record other record found).still fun _ => rfl

/-- The step: every request keeps the table in step with the events. -/
theorem answer (request : Request) :
    Follows ((processes.answer request).1 :: earlier) (processes.answer request).2 := by
  cases request with
  | start => exact follows.start
  | opened id handle => exact follows.opened id handle
  | closed id handle => exact follows.closed id handle
  | finish id => exact follows.finish id
  | get id =>
      exact ⟨follows.isSome_get?, fun other record found =>
        (follows.record other record found).still fun _ => rfl⟩

end Follows

/-- The run: the table is in step with all that has happened. -/
theorem follows_after (requests : List Request) : Follows (events requests) (after requests) := by
  induction requests with
  | nil => exact ⟨fun id => rfl, nofun⟩
  | cons request earlier ih => exact ih.answer request

end Answers

theorem isMapAfter_events (requests : List Request) :
    IsMapAfter (events requests) (after requests) := by
  have follows := follows_after requests
  have free {id : ProcessId} (dead : isLive id (events requests) = false) :
      (after requests).get? id = none := by
    rw [← follows.isSome_get?, Option.isSome_eq_false_iff, Option.isNone_iff_eq_none] at dead
    exact dead
  exact
    { isSome_get? := follows.isSome_get?
      record := follows.record
      start_free := by
        rw [← follows.isSome_get?]
        exact congrArg Option.isSome (Slots.get?_lowestFree _)
      start_lowest := fun lower below => by
        rw [← follows.isSome_get?]
        exact Slots.get?_isSome_of_lt_lowestFree below
      get?_start := fun _ => Processes.get?_start
      opened_free := fun _ handle dead => opened_of_free (free dead) handle
      get?_opened := fun _ handle _ other =>
        (Processes.get?_opened handle).trans (if_neg (Ne.symm other))
      closed_free := fun _ handle dead => closed_of_free (free dead) handle
      get?_closed := fun _ handle _ other =>
        (Processes.get?_closed handle).trans (if_neg (Ne.symm other))
      finish := fun _ => rfl
      get?_finish := fun id other => by
        rw [Processes.get?_finish]
        simp only [eq_comm]
      finish_free := fun _ dead => finish_of_free (free dead)
      count_card := by
        refine ⟨(after requests).slots.taken, fun id => ?_, (Slots.card_taken _).symm⟩
        rw [Slots.mem_taken, ← follows.isSome_get?]
        rfl }

/-- The table of processes is a map from the lowest free numbers to ordered sets of handles.
After any requests to a new table it has a record for each process that was started and not
finished since, under its own number.  The record lists the handles that the process has opened
and not closed since, once each and in the order of their first openings.  A new process gets
the lowest number that is not live and an empty list; openings and closings change the list of
their own process only, and nothing if it is not live; and finishing a process yields its record
and takes it alone from the table. -/
theorem is_lowest_free_map_of_handle_lists (requests : List Request) :
    IsMapAfter (events requests) (after requests) ∧
      ∀ id record, (after requests).get? id = some record → record.handles.Nodup := by
  have isMap := isMapAfter_events requests
  exact ⟨isMap, fun id record found => (isMap.record id record found).lists.nodup⟩

-- The latest request stands first.  The second process has the number of the first, and its
-- handle that is closed and opened again goes behind the other one.
example :
    let requests : List Request := [.opened 0 5, .closed 0 5, .opened 0 3, .opened 0 5,
      .opened 0 3, .opened 0 5, .start, .finish 0, .opened 0 7, .start]
    (after requests).get? 0 = some { id := 0, handles := [3, 5] } ∧
      heldSince 0 3 (events requests) = some 5 ∧ heldSince 0 7 (events requests) = none := by
  decide

end Processes

end CommandShell
