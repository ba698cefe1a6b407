import CommandShell.Output

/-!
# Following an output

A reader follows an output while others write to it and clear it.  What the reader
receives at a poll is said by the events since the poll before: everything that was written
behind the last clearing, or everything written at all if there was none.  So what has been
received adds up to the output, whenever the reader has caught up.
-/

namespace CommandShell

/-- An output that is followed by a reader, and what the reader has received, the oldest
first. -/
structure Watch where
  output : Output
  reader : Reader
  received : List News
  deriving DecidableEq, Repr

namespace Watch

/-- What happens to a followed output. -/
inductive Event where
  | write (text : String)
  | writeLine (text : String)
  | clear
  | poll
  deriving DecidableEq, Repr

/-- The text that an event adds to the output. -/
def Event.text : Event → String
  | write text => text
  | writeLine text => text ++ "\n"
  | clear => ""
  | poll => ""

/-- The text that events add to the output, one after the other. -/
def written (events : List Event) : String :=
  String.join (events.map Event.text)

/-- Follow an output from where it stands. -/
def begin (output : Output) : Watch where
  output := output
  reader := .atEnd output
  received := []

def step (watch : Watch) : Event → Watch
  | .write text => { watch with output := watch.output.write text }
  | .writeLine text => { watch with output := watch.output.writeLine text }
  | .clear => { watch with output := watch.output.clear }
  | .poll =>
      let (news, reader) := watch.reader.poll watch.output
      { watch with reader, received := watch.received ++ [news] }

def run (watch : Watch) (events : List Event) : Watch :=
  events.foldl step watch

end Watch

/-- Read everything that is new, unless the text ends before the place where the reader
goes on, or a character lies across it. -/
def Reader.pollChecked (reader : Reader) (output : Output) : Option (News × Reader) :=
  let cleared := output.epoch != reader.epoch
  let offset := if cleared then 0 else reader.offset
  (Reader.dropBytes output.text.toList offset).map fun text =>
    ({ cleared, text := String.ofList text }, .atEnd output)

namespace Watch

theorem run_append (watch : Watch) (first second : List Event) :
    watch.run (first ++ second) = (watch.run first).run second :=
  List.foldl_append

theorem run_cons (watch : Watch) (event : Event) (rest : List Event) :
    watch.run (event :: rest) = (watch.step event).run rest := rfl

@[simp]
theorem written_cons (event : Event) (rest : List Event) :
    written (event :: rest) = event.text ++ written rest := by
  simp [written]

theorem epoch_run (watch : Watch) (events : List Event) :
    (watch.run events).output.epoch = watch.output.epoch + events.count .clear := by
  induction events generalizing watch with
  | nil => rfl
  | cons event rest ih =>
      rw [run_cons, ih, List.count_cons]
      cases event with
      | clear =>
          simp only [step, Output.epoch_clear, beq_self_eq_true, if_true]
          omega
      | _ => rfl

/-- Without a clearing the output only grows. -/
theorem text_run (watch : Watch) {events : List Event} (uncleared : .clear ∉ events) :
    (watch.run events).output.text = watch.output.text ++ written events := by
  induction events generalizing watch with
  | nil => simp [run, written]
  | cons event rest ih =>
      rw [List.mem_cons, not_or] at uncleared
      obtain ⟨here, later⟩ := uncleared
      rw [run_cons, ih _ later, written_cons, ← String.append_assoc]
      cases event with
      | write text => rfl
      | writeLine text => rfl
      | clear => exact absurd rfl here
      | poll => simp [step, Event.text]

/-- After a clearing the output holds what was written behind it. -/
theorem text_run_of_clear (watch : Watch) (earlier : List Event) {since : List Event}
    (uncleared : .clear ∉ since) :
    (watch.run (earlier ++ .clear :: since)).output.text = written since := by
  rw [run_append, run_cons, text_run _ uncleared]
  exact String.empty_append

theorem reader_run (watch : Watch) {events : List Event} (unpolled : .poll ∉ events) :
    (watch.run events).reader = watch.reader := by
  induction events generalizing watch with
  | nil => rfl
  | cons event rest ih =>
      rw [List.mem_cons, not_or] at unpolled
      rw [run_cons, ih _ unpolled.2]
      cases event with
      | write text => rfl
      | writeLine text => rfl
      | clear => rfl
      | poll => exact absurd rfl unpolled.1

/-- What a reader knows of the text, if it knew the text in front of what it has received
since. -/
def recollect (known : String) (received : List News) : String :=
  received.foldl (fun known news => if news.cleared then news.text else known ++ news.text) known

theorem recollect_append (known : String) (earlier later : List News) :
    recollect known (earlier ++ later) = recollect (recollect known earlier) later :=
  List.foldl_append

theorem recollect_of_not_cleared (known : String) {received : List News}
    (uncleared : ∀ news ∈ received, news.cleared = false) :
    recollect known received = known ++ String.join (received.map News.text) := by
  induction received generalizing known with
  | nil => simp [recollect]
  | cons news rest ih =>
      have here := uncleared news List.mem_cons_self
      have later := ih (known ++ news.text) fun other member =>
        uncleared other (List.mem_cons_of_mem _ member)
      simpa [recollect, here, String.append_assoc] using later

/-- What was known before a cleared poll does not count behind it. -/
theorem recollect_of_cleared (known : String) (earlier : List News) {last : News}
    {later : List News} (cleared : last.cleared)
    (uncleared : ∀ news ∈ later, news.cleared = false) :
    recollect known (earlier ++ last :: later) =
      String.join ((last :: later).map News.text) := by
  have restart : recollect (recollect known earlier) (last :: later) =
      recollect last.text later := by
    simp [recollect, cleared]
  rw [recollect_append, restart, recollect_of_not_cleared _ uncleared]
  simp

/-- The account of a reader: it stands at the end of an output that it has received
completely, and since then the output has grown or has been cleared. -/
structure Follows (known : String) (base : Output) (watch : Watch) : Prop where
  reader : watch.reader = .atEnd base
  received : recollect known watch.received = base.text
  output : (∃ fresh, watch.output = base.write fresh) ∨ base.epoch < watch.output.epoch

namespace Follows

variable {known : String} {base : Output} {watch : Watch}

theorem begin (output : Output) : Follows output.text output (Watch.begin output) where
  reader := rfl
  received := rfl
  output := .inl ⟨"", by simp [Watch.begin, Output.write]⟩

theorem written (follows : Follows known base watch) (text : String) :
    Follows known base { watch with output := watch.output.write text } where
  reader := follows.reader
  received := follows.received
  output := by
    rcases follows.output with ⟨fresh, grown⟩ | cleared
    · exact .inl ⟨fresh ++ text, by simp [grown, Output.write, String.append_assoc]⟩
    · exact .inr cleared

theorem cleared (follows : Follows known base watch) :
    Follows known base { watch with output := watch.output.clear } where
  reader := follows.reader
  received := follows.received
  output := by
    rcases follows.output with ⟨fresh, grown⟩ | cleared
    · exact .inr (by simp [grown])
    · exact .inr (Nat.lt_succ_of_lt cleared)

theorem poll_eq (follows : Follows known base watch) :
    (∃ fresh, watch.output = base.write fresh ∧
      watch.reader.poll watch.output =
        ({ cleared := false, text := fresh }, .atEnd watch.output)) ∨
      watch.reader.poll watch.output =
        ({ cleared := true, text := watch.output.text }, .atEnd watch.output) := by
  rcases follows.output with ⟨fresh, grown⟩ | later
  · refine .inl ⟨fresh, grown, ?_⟩
    rw [follows.reader, grown, Reader.poll_atEnd_write]
  · refine .inr (Reader.poll_of_epoch_ne ?_)
    rw [follows.reader]
    exact Nat.ne_of_gt later

theorem polled (follows : Follows known base watch) :
    Follows known watch.output (watch.step .poll) where
  reader := rfl
  received := by
    show recollect known (watch.received ++ [(watch.reader.poll watch.output).1]) =
      watch.output.text
    rw [recollect_append, follows.received]
    rcases follows.poll_eq with ⟨fresh, grown, news⟩ | news
    · rw [news, grown]
      rfl
    · rw [news]
      rfl
  output := .inl ⟨"", by simp [step, Output.write]⟩

theorem step (follows : Follows known base watch) (event : Event) :
    ∃ after, Follows known after (watch.step event) := by
  cases event with
  | write text => exact ⟨base, follows.written text⟩
  | writeLine text => exact ⟨base, follows.written (text ++ "\n")⟩
  | clear => exact ⟨base, follows.cleared⟩
  | poll => exact ⟨watch.output, follows.polled⟩

theorem run (follows : Follows known base watch) (events : List Event) :
    ∃ after, Follows known after (watch.run events) := by
  induction events generalizing base watch with
  | nil => exact ⟨base, follows⟩
  | cons event rest ih =>
      obtain ⟨between, stepped⟩ := follows.step event
      exact ih stepped

/-- The place where a reader goes on lies in the text, between two characters. -/
theorem pollChecked_eq (follows : Follows known base watch) :
    watch.reader.pollChecked watch.output = some (watch.reader.poll watch.output) := by
  have found : ∃ text, Reader.dropBytes watch.output.text.toList
      (if watch.output.epoch != watch.reader.epoch then 0 else watch.reader.offset) =
        some text := by
    rw [follows.reader]
    rcases follows.output with ⟨fresh, grown⟩ | later
    · have behind := Reader.dropBytes_append base.text.toList fresh.toList
      rw [String.ofList_toList] at behind
      exact ⟨fresh.toList, by simpa [grown, Reader.atEnd] using behind⟩
    · have differ : watch.output.epoch ≠ base.epoch := Nat.ne_of_gt later
      exact ⟨_, by simpa [Reader.atEnd, differ] using Reader.dropBytes_zero _⟩
  obtain ⟨text, found⟩ := found
  simp only [Reader.pollChecked, Reader.poll, found, Option.map_some, Option.getD_some]

end Follows

/-- Right behind a poll, and at the beginning, the reader stands at the end of the output. -/
theorem reader_eq_atEnd (start : Output) {events : List Event}
    (caughtUp : events = [] ∨ events.getLast? = some .poll) :
    ((begin start).run events).reader = .atEnd ((begin start).run events).output := by
  rcases caughtUp with rfl | last
  · rfl
  · obtain ⟨front, rfl⟩ := List.getLast?_eq_some_iff.mp last
    rw [run_append]
    rfl

/-- A reader that has caught up receives what is written next, or what is written behind
the last clearing if there is one. -/
theorem poll_run {caught : Watch} (caughtUp : caught.reader = .atEnd caught.output)
    {recent : List Event} (unpolled : .poll ∉ recent) :
    let watch := caught.run recent
    let news := (watch.reader.poll watch.output).1
    (news.cleared ↔ .clear ∈ recent) ∧
      (.clear ∉ recent → news.text = written recent) ∧
      ∀ earlier since, recent = earlier ++ .clear :: since → .clear ∉ since →
        news.text = written since := by
  dsimp only
  rw [reader_run _ unpolled, caughtUp]
  have epoch := caught.epoch_run recent
  by_cases cleared : .clear ∈ recent
  · have later : 0 < recent.count .clear := List.count_pos_iff.mpr cleared
    have differ : (caught.run recent).output.epoch ≠ caught.output.epoch := by omega
    rw [Reader.poll_of_epoch_ne differ]
    refine ⟨iff_of_true rfl cleared, fun uncleared => absurd cleared uncleared, ?_⟩
    rintro earlier since rfl uncleared
    exact caught.text_run_of_clear earlier uncleared
  · have grown : (caught.run recent).output = caught.output.write (written recent) := by
      rw [List.count_eq_zero.mpr cleared] at epoch
      have text := caught.text_run cleared
      cases output : (caught.run recent).output
      simp_all [Output.write]
    rw [grown, Reader.poll_atEnd_write]
    refine ⟨iff_of_false (by simp) cleared, fun _ => rfl, ?_⟩
    rintro earlier since rfl
    exact absurd (by simp) cleared

/-- Following an output neither loses text nor repeats it.  Let a reader begin where an
output stands, and let events happen to both.  A poll tells whether the output has been
cleared since the poll before, and yields what was written since, or since the last
clearing if there was one.  What has been received then adds up to the text of the output,
and the place where the reader goes on is always one in the text. -/
theorem poll_exact (start : Output) {past recent : List Event}
    (caughtUp : past = [] ∨ past.getLast? = some .poll) (unpolled : .poll ∉ recent) :
    let watch := (begin start).run (past ++ recent)
    let news := (watch.reader.poll watch.output).1
    let polled := watch.step .poll
    (news.cleared ↔ .clear ∈ recent) ∧
      (.clear ∉ recent → news.text = written recent) ∧
      (∀ earlier since, recent = earlier ++ .clear :: since → .clear ∉ since →
        news.text = written since) ∧
      polled.received = watch.received ++ [news] ∧
      ((∀ other ∈ polled.received, other.cleared = false) →
        polled.output.text =
          start.text ++ String.join (polled.received.map News.text)) ∧
      (∀ earlier last later, polled.received = earlier ++ last :: later → last.cleared →
        (∀ other ∈ later, other.cleared = false) →
        polled.output.text = String.join ((last :: later).map News.text)) ∧
      watch.reader.pollChecked watch.output = some (watch.reader.poll watch.output) := by
  intro watch news polled
  obtain ⟨base, follows⟩ := (Follows.begin start).run (past ++ recent)
  have total : recollect start.text polled.received = polled.output.text :=
    follows.polled.received
  have split : watch = ((begin start).run past).run recent := run_append _ past recent
  obtain ⟨isCleared, uncleared, afterClearing⟩ :=
    poll_run (reader_eq_atEnd start caughtUp) unpolled
  rw [← split] at isCleared uncleared afterClearing
  refine ⟨isCleared, uncleared, afterClearing, rfl, fun none => ?_, ?_, follows.pollChecked_eq⟩
  · rw [← total, recollect_of_not_cleared _ none]
  · intro earlier last later same lastCleared none
    rw [← total, same, recollect_of_cleared _ _ lastCleared none]

/-- Events up to a poll, and events behind it that clear the output in between. -/
def samplePast : List Event := [.writeLine "né", .poll]

def sampleRecent : List Event := [.write "x", .clear, .write "ü", .writeLine "y"]

theorem poll_exact_sample :
    let watch := (begin (Output.empty.write "old ")).run (samplePast ++ sampleRecent)
    let news := (watch.reader.poll watch.output).1
    (samplePast = [] ∨ samplePast.getLast? = some .poll) ∧ .poll ∉ sampleRecent ∧
      news.cleared ∧ news.text = "üy\n" ∧
      watch.reader.pollChecked watch.output = some (watch.reader.poll watch.output) := by
  have caughtUp : samplePast = [] ∨ samplePast.getLast? = some .poll := by decide
  have unpolled : .poll ∉ sampleRecent := by decide
  have behind : written [.write "ü", .writeLine "y"] = "üy\n" := by decide
  obtain ⟨isCleared, -, afterClearing, -, -, -, checked⟩ :=
    poll_exact (Output.empty.write "old ") caughtUp unpolled
  have text := afterClearing [.write "x"] [.write "ü", .writeLine "y"] rfl (by decide)
  exact ⟨caughtUp, unpolled, isCleared.mpr (by decide), text.trans behind, checked⟩

end Watch

end CommandShell
