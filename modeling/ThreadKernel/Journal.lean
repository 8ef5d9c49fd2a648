import ThreadKernel.Handle
import ThreadKernel.Priority
import ThreadKernel.Usage

/-!
# The journal

The kernel records what it does as events.  Most events are log lines of some
severity; the two notices tell an installed observer which thread is about to
run and which one exits.  `Event.line?` and `Event.notice?` are the only places
that word them.

`takes` and `gives` are shown to nobody.  They keep the account of semaphore
units, so that what became of each unit can be read off the journal of a run.
-/

namespace ThreadKernel

/-- How much attention a log line asks for. -/
inductive Severity
  | warn
  | info
  | debug
  | trace
deriving DecidableEq

namespace Severity

/-- Position in the order, most severe first. -/
def rank : Severity → Nat
  | .warn => 0
  | .info => 1
  | .debug => 2
  | .trace => 3

def text : Severity → String
  | .warn => "WARN"
  | .info => "INFO"
  | .debug => "DEBUG"
  | .trace => "TRACE"

end Severity

/-- Something the kernel did. -/
inductive Event
  | started (idle : ThreadId)
  | created (thread : ThreadId) (name : String) (priority : Priority)
  | exiting (thread : ThreadId) (name : String)
  | exitingWithLocks (thread : ThreadId) (locks : Nat)
  | reclaimed (thread : ThreadId) (name : String)
  | switched (previous next : ThreadId)
  | waits (thread : ThreadId) (semaphore : SemaphoreId)
  | wakes (semaphore : SemaphoreId) (thread : ThreadId)
  | holds (thread : ThreadId) (lock : LockId)
  | releases (thread : ThreadId) (lock : LockId)
  | awaits (thread : ThreadId) (condition : ConditionId)
  | signals (condition : ConditionId) (thread : ThreadId)
  | sleeps (thread : ThreadId) (tick : Nat)
  | awakens (thread : ThreadId) (tick : Nat)
  | donates (donor : ThreadId) (priority : Priority) (holder : ThreadId)
  /-- A donation from `start` walked through `visited` and stopped in front of
  `beyond`. -/
  | truncated (start : ThreadId) (visited : List ThreadId) (beyond : ThreadId)
  | repriced (thread : ThreadId) (old new : Priority)
  | charged (usage : Usage)
  /-- A unit of `semaphore` was taken for `thread`. -/
  | takes (thread : ThreadId) (semaphore : SemaphoreId)
  /-- A unit was returned to `semaphore`. -/
  | gives (semaphore : SemaphoreId)
  /-- The observer called `label` is told that `thread` is about to run. -/
  | activating (label : String) (thread : ThreadId)
  /-- The observer called `label` is told that `thread` exits. -/
  | leaving (label : String) (thread : ThreadId)
deriving DecidableEq

namespace Event

/-- The log line of an event that is one. -/
def line? : Event → Option (Severity × String)
  | .started idle => some (.info, s!"scheduler started, idle thread {idle}")
  | .created thread name priority =>
    some (.debug, s!"created thread {thread} '" ++ name ++ s!"' at priority {priority}")
  | .exiting thread name => some (.debug, s!"thread {thread} '" ++ name ++ "' exiting")
  | .exitingWithLocks thread locks =>
    some (.warn, s!"thread {thread} exiting while holding {locks} lock(s)")
  | .reclaimed thread name => some (.debug, s!"reclaimed thread {thread} '" ++ name ++ "'")
  | .switched previous next => some (.trace, s!"switch {previous} -> {next}")
  | .waits thread semaphore => some (.trace, s!"thread {thread} waits on {semaphore}")
  | .wakes semaphore thread => some (.trace, s!"{semaphore} wakes thread {thread}")
  | .holds thread lock => some (.trace, s!"thread {thread} holds {lock}")
  | .releases thread lock => some (.trace, s!"thread {thread} releases {lock}")
  | .awaits thread condition => some (.trace, s!"thread {thread} waits on {condition}")
  | .signals condition thread => some (.trace, s!"{condition} signals thread {thread}")
  | .sleeps thread tick => some (.trace, s!"thread {thread} sleeping until tick {tick}")
  | .awakens thread tick => some (.trace, s!"waking thread {thread} at tick {tick}")
  | .donates donor priority holder =>
    some (.debug, s!"thread {donor} donates priority {priority} to thread {holder}")
  | .truncated start visited _ =>
    some (.warn,
      s!"donation chain from thread {start} truncated after {visited.length} holders")
  | .repriced thread old new => some (.debug, s!"thread {thread} priority {old} -> {new}")
  | .charged usage =>
    some (.info, s!"Thread: {usage.idle} idle ticks, {usage.kernel} kernel ticks, " ++
      s!"{usage.user} user ticks")
  | .takes _ _ => none
  | .gives _ => none
  | .activating _ _ => none
  | .leaving _ _ => none

/-- What the observer records of an event it is told. -/
def notice? : Event → Option String
  | .activating label thread => some (label ++ s!":activate {thread}")
  | .leaving label thread => some (label ++ s!":exit {thread}")
  | _ => none

/-- The line of an event that is at least as severe as `threshold`. -/
def lineAt? (threshold : Severity) (event : Event) : Option String :=
  match event.line? with
  | some (severity, text) =>
    if severity.rank ≤ threshold.rank then some (severity.text ++ " " ++ text) else none
  | none => none

/-- Whether an event leaves open who runs, who holds a lock and where the units are. -/
def isRemark : Event → Bool
  | .switched _ _ | .holds _ _ | .releases _ _ | .takes _ _ | .gives _ => false
  | _ => true

end Event

/-- `later` adds remarks to `earlier` and nothing else, both latest first. -/
def Remarks (earlier later : List Event) : Prop :=
  ∃ remarks, later = remarks ++ earlier ∧ ∀ event ∈ remarks, event.isRemark = true

namespace Remarks

variable {first second third : List Event}

theorem refl (events : List Event) : Remarks events events :=
  ⟨[], rfl, List.forall_mem_nil _⟩

theorem cons (event : Event) (events : List Event)
    (remark : event.isRemark = true) : Remarks events (event :: events) :=
  ⟨[event], rfl, List.forall_mem_singleton.mpr remark⟩

theorem trans (before : Remarks first second) (after : Remarks second third) :
    Remarks first third := by
  obtain ⟨old, rfl, oldRemarks⟩ := before
  obtain ⟨new, rfl, newRemarks⟩ := after
  exact ⟨new ++ old, (List.append_assoc _ _ _).symm, List.forall_mem_append.mpr ⟨newRemarks, oldRemarks⟩⟩

theorem suffix (remarks : Remarks first second) : first <:+ second := by
  obtain ⟨new, rfl, _⟩ := remarks
  exact List.suffix_append new first

/-- What holds of the earlier events, and is kept by each remark, holds of the later ones. -/
theorem induction {motive : List Event → Prop} (remarks : Remarks first second)
    (base : motive first)
    (step : ∀ event events, event.isRemark = true → motive events → motive (event :: events)) :
    motive second := by
  obtain ⟨new, rfl, all⟩ := remarks
  induction new with
  | nil => exact base
  | cons event rest ih =>
    obtain ⟨remark, all⟩ := List.forall_mem_cons.mp all
    exact step event (rest ++ first) remark (ih all)

end Remarks

/-- Events in the order they happened. -/
abbrev Journal := List Event

namespace Journal

/-- The log lines at least as severe as `threshold`. -/
def lines (journal : Journal) (threshold : Severity) : List String :=
  journal.filterMap (Event.lineAt? threshold)

def notices (journal : Journal) : List String := journal.filterMap Event.notice?

end Journal

end ThreadKernel
