import Mathlib.Data.List.Rotate
import ThreadKernel.Proofs.Availability
import ThreadKernel.Proofs.Preemption
import ThreadKernel.Proofs.SharedTicks
import ThreadKernel.Proofs.Sleeping

/-!
# Equals take turns

A thread that yields goes behind the ready threads of its own priority and ahead of all lower ones,
and the first of its equals gets the processor.  So every yield rotates the line that the current
thread and its equals form, and so does every slice that is used up.

* `Turns` is what a kernel has to be like for that, and a yield keeps it so
  (`Turns.exists_yield`).
* A timer interrupt that wakes nobody only counts a tick, unless the slice is used up by it
  (`Turns.exists_timerInterrupt`).
* `equals_take_turns` puts so many yields, or slices, together.  It is not for the idle thread,
  which is not put back into the ready queue: `idle_thread_takes_no_turn`.
-/

namespace ThreadKernel

open Kernel

variable {k : Kernel} {p : Priority} {t next : ThreadId} {line rest : List ThreadId}
  {others : List (ThreadId × Priority)}

namespace Kernel

/-- The ready threads of the current one's priority, in the order of the ready queue. -/
def peers (k : Kernel) : List ThreadId :=
  (k.ready.entries.filter fun entry => entry.2 = k.priorityOf k.current).map Prod.fst

/-- The part of the ready queue that is below the current thread's priority. -/
def lower (k : Kernel) : List (ThreadId × Priority) :=
  k.ready.entries.filter fun entry => entry.2 < k.priorityOf k.current

/-- The current thread and its equals have moved up so many places, those in front to the back.  Who
is below them stays where it is. -/
structure Rotated (k : Kernel) (count : Nat) (k' : Kernel) : Prop where
  priority : k'.priorityOf k'.current = k.priorityOf k.current
  line : k'.current :: k'.peers = (k.current :: k.peers).rotate count
  lower : k'.lower = k.lower

/-- Yield so many times, whoever runs by then. -/
def yields : Nat → KernelM Unit
  | 0 => pure ()
  | count + 1 => do
    yield
    yields count

/-- The current thread and those of `line` have the priority `p`, and nobody that is ready is above
them.  None of them has something to finish first. -/
structure Turns (k : Kernel) (p : Priority) (line : List ThreadId)
    (others : List (ThreadId × Priority)) : Prop where
  steady : Steady {} k
  outside : k.inInterrupt = false
  priority : k.priorityOf k.current = p
  entries : k.ready.entries = line.map (·, p) ++ others
  below : ∀ entry ∈ others, entry.2 < p
  free : ∀ t ∈ line, k.pending? t = none
  busy : ∀ t ∈ k.current :: line, k.idle ≠ some t

theorem Turns.peers_eq (turns : k.Turns p line others) : k.peers = line := by
  have none : others.filter (fun entry => entry.2 = p) = [] := by
    simpa using fun t q member => Nat.ne_of_lt (turns.below (t, q) member)
  rw [peers, turns.priority, turns.entries, List.filter_append, none, List.append_nil,
    List.filter_map]
  simp [Function.comp_def]

theorem Turns.lower_eq (turns : k.Turns p line others) : k.lower = others := by
  have all : others.filter (fun entry => entry.2 < p) = others := by
    simpa using fun t q member => turns.below (t, q) member
  rw [lower, turns.priority, turns.entries, List.filter_append, all, List.filter_map]
  simp [Function.comp_def]

/-- A queue without anybody above `p` is those at `p` and then those below. -/
theorem entries_eq_append {entries : List (ThreadId × Priority)} {p : Priority}
    (ordered : Ranked.Descending Prod.snd entries) (bound : ∀ entry ∈ entries, entry.2 ≤ p) :
    entries = ((entries.filter fun entry => entry.2 = p).map Prod.fst).map (·, p) ++
      entries.filter fun entry => entry.2 < p := by
  induction entries with
  | nil => rfl
  | cons first entries ih =>
    rcases List.pairwise_cons.mp ordered with ⟨above, ordered⟩
    rcases List.forall_mem_cons.mp bound with ⟨le, bound⟩
    rcases Nat.lt_or_eq_of_le le with less | same
    · have none : entries.filter (fun entry => entry.2 = p) = [] := by
        simpa using fun t r member => Nat.ne_of_lt (Nat.lt_of_le_of_lt (above (t, r) member) less)
      have all : entries.filter (fun entry => entry.2 < p) = entries := by
        simpa using fun t r member => Nat.lt_of_le_of_lt (above (t, r) member) less
      simp [none, all, less, Nat.ne_of_lt less]
    · subst same
      simpa using ih ordered bound

end Kernel

/-- Where nobody is above the current thread, and neither it nor an equal is the idle one, they take
turns. -/
theorem turns_of_unranked (steady : Steady {} k) (outside : k.inInterrupt = false)
    (busy : k.idles = false)
    (unranked : ∀ t thread, k.threads.get? t = some thread → thread.state = .ready →
      thread.priority ≤ k.priorityOf k.current)
    (free : ∀ t ∈ k.peers, k.pending? t = none) (spared : ∀ t ∈ k.peers, k.isIdle t = false) :
    k.Turns (k.priorityOf k.current) k.peers k.lower where
  steady := steady
  outside := outside
  priority := rfl
  entries := entries_eq_append steady.regular.placed.ordered
    (steady.regular.placed.forall_entries (P := (· ≤ k.priorityOf k.current)) unranked)
  below := by simp [lower]
  free := free
  busy := by
    intro t member idles
    rcases List.mem_cons.mp member with rfl | member
    · cases busy.symm.trans (idles_iff.mpr idles)
    · cases (spared t member).symm.trans (isIdle_iff.mpr idles)

/-! ## One yield -/

namespace Kernel

/-- The kernel in which the current thread has joined the ready queue. -/
def rejoined (k : Kernel) : Kernel :=
  (k.atLevel .off).readied k.current (k.priorityOf k.current)

/-- What neither a turn nor the slice has to do with is the same. -/
structure Apart (k k' : Kernel) : Prop where
  config : k'.config = k.config
  clock : k'.clock = k.clock
  yieldDue : k'.yieldDue = k.yieldDue
  sleepers : k'.sleepers = k.sleepers
  wakeTicks : ∀ t ∈ k.sleepers.sleepers, k'.wakeTickOf t = k.wakeTickOf t

theorem Apart.refl (k : Kernel) : k.Apart k := ⟨rfl, rfl, rfl, rfl, fun _ _ => rfl⟩

theorem Apart.atLevel {k' : Kernel} (apart : k.Apart k') (level : Level) :
    k.Apart (k'.atLevel level) :=
  ⟨apart.config, apart.clock, apart.yieldDue, apart.sleepers, apart.wakeTicks⟩

namespace Turns

/-- The current thread stands behind its equals and ahead of all others. -/
theorem entries_rejoined (turns : k.Turns p line others)
    (order : line ++ [k.current] = next :: rest) :
    k.rejoined.ready.entries = (next, p) :: (rest.map (·, p) ++ others) := by
  have joined := congrArg (List.map (·, p)) order
  simp only [List.map_append, List.map_cons, List.map_nil] at joined
  rw [rejoined, turns.priority, readied_ready, ReadyQueue.insert, atLevel_ready, turns.entries,
    Ranked.insert_append others (by simp), Ranked.insert_eq_cons turns.below, List.append_cons,
    joined, List.cons_append]

theorem regular_rejoined (turns : k.Turns p line others) : Regular {} ⟨k.rejoined, none⟩ := by
  rcases turns.steady.runs with ⟨thread, found, running, _⟩
  rw [rejoined, priorityOf_of_get? found]
  exact turns.steady.masked.regular.move
    (.ready found running (turns.busy _ List.mem_cons_self))

/-- Who is in line then is ready, and has nothing to finish. -/
theorem exists_get?_rejoined (turns : k.Turns p line others) (waits : t ∈ line ++ [k.current]) :
    ∃ record, k.rejoined.threads.get? t = some record ∧ record.state = .ready ∧
      record.priority = p ∧ record.pending = none := by
  rcases turns.steady.runs with ⟨thread, found, _, finished⟩
  rcases List.mem_append.mp waits with ahead | last
  · have listed : (t, p) ∈ k.ready.entries := by
      rw [turns.entries]
      simp [ahead]
    have placed := turns.steady.regular.placed
    have queued : t ∈ k.queueAt .ready := ReadyQueue.mem_threads_of_mem_entries listed
    rcases placed.exists_of_mem queued with ⟨_, record, foundRecord, there⟩
    have apart : k.current ≠ t := by
      rintro rfl
      cases found.symm.trans foundRecord
      have ready := (placed.ready_iff found).mp there
      rcases turns.steady.runs.running with ⟨_, found', running⟩
      cases found.symm.trans found'
      cases ready.symm.trans running
    have price := placed.priced _ listed
    have free := turns.free t ahead
    rw [priorityOf_of_get? foundRecord] at price
    rw [pending?_of_get? foundRecord] at free
    exact ⟨record, (Arena.get?_modify_of_ne _ apart).trans foundRecord,
      (placed.ready_iff foundRecord).mp there, price, free⟩
  · obtain rfl : t = k.current := List.mem_singleton.mp last
    exact ⟨_, Arena.get?_modify_self _ found, rfl,
      (priorityOf_of_get? found).symm.trans turns.priority, finished⟩

/-- Who sleeps is not the one that joins. -/
theorem exists_get?_of_asleep (turns : k.Turns p line others) (asleep : t ∈ k.sleepers.sleepers) :
    ∃ record, k.threads.get? t = some record ∧ k.rejoined.threads.get? t = some record ∧
      record.state = .blocked := by
  have placed := turns.steady.regular.placed
  rcases placed.exists_of_mem (p := .sleep) asleep with ⟨_, record, found, there⟩
  have blocked : record.state = .blocked :=
    placed.blocked found (by simp [there]) (by simp [there])
  have apart : k.current ≠ t := by
    rintro rfl
    rcases turns.steady.runs.running with ⟨_, found', running⟩
    cases found.symm.trans found'
    cases running.symm.trans blocked
  exact ⟨record, found, (Arena.get?_modify_of_ne _ apart).trans found, blocked⟩

/-- A yield gives the processor to the first of those that the current thread then stands
behind. -/
theorem exists_yield (turns : k.Turns p line others) (order : line ++ [k.current] = next :: rest) :
    ∃ after, yield.run k = .ok ((), after) ∧ after.current = next ∧ after.slice = 0 ∧
      after.Turns p rest others ∧ k.Apart after := by
  have placed := turns.steady.regular.placed
  rcases turns.steady.runs with ⟨thread, found, running, _⟩
  have worth : k.priorityOf k.current = thread.priority := priorityOf_of_get? found
  have busy : k.idle ≠ some k.current := turns.busy _ List.mem_cons_self
  have absent : k.current ∉ k.ready.threads :=
    placed.not_mem_of_detached found (placed.detached_of_running found running) .ready
  have waits : ∀ t ∈ next :: rest, ∃ record, k.rejoined.threads.get? t = some record ∧
      record.state = .ready ∧ record.priority = p ∧ record.pending = none :=
    fun t member => turns.exists_get?_rejoined (order ▸ member)
  rcases waits next List.mem_cons_self with ⟨taker, foundNext, ready, price, finished⟩
  let queue : ReadyQueue := { k.ready with entries := rest.map (·, p) ++ others }
  have front : k.rejoined.ready.pop? = some (next, queue) :=
    ReadyQueue.pop?_eq_some_iff.mpr ⟨_, turns.entries_rejoined order, rfl⟩
  rcases exists_run_schedule (k := k.rejoined) turns.regular_rejoined rfl
      (Arena.get?_modify_self _ found) nofun nofun foundNext front with
    ⟨threads, processor, dying, events, stays, picked, schedules⟩
  rw [finished] at picked schedules
  have ran := schedules _ rfl
  rw [rejoined, worth] at ran
  let after : Kernel := (({ k.rejoined with threads } : Kernel).dispatched next .detached queue
    processor dying events).atLevel k.processor.level
  have runs : after.threads.get? next =
      some { taker with state := .running, place := .detached, pending := none } :=
    Arena.get?_modify_self _ (stays next taker foundNext (by simp [ready]))
  -- to be picked changes neither what a thread slept until nor, here, what it has to finish
  have kept : ∀ {t : ThreadId} {record : Thread}, k.rejoined.threads.get? t = some record →
      record.state ≠ .dying → ∃ now, after.threads.get? t = some now ∧
        now.wakeTick = record.wakeTick ∧ (record.pending = none → now.pending = none) := by
    intro t record there alive
    have stayed := stays t record there alive
    by_cases same : t = next
    · subst same
      exact ⟨_, Arena.get?_modify_self _ stayed, rfl, fun _ => rfl⟩
    · exact ⟨record, (Arena.get?_modify_of_ne _ (Ne.symm same)).trans stayed, rfl, id⟩
  refine ⟨after, ?_, rfl, rfl, ⟨⟨picked.move (.quiet (sameWork_atLevel _)), ⟨_, runs, rfl, rfl⟩⟩,
    turns.outside, (priorityOf_of_get? runs).trans price, rfl, turns.below, fun t later => ?_,
    fun t member => ?_⟩, ⟨rfl, rfl, rfl, rfl, fun t asleep => ?_⟩⟩
  · rw [run_yield_of_busy turns.outside busy found absent, ran]
    simp only [after, rejoined, worth]
    rfl
  · rcases waits t (List.mem_cons_of_mem next later) with ⟨record, there, ready, _, finished⟩
    rcases kept there (by simp [ready]) with ⟨now, foundNow, _, nothing⟩
    rw [pending?_of_get? foundNow]
    exact nothing finished
  · apply turns.busy t
    have among : t ∈ line ++ [k.current] := order ▸ member
    simpa [or_comm] using among
  · rcases turns.exists_get?_of_asleep asleep with ⟨record, foundRecord, there, blocked⟩
    rcases kept there (by simp [blocked]) with ⟨now, foundNow, same, _⟩
    rw [wakeTickOf, wakeTickOf, foundNow, foundRecord]
    exact same

/-- So many yields rotate the line as often. -/
theorem exists_yields (turns : k.Turns p line others) (count : Nat) :
    ∃ after line', (yields count).run k = .ok ((), after) ∧ after.Turns p line' others ∧
      after.current :: line' = (k.current :: line).rotate count := by
  induction count generalizing k line with
  | zero => exact ⟨k, line, rfl, turns, (List.rotate_zero _).symm⟩
  | succ count ih =>
    rcases List.exists_cons_of_ne_nil (l := line ++ [k.current]) (by simp) with ⟨next, rest, order⟩
    rcases turns.exists_yield order with ⟨middle, yielded, rfl, _, turns, _⟩
    rcases ih turns with ⟨after, line', others, turns, rotated⟩
    refine ⟨after, line', run_bind_eq_ok_iff.mpr ⟨(), middle, yielded, others⟩, turns, ?_⟩
    rw [rotated, List.rotate_cons_succ, order]

/-- A line that has been rotated, in terms of the kernel. -/
theorem rotated {k' : Kernel} {line' : List ThreadId} {count : Nat}
    (turns : k.Turns p line others) (turns' : k'.Turns p line' others)
    (same : k'.current :: line' = (k.current :: line).rotate count) : k.Rotated count k' where
  priority := turns'.priority.trans turns.priority.symm
  line := by rw [turns'.peers_eq, turns.peers_eq, same]
  lower := by rw [turns'.lower_eq, turns.lower_eq]

end Turns

/-! ## Ticks -/

/-- The kernel in which the handler of a tick has ended. -/
def aged (k : Kernel) (usage : Usage) : Kernel := (k.interrupted.ticked usage).resumed

/-- How long a slice lasts. -/
def sliceLength (k : Kernel) : Nat := max 1 k.config.timeSlice

/-- Interrupts may come, nobody who sleeps is due within so many ticks, and neither counter outgrows
its word by then. -/
structure Undisturbed (k : Kernel) (count : Nat) : Prop where
  level : k.processor.level = .on
  yieldDue : k.yieldDue = false
  nextWake : k.sleepers.nextWake = SleepQueue.earliest (k.sleepers.sleepers.map k.wakeTickOf)
  ahead : ∀ t ∈ k.sleepers.sleepers, k.clock.ticks + count < k.wakeTickOf t
  room : k.clock.ticks + count ≤ maxWord
  slices : k.config.timeSlice ≤ maxHalfWord
  slice : k.slice < k.sliceLength

/-- One tick later. -/
theorem Undisturbed.later {usage : Usage} {after : Kernel} {count : Nat}
    (quiet : k.Undisturbed (count + 1)) (apart : (k.aged usage).Apart after)
    (level : after.processor.level = .on) (slice : after.slice < k.sliceLength) :
    after.Undisturbed count := by
  have ticks : after.clock.ticks = k.clock.ticks + 1 := congrArg Clock.ticks apart.clock
  have config : after.config = k.config := apart.config
  have sleepers : after.sleepers = k.sleepers := apart.sleepers
  have wakeTicks : ∀ t ∈ k.sleepers.sleepers, after.wakeTickOf t = k.wakeTickOf t :=
    apart.wakeTicks
  have room := quiet.room
  refine ⟨level, apart.yieldDue, ?_, fun t asleep => ?_, by omega, config ▸ quiet.slices, ?_⟩
  · rw [sleepers, List.map_congr_left wakeTicks]
    exact quiet.nextWake
  · rw [sleepers] at asleep
    have ahead := quiet.ahead t asleep
    rw [wakeTicks t asleep]
    omega
  · rw [sliceLength, config]
    exact slice

namespace Turns

theorem not_outranked (turns : k.Turns p line others) : k.outranked = false := by
  rw [Bool.eq_false_iff, ne_eq, outranked_iff]
  rintro ⟨entry, front, idles | above⟩
  · exact turns.busy _ List.mem_cons_self (idles_iff.mp idles)
  · have first : entry ∈ line.map (·, p) ++ others :=
      turns.entries ▸ List.mem_of_mem_head? front
    rw [turns.priority] at above
    rcases List.mem_append.mp first with equal | low
    · rcases List.mem_map.mp equal with ⟨_, _, rfl⟩
      exact Nat.lt_irrefl p above
    · exact Nat.lt_asymm above (turns.below entry low)

/-- What is seen of the threads and of the ready queue says whether there are turns. -/
theorem of_steady {k' : Kernel} (turns : k.Turns p line others) (steady : Steady {} k')
    (outside : k'.inInterrupt = false)
    (same : (k'.threads, k'.current, k'.ready, k'.idle) = (k.threads, k.current, k.ready, k.idle)) :
    k'.Turns p line others := by
  simp only [Prod.mk.injEq] at same
  rcases same with ⟨threads, current, ready, idle⟩
  refine ⟨steady, outside, ?_, ?_, turns.below, ?_, ?_⟩
  · rw [priorityOf, threads, current]
    exact turns.priority
  · rw [ready]
    exact turns.entries
  · simp only [pending?, threads]
    exact turns.free
  · rw [current, idle]
    exact turns.busy

theorem atLevel (turns : k.Turns p line others) (level : Level) :
    (k.atLevel level).Turns p line others :=
  turns.of_steady ⟨turns.steady.regular.move (.quiet (sameWork_atLevel level)), turns.steady.runs⟩
    turns.outside rfl

/-- The handler of a tick that wakes nobody counts it, and no more. -/
theorem exists_ticked {count : Nat} (turns : k.Turns p line others)
    (quiet : k.Undisturbed (count + 1)) :
    ∃ usage, Steady {} (k.interrupted.ticked usage) ∧
      timerTick.run k.interrupted = .ok ((), k.interrupted.ticked usage) := by
  have enters := run_enterInterrupt turns.outside quiet.level
  have steady : Steady {} k.interrupted :=
    (steps_of_run_enterInterrupt turns.steady enters).steady turns.steady
  have room : k.clock.ticks < maxWord := by
    have room := quiet.room
    omega
  have counts : k.slice < maxHalfWord := by
    have slice := quiet.slice
    have slices := quiet.slices
    have some : 1 ≤ maxHalfWord := by decide
    rw [sliceLength] at slice
    omega
  rcases exists_run_timerTick (k := k.interrupted) steady.runs.present room counts with
    ⟨usage, account, ran⟩
  have ticked : Steady {} (k.interrupted.ticked usage) :=
    ⟨steady.regular.move (.tick account), steady.runs⟩
  have wakes : (awaken (k.clock.ticks + 1)).run (k.interrupted.ticked usage) =
      .ok ((), k.interrupted.ticked usage) := by
    refine run_awaken_of_undue ticked.regular.placed (fun t asleep => ?_) quiet.nextWake
    have ahead : k.clock.ticks + (count + 1) < k.wakeTickOf t := quiet.ahead t asleep
    change k.clock.ticks + 1 < k.wakeTickOf t
    omega
  refine ⟨usage, ticked, ran.trans ?_⟩
  split
  · exact (run_bind_of_ok wakes).trans (run_preempt_of_not_outranked turns.not_outranked)
  · rfl

/-- A timer interrupt that wakes nobody counts the tick, and yields if the slice is used up. -/
theorem exists_run_timerInterrupt {count : Nat} (turns : k.Turns p line others)
    (quiet : k.Undisturbed (count + 1)) :
    ∃ usage, (k.aged usage).Turns p line others ∧ timerInterrupt.run k =
      ((if k.config.timeSlice ≤ k.slice + 1 then yield else pure () : KernelM Unit).run
        (k.aged usage)).map (unmasked ()) := by
  rcases turns.exists_ticked quiet with ⟨usage, ticked, ticks⟩
  have outside : (k.interrupted.ticked usage).SameWork (k.aged usage) :=
    sameWork_of_remarks (.refl _) (.refl _) (fun _ => rfl) rfl
  have busy : (k.interrupted.ticked usage).idles = false :=
    Bool.eq_false_iff.mpr fun idles => turns.busy _ List.mem_cons_self (idles_iff.mp idles)
  have due : (k.interrupted.ticked usage).yieldDue =
      decide (k.config.timeSlice ≤ k.slice + 1) := by
    change (k.yieldDue || decide (k.config.timeSlice ≤ k.slice + 1)) = _
    rw [quiet.yieldDue, Bool.false_or]
  refine ⟨usage, turns.of_steady ⟨ticked.regular.move (.quiet outside), ticked.runs⟩ rfl rfl, ?_⟩
  rw [timerInterrupt, interrupt, run_bind_of_ok (run_enterInterrupt turns.outside quiet.level),
    run_bind_of_ok ticks, bind_pure_unit, run_leaveInterrupt, busy, due, Bool.false_and,
    Bool.or_false]
  simp only [decide_eq_true_eq, aged]

/-- A timer interrupt that wakes nobody goes on with the slice, or begins the next one's turn. -/
theorem exists_timerInterrupt {count : Nat} (turns : k.Turns p line others)
    (quiet : k.Undisturbed (count + 1)) :
    ∃ after line' turn, timerInterrupt.run k = .ok ((), after) ∧ after.Turns p line' others ∧
      after.Undisturbed count ∧ after.sliceLength = k.sliceLength ∧
      after.current :: line' = (k.current :: line).rotate turn ∧
      after.slice + turn * k.sliceLength = k.slice + 1 := by
  have short := quiet.slice
  rcases turns.exists_run_timerInterrupt quiet with ⟨usage, aged, ran⟩
  rw [ran]
  split
  · next full =>
    rcases List.exists_cons_of_ne_nil (l := line ++ [k.current]) (by simp) with ⟨next, rest, order⟩
    have order' : line ++ [(k.aged usage).current] = next :: rest := order
    rcases aged.exists_yield order' with ⟨later, yielded, rfl, begins, turns, apart⟩
    have next : (later.atLevel .on).Undisturbed count :=
      quiet.later (apart.atLevel .on) rfl (begins ▸ Nat.zero_lt_of_lt short)
    refine ⟨later.atLevel .on, rest, 1, ?_, turns.atLevel .on, next, ?_, ?_, ?_⟩
    · rw [yielded]
      rfl
    · exact congrArg (max 1 ·.timeSlice) apart.config
    · rw [List.rotate_cons_succ, order, List.rotate_zero]
      rfl
    · change later.slice + 1 * k.sliceLength = k.slice + 1
      rw [begins]
      rw [sliceLength] at short ⊢
      omega
  · next left =>
    have goesOn : k.slice + 1 < max 1 k.config.timeSlice := by omega
    have next : ((k.aged usage).atLevel .on).Undisturbed count :=
      quiet.later ((Apart.refl _).atLevel .on) rfl goesOn
    refine ⟨(k.aged usage).atLevel .on, line, 0, rfl, aged.atLevel .on, next, rfl, ?_, ?_⟩
    · exact (List.rotate_zero _).symm
    · change k.slice + 1 + 0 * _ = _
      omega

/-- So many timer interrupts that wake nobody rotate the line once for every slice they use up. -/
theorem exists_timerInterrupts {count : Nat} (turns : k.Turns p line others)
    (quiet : k.Undisturbed count) :
    ∃ after line', (timerInterrupts count).run k = .ok ((), after) ∧ after.Turns p line' others ∧
      after.current :: line' = (k.current :: line).rotate ((k.slice + count) / k.sliceLength) := by
  induction count generalizing k line with
  | zero =>
    refine ⟨k, line, rfl, turns, ?_⟩
    rw [Nat.add_zero, Nat.div_eq_of_lt quiet.slice, List.rotate_zero]
  | succ count ih =>
    rcases turns.exists_timerInterrupt quiet with
      ⟨middle, line', turn, first, turns, quiet', same, once, used⟩
    rcases ih turns quiet' with ⟨after, line'', later, turns, often⟩
    refine ⟨after, line'', run_bind_eq_ok_iff.mpr ⟨(), middle, first, later⟩, turns, ?_⟩
    have positive : 0 < k.sliceLength := Nat.zero_lt_of_lt quiet.slice
    rw [often, once, List.rotate_rotate, same]
    congr 1
    calc turn + (middle.slice + count) / k.sliceLength
        = (middle.slice + count + turn * k.sliceLength) / k.sliceLength := by
          rw [Nat.add_mul_div_right _ _ positive, Nat.add_comm]
      _ = (k.slice + (count + 1)) / k.sliceLength := by
          congr 1
          omega

end Turns

end Kernel

/-- Equals take turns.  Say that no handler runs, that no ready thread is above the current one, and
that neither it nor an equal is the idle thread.  If its equals have nothing to finish first, every
yield moves the line that they form with it up by one place.  So does every slice of timer
interrupts, however long a slice may be that fits its word, if interrupts are on, a slice has just
begun and no sleeper is due by then.  All the interrupts are handled unless the clock would outgrow
its word. -/
theorem equals_take_turns (reachable : Reachable {} k) (outside : k.inInterrupt = false)
    (busy : k.idles = false)
    (unranked : ∀ t thread, k.threads.get? t = some thread → thread.state = .ready →
      thread.priority ≤ k.priorityOf k.current)
    (free : ∀ t ∈ k.peers, k.pending? t = none) (spared : ∀ t ∈ k.peers, k.isIdle t = false) :
    (∀ count, ∃ k', (yields count).run k = .ok ((), k') ∧ k.Rotated count k') ∧
    (k.processor.level = .on → k.slice = 0 → k.config.timeSlice ≤ maxHalfWord →
      ∀ count ticks, ticks = count * max 1 k.config.timeSlice →
        (∀ t ∈ k.sleepers.sleepers, k.clock.ticks + ticks < k.wakeTickOf t) →
        ((∃ k', (timerInterrupts ticks).run k = .ok ((), k')) ↔
          k.clock.ticks + ticks ≤ maxWord) ∧
        ∀ k', (timerInterrupts ticks).run k = .ok ((), k') → k.Rotated count k') := by
  have steady := reachable.steady
  have turns := turns_of_unranked steady outside busy unranked free spared
  constructor
  · intro count
    rcases turns.exists_yields count with ⟨after, line', ran, turns', rotated⟩
    exact ⟨after, ran, turns.rotated turns' rotated⟩
  · intro unmasked begins slices count ticks lasts ahead
    have settled : k.yieldDue = false := by
      have settled := reachable.settled
      rwa [frame_overdue, outside, Bool.not_false, Bool.and_true] at settled
    have positive : 0 < k.sliceLength := Nat.le_max_left 1 _
    have rotates : k.clock.ticks + ticks ≤ maxWord →
        ∃ k', (timerInterrupts ticks).run k = .ok ((), k') ∧ k.Rotated count k' := by
      intro room
      have quiet : k.Undisturbed ticks :=
        ⟨unmasked, settled, reachable.punctual.nextWake, ahead, room, slices, begins ▸ positive⟩
      rcases turns.exists_timerInterrupts quiet with ⟨after, line', ran, turns', rotated⟩
      have full : (k.slice + ticks) / k.sliceLength = count := by
        rw [begins, Nat.zero_add, lasts]
        exact Nat.mul_div_cancel count positive
      rw [full] at rotated
      exact ⟨after, ran, turns.rotated turns' rotated⟩
    have room : ∀ k', (timerInterrupts ticks).run k = .ok ((), k') →
        k.clock.ticks + ticks ≤ maxWord := by
      intro k' ran
      rw [← clock_of_run_timerInterrupts steady ran]
      exact (timely_of_run_timerInterrupts steady reachable.timely ran).ticks
    refine ⟨⟨fun ⟨k', ran⟩ => room k' ran, fun fits => ?_⟩, fun k' ran => ?_⟩
    · rcases rotates fits with ⟨k', ran, _⟩
      exact ⟨k', ran⟩
    · rcases rotates (room k' ran) with ⟨after, ran', rotated⟩
      cases ran.symm.trans ran'
      exact rotated

/-- The initial thread and two equals of it are back in their order after three yields, and two
slices of two ticks bring the second of them to the front. -/
theorem equals_take_turns_of_three : ∃ k k' k'', Reachable {} k ∧ k.current = .main ∧
    k.peers = [⟨3⟩, ⟨4⟩] ∧ k.lower.map Prod.fst = [⟨5⟩] ∧
    (yields 3).run k = .ok ((), k') ∧ k.Rotated 3 k' ∧
    (timerInterrupts 4).run k = .ok ((), k'') ∧ k.Rotated 2 k'' := by
  have ran : (({} : Discipline).performAll
      [.start, .spawn { priority := 31 }, .spawn { priority := 31 }, .spawn { priority := 20 }]
      (.fresh { timeSlice := 2 } .stable)).map (fun k =>
        (decide (k.peers = [⟨3⟩, ⟨4⟩] ∧ k.lower.map Prod.fst = [⟨5⟩] ∧ k.current = .main),
          decide (k.inInterrupt = false ∧ k.idles = false ∧ k.outranked = false),
          decide ((∀ t ∈ k.peers, k.pending? t = none) ∧ ∀ t ∈ k.peers, k.isIdle t = false),
          decide (k.processor.level = .on ∧ k.slice = 0 ∧ k.sleepers.sleepers = []),
          k.config.timeSlice, k.clock.ticks)) =
      some (true, true, true, true, 2, 0) := by decide +kernel
  rcases Option.map_eq_some_iff.mp ran with ⟨k, performed, told⟩
  simp only [Prod.mk.injEq, decide_eq_true_eq] at told
  rcases told with ⟨⟨peers, lower, here⟩, ⟨outside, busy, unranked⟩, ⟨free, spared⟩,
    ⟨unmasked, begins, awake⟩, lasts, early⟩
  have reachable := (Reachable.fresh { timeSlice := 2 } .stable).performAll performed
  have above := (reachable.steady.regular.placed.settled_iff.mpr unranked).above
  rcases equals_take_turns reachable outside busy above free spared with ⟨yield, slice⟩
  rcases yield 3 with ⟨k', yields, thrice⟩
  rcases slice unmasked begins (by rw [lasts]; decide) 2 4 (by rw [lasts]; decide)
    (by simp [awake]) with ⟨handled, twice⟩
  rcases handled.mpr (by rw [early]; decide) with ⟨k'', ticks⟩
  exact ⟨k, k', k'', reachable, here, peers, lower, yields, thrice, ticks, twice k'' ticks⟩

/-- The idle thread can be unblocked, and is then one of the equals of a current thread of priority
zero.  It leaves the line with its first turn. -/
theorem idle_thread_takes_no_turn : ∃ k k', Reachable {} k ∧ k.inInterrupt = false ∧
    k.idles = false ∧
    (∀ t thread, k.threads.get? t = some thread → thread.state = .ready →
      thread.priority ≤ k.priorityOf k.current) ∧
    (∀ t ∈ k.peers, k.pending? t = none) ∧
    (yields 2).run k = .ok ((), k') ∧
    (k.current :: k.peers).rotate 2 = [.main, ⟨2⟩] ∧ k'.current :: k'.peers = [.main] := by
  have ran : ((({} : Discipline).performAll [.start, .setPriority 0, .unblock ⟨2⟩]
      (.fresh {} .stable)).bind fun k => ((yields 2).run k).toOption.map fun yielded =>
        (decide (k.inInterrupt = false ∧ k.idles = false ∧ k.outranked = false ∧
          ∀ t ∈ k.peers, k.pending? t = none),
          (k.current :: k.peers).rotate 2, yielded.2.current :: yielded.2.peers)) =
      some (true, [.main, ⟨2⟩], [.main]) := by decide +kernel
  rcases Option.bind_eq_some_iff.mp ran with ⟨k, performed, told⟩
  rcases Option.map_eq_some_iff.mp told with ⟨⟨_, k'⟩, yields, told⟩
  simp only [Prod.mk.injEq, decide_eq_true_eq] at told
  rcases told with ⟨⟨outside, busy, unranked, free⟩, before, after⟩
  have reachable := (Reachable.fresh {} .stable).performAll performed
  have above := (reachable.steady.regular.placed.settled_iff.mpr unranked).above
  exact ⟨k, k', reachable, outside, busy, above, free, ok_of_toOption yields, before, after⟩

end ThreadKernel
