import ThreadKernel.SharedKernel
import ThreadKernel.Proofs.Frame
import ThreadKernel.Proofs.Indistinguishable
import ThreadKernel.Proofs.Timekeeping

/-!
# The ticks of a shared kernel

A tick that finds the lock taken is counted as missed, and the next tick that gets in delivers the
missed ones before its own.  So a tick that has come is either counted by the clock or counted as
missed, however the ticks and the uses of the kernel follow on one another:
`shared_ticks_conserved`.
-/

namespace ThreadKernel

open Kernel

variable {k k' : Kernel} {u : Unit}

/-! ## Uses of a shared kernel -/

/-- What is done with the kernel under its lock.  A tick arrives at the lock, not at the kernel. -/
inductive Deal
  | request (request : Request)
  | handler (body : List Deal)
  | tick

/-- What is done with a shared kernel. -/
inductive Use
  | hold (body : List Deal)
  | tick

/-- A single step of the uses.  A tick is nested in a use or it is not, and says whether it
got in. -/
inductive Happening
  | kernel (occurrence : Occurrence)
  | tick (nested entered : Bool)

/-- A step that has been taken, with the shared kernel before and after. -/
structure Moment where
  happening : Happening
  before : SharedKernel
  after : SharedKernel

/-- Take a step and record it. -/
def logged (step : SharedM Happening) : SharedM (List Moment) := do
  let before ← get
  let happening ← step
  let after ← get
  pure [⟨happening, before, after⟩]

/-- A step of the kernel itself. -/
def logKernel (occurrence : Occurrence) : SharedM (List Moment) :=
  logged do
    let _ ← SharedKernel.onKernel occurrence.perform
    pure (.kernel occurrence)

/-- A tick that arrives at the lock. -/
def logTick (nested : Bool) : SharedM (List Moment) :=
  logged do return .tick nested (← SharedKernel.tick)

mutual

def Deal.run : Deal → SharedM (List Moment)
  | .request r => logKernel (.request r)
  | .handler body => do
    let enters ← logKernel .enter
    let inside ← Deal.runAll body
    let leaves ← logKernel .leave
    pure (enters ++ inside ++ leaves)
  | .tick => logTick true

def Deal.runAll : List Deal → SharedM (List Moment)
  | [] => pure []
  | first :: rest => do
    let earlier ← first.run
    let later ← Deal.runAll rest
    pure (earlier ++ later)

end

def Use.run : Use → SharedM (List Moment)
  | .hold body => SharedKernel.withKernel (Deal.runAll body)
  | .tick => logTick false

def Use.runAll : List Use → SharedM (List Moment)
  | [] => pure []
  | first :: rest => do
    let earlier ← first.run
    let later ← Use.runAll rest
    pure (earlier ++ later)

/-! ## Ticks that come -/

/-- The timer interrupts that come with a step: one that arrives at the lock, or so many that are
delivered to the kernel. -/
def Happening.arrivals : Happening → Nat
  | .kernel (.request (.timer count)) => count
  | .kernel _ => 0
  | .tick _ _ => 1

mutual

def Deal.arrivals : Deal → Nat
  | .request r => (Happening.kernel (.request r)).arrivals
  | .handler body => Deal.allArrivals body
  | .tick => 1

def Deal.allArrivals : List Deal → Nat
  | [] => 0
  | first :: rest => first.arrivals + Deal.allArrivals rest

end

def Use.arrivals : Use → Nat
  | .hold body => Deal.allArrivals body
  | .tick => 1

/-- The ticks that the clock has counted and those that are still to be delivered. -/
def SharedKernel.due (shared : SharedKernel) : Nat := shared.kernel.clock.ticks + shared.missed

/-- Of the ticks that have come every one is counted or missed, and every one that is counted has
been charged to one account. -/
structure SharedKernel.Counts (shared : SharedKernel) (come : Nat) : Prop where
  due : shared.due = come
  charged : shared.kernel.usage.total = .ok shared.kernel.clock.ticks

/-- After each step of a record the ticks that have come by then are counted or missed. -/
def Counted : Nat → List Moment → Prop
  | _, [] => True
  | come, moment :: rest =>
    moment.after.Counts (come + moment.happening.arrivals) ∧
      Counted (come + moment.happening.arrivals) rest

/-- A tick gets in exactly when it is not nested in a use.  Then it delivers what is missed and
itself, and otherwise it is one more that is missed. -/
def Moment.Answered (moment : Moment) : Prop :=
  match moment.happening with
  | .kernel _ => True
  | .tick true entered =>
    entered = false ∧ moment.after = { moment.before with missed := moment.before.missed + 1 }
  | .tick false entered =>
    entered = true ∧ moment.after.missed = 0 ∧
      (timerInterrupts (moment.before.missed + 1)).run moment.before.kernel =
        .ok ((), moment.after.kernel)

def arrivals (log : List Moment) : Nat := (log.map (·.happening.arrivals)).sum

theorem arrivals_cons (moment : Moment) (log : List Moment) :
    arrivals (moment :: log) = moment.happening.arrivals + arrivals log := rfl

theorem arrivals_append (earlier later : List Moment) :
    arrivals (earlier ++ later) = arrivals earlier + arrivals later := by
  rw [arrivals, List.map_append, List.sum_append]
  rfl

theorem Counted.append {earlier later : List Moment} {come : Nat} (first : Counted come earlier)
    (second : Counted (come + arrivals earlier) later) : Counted come (earlier ++ later) := by
  induction earlier generalizing come with
  | nil => exact second
  | cons moment earlier ih =>
    rw [arrivals_cons, ← Nat.add_assoc] at second
    exact ⟨first.1, ih first.2 second⟩

theorem Reachable.counts {shared : SharedKernel} (reachable : Reachable {} shared.kernel) :
    shared.Counts shared.due :=
  ⟨rfl, Usage.total_eq_ok_iff.mpr ⟨reachable.charged.symm, reachable.timely.ticks⟩⟩

/-! ## What the kernel does -/

/-- So many timer interrupts move the clock by as many ticks. -/
theorem clock_of_run_timerInterrupts {count : Nat} (steady : Steady {} k)
    (h : (timerInterrupts count).run k = .ok (u, k')) :
    k'.clock.ticks = k.clock.ticks + count := by
  induction count generalizing k with
  | zero =>
    cases h
    rfl
  | succ count ih =>
    obtain ⟨_, middle, first, h⟩ := run_bind_eq_ok_iff.mp h
    obtain ⟨_, steps⟩ := steps_of_run_timerInterrupt steady first
    rw [ih (steps.steady steady) h, (returned_of_run_timerInterrupt steady first).clock,
      Nat.add_assoc, Nat.add_comm 1]

theorem occur_of_run_perform {o : Occurrence} {reply : Reply}
    (inside : o = .leave → k.inInterrupt = true) (h : o.perform.run k = .ok (reply, k')) :
    ({} : Discipline).occur k o = some k' := by
  cases o with
  | request r =>
    exact Discipline.occur_eq_some_iff.mpr (.request (r.obeys_nothing k) h)
  | enter =>
    obtain ⟨_, ran, _⟩ := run_map_eq_ok_iff.mp h
    exact Discipline.occur_eq_some_iff.mpr (.enter ran)
  | leave =>
    obtain ⟨_, ran, _⟩ := run_map_eq_ok_iff.mp h
    exact Discipline.occur_eq_some_iff.mpr (.leave (inside rfl) ran)

/-- What happens to the kernel moves the clock by the timer interrupts that come with it. -/
theorem clock_of_occur {o : Occurrence} (steady : Steady {} k)
    (h : ({} : Discipline).occur k o = some k') :
    k'.clock.ticks = k.clock.ticks + (Happening.kernel o).arrivals := by
  by_cases timer : ∃ count, o = .request (.timer count)
  · obtain ⟨count, rfl⟩ := timer
    cases Discipline.occur_eq_some_iff.mp h with
    | request _ ran =>
      obtain ⟨_, ran, _⟩ := run_map_eq_ok_iff.mp ran
      exact clock_of_run_timerInterrupts steady ran
  · obtain ⟨count, rfl, _⟩ | ⟨deeds, moves, untick⟩ := timer_or_untick_of_occur steady h
    · exact absurd ⟨count, rfl⟩ timer
    · have nothing : (Happening.kernel o).arrivals = 0 := by
        unfold Happening.arrivals
        split
        · next count same =>
          cases same
          exact absurd ⟨count, rfl⟩ timer
        · rfl
        · next same => cases same
      rw [nothing, (moves.unticked steady.regular untick).clock, Nat.add_zero]

/-! ## What the uses do -/

/-- What is recorded from one shared kernel to another: so many ticks have come, and each of them
has been counted and answered as it should. -/
structure SharedKernel.Advances (shared : SharedKernel) (come : Nat) (log : List Moment)
    (shared' : SharedKernel) : Prop where
  reachable : Reachable {} shared'.kernel
  busy : shared'.busy = shared.busy
  due : shared'.due = shared.due + come
  arrivals : arrivals log = come
  counted : Counted shared.due log
  answered : ∀ moment ∈ log, moment.Answered

namespace SharedKernel

variable {shared middle shared' : SharedKernel} {log earlier later : List Moment}
  {come further : Nat}

theorem Advances.refl (reachable : Reachable {} shared.kernel) : shared.Advances 0 [] shared where
  reachable := reachable
  busy := rfl
  due := rfl
  arrivals := rfl
  counted := trivial
  answered := List.forall_mem_nil _

theorem Advances.trans (first : shared.Advances come earlier middle)
    (second : middle.Advances further later shared') :
    shared.Advances (come + further) (earlier ++ later) shared' where
  reachable := second.reachable
  busy := second.busy.trans first.busy
  due := by rw [second.due, first.due, Nat.add_assoc]
  arrivals := by rw [arrivals_append, first.arrivals, second.arrivals]
  counted := first.counted.append (by rw [first.arrivals, ← first.due]; exact second.counted)
  answered := List.forall_mem_append.mpr ⟨first.answered, second.answered⟩

/-- One step of the record. -/
theorem Advances.moment (happening : Happening) (reachable : Reachable {} shared'.kernel)
    (busy : shared'.busy = shared.busy) (due : shared'.due = shared.due + happening.arrivals)
    (answered : Moment.Answered ⟨happening, shared, shared'⟩) :
    shared.Advances happening.arrivals [⟨happening, shared, shared'⟩] shared' where
  reachable := reachable
  busy := busy
  due := due
  arrivals := rfl
  counted := ⟨due ▸ reachable.counts, trivial⟩
  answered := List.forall_mem_singleton.mpr answered

end SharedKernel

theorem run_seq_eq_ok_iff {α β : Type} {first : SharedM α} {rest : α → SharedM β}
    {shared : SharedKernel} {r : β × SharedKernel} :
    (first >>= rest).run shared = .ok r ↔
      ∃ a middle, first.run shared = .ok (a, middle) ∧ (rest a).run middle = .ok r := by
  rw [StateT.run_bind]
  cases first.run shared with
  | error fault => exact ⟨nofun, nofun⟩
  | ok step =>
    exact ⟨fun h => ⟨step.1, step.2, rfl, h⟩, fun ⟨_, _, same, h⟩ => by cases same; exact h⟩

theorem run_onKernel_eq_ok_iff {α : Type} {x : KernelM α} {shared : SharedKernel}
    {r : α × SharedKernel} : (SharedKernel.onKernel x).run shared = .ok r ↔
      ∃ kernel, x.run shared.kernel = .ok (r.1, kernel) ∧ r.2 = { shared with kernel } := by
  rcases r with ⟨a, after⟩
  have runs : (SharedKernel.onKernel x).run shared =
      (x.run shared.kernel).map fun step => (step.1, { shared with kernel := step.2 }) := by
    change ((liftM (x.run shared.kernel) : SharedM (α × Kernel)) >>= fun step => do
      set { shared with kernel := step.2 }
      pure step.1).run shared = _
    rw [StateT.run_bind]
    cases x.run shared.kernel <;> rfl
  rw [runs]
  cases x.run shared.kernel with
  | error fault => exact ⟨nofun, nofun⟩
  | ok step =>
    constructor
    · intro h
      cases h
      exact ⟨_, rfl, rfl⟩
    · rintro ⟨kernel, same, rfl⟩
      cases same
      rfl

theorem run_logged {step : SharedM Happening} {shared shared' : SharedKernel} {log : List Moment}
    (h : (logged step).run shared = .ok (log, shared')) :
    ∃ happening, step.run shared = .ok (happening, shared') ∧
      log = [⟨happening, shared, shared'⟩] := by
  obtain ⟨_, _, gets, h⟩ := run_seq_eq_ok_iff.mp h
  cases gets
  obtain ⟨happening, _, steps, h⟩ := run_seq_eq_ok_iff.mp h
  cases h
  exact ⟨happening, steps, rfl⟩

/-- A tick that comes while the kernel is in use is counted, and any other one is delivered with
those that have been missed. -/
theorem of_run_tick {entered : Bool} {shared shared' : SharedKernel}
    (h : SharedKernel.tick.run shared = .ok (entered, shared')) :
    shared.busy = true ∧ entered = false ∧ shared' = { shared with missed := shared.missed + 1 } ∨
      shared.busy = false ∧ entered = true ∧
        ∃ kernel, (timerInterrupts (shared.missed + 1)).run shared.kernel = .ok ((), kernel) ∧
          shared' = { shared with missed := 0, kernel } := by
  obtain ⟨_, _, gets, h⟩ := run_seq_eq_ok_iff.mp h
  cases gets
  by_cases busy : shared.busy = true
  · rw [if_pos busy] at h
    cases h
    exact .inl ⟨busy, rfl, rfl⟩
  · rw [if_neg busy] at h
    obtain ⟨_, _, sets, h⟩ := run_seq_eq_ok_iff.mp h
    cases sets
    obtain ⟨_, _, delivers, h⟩ := run_seq_eq_ok_iff.mp h
    cases h
    obtain ⟨kernel, delivers, rfl⟩ := run_onKernel_eq_ok_iff.mp delivers
    exact .inr ⟨Bool.eq_false_iff.mpr busy, rfl, kernel, delivers, rfl⟩

theorem of_run_logTick {nested : Bool} {shared shared' : SharedKernel} {log : List Moment}
    (h : (logTick nested).run shared = .ok (log, shared')) :
    ∃ entered, SharedKernel.tick.run shared = .ok (entered, shared') ∧
      log = [⟨.tick nested entered, shared, shared'⟩] := by
  obtain ⟨_, step, rfl⟩ := run_logged h
  obtain ⟨entered, _, ticks, h⟩ := run_seq_eq_ok_iff.mp step
  cases h
  exact ⟨entered, ticks, rfl⟩

section Uses

variable {shared shared' : SharedKernel} {log : List Moment}

/-- What happens to the kernel under the lock. -/
theorem advances_of_run_logKernel {o : Occurrence} (reachable : Reachable {} shared.kernel)
    (inside : o = .leave → shared.kernel.inInterrupt = true)
    (h : (logKernel o).run shared = .ok (log, shared')) :
    shared.Advances (Happening.kernel o).arrivals log shared' ∧
      ∃ reply, o.perform.run shared.kernel = .ok (reply, shared'.kernel) := by
  obtain ⟨_, step, rfl⟩ := run_logged h
  obtain ⟨reply, _, ran, h⟩ := run_seq_eq_ok_iff.mp step
  obtain ⟨kernel, performs, rfl⟩ := run_onKernel_eq_ok_iff.mp ran
  cases h
  have occurs := occur_of_run_perform inside performs
  refine ⟨.moment _ (reachable.step (transit_of_occur occurs)) rfl ?_ trivial, reply, performs⟩
  simp only [SharedKernel.due]
  rw [clock_of_occur reachable.steady occurs, Nat.add_right_comm]

theorem advances_of_run_nested (reachable : Reachable {} shared.kernel) (busy : shared.busy = true)
    (h : (logTick true).run shared = .ok (log, shared')) :
    shared.Advances 1 log shared' ∧ shared'.kernel = shared.kernel := by
  obtain ⟨_, ticks, rfl⟩ := of_run_logTick h
  obtain ⟨_, rfl, rfl⟩ | ⟨free, _⟩ := of_run_tick ticks
  · exact ⟨.moment (.tick true false) reachable rfl rfl ⟨rfl, rfl⟩, rfl⟩
  · cases busy.symm.trans free

theorem advances_of_run_free (reachable : Reachable {} shared.kernel) (free : shared.busy = false)
    (h : (logTick false).run shared = .ok (log, shared')) :
    shared.Advances 1 log shared' := by
  obtain ⟨_, ticks, rfl⟩ := of_run_logTick h
  obtain ⟨busy, _⟩ | ⟨_, rfl, kernel, delivered, rfl⟩ := of_run_tick ticks
  · cases free.symm.trans busy
  have performs : (Request.timer (shared.missed + 1)).perform.run shared.kernel =
      .ok (.done, kernel) := run_map_eq_ok_iff.mpr ⟨(), delivered, rfl⟩
  refine .moment (.tick false true)
    (reachable.step (.request (Request.obeys_nothing _ _) performs)) rfl ?_ ⟨rfl, rfl, delivered⟩
  have clock := clock_of_run_timerInterrupts reachable.steady delivered
  simp only [SharedKernel.due, Happening.arrivals]
  omega

/-- Masking and unmasking. -/
theorem advances_of_run_setLevel {level old : Level} (reachable : Reachable {} shared.kernel)
    (h : (SharedKernel.onKernel (setLevel level)).run shared = .ok (old, shared')) :
    shared.Advances 0 [] shared' := by
  obtain ⟨kernel, ran, rfl⟩ := run_onKernel_eq_ok_iff.mp h
  have performs : (Request.setLevel level).perform.run shared.kernel = .ok (.level old, kernel) :=
    run_map_eq_ok_iff.mpr ⟨old, ran, rfl⟩
  have reached := reachable.step (.request (Request.obeys_nothing _ _) performs)
  cases ran
  exact ⟨reached, rfl, rfl, rfl, trivial, List.forall_mem_nil _⟩

end Uses

mutual

/-- What a use does with the kernel under the lock.  A handler that is entered is left. -/
theorem advances_of_run_deal {shared shared' : SharedKernel} {log : List Moment} (deal : Deal)
    (reachable : Reachable {} shared.kernel) (busy : shared.busy = true)
    (h : deal.run.run shared = .ok (log, shared')) :
    shared.Advances deal.arrivals log shared' ∧
      shared'.kernel.inInterrupt = shared.kernel.inInterrupt := by
  cases deal with
  | request r =>
    obtain ⟨advances, reply, performs⟩ :=
      advances_of_run_logKernel (o := .request r) reachable (fun is => by cases is) h
    exact ⟨advances, (alters_of_run_perform reachable.settled performs).inInterrupt⟩
  | handler body =>
    obtain ⟨first, entered, enters, h⟩ := run_seq_eq_ok_iff.mp h
    obtain ⟨second, within, runs, h⟩ := run_seq_eq_ok_iff.mp h
    obtain ⟨third, _, leaves, h⟩ := run_seq_eq_ok_iff.mp h
    cases h
    obtain ⟨enterAdvances, _, enters⟩ :=
      advances_of_run_logKernel (o := .enter) reachable (fun is => by cases is) enters
    obtain ⟨_, enters, _⟩ := run_map_eq_ok_iff.mp enters
    obtain ⟨outside, masked⟩ := of_run_enterInterrupt enters
    have inside : entered.kernel.inInterrupt = true := by rw [masked]
    obtain ⟨bodyAdvances, stays⟩ := advances_of_run_deals body enterAdvances.reachable
      (enterAdvances.busy.trans busy) runs
    obtain ⟨leaveAdvances, _, leaves⟩ := advances_of_run_logKernel (o := .leave)
      bodyAdvances.reachable (fun _ => stays.trans inside) leaves
    obtain ⟨_, leaves, _⟩ := run_map_eq_ok_iff.mp leaves
    have left : shared'.kernel.inInterrupt = false :=
      congrArg Frame.inInterrupt (frame_of_run_leaveInterrupt leaves)
    have advances := (enterAdvances.trans bodyAdvances).trans leaveAdvances
    have come : 0 + Deal.allArrivals body + 0 = (Deal.handler body).arrivals :=
      Nat.zero_add (Deal.allArrivals body)
    exact ⟨come ▸ advances, left.trans outside.symm⟩
  | tick =>
    obtain ⟨advances, same⟩ := advances_of_run_nested reachable busy h
    exact ⟨advances, by rw [same]⟩

theorem advances_of_run_deals {shared shared' : SharedKernel} {log : List Moment}
    (deals : List Deal) (reachable : Reachable {} shared.kernel) (busy : shared.busy = true)
    (h : (Deal.runAll deals).run shared = .ok (log, shared')) :
    shared.Advances (Deal.allArrivals deals) log shared' ∧
      shared'.kernel.inInterrupt = shared.kernel.inInterrupt := by
  cases deals with
  | nil =>
    cases h
    exact ⟨.refl reachable, rfl⟩
  | cons first rest =>
    obtain ⟨earlier, middle, ran, h⟩ := run_seq_eq_ok_iff.mp h
    obtain ⟨later, _, rests, h⟩ := run_seq_eq_ok_iff.mp h
    cases h
    obtain ⟨advances, inside⟩ := advances_of_run_deal first reachable busy ran
    obtain ⟨further, inside'⟩ :=
      advances_of_run_deals rest advances.reachable (advances.busy.trans busy) rests
    exact ⟨advances.trans further, inside'.trans inside⟩

end

theorem advances_of_run_use {shared shared' : SharedKernel} {log : List Moment} (use : Use)
    (reachable : Reachable {} shared.kernel) (free : shared.busy = false)
    (h : use.run.run shared = .ok (log, shared')) : shared.Advances use.arrivals log shared' := by
  cases use with
  | hold body =>
    obtain ⟨_, _, locks, h⟩ := run_seq_eq_ok_iff.mp h
    cases locks
    obtain ⟨level, _, masks, h⟩ := run_seq_eq_ok_iff.mp h
    obtain ⟨_, _, runs, h⟩ := run_seq_eq_ok_iff.mp h
    obtain ⟨_, _, unmasks, h⟩ := run_seq_eq_ok_iff.mp h
    obtain ⟨_, _, unlocks, h⟩ := run_seq_eq_ok_iff.mp h
    cases unlocks
    cases h
    have held : Reachable {} ({ shared with busy := true } : SharedKernel).kernel := reachable
    have masked := advances_of_run_setLevel held masks
    obtain ⟨within, _⟩ := advances_of_run_deals body masked.reachable masked.busy runs
    have unmasked := advances_of_run_setLevel within.reachable unmasks
    have through := (masked.trans within).trans unmasked
    rw [List.nil_append, List.append_nil, Nat.zero_add, Nat.add_zero] at through
    exact ⟨through.reachable, free.symm, through.due, through.arrivals, through.counted,
      through.answered⟩
  | tick => exact advances_of_run_free reachable free h

theorem advances_of_run_uses {shared shared' : SharedKernel} {log : List Moment} {uses : List Use}
    (reachable : Reachable {} shared.kernel) (free : shared.busy = false)
    (h : (Use.runAll uses).run shared = .ok (log, shared')) :
    shared.Advances (uses.map Use.arrivals).sum log shared' := by
  induction uses generalizing shared log with
  | nil =>
    cases h
    exact .refl reachable
  | cons first rest ih =>
    obtain ⟨earlier, middle, ran, h⟩ := run_seq_eq_ok_iff.mp h
    obtain ⟨later, _, rests, h⟩ := run_seq_eq_ok_iff.mp h
    cases h
    have advances := advances_of_run_use first reachable free ran
    exact advances.trans (ih advances.reachable (advances.busy.trans free) rests)

/-- No tick is lost or counted twice, whatever is done with a shared kernel and whenever ticks
arrive.  Those that have come are counted by the clock or missed, at the end and after every single
step, also of a use that is not over.  Every tick is answered by whether it is nested in a use: it
is one more that is missed, or it delivers what was missed and itself. -/
theorem shared_ticks_conserved (reachable : Reachable {} k) {uses : List Use} {log : List Moment}
    {last : SharedKernel} (h : (Use.runAll uses).run { kernel := k } = .ok (log, last)) :
    last.kernel.clock.ticks + last.missed = k.clock.ticks + (uses.map Use.arrivals).sum ∧
    last.kernel.usage.total = .ok last.kernel.clock.ticks ∧
    arrivals log = (uses.map Use.arrivals).sum ∧
    Counted k.clock.ticks log ∧
    ∀ moment ∈ log, moment.Answered := by
  have advances := advances_of_run_uses reachable rfl h
  exact ⟨advances.due, advances.reachable.counts.charged, advances.arrivals, advances.counted,
    advances.answered⟩

/-- A use under the lock in which three ticks arrive, one of them in a handler, and two are
delivered to the kernel at once.  The tick after it delivers four. -/
theorem shared_ticks_conserved_of_replay :
    let uses := [.hold [.tick, .request (.setLevel .on), .request (.timer 2),
      .handler [.tick, .request .preempt], .tick], .tick]
    ∃ k log last, Reachable {} k ∧ (Use.runAll uses).run { kernel := k } = .ok (log, last) ∧
      last.missed = 0 ∧ last.kernel.clock.ticks = k.clock.ticks + 6 ∧
      last.kernel.usage.total = .ok last.kernel.clock.ticks ∧ Counted k.clock.ticks log ∧
      ∀ moment ∈ log, moment.Answered := by
  intro uses
  have ran : (({} : Discipline).performAll [.start] (.fresh {} .stable)).map (fun k =>
      match (Use.runAll uses).run { kernel := k } with
      | .ok (_, last) => decide (last.missed = 0)
      | .error _ => false) = some true := by decide +kernel
  obtain ⟨k, performed, told⟩ := Option.map_eq_some_iff.mp ran
  split at told
  · next log last runs =>
    have reachable := (Reachable.fresh {} .stable).performAll performed
    obtain ⟨due, charged, _, counted, answered⟩ := shared_ticks_conserved reachable runs
    have none : last.missed = 0 := of_decide_eq_true told
    rw [none, Nat.add_zero] at due
    exact ⟨k, log, last, reachable, runs, none, due, charged, counted, answered⟩
  · cases told

end ThreadKernel
