import ThreadKernel.Kernel.Scheduling
import ThreadKernel.Duration

/-!
# Interrupts, the timer and timed sleep

A handler runs between `enterInterrupt` and `leaveInterrupt`, with interrupts
masked.  What would preempt the interrupted thread inside it is put off until
it returns.  The timer's handler is `timerTick`.
-/

namespace ThreadKernel.Kernel

/-! ## Delivery -/

def enterInterrupt : KernelM Unit := do
  let k ← get
  require (¬ k.inInterrupt) .nestedInterrupt
  require (k.processor.level = .on) .interruptsMasked
  let _ ← setLevel .off
  modify fun k => { k with inInterrupt := true }

/-- Return from the handler, yielding if that is due or if the idle thread was
interrupted and something is ready. -/
def leaveInterrupt : KernelM Unit := do
  let k ← get
  set { k with inInterrupt := false, yieldDue := false }
  if k.yieldDue || (k.idles && !k.ready.isEmpty) then yield
  let _ ← setLevel .on
  pure ()

/-- Deliver an interrupt to `handler`. -/
def interrupt {α : Type} (handler : KernelM α) : KernelM α := do
  enterInterrupt
  let result ← handler
  leaveInterrupt
  pure result

/-! ## Timed sleep -/

/-- Make every sleeper ready that is due at `now`. -/
def awaken (now : Nat) : KernelM Unit := do
  let k ← get
  k.sleepers.sleepers.forM fun t => do
    let _ ← findThread t
  let (woken, sleepers) := k.sleepers.wake now fun t => (k.threads.get? t).elim 0 (·.wakeTick)
  set { k with sleepers }
  woken.forM fun t => do
    note (.awakens t now)
    modifyThread t fun thread => { thread with place := .detached }
    unblock t

/-- Block the caller until tick `wakeTick`, unless it has come. -/
def sleepUntil (wakeTick : Nat) : KernelM Wait := do
  requireThreadContext .sleep
  let k ← get
  require (¬ k.idles) (.idleThread .sleep)
  if wakeTick ≤ k.clock.ticks then
    pure .completed
  else masked do
    modifyThread k.current fun thread =>
      { thread with wakeTick, place := .sleep, state := .blocked }
    modify fun k => { k with sleepers := k.sleepers.push k.current wakeTick }
    note (.sleeps k.current wakeTick)
    schedule
    pure .suspended

/-- Block the caller for so many ticks. -/
def sleep (ticks : Nat) : KernelM Wait := do
  sleepUntil (saturate ((← get).clock.ticks + ticks))

/-- Block the caller for the whole ticks of a duration. -/
def sleepFor (duration : Duration) : KernelM Wait := do
  sleep (duration.ticks (← get).config.timerHz)

/-! ## The timer -/

/-- Charge a tick to the current thread. -/
def chargeTick : KernelM Unit := do
  let k ← get
  if k.idles then
    set { k with usage := k.usage.chargeIdle }
  else if (← findThread k.current).user then
    set { k with usage := k.usage.chargeUser }
  else
    set { k with usage := k.usage.chargeKernel }

/-- Count a tick of the current thread's slice, and ask for a yield when the
slice is used up. -/
def countSlice : KernelM Unit := do
  let k ← get
  require (k.slice < maxHalfWord) .counterOverflow
  set { k with
    slice := k.slice + 1
    yieldDue := k.yieldDue || decide (k.config.timeSlice ≤ k.slice + 1) }

/-- The timer's handler. -/
def timerTick : KernelM Unit := do
  let clock ← (← get).clock.advance
  modify fun k => { k with clock }
  chargeTick
  countSlice
  if (← get).sleepers.isDue clock.ticks then
    awaken clock.ticks
    preempt

/-- Deliver one timer interrupt. -/
def timerInterrupt : KernelM Unit := interrupt timerTick

/-- Deliver so many timer interrupts, one after the other. -/
def timerInterrupts : Nat → KernelM Unit
  | 0 => pure ()
  | count + 1 => do
    timerInterrupt
    timerInterrupts count

/-- Put the tick accounts into the journal. -/
def reportUsage : KernelM Unit := do
  note (.charged (← get).usage)

end ThreadKernel.Kernel
