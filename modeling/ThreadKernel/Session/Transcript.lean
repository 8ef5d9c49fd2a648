import ThreadKernel.Session.Request
import ThreadKernel.Session.Snapshot
import ThreadKernel.SharedKernel

/-!
# Scripts and their transcripts

A script is a list of commands for a new kernel.  Its transcript shows, command
by command, the reply, the kernel afterwards and what the journal gained; a
handler or a locked section shows its own steps inside its step.  A fault ends
the transcript.
-/

namespace ThreadKernel

/-- Something done to a kernel at hand. -/
inductive Action
  | request (request : Request)
  /-- Deliver an interrupt, whose handler does these actions. -/
  | interrupt (handler : List Action)
  /-- A timer interrupt arrives at the shared kernel. -/
  | tick
  /-- Ask the shared kernel for its missed ticks. -/
  | missed

/-- A step of a script. -/
inductive Command
  | act (action : Action)
  /-- Put the kernel behind a lock. -/
  | share
  /-- Do these actions under the lock. -/
  | locked (body : List Action)
  | tick
  | missed
  /-- Take the kernel out again. -/
  | unshare

/-- What is recorded at the end of a step. -/
structure Record where
  snapshot : Option Snapshot
  events : Journal
deriving DecidableEq

/-- A step of a transcript. -/
inductive Step
  | reply (reply : Reply) (record : Record)
  | steps (steps : List Step) (record : Record)

/-- How a transcript ends. -/
inductive Ending
  /-- A command could not be finished. -/
  | fault (fault : Fault)
  /-- All commands were done; the last snapshot may still fail. -/
  | state (state : Except Fault (Option Snapshot))

structure Transcript where
  steps : List Step
  ending : Ending

open SharedKernel

/-- Show the kernel, and take what the journal has gained. -/
def SharedKernel.record (extent : Extent) : SharedM Record := do
  let shared ← get
  let snapshot ← shared.kernel.snapshot extent
  set { shared with kernel := { shared.kernel with events := [] } }
  pure { snapshot, events := shared.kernel.journal }

mutual

/-- Do one action and record it. -/
def Action.run (extent : Extent) : Action → SharedM Step
  | .request r => do
    let reply ← onKernel r.perform
    return .reply reply (← record extent)
  | .interrupt handler => do
    onKernel Kernel.enterInterrupt
    let steps ← Action.runAll extent handler
    onKernel Kernel.leaveInterrupt
    return .steps steps (← record extent)
  | .tick => do
    let entered ← SharedKernel.tick
    return .reply (.flag entered) (← record extent)
  | .missed => do
    let missed := (← get).missed
    return .reply (.number missed) (← record extent)

/-- Do actions one after the other. -/
def Action.runAll (extent : Extent) : List Action → SharedM (List Step)
  | [] => pure []
  | action :: rest => do
    let step ← Action.run extent action
    return step :: (← Action.runAll extent rest)

end

namespace Command

/-- Do one command and record it.  A shared kernel is looked at under its lock. -/
def run (extent : Extent) : Command → SharedM Step
  | .act action => action.run extent
  | .share => do
    modify fun shared => { shared with missed := 0 }
    return .reply .done (← record extent)
  | .locked body => do
    let steps ← withKernel (Action.runAll extent body)
    return .steps steps (← withKernel (record extent))
  | .tick => do
    let entered ← SharedKernel.tick
    return .reply (.flag entered) (← withKernel (record extent))
  | .missed => do
    let missed := (← get).missed
    return .reply (.number missed) (← withKernel (record extent))
  | .unshare => return .reply .done (← record extent)

/-- Whether the kernel is shared after a command. -/
def leavesShared (shared : Bool) : Command → Bool
  | .share => true
  | .unshare => false
  | _ => shared

end Command

/-- The last snapshot of a transcript is always a full one. -/
def SharedKernel.lastSnapshot (isShared : Bool) : SharedM (Option Snapshot) := do
  let last ← if isShared then withKernel (record .full) else record .full
  pure last.snapshot

namespace Transcript

/-- The transcript of the commands, from `shared` on. -/
def ofCommands (extent : Extent) : Bool → List Command → SharedKernel → Transcript
  | isShared, [], shared =>
    { steps := [], ending := .state ((lastSnapshot isShared).run' shared) }
  | isShared, command :: rest, shared =>
    match (command.run extent).run shared with
    | .error fault => { steps := [], ending := .fault fault }
    | .ok (step, after) =>
      let tail := ofCommands extent (command.leavesShared isShared) rest after
      { tail with steps := step :: tail.steps }

/-- The transcript of a script, run on a new kernel. -/
def ofScript (config : Config) (rule : Reposition) (extent : Extent) (script : List Command) :
    Transcript :=
  ofCommands extent false script { kernel := .fresh config rule }

end Transcript

end ThreadKernel
