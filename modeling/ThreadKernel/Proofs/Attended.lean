import ThreadKernel.Proofs.Move
import ThreadKernel.Proofs.Placed

/-!
# Units, waiters and the threads about to retry

A woken thread is not handed the unit that was returned: it tries again when it
next runs, and may find the unit gone.  What is kept is a count.  As long as
threads wait on a semaphore, each unit that lies there is matched by a ready
thread that will try the semaphore next, or by the pending work that the
dispatcher has just taken up.  `Attended` is that count, together with what
makes it work: a waiting thread, once woken, tries the semaphore it waited on.
-/

namespace ThreadKernel

/-- How many ready threads will try `s` next. -/
def Kernel.retrying (k : Kernel) (s : SemaphoreId) : Nat :=
  k.ready.threads.countP fun t => k.aim? t = some s

/-- How many are about to try `s`. -/
def Machine.budget (m : Machine) (s : SemaphoreId) : Nat :=
  m.kernel.retrying s + if m.due.bind m.kernel.target? = some s then 1 else 0

theorem Machine.budget_none (k : Kernel) (s : SemaphoreId) :
    (⟨k, none⟩ : Machine).budget s = k.retrying s := rfl

/-- While threads wait on a semaphore, its units are spoken for. -/
structure Attended (m : Machine) : Prop where
  retries : ∀ s semaphore, m.kernel.semaphores.get? s = some semaphore →
    ∀ t ∈ semaphore.waiters, m.kernel.aim? t = some s
  bounded : ∀ s semaphore, m.kernel.semaphores.get? s = some semaphore →
    semaphore.waiters ≠ [] → semaphore.value ≤ m.budget s

namespace Kernel

variable {k k' : Kernel} {t : ThreadId} {thread : Thread}

theorem target?_congr (locks : Arena.Agree (fun lock => lock.semaphore) k'.locks k.locks) :
    k'.target? = k.target? := by
  funext p
  cases p with
  | lock l => exact locks l
  | _ => rfl

theorem pending?_of_get? (found : k.threads.get? t = some thread) :
    k.pending? t = thread.pending := by
  rw [pending?, found, Option.bind_some]

theorem pending?_of_agree
    (same : Arena.Agree (fun thread => thread.pending) k'.threads k.threads) (t : ThreadId) :
    k'.pending? t = k.pending? t := by
  have join : ∀ k : Kernel, k.pending? t = ((k.threads.get? t).map (·.pending)).join := by
    intro k
    rw [pending?]
    cases k.threads.get? t <;> rfl
  rw [join, join, same t]

theorem pending?_mapThread {f : Thread → Thread} {u : ThreadId}
    (blind : ∀ x, (f x).pending = x.pending) :
    (k.mapThread t f).pending? u = k.pending? u :=
  pending?_of_agree (Arena.agree_modify blind) u

theorem pending?_mapThread_of_ne {f : Thread → Thread} {u : ThreadId} (other : u ≠ t) :
    (k.mapThread t f).pending? u = k.pending? u := by
  rw [pending?, mapThread_threads, Arena.get?_modify_of_ne f other.symm, pending?]

theorem aim?_of_get? (found : k.threads.get? t = some thread) :
    k.aim? t = thread.pending.bind k.target? := by
  rw [aim?, pending?_of_get? found]

theorem aim?_mapThread {f : Thread → Thread} {u : ThreadId}
    (blind : ∀ x, (f x).pending = x.pending) :
    (k.mapThread t f).aim? u = k.aim? u :=
  congrArg (·.bind k.target?) (pending?_mapThread blind)

/-- Nobody else's plans change with those of `t`. -/
theorem aim?_mapThread_of_ne {f : Thread → Thread} {u : ThreadId} (other : u ≠ t) :
    (k.mapThread t f).aim? u = k.aim? u :=
  congrArg (·.bind k.target?) (pending?_mapThread_of_ne other)

/-- A thread made ready is one more to try what it aims at. -/
theorem retrying_readied (k : Kernel) (t : ThreadId) (p : Priority) (s : SemaphoreId) :
    (k.readied t p).retrying s = k.retrying s + if k.aim? t = some s then 1 else 0 := by
  have aims : ∀ u, (k.readied t p).aim? u = k.aim? u := fun u =>
    aim?_mapThread (f := fun thread => { thread with state := .ready, place := .ready }) fun _ => rfl
  rw [retrying, retrying, readied_ready, (ReadyQueue.threads_insert_perm k.ready t p).countP_eq,
    List.countP_cons]
  simp only [aims, decide_eq_true_eq]

end Kernel

namespace Attended

open Kernel

variable {m m' : Machine} {k k' : Kernel} {due : Option Pending} {t : ThreadId} {thread : Thread}
  {s : SemaphoreId} {semaphore : Semaphore}

theorem congr (attended : Attended m)
    (semaphores : m'.kernel.semaphores = m.kernel.semaphores)
    (ready : m'.kernel.ready.threads.Perm m.kernel.ready.threads)
    (aims : ∀ p, ∀ t ∈ m.kernel.queueAt p, m'.kernel.aim? t = m.kernel.aim? t)
    (due : m'.due.bind m'.kernel.target? = m.due.bind m.kernel.target?) : Attended m' := by
  constructor
  case retries =>
    intro s semaphore found t waits
    rw [semaphores] at found
    rw [aims (.semaphore s) t (queueAt_semaphore found ▸ waits)]
    exact attended.retries s semaphore found t waits
  case bounded =>
    intro s semaphore found waited
    rw [semaphores] at found
    have same : m'.budget s = m.budget s := by
      rw [Machine.budget, Machine.budget, due, retrying, retrying, ready.countP_eq]
      congr 1
      refine List.countP_congr fun t queued => ?_
      rw [aims .ready t queued]
    rw [same]
    exact attended.bounded s semaphore found waited

/-- A ready thread more can only help. -/
theorem readied (attended : Attended ⟨k, none⟩) (p : Priority) :
    Attended ⟨k.readied t p, none⟩ := by
  constructor
  case retries =>
    intro s semaphore found u waits
    exact Eq.trans (aim?_mapThread fun _ => rfl) (attended.retries s semaphore found u waits)
  case bounded =>
    intro s semaphore found waited
    refine Nat.le_trans (attended.bounded s semaphore found waited) ?_
    rw [Machine.budget_none, Machine.budget_none, retrying_readied]
    exact Nat.le_add_right _ _

/-- Semaphores that come have no waiters, and those that go take with them only
what was aimed at them. -/
theorem of_semaphores (attended : Attended ⟨k, none⟩) (ready : k'.ready = k.ready)
    (old : ∀ s semaphore, k'.semaphores.get? s = some semaphore → semaphore.waiters ≠ [] →
      k.semaphores.get? s = some semaphore)
    (aims : ∀ s semaphore, k'.semaphores.get? s = some semaphore → semaphore.waiters ≠ [] →
      ∀ t, k'.aim? t = some s ↔ k.aim? t = some s) : Attended ⟨k', none⟩ := by
  constructor
  case retries =>
    intro s semaphore found t waits
    have waited := List.ne_nil_of_mem waits
    rw [aims s semaphore found waited]
    exact attended.retries s semaphore (old s semaphore found waited) t waits
  case bounded =>
    intro s semaphore found waited
    have before := attended.bounded s semaphore (old s semaphore found waited) waited
    simp only [Machine.budget_none, retrying, ready, aims s semaphore found waited] at before ⊢
    exact before

/-- What the dispatcher has taken up for the thread it picks was counted before
among the ready threads. -/
theorem picked (attended : Attended ⟨k, none⟩) (placed : k.Placed) {next : ThreadId}
    (found : k.threads.get? next = some thread) {place : Place} {ready : ReadyQueue}
    (picks : k.Picks next thread place ready)
    (fallback : k.ready.pop? = none → k.idle = some next → thread.place = .detached)
    (semaphores : k'.semaphores = k.semaphores) (queue : k'.ready = ready)
    (targets : k'.target? = k.target?) (aims : ∀ u, u ≠ next → k'.aim? u = k.aim? u) :
    Attended ⟨k', thread.pending⟩ := by
  have unwaiting : ∀ s, next ∉ k.queueAt (.semaphore s) := by
    intro s waits
    obtain ⟨_, thread', found', there⟩ := placed.exists_of_mem waits
    cases found.symm.trans found'
    obtain ready | detached := placed.awake_of_picks found picks fallback
    · cases there.symm.trans ready
    · cases there.symm.trans detached
  constructor
  case retries =>
    intro s semaphore foundSemaphore u waits
    dsimp only at foundSemaphore
    rw [semaphores] at foundSemaphore
    have other : u ≠ next := by
      intro same
      refine unwaiting s ?_
      rw [queueAt_semaphore foundSemaphore, ← same]
      exact waits
    rw [aims u other]
    exact attended.retries s semaphore foundSemaphore u waits
  case bounded =>
    intro s semaphore foundSemaphore waited
    dsimp only at foundSemaphore
    rw [semaphores] at foundSemaphore
    refine Nat.le_trans (attended.bounded s semaphore foundSemaphore waited) ?_
    have rest : (∀ u ∈ ready.threads, u ≠ next) →
        ready.threads.countP (fun u => decide (k'.aim? u = some s)) =
          ready.threads.countP fun u => decide (k.aim? u = some s) := by
      refine fun others => List.countP_congr fun u queued => ?_
      rw [aims u (others u queued)]
    rw [Machine.budget_none, Machine.budget, targets, retrying, retrying]
    dsimp only
    rw [queue]
    cases picks with
    | front pop =>
      rw [rest fun u queued same => placed.not_mem_of_pop? pop (same ▸ queued),
        ReadyQueue.threads_of_pop? pop, List.countP_cons, aim?_of_get? found]
      simp only [decide_eq_true_eq, Nat.le_refl]
    | fallback empty idles =>
      rw [rest]
      · exact Nat.le_add_right _ _
      · intro u queued same
        subst same
        obtain ⟨_, thread', found', there⟩ := placed.exists_of_mem (p := .ready) queued
        cases found.symm.trans found'
        cases there.symm.trans (fallback empty idles)

/-- What is due for `s` is due for no other semaphore. -/
theorem untargeted {s' : SemaphoreId} (targets : due = none ∨ due.bind k.target? = some s)
    (other : s' ≠ s) : due.bind k.target? ≠ some s' := by
  obtain rfl | aimed := targets
  · exact nofun
  · rw [aimed]
    exact fun same => other (Option.some.inj same).symm

/-- One try, and one unit, less. -/
theorem taken (attended : Attended ⟨k, due⟩) (found : k.semaphores.get? s = some semaphore)
    (targets : due = none ∨ due.bind k.target? = some s) : Attended ⟨s.taken k, none⟩ := by
  have aims : (s.taken k).aim? = k.aim? := rfl
  constructor
  case retries =>
    intro s' semaphore' found' t waits
    rw [aims]
    obtain ⟨rfl, rfl⟩ | ⟨_, old⟩ := Arena.of_get?_modify found found'
    · exact attended.retries s' semaphore found t waits
    · exact attended.retries s' semaphore' old t waits
  case bounded =>
    intro s' semaphore' found' waited
    have same : (s.taken k).retrying s' = k.retrying s' := rfl
    rw [Machine.budget_none, same]
    obtain ⟨rfl, rfl⟩ | ⟨other, old⟩ := Arena.of_get?_modify found found'
    · have before := attended.bounded s' semaphore found waited
      unfold Machine.budget at before
      dsimp only at before ⊢
      split at before <;> omega
    · have before := attended.bounded s' semaphore' old waited
      rwa [Machine.budget, if_neg (untargeted targets other), Nat.add_zero] at before

/-- The current thread waits, and will try again. -/
theorem queued (attended : Attended ⟨k, due⟩) (placed : k.Placed) (running : k.Running)
    (found : k.semaphores.get? s = some semaphore) (empty : semaphore.value = 0)
    (targets : due = none ∨ due.bind k.target? = some s) {retry : Pending}
    (retries : k.target? retry = some s) {waiters : List ThreadId}
    (perm : waiters.Perm (k.current :: semaphore.waiters)) :
    Attended ⟨s.queued retry waiters k, none⟩ := by
  obtain ⟨thread, foundCurrent, runs⟩ := running
  have unlisted := placed.not_mem_of_detached foundCurrent
    (placed.detached_of_running foundCurrent runs)
  have aims : ∀ u, u ≠ k.current → (s.queued retry waiters k).aim? u = k.aim? u :=
    fun u other => aim?_mapThread_of_ne other
  have record := Arena.get?_modify_self (fun thread : Thread =>
    { thread with state := .blocked, place := .semaphore s, pending := some retry }) foundCurrent
  have aimed : (s.queued retry waiters k).aim? k.current = some s :=
    Eq.trans (aim?_of_get? (k := s.queued retry waiters k) record) retries
  constructor
  case retries =>
    intro s' semaphore' found' u waits
    by_cases here : u = k.current
    · subst here
      obtain ⟨rfl, rfl⟩ | ⟨_, old⟩ := Arena.of_get?_modify found found'
      · exact aimed
      · exact absurd (queueAt_semaphore old ▸ waits) (unlisted (.semaphore s'))
    · rw [aims u here]
      obtain ⟨rfl, rfl⟩ | ⟨_, old⟩ := Arena.of_get?_modify found found'
      · obtain here' | waited := List.mem_cons.mp (perm.mem_iff.mp waits)
        · exact absurd here' here
        · exact attended.retries s' semaphore found u waited
      · exact attended.retries s' semaphore' old u waits
  case bounded =>
    intro s' semaphore' found' waited
    obtain ⟨rfl, rfl⟩ | ⟨other, old⟩ := Arena.of_get?_modify found found'
    · dsimp only
      rw [empty]
      exact Nat.zero_le _
    · have before := attended.bounded s' semaphore' old waited
      rw [Machine.budget, if_neg (untargeted targets other), Nat.add_zero] at before
      rw [Machine.budget_none]
      refine Nat.le_trans before (Nat.le_of_eq (List.countP_congr fun u listed => ?_))
      rw [aims u fun here => unlisted .ready (here ▸ listed)]

/-- A unit returned to a semaphore nobody waits on. -/
theorem given (attended : Attended ⟨k, none⟩) (found : k.semaphores.get? s = some semaphore) :
    Attended ⟨s.given [] k, none⟩ := by
  constructor
  case retries =>
    intro s' semaphore' found' u waits
    obtain ⟨rfl, rfl⟩ | ⟨_, old⟩ := Arena.of_get?_modify found found'
    · exact absurd waits List.not_mem_nil
    · exact attended.retries s' semaphore' old u waits
  case bounded =>
    intro s' semaphore' found' waited
    obtain ⟨rfl, rfl⟩ | ⟨_, old⟩ := Arena.of_get?_modify found found'
    · exact absurd rfl waited
    · exact attended.bounded s' semaphore' old waited

/-- A unit returned, and a waiter woken that will try for it. -/
theorem woken (attended : Attended ⟨k, none⟩) (found : k.semaphores.get? s = some semaphore)
    {waiters : List ThreadId} (perm : semaphore.waiters.Perm (t :: waiters)) (p : Priority) :
    Attended ⟨(s.roused t waiters k).readied t p, none⟩ := by
  have first : t ∈ semaphore.waiters := perm.mem_iff.mpr List.mem_cons_self
  have aims : ∀ u, (s.roused t waiters k).aim? u = k.aim? u := fun u =>
    aim?_mapThread (f := fun thread => { thread with place := .detached }) fun _ => rfl
  have aims' : ∀ u, ((s.roused t waiters k).readied t p).aim? u = k.aim? u := fun u =>
    Eq.trans (aim?_mapThread (f := fun thread => { thread with state := .ready, place := .ready }) fun _ => rfl)
      (aims u)
  have count : ∀ s', ((s.roused t waiters k).readied t p).retrying s' =
      k.retrying s' + if k.aim? t = some s' then 1 else 0 := by
    intro s'
    rw [retrying_readied, aims]
    congr 1
    exact List.countP_congr fun u _ => by rw [aims]
  constructor
  case retries =>
    intro s' semaphore' found' u waits
    rw [aims']
    obtain ⟨rfl, rfl⟩ | ⟨_, old⟩ := Arena.of_get?_modify found found'
    · exact attended.retries s' semaphore found u
        (perm.mem_iff.mpr (List.mem_cons_of_mem t waits))
    · exact attended.retries s' semaphore' old u waits
  case bounded =>
    intro s' semaphore' found' waited
    rw [Machine.budget_none, count]
    obtain ⟨rfl, rfl⟩ | ⟨_, old⟩ := Arena.of_get?_modify found found'
    · have before := attended.bounded s' semaphore found (List.ne_nil_of_mem first)
      rw [Machine.budget_none] at before
      rw [if_pos (attended.retries s' semaphore found t first)]
      exact Nat.succ_le_succ before
    · exact Nat.le_trans (attended.bounded s' semaphore' old waited) (Nat.le_add_right _ _)

end Attended

end ThreadKernel
