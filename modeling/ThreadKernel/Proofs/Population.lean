import ThreadKernel.Proofs.Frame
import ThreadKernel.Proofs.Reclamation
import ThreadKernel.Proofs.Secure
import ThreadKernel.Proofs.Timekeeping

/-!
# How many threads are alive

A thread that has exited stays exited until its record is dropped, and a dropped record does not
come back.  So whoever is alive after some moves and was not before has been given its identity on
the way (`living_of_moves`), and the population grows by no more than the identities issued.

To spawn a thread needs room under the limit.  To start the scheduler, which creates the idle
thread, does not: `live_threads_bounded` has the limit exceeded by one where the scheduler was
started with no room left, and kept everywhere else.
-/

namespace ThreadKernel

open Kernel

namespace Arena

variable {kind : Kind} {α : Type}

theorem nodup_entriesFrom (start : Nat) (slots : List (Option α)) :
    ((entriesFrom start slots : List (Handle kind × α)).map Prod.fst).Nodup := by
  induction slots generalizing start with
  | nil => exact List.nodup_nil
  | cons slot rest ih =>
    cases slot with
    | none => exact ih (start + 1)
    | some x =>
      refine List.nodup_cons.mpr ⟨fun again => ?_, ih (start + 1)⟩
      obtain ⟨⟨h, y⟩, member, same⟩ := List.mem_map.mp again
      have later := (mem_entriesFrom.mp member).1
      rw [show h = ⟨start⟩ from same] at later
      exact Nat.not_succ_le_self start later

end Arena

variable {d : Discipline} {k k' : Kernel} {t : ThreadId} {deeds : List Deed} {o : Occurrence}

/-- The threads that have not exited. -/
def Kernel.living (k : Kernel) : List ThreadId :=
  (k.threads.entries.filter fun entry => entry.2.state ≠ .dying).map Prod.fst

theorem mem_living :
    t ∈ k.living ↔ ∃ thread, k.threads.get? t = some thread ∧ thread.state ≠ .dying := by
  simp only [living, List.mem_map, List.mem_filter, decide_eq_true_eq]
  constructor
  · rintro ⟨⟨_, thread⟩, ⟨listed, alive⟩, rfl⟩
    exact ⟨thread, Arena.mem_entries.mp listed, alive⟩
  · rintro ⟨thread, found, alive⟩
    exact ⟨(t, thread), ⟨Arena.mem_entries.mpr found, alive⟩, rfl⟩

theorem nodup_living (k : Kernel) : k.living.Nodup :=
  List.Nodup.sublist (List.filter_sublist.map Prod.fst) (Arena.nodup_entriesFrom 0 k.threads.slots)

theorem length_living (k : Kernel) : k.living.length = k.threads.liveCount := by
  rw [living, List.length_map, ThreadTable.liveCount, List.countP_eq_length_filter]

/-! ## Who is alive after some moves -/

/-- Nobody comes to life but who is created. -/
theorem living_of_moves (reachable : Reachable d k) (moves : Moves d deeds ⟨k, none⟩ ⟨k', none⟩)
    (alive : t ∈ k'.living) : t ∈ k.living ∨ k.threads.next.index ≤ t.index := by
  obtain ⟨thread', found', alive⟩ := mem_living.mp alive
  have steady := reachable.steady
  rcases Nat.lt_or_ge t.index k.threads.next.index with issued | new
  · cases found : k.threads.get? t with
    | none =>
      obtain ⟨thread, running, _⟩ := steady.runs
      have away : t ≠ k.current := by
        rintro rfl
        cases found.symm.trans running
      have removed : k.Removed t := ⟨issued, found, away⟩
      cases (removed.moves steady.regular moves).gone.symm.trans found'
    | some thread =>
      refine .inl (mem_living.mpr ⟨thread, found, fun dying => ?_⟩)
      have exited : k.Exited t := ⟨thread, found, dying⟩
      rcases exited.moves reachable.interred steady.regular moves with ⟨stays, _⟩ | removed
      · exact not_exited_of_alive found' alive stays
      · cases removed.gone.symm.trans found'
  · exact .inr new

/-- The population grows by no more than the identities issued. -/
theorem liveCount_le_of_moves (reachable : Reachable d k)
    (moves : Moves d deeds ⟨k, none⟩ ⟨k', none⟩) {issued : Nat}
    (next : k'.threads.next = ⟨k.threads.next.index + issued⟩) :
    k'.threads.liveCount ≤ k.threads.liveCount + issued := by
  have within : k'.living ⊆ k.living ++
      (List.range' k.threads.next.index issued).map Handle.mk := fun t alive => by
    obtain old | new := living_of_moves reachable moves alive
    · exact List.mem_append_left _ old
    · obtain ⟨thread, found, _⟩ := mem_living.mp alive
      have below := Arena.lt_next_of_get? found
      rw [next] at below
      refine List.mem_append_right _ (List.mem_map.mpr ⟨t.index, ?_, rfl⟩)
      exact List.mem_range'_1.mpr ⟨new, below⟩
  have few := ((nodup_living k').subperm within).length_le
  rwa [List.length_append, List.length_map, List.length_range', length_living, length_living] at few

/-! ## The limit -/

/-- What a step of a run does to the population: as a rule it does not grow. -/
inductive Growth (k k' : Kernel) : Occurrence → Prop
  | none {o : Occurrence} (le : k'.threads.liveCount ≤ k.threads.liveCount) : Growth k k' o
  | spawn {blueprint : Blueprint} (room : k.threads.liveCount < k.config.maxThreads)
      (le : k'.threads.liveCount ≤ k.threads.liveCount + 1) : Growth k k' (.request (.spawn blueprint))
  | start (unstarted : k.idle = none) (started : k'.idle.isSome = true)
      (le : k'.threads.liveCount ≤ k.threads.liveCount + 1) : Growth k k' (.request .start)

theorem growth_of_occur (reachable : Reachable d k) (h : d.occur k o = some k') : Growth k k' o := by
  obtain ⟨deeds, steps, _⟩ := steps_of_occur reachable.steady h
  have grows : ∀ {issued}, k'.threads.next = ⟨k.threads.next.index + issued⟩ →
      k'.threads.liveCount ≤ k.threads.liveCount + issued :=
    liveCount_le_of_moves reachable steps.moves
  have kept : k'.frame.next = k.threads.next → Growth k k' o := fun same => by
    have none : k'.threads.next = ⟨k.threads.next.index + 0⟩ := same
    exact .none (grows none)
  cases Discipline.occur_eq_some_iff.mp h with
  | request _ ran =>
    have alters := alters_of_run_perform reachable.settled ran
    generalize shown : k'.frame = frame at alters
    have next : k'.threads.next = frame.next := congrArg Frame.next shown
    cases alters with
    | start unstarted =>
      obtain ⟨_, starts, _⟩ := run_map_eq_ok_iff.mp ran
      obtain rfl | ⟨_, rfl⟩ := of_run_start starts
      · exact .none (Nat.le_refl _)
      · exact .start unstarted rfl (grows next)
    | spawn room => exact .spawn room (grows next)
    | setLevel | up | release | wait | signal | broadcast | other => exact kept next
  | enter ran =>
    obtain ⟨_, rfl⟩ := of_run_enterInterrupt ran
    exact .none (Nat.le_refl _)
  | leave _ ran => exact kept (congrArg Frame.next (frame_of_run_leaveInterrupt ran))

/-- A scheduler that has been started stays so. -/
theorem started_of_moves (steady : Steady d k) (moves : Moves d deeds ⟨k, none⟩ ⟨k', none⟩)
    (started : k.idle.isSome = true) : k'.idle.isSome = true :=
  Option.isSome_iff_exists.mpr (steady.regular.invariant
    (motive := fun m => ∃ t, m.kernel.idle = some t) moves (Option.isSome_iff_exists.mp started)
    fun regular move started => move.started regular.toSound started)

/-- When the scheduler is started, one more thread is allowed. -/
def Occurrence.HasRoom (k : Kernel) : Occurrence → Prop
  | .request .start => k.idle = none → k.threads.liveCount < k.config.maxThreads
  | _ => True

instance (k : Kernel) (o : Occurrence) : Decidable (o.HasRoom k) := by
  unfold Occurrence.HasRoom
  split <;> infer_instance

/-- One more thread is allowed whenever the scheduler is started in the run. -/
def Discipline.RoomyRun (d : Discipline) : Kernel → List Occurrence → Prop
  | _, [] => True
  | k, first :: rest => first.HasRoom k ∧ ∀ k' ∈ d.occur k first, d.RoomyRun k' rest

instance decidableRoomyRun (d : Discipline) : ∀ (k : Kernel) (rest : List Occurrence),
    Decidable (d.RoomyRun k rest)
  | _, [] => .isTrue trivial
  | _, _ :: rest =>
    have : DecidablePred (d.RoomyRun · rest) := (decidableRoomyRun d · rest)
    inferInstanceAs (Decidable (_ ∧ ∀ _ ∈ _, _))

/-- The idle thread, once there is one, may be one too many. -/
def Kernel.spare (k : Kernel) : Nat := if k.idle.isSome then 1 else 0

theorem spare_of_started (started : k.idle.isSome = true) : k.spare = 1 := if_pos started

theorem spare_of_unstarted (unstarted : k.idle = none) : k.spare = 0 := by
  rw [spare, unstarted]
  rfl

theorem spare_le (started : k.idle.isSome = true → k'.idle.isSome = true) : k.spare ≤ k'.spare := by
  cases idle : k.idle with
  | none =>
    rw [spare_of_unstarted idle]
    exact Nat.zero_le _
  | some t =>
    have before : k.idle.isSome = true := Option.isSome_iff_exists.mpr ⟨t, idle⟩
    rw [spare_of_started before, spare_of_started (started before)]

/-- No step lets more threads live than are allowed, but for the idle thread. -/
theorem liveCount_le_of_occur (reachable : Reachable d k) (h : d.occur k o = some k')
    (within : k.threads.liveCount ≤ k.config.maxThreads + k.spare) :
    k'.threads.liveCount ≤ k.config.maxThreads + k'.spare ∧
      (o.HasRoom k → k.threads.liveCount ≤ k.config.maxThreads →
        k'.threads.liveCount ≤ k.config.maxThreads) := by
  obtain ⟨deeds, steps, _⟩ := steps_of_occur reachable.steady h
  have spares := spare_le (started_of_moves reachable.steady steps.moves)
  cases growth_of_occur reachable h with
  | none le =>
    exact ⟨Nat.le_trans le (Nat.le_trans within (Nat.add_le_add_left spares _)),
      fun _ exact => Nat.le_trans le exact⟩
  | spawn room le =>
    have exact := Nat.le_trans le room
    exact ⟨Nat.le_add_right_of_le exact, fun _ _ => exact⟩
  | start unstarted started le =>
    rw [spare_of_unstarted unstarted] at within
    rw [spare_of_started started]
    exact ⟨Nat.le_trans le (Nat.add_le_add_right within 1),
      fun room _ => Nat.le_trans le (room unstarted)⟩

theorem liveCount_le_of_occurAll (reachable : Reachable d k) {occurrences : List Occurrence}
    (h : d.occurAll occurrences k = some k')
    (within : k.threads.liveCount ≤ k.config.maxThreads + k.spare) :
    k'.threads.liveCount ≤ k.config.maxThreads + k'.spare ∧
      (d.RoomyRun k occurrences → k.threads.liveCount ≤ k.config.maxThreads →
        k'.threads.liveCount ≤ k.config.maxThreads) := by
  induction occurrences generalizing k with
  | nil =>
    cases h
    exact ⟨within, fun _ => id⟩
  | cons first rest ih =>
    obtain ⟨middle, occurs, h⟩ := Option.bind_eq_some_iff.mp h
    obtain ⟨grown, kept⟩ := liveCount_le_of_occur reachable occurs within
    obtain ⟨deeds, steps, _⟩ := steps_of_occur reachable.steady occurs
    have config : middle.config = k.config := steps.moves.config reachable.steady.regular
    rw [← config] at grown kept ⊢
    obtain ⟨grows, keeps⟩ := ih (reachable.step (transit_of_occur occurs)) h grown
    exact ⟨grows, fun roomy exact => keeps (roomy.2 middle occurs) (kept roomy.1 exact)⟩

/-- No more threads are alive than the limit, the initial and the idle one included, if there was
room for the idle thread when the scheduler was started.  Otherwise there may be one more: to start
the scheduler does not ask whether there is room. -/
theorem live_threads_bounded {config : Config} {rule : Reposition} {occurrences : List Occurrence}
    (allowed : 1 ≤ config.maxThreads) (h : d.occurAll occurrences (.fresh config rule) = some k) :
    k.threads.liveCount ≤ config.maxThreads + k.spare ∧
      (d.RoomyRun (.fresh config rule) occurrences → k.threads.liveCount ≤ config.maxThreads) := by
  obtain ⟨within, exact⟩ := liveCount_le_of_occurAll (.fresh config rule) h
    (Nat.le_add_right_of_le allowed)
  exact ⟨within, fun roomy => exact roomy allowed⟩

/-- Of four threads that may live all four do: one is spawned before the scheduler is started, and
two after another one has exited. -/
theorem live_threads_bounded_of_turnover : ∃ k, ({} : Discipline).performAll
      [.spawn { priority := 10 }, .spawn { priority := 40 }, .exit, .start, .spawn {}]
      (.fresh { maxThreads := 4 } .stable) = some k ∧
    k.threads.liveCount ≤ 4 := by
  have ran : ({} : Discipline).RoomyRun (.fresh { maxThreads := 4 } .stable)
      ([Request.spawn { priority := 10 }, .spawn { priority := 40 }, .exit, .start, .spawn {}].map
        .request) ∧
      (({} : Discipline).performAll
        [.spawn { priority := 10 }, .spawn { priority := 40 }, .exit, .start, .spawn {}]
        (.fresh { maxThreads := 4 } .stable)).isSome = true := by decide +kernel
  obtain ⟨roomy, ends⟩ := ran
  obtain ⟨k, performed⟩ := Option.isSome_iff_exists.mp ends
  exact ⟨k, performed, (live_threads_bounded (by decide) performed).2 roomy⟩

/-- With two threads alive and no more allowed the scheduler is started, which makes three. -/
theorem live_threads_exceed_limit : ∃ k, Reachable {} k ∧ k.config.maxThreads = 2 ∧
    k.threads.liveCount = 3 := by
  have ran : (({} : Discipline).performAll [.spawn { name := "worker", priority := 10 }, .start]
      (.fresh { maxThreads := 2 } .stable)).map
        (fun k => (k.config.maxThreads, k.threads.liveCount)) = some (2, 3) := by decide +kernel
  obtain ⟨k, performed, told⟩ := Option.map_eq_some_iff.mp ran
  obtain ⟨limit, alive⟩ := Prod.mk.inj told
  exact ⟨k, (Reachable.fresh _ _).performAll performed, limit, alive⟩

end ThreadKernel
