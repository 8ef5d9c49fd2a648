import ThreadKernel.Proofs.EveryRun
import ThreadKernel.Proofs.Progress

/-!
# What a donation does

A donation walks from the current thread to the holder that it waits for, from there to the one
that the holder waits for, and so on, and raises each to the priority of the one before it.  The
holders may wait for each other in a circle.

Nothing that the walk changes says who waits for whom, so the way is known beforehand (`walk`), and
so are the priorities in the end (`raiseAlong`).  `Lent` is what one walk changes, and `Lent.cons`
adds a holder at its start.  A holder that is ready waits for nobody: it is the last that the walk
comes to, and the only one that may have to move in the ready queue.
-/

namespace ThreadKernel

/-! ## The way -/

/-- The threads that follow `start`, at most `n` of them. -/
def walk (next : ThreadId → Option ThreadId) : Nat → ThreadId → List ThreadId
  | 0, _ => []
  | n + 1, start => (next start).elim [] fun holder => holder :: walk next n holder

section Way

variable {next : ThreadId → Option ThreadId} {n : Nat} {start holder v : ThreadId}

theorem walk_of_none (last : next start = none) : walk next (n + 1) start = [] := by
  rw [walk, last, Option.elim_none]

theorem walk_of_some (step : next start = some holder) :
    walk next (n + 1) start = holder :: walk next n holder := by
  rw [walk, step, Option.elim_some]

/-- Where the way goes on is one step, and where it does not it is over. -/
theorem walk_induction (next : ThreadId → Option ThreadId)
    {motive : Nat → ThreadId → List ThreadId → Prop}
    (stop : ∀ start, motive 0 start [])
    (last : ∀ n start, next start = none → motive (n + 1) start [])
    (step : ∀ n start holder, next start = some holder →
      motive n holder (walk next n holder) → motive (n + 1) start (holder :: walk next n holder))
    (n : Nat) (start : ThreadId) : motive n start (walk next n start) := by
  induction n generalizing start with
  | zero => exact stop start
  | succ n ih =>
    cases blocks : next start with
    | none =>
      rw [walk_of_none blocks]
      exact last n start blocks
    | some holder =>
      rw [walk_of_some blocks]
      exact step n start holder blocks (ih holder)

theorem length_walk_le (next : ThreadId → Option ThreadId) (n : Nat) (start : ThreadId) :
    (walk next n start).length ≤ n :=
  walk_induction next (motive := fun n _ path => path.length ≤ n) (fun _ => Nat.le_refl 0)
    (fun _ _ _ => Nat.zero_le _) (fun _ _ _ _ ih => Nat.succ_le_succ ih) n start

theorem isChain_walk (next : ThreadId → Option ThreadId) (n : Nat) (start : ThreadId) :
    (start :: walk next n start).IsChain fun waiter holder => next waiter = some holder :=
  walk_induction next
    (motive := fun _ start path => (start :: path).IsChain fun waiter holder =>
      next waiter = some holder)
    (fun _ => .singleton _) (fun _ _ _ => .singleton _)
    (fun _ _ _ blocks ih => .cons_cons blocks ih) n start

/-- A walk that is not cut short ends where nobody follows. -/
theorem next_last_of_length_walk_lt (short : (walk next n start).length < n) :
    ∀ last ∈ (start :: walk next n start).getLast?, next last = none := by
  refine walk_induction next (motive := fun n start path => path.length < n →
    ∀ last ∈ (start :: path).getLast?, next last = none) ?_ ?_ ?_ n start short
  · exact fun _ short => absurd short (Nat.not_lt_zero _)
  · rintro _ start ends _ last ⟨⟩
    exact ends
  · intro n start holder _ ih short last member
    rw [List.getLast?_cons_cons] at member
    exact ih (Nat.lt_of_succ_lt_succ short) last member

/-- Whom nobody follows is the last. -/
theorem getLast?_walk_of_mem (member : v ∈ walk next n start) (ends : next v = none) :
    (walk next n start).getLast? = some v := by
  refine walk_induction next (motive := fun _ _ path => v ∈ path →
    path.getLast? = some v) ?_ ?_ ?_ n start member
  · exact fun _ => nofun
  · exact fun _ _ _ => nofun
  · intro n start holder _ ih member
    rcases List.mem_cons.mp member with rfl | later
    · cases n with
      | zero => rfl
      | succ n => rw [walk_of_none ends, List.getLast?_singleton]
    · have last := ih later
      cases rest : walk next n holder with
      | nil =>
        rw [rest] at later
        cases later
      | cons second rest' => rwa [List.getLast?_cons_cons, ← rest]

end Way

/-! ## Priorities along the way -/

/-- The priorities once each thread of a path was raised to the priority of the one before it,
`donor` before the first. -/
def raiseAlong (price : ThreadId → Priority) (donor : ThreadId) :
    List ThreadId → ThreadId → Priority
  | [] => price
  | holder :: rest =>
    raiseAlong (Function.update price holder (max (price donor) (price holder))) holder rest

section Prices

variable {price : ThreadId → Priority} {donor holder u v : ThreadId} {path : List ThreadId}

theorem le_raise (price : ThreadId → Priority) (donor holder v : ThreadId) :
    price v ≤ Function.update price holder (max (price donor) (price holder)) v := by
  rw [Function.update_apply]
  split
  · next here => exact here ▸ Nat.le_max_right _ _
  · exact Nat.le_refl _

theorem le_raiseAlong (price : ThreadId → Priority) (donor : ThreadId) (path : List ThreadId)
    (v : ThreadId) : price v ≤ raiseAlong price donor path v := by
  induction path generalizing price donor with
  | nil => exact Nat.le_refl _
  | cons holder rest ih => exact Nat.le_trans (le_raise price donor holder v) (ih _ _)

theorem raiseAlong_of_not_mem (absent : v ∉ path) : raiseAlong price donor path v = price v := by
  induction path generalizing price donor with
  | nil => rfl
  | cons holder rest ih =>
    rcases not_or.mp (mt List.mem_cons.mpr absent) with ⟨other, absent⟩
    rw [raiseAlong, ih absent, Function.update_of_ne other]

theorem raiseAlong_append (price : ThreadId → Priority) (donor : ThreadId)
    (front : List ThreadId) (v : ThreadId) (back : List ThreadId) :
    raiseAlong price donor (front ++ v :: back) =
      raiseAlong (raiseAlong price donor (front ++ [v])) v back := by
  induction front generalizing price donor with
  | nil => rfl
  | cons holder rest ih => exact ih _ _

/-- The priority handed on never sinks. -/
theorem le_raiseAlong_of_mem (member : v ∈ path) : price donor ≤ raiseAlong price donor path v := by
  induction path generalizing price donor with
  | nil => cases member
  | cons holder rest ih =>
    have lent : price donor ≤
        Function.update price holder (max (price donor) (price holder)) holder := by
      rw [Function.update_self]
      exact Nat.le_max_left _ _
    by_cases later : v ∈ rest
    · exact Nat.le_trans lent (ih later)
    · have here := (List.mem_cons.mp member).resolve_right later
      rw [raiseAlong, raiseAlong_of_not_mem later, here]
      exact lent

/-- Whatever priority a thread is raised to was somebody's on the way. -/
theorem exists_raiseAlong_eq (price : ThreadId → Priority) (donor : ThreadId)
    (member : v ∈ path) : ∃ u ∈ donor :: path, raiseAlong price donor path v = price u := by
  induction path generalizing price donor with
  | nil => cases member
  | cons holder rest ih =>
    -- the priority of `u` after the first step is that of `u` or of `donor` before it
    have first : ∀ u ∈ holder :: rest, ∃ w ∈ donor :: holder :: rest,
        Function.update price holder (max (price donor) (price holder)) u = price w := by
      intro u listed
      rw [Function.update_apply]
      split
      · next here =>
        rcases Nat.le_total (price donor) (price holder) with le | le
        · exact ⟨holder, by simp, Nat.max_eq_right le⟩
        · exact ⟨donor, by simp, Nat.max_eq_left le⟩
      · exact ⟨u, List.mem_cons_of_mem _ listed, rfl⟩
    by_cases later : v ∈ rest
    · rcases ih (Function.update price holder (max (price donor) (price holder))) holder later
        with ⟨u, listed, same⟩
      rcases first u listed with ⟨w, onWay, equal⟩
      exact ⟨w, onWay, same.trans equal⟩
    · rw [raiseAlong, raiseAlong_of_not_mem later]
      exact first v member

/-- Nobody who comes before the last thread of a path is above it in the end. -/
theorem le_raiseAlong_last {front : List ThreadId} (member : u ∈ donor :: (front ++ [v])) :
    price u ≤ raiseAlong price donor (front ++ [v]) v := by
  induction front generalizing price donor with
  | nil =>
    rcases List.mem_cons.mp member with rfl | member
    · exact le_raiseAlong_of_mem (List.mem_cons_self ..)
    · rw [List.mem_singleton.mp member]
      exact le_raiseAlong price donor [v] v
  | cons holder rest ih =>
    rcases List.mem_cons.mp member with rfl | later
    · exact le_raiseAlong_of_mem (by simp)
    · exact Nat.le_trans (le_raise price donor holder u) (ih later)

/-- On a way that does not come by `v` again, `v` gets the highest priority that there was before
it and at it. -/
theorem isGreatest_raiseAlong {front back : List ThreadId} (fresh : v ∉ back) :
    IsGreatest (price '' {u | u ∈ donor :: (front ++ [v])})
      (raiseAlong price donor (front ++ v :: back) v) := by
  rw [raiseAlong_append, raiseAlong_of_not_mem fresh]
  constructor
  · have member : v ∈ front ++ [v] := List.mem_append_right _ (List.mem_singleton_self v)
    rcases exists_raiseAlong_eq price donor member with ⟨u, listed, same⟩
    exact ⟨u, listed, same.symm⟩
  · rintro _ ⟨u, listed, rfl⟩
    exact le_raiseAlong_last listed

end Prices

/-! ## The walk itself -/

namespace Kernel

variable {k k' k'' : Kernel} {t donor holder : ThreadId} {path : List ThreadId} {u : Unit}

/-- Where the record of `t` says that it is. -/
def place? (k : Kernel) (t : ThreadId) : Option Place := (k.threads.get? t).map Thread.place

/-- Each thread of `path` has been raised to the priority of the one before it, and a queued one
has been moved to where it belongs then. -/
structure Lent (k : Kernel) (donor : ThreadId) (path : List ThreadId) (k' : Kernel) : Prop where
  prices : k'.priorityOf = raiseAlong k.priorityOf donor path
  repriced : k.Repriced k'
  others : ∀ t ∉ path, k'.threads.get? t = k.threads.get? t
  moved : ∀ t ∈ path, k.place? t = some .ready → k'.ready =
    if k.priorityOf t < k'.priorityOf t then k.ready.reprioritize t (k'.priorityOf t) else k.ready
  unmoved : (∀ t ∈ path, k.place? t ≠ some .ready) → k'.ready = k.ready

theorem Repriced.place? (repriced : k.Repriced k') (t : ThreadId) : k'.place? t = k.place? t :=
  repriced.view Thread.place (fun _ => rfl) t

theorem Lent.refl (k : Kernel) (donor : ThreadId) : k.Lent donor [] k where
  prices := rfl
  repriced := .refl k
  others _ _ := rfl
  moved _ := nofun
  unmoved _ := rfl

theorem Lent.truncated (start : ThreadId) (visited : List ThreadId) (beyond : ThreadId) :
    k.Lent donor [] (k.withEvents (.truncated start visited beyond :: k.events)) where
  prices := rfl
  repriced := ⟨Arena.Agree.refl _ _, rfl, .refl _, rfl, .cons _ _ rfl⟩
  others _ _ := rfl
  moved _ := nofun
  unmoved _ := rfl

/-- A holder that is not below the donor stays as it is. -/
theorem Lent.above (above : k.priorityOf donor ≤ k.priorityOf holder) :
    k.Lent donor [holder] k where
  prices := by rw [raiseAlong, raiseAlong, Nat.max_eq_right above, Function.update_eq_self]
  repriced := .refl k
  others _ _ := rfl
  moved t _ _ := by rw [if_neg (Nat.lt_irrefl _)]
  unmoved _ := rfl

theorem Lent.below (below : k.priorityOf holder < k.priorityOf donor)
    (h : (setEffective holder (k.priorityOf donor)).run
      (k.withEvents (.donates donor (k.priorityOf donor) holder :: k.events)) = .ok ((), k')) :
    k.Lent donor [holder] k' := by
  have noted : k.Repriced (k.withEvents (.donates donor (k.priorityOf donor) holder :: k.events)) :=
    ⟨Arena.Agree.refl _ _, rfl, .refl _, rfl, .cons _ _ rfl⟩
  have set := priorityOf_of_run_setEffective h
  have prices : ∀ v, k'.priorityOf v =
      if holder = v then k.priorityOf donor else k.priorityOf v := set
  rcases of_run_setEffective h with ⟨thread, found, same⟩
  have place : k.place? holder = some thread.place := by
    rw [Kernel.place?]
    exact congrArg (Option.map Thread.place) found
  constructor
  case prices =>
    funext v
    rw [prices, raiseAlong, raiseAlong, Function.update_apply, Nat.max_eq_left (Nat.le_of_lt below)]
    simp only [eq_comm]
  case repriced => exact noted.trans (repriced_of_setEffective h)
  case others =>
    intro t other
    rw [same, withReady_threads, mapThread_threads,
      Arena.get?_modify_of_ne _ (Ne.symm (mt List.mem_singleton.mpr other)), withEvents_threads]
  case moved =>
    intro t member queued
    cases List.mem_singleton.mp member
    have ready : thread.place = .ready := Option.some.inj (place.symm.trans queued)
    rw [prices, if_pos rfl, if_pos below, same, withReady_ready, if_pos ready]
    rfl
  case unmoved =>
    intro elsewhere
    have unqueued : thread.place ≠ .ready := fun queued =>
      elsewhere holder (List.mem_singleton.mpr rfl) (place.trans (congrArg some queued))
    rw [same, withReady_ready, if_neg unqueued]
    rfl

/-- After one holder come those that follow it, nobody if it is queued to run. -/
theorem Lent.cons (first : k.Lent donor [holder] k') (rest : k'.Lent holder path k'')
    (last : k.place? holder = some .ready → path = []) : k.Lent donor (holder :: path) k'' where
  prices := by
    rw [rest.prices, first.prices]
    rfl
  repriced := first.repriced.trans rest.repriced
  others t other := by
    rcases not_or.mp (mt List.mem_cons.mpr other) with ⟨apart, other⟩
    rw [rest.others t other, first.others t (mt List.mem_singleton.mp apart)]
  moved t member queued := by
    by_cases here : t = holder
    · subst here
      cases last queued
      rw [rest.unmoved (List.forall_mem_nil _),
        show k''.priorityOf = k'.priorityOf from rest.prices]
      exact first.moved t (List.mem_singleton.mpr rfl) queued
    · have later := (List.mem_cons.mp member).resolve_left here
      have unqueued : k.place? holder ≠ some .ready := by
        intro queued
        rw [last queued] at later
        cases later
      have price : k'.priorityOf t = k.priorityOf t := by
        rw [first.prices]
        exact raiseAlong_of_not_mem (mt List.mem_singleton.mp here)
      rw [rest.moved t later ((first.repriced.place? t).trans queued), price,
        first.unmoved (List.forall_mem_singleton.mpr unqueued)]
  unmoved elsewhere := by
    rcases List.forall_mem_cons.mp elsewhere with ⟨unqueued, elsewhere⟩
    rw [rest.unmoved fun t member => first.repriced.place? t ▸ elsewhere t member,
      first.unmoved (List.forall_mem_singleton.mpr unqueued)]

theorem Hop.lent (hop : k.Hop donor holder k') : k.Lent donor [holder] k' := by
  cases hop with
  | raised below ran => exact .below below ran
  | passed above => exact .above above

/-- A donation lends along the way that was there when it began. -/
theorem Walks.lent {start : ThreadId} {n : Nat} {visited : List ThreadId}
    (walks : Walks start n visited donor k k')
    (rests : ∀ t, k.place? t = some .ready → k.blockingHolder t = none) :
    k.Lent donor (walk k.blockingHolder n donor) k' := by
  induction walks with
  | @ended n _ _ _ last =>
    cases n with
    | zero => exact .refl _ _
    | succ n =>
      rw [walk_of_none last]
      exact .refl _ _
  | truncated => exact .truncated _ _ _
  | @hop n _ _ holder k next _ blocks hop _ ih =>
    have links : next.blockingHolder = k.blockingHolder := funext hop.blockingHolder
    have rest := ih fun t queued => by
      rw [links]
      exact rests t ((hop.lent.repriced.place? t).symm.trans queued)
    rw [links] at rest
    rw [walk_of_some blocks]
    refine hop.lent.cons rest fun queued => ?_
    cases n with
    | zero => rfl
    | succ n => exact walk_of_none (rests holder queued)

/-! ## A donation -/

theorem Placement.mem_threads (placed : k.Placement) :
    t ∈ k.ready.threads ↔ k.place? t = some .ready := by
  refine (placed.ready t).trans ⟨?_, fun queued => ?_⟩
  · rintro ⟨thread, found, _, place⟩
    rw [Kernel.place?, found, Option.map_some, place]
  · rcases Option.map_eq_some_iff.mp queued with ⟨thread, found, place⟩
    exact ⟨thread, found, (placed.ready_iff t thread found).mpr place, place⟩

/-- Whoever is ready waits for no lock. -/
theorem blockingHolder_eq_none {thread : Thread} (found : k.threads.get? t = some thread)
    (ready : thread.state = .ready) : k.blockingHolder t = none := by
  rw [Option.eq_none_iff_forall_ne_some]
  intro holder blocks
  rcases blockingHolder_eq_some_iff.mp blocks with ⟨thread', _, found', unready, _⟩
  cases found.symm.trans found'
  exact unready ready

theorem Placement.blockingHolder_eq_none (placed : k.Placement)
    (queued : k.place? t = some .ready) : k.blockingHolder t = none := by
  rcases Option.map_eq_some_iff.mp queued with ⟨thread, found, place⟩
  exact Kernel.blockingHolder_eq_none found ((placed.ready_iff t thread found).mpr place)

/-- What a donation does on its way along the holders `visited`. -/
structure Donation (k : Kernel) (visited : List ThreadId) (k' : Kernel) : Prop where
  bounded : visited.length ≤ k.config.donationDepth
  /-- Each is the holder that the one before waits for, the current thread before the first. -/
  linked : (k.current :: visited).IsChain fun waiter holder =>
    k.blockingHolder waiter = some holder
  /-- A walk that is not cut short ends with one that waits for nobody. -/
  complete : visited.length < k.config.donationDepth →
    ∀ last ∈ (k.current :: visited).getLast?, k.blockingHolder last = none
  raises : ∀ t, k.priorityOf t ≤ k'.priorityOf t
  lends : ∀ t ∈ visited, k.priorityOf k.current ≤ k'.priorityOf t
  /-- A priority that a holder has in the end is one that was there on the way. -/
  borrows : ∀ t ∈ visited, ∃ lender ∈ k.current :: visited, k'.priorityOf t = k.priorityOf lender
  /-- On a way without repetition, each gets the highest priority that there was up to it. -/
  greatest : (k.current :: visited).Nodup → ∀ front t back, visited = front ++ t :: back →
    IsGreatest (k.priorityOf '' {u | u ∈ k.current :: (front ++ [t])}) (k'.priorityOf t)
  others : ∀ t, t ∉ visited → k'.threads.get? t = k.threads.get? t
  /-- Priorities, the order of the ready queue and the journal apart, nothing changes. -/
  repriced : k.Repriced k'
  priced : ∀ entry ∈ k'.ready.entries, entry.2 = k'.priorityOf entry.1
  /-- A holder that is raised while it is ready is moved behind all that are not lower, and
  ahead of all that are.  The others keep their order. -/
  moved : ∀ t ∈ visited, t ∈ k.ready.threads → k.priorityOf t < k'.priorityOf t →
    ∃ front back, (k.ready.erase t).entries = front ++ back ∧
      k'.ready.entries = front ++ (t, k'.priorityOf t) :: back ∧
      (∀ entry ∈ front, k'.priorityOf t ≤ entry.2) ∧
      ∀ entry ∈ back, entry.2 < k'.priorityOf t
  unmoved : (∀ t ∈ visited, t ∈ k.ready.threads → k'.priorityOf t = k.priorityOf t) →
    k'.ready = k.ready

/-- At most one of those that a walk comes by is queued to run. -/
theorem Placement.sole (placed : k.Placement) {n : Nat} {start t t' : ThreadId}
    (member : t ∈ walk k.blockingHolder n start) (queued : k.place? t = some .ready)
    (member' : t' ∈ walk k.blockingHolder n start) (queued' : k.place? t' = some .ready) :
    t = t' := by
  have last := getLast?_walk_of_mem member (placed.blockingHolder_eq_none queued)
  have last' := getLast?_walk_of_mem member' (placed.blockingHolder_eq_none queued')
  exact Option.some.inj (last.symm.trans last')

section Queue

variable {n : Nat} (placed : k.Placement) (lent : k.Lent donor (walk k.blockingHolder n donor) k')

include placed lent

theorem Lent.ready_of_raised (member : t ∈ walk k.blockingHolder n donor)
    (queued : t ∈ k.ready.threads) (raised : k.priorityOf t < k'.priorityOf t) :
    k'.ready = k.ready.reprioritize t (k'.priorityOf t) := by
  rw [lent.moved t member (placed.mem_threads.mp queued), if_pos raised]

theorem Lent.ready_of_level (level : ∀ t ∈ walk k.blockingHolder n donor, t ∈ k.ready.threads →
    k'.priorityOf t = k.priorityOf t) : k'.ready = k.ready := by
  by_cases passes : ∃ t ∈ walk k.blockingHolder n donor, k.place? t = some .ready
  · rcases passes with ⟨t, member, queued⟩
    rw [lent.moved t member queued, level t member (placed.mem_threads.mpr queued),
      if_neg (Nat.lt_irrefl _)]
  · exact lent.unmoved fun t member queued => passes ⟨t, member, queued⟩

/-- Only the thread that is moved is queued with another priority than before. -/
theorem Lent.priced : ∀ entry ∈ k'.ready.entries, entry.2 = k'.priorityOf entry.1 := by
  intro entry listed
  by_cases raises : ∃ t ∈ walk k.blockingHolder n donor, t ∈ k.ready.threads ∧
      k.priorityOf t < k'.priorityOf t
  · rcases raises with ⟨t, member, queued, raised⟩
    rw [lent.ready_of_raised placed member queued raised] at listed
    rcases ReadyQueue.mem_entries_reprioritize (placed.once .ready) listed with rfl | ⟨old, apart⟩
    · rfl
    · have aside : entry.1 ∉ walk k.blockingHolder n donor := fun passed => apart
        (placed.sole passed (placed.mem_threads.mp (ReadyQueue.mem_threads_of_mem_entries old))
          member (placed.mem_threads.mp queued))
      rw [placed.priced entry old, lent.prices, raiseAlong_of_not_mem aside]
  · have level : ∀ t ∈ k.ready.threads, k'.priorityOf t = k.priorityOf t := by
      intro t queued
      by_cases member : t ∈ walk k.blockingHolder n donor
      · apply Nat.le_antisymm
        · exact Nat.le_of_not_lt fun raised => raises ⟨t, member, queued, raised⟩
        · exact lent.prices ▸ le_raiseAlong _ _ _ t
      · rw [lent.prices, raiseAlong_of_not_mem member]
    rw [lent.ready_of_level placed fun t _ queued => level t queued] at listed
    rw [level _ (ReadyQueue.mem_threads_of_mem_entries listed)]
    exact placed.priced entry listed

end Queue

/-- A donation ends, wherever the threads are where they are said to be. -/
theorem donation_walk (placed : k.Placement) : ∃ visited k',
    donate.run k = .ok ((), k') ∧ k.Donation visited k' := by
  rcases succeeds_donate k with ⟨⟨_, k'⟩, ran⟩
  have lent : k.Lent k.current (walk k.blockingHolder k.config.donationDepth k.current) k' :=
    (of_run_donate ran).lent fun _ => placed.blockingHolder_eq_none
  refine ⟨walk k.blockingHolder k.config.donationDepth k.current, k', ran, ?_⟩
  constructor
  case bounded => exact length_walk_le _ _ _
  case linked => exact isChain_walk _ _ _
  case complete => exact next_last_of_length_walk_lt
  case others => exact lent.others
  case repriced => exact lent.repriced
  case raises =>
    intro t
    rw [lent.prices]
    exact le_raiseAlong _ _ _ t
  case lends =>
    intro t member
    rw [lent.prices]
    exact le_raiseAlong_of_mem member
  case borrows =>
    intro t member
    rw [lent.prices]
    exact exists_raiseAlong_eq _ _ member
  case greatest =>
    intro distinct front t back way
    rw [lent.prices]
    rw [way] at distinct ⊢
    have later := (List.nodup_append.mp (List.nodup_cons.mp distinct).2).2.1
    exact isGreatest_raiseAlong (List.nodup_cons.mp later).1
  case priced => exact lent.priced placed
  case unmoved => exact lent.ready_of_level placed
  case moved =>
    intro t member queued raised
    rw [lent.ready_of_raised placed member queued raised]
    apply ReadyQueue.entries_reprioritize placed.ordered queued
    rintro entry listed rfl
    rwa [← placed.priced entry listed] at raised

/-- Whether threads are where they are said to be is a matter of their states, places and
priorities. -/
theorem Placement.mapThread {f : Thread → Thread} (placed : k.Placement)
    (keeps : ∀ x, ((f x).state, (f x).place, (f x).priority) = (x.state, x.place, x.priority)) :
    (k.mapThread t f).Placement := by
  have records : Arena.Agree (fun x : Thread => (x.state, x.place, x.priority))
      (k.mapThread t f).threads k.threads := Arena.agree_modify keeps
  have old : ∀ {u thread}, (k.mapThread t f).threads.get? u = some thread → ∃ old,
      k.threads.get? u = some old ∧ old.state = thread.state ∧ old.place = thread.place := by
    intro u thread found
    rcases records.exists_get? found with ⟨old, foundOld, same⟩
    simp only [Prod.mk.injEq] at same
    exact ⟨old, foundOld, same.1, same.2.1⟩
  have listed : ∀ {P : RunState → Place → Prop} {p u}, (u ∈ k.queueAt p ↔
      ∃ thread, k.threads.get? u = some thread ∧ P thread.state thread.place) →
      (u ∈ (k.mapThread t f).queueAt p ↔ ∃ thread,
        (k.mapThread t f).threads.get? u = some thread ∧ P thread.state thread.place) := by
    intro P p u before
    rw [queueAt_mapThread, before]
    constructor
    · rintro ⟨thread, found, holds⟩
      rcases records.symm.exists_get? found with ⟨new, foundNew, same⟩
      simp only [Prod.mk.injEq] at same
      exact ⟨new, foundNew, by rwa [same.1, same.2.1]⟩
    · rintro ⟨thread, found, holds⟩
      rcases old found with ⟨old, foundOld, state, place⟩
      exact ⟨old, foundOld, by rwa [state, place]⟩
  constructor
  case running =>
    rcases placed.running with ⟨thread, found, running, detached⟩
    rcases records.symm.exists_get? found with ⟨new, foundNew, same⟩
    simp only [Prod.mk.injEq] at same
    exact ⟨new, foundNew, same.1.trans running, same.2.1.trans detached⟩
  case alone =>
    intro u thread found running
    rcases old found with ⟨old, foundOld, state, _⟩
    exact placed.alone u old foundOld (state.trans running)
  case ready => exact fun u => listed (P := fun s p => s = .ready ∧ p = .ready) (placed.ready u)
  case sleep => exact fun u => listed (P := fun s p => s = .blocked ∧ p = .sleep) (placed.sleep u)
  case semaphore =>
    exact fun s u => listed (P := fun state p => state = .blocked ∧ p = .semaphore s)
      (placed.semaphore s u)
  case ready_iff =>
    intro u thread found
    rcases old found with ⟨old, foundOld, state, place⟩
    rw [← state, ← place]
    exact placed.ready_iff u old foundOld
  case once => exact fun p => queueAt_mapThread k t f p ▸ placed.once p
  case priced =>
    intro entry queued
    rw [priorityOf_of_agree (records.coarsen fun view => view.2.2)]
    exact placed.priced entry queued
  case ordered => exact placed.ordered
  case unlisted =>
    intro u thread found gone p
    rcases old found with ⟨old, foundOld, state, _⟩
    rw [queueAt_mapThread]
    exact placed.unlisted u old foundOld (gone.imp_left state.trans) p

/-- The initial thread comes to wait for a lock whose holder is ready, and behind another thread in
the ready queue. -/
theorem donation_walk_of_ready_holder : ∃ k asking visited k',
    Reachable { idleNeverWaits := true, idleSpared := true } k ∧
    asking = k.mapThread k.current (fun thread => { thread with waitingOn := some ⟨0⟩ }) ∧
    asking.Placement ∧ donate.run asking = .ok ((), k') ∧ asking.Donation visited k' ∧
    asking.ready.entries = [(⟨4⟩, 20), (⟨3⟩, 10)] ∧ k'.ready.entries = [(⟨3⟩, 31), (⟨4⟩, 20)] := by
  have ran : (Discipline.performAll { idleNeverWaits := true, idleSpared := true }
      [.start, .createLock, .spawn { priority := 40 }, .acquire ⟨0⟩, .setPriority 10,
        .spawn { priority := 20 }] (.fresh {} .stable)).bind (fun k =>
      let asking := k.mapThread k.current fun thread => { thread with waitingOn := some ⟨0⟩ }
      (donate.run asking).toOption.map fun donated =>
        (asking.ready.entries, donated.2.ready.entries)) =
      some ([(⟨4⟩, 20), (⟨3⟩, 10)], [(⟨3⟩, 31), (⟨4⟩, 20)]) := by decide +kernel
  rcases Option.bind_eq_some_iff.mp ran with ⟨k, performed, rest⟩
  rcases Option.map_eq_some_iff.mp rest with ⟨⟨_, donated⟩, donates, told⟩
  rcases Prod.mk.inj told with ⟨before, after⟩
  have reachable := (Reachable.fresh {} .stable).performAll performed
  have placed : Placement (k.mapThread k.current fun thread =>
      { thread with waitingOn := some ⟨0⟩ }) :=
    (placement reachable ⟨rfl, rfl⟩).mapThread fun _ => rfl
  rcases donation_walk placed with ⟨visited, k', walks, donation⟩
  cases (ok_of_toOption donates).symm.trans walks
  exact ⟨k, _, visited, donated, reachable, rfl, placed, walks, donation, before, after⟩

end Kernel

end ThreadKernel
