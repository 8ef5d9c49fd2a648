import Mathlib.Data.Set.Card
import ThreadKernel.Proofs.WaitGraph

/-!
# Effective priorities

A thread's effective priority lies between its base and the largest of its base
and its donors' effective priorities, and equals the latter as long as no
donation stopped short of a holder.

* `Fair`: the invariant, and `Fair.move`: each move keeps it.
* `Walks.settled`: the walk of a donation leaves no donor above the
  thread it donates to.
* `lossless_donate_iff`: a donation stops short exactly when more holders are on
  its chain than it may walk through.
-/

namespace ThreadKernel

namespace Kernel

/-- Whenever a donation ran out of depth, it had walked in a circle already. -/
def Lossless (k : Kernel) : Prop :=
  ∀ start visited beyond, .truncated start visited beyond ∈ k.events → beyond ∈ visited

instance (k : Kernel) : Decidable k.Lossless :=
  decidable_of_iff (∀ event ∈ k.events, (match event with
    | .truncated _ visited beyond => visited.contains beyond
    | _ => true) = true) <| by
    constructor
    · exact fun all start visited beyond member => List.contains_iff_mem.mp (all _ member)
    · intro lossless event member
      split
      · exact List.contains_iff_mem.mpr (lossless _ _ _ member)
      · rfl

/-- The law of effective priorities. -/
structure Fair (k : Kernel) : Prop where
  base_le : ∀ t thread, k.threads.get? t = some thread → thread.base ≤ thread.priority
  le_fair : ∀ t thread, k.threads.get? t = some thread → thread.priority ≤ k.fairPriority thread
  fair_le : k.Lossless → ∀ t thread, k.threads.get? t = some thread →
    k.fairPriority thread ≤ thread.priority

variable {k k' : Kernel} {t : ThreadId} {thread : Thread} {u : Unit}

theorem Lossless.of_suffix (lossless : k'.Lossless) (grown : k.events <:+ k'.events) :
    k.Lossless :=
  fun start visited beyond member => lossless start visited beyond (grown.subset member)

/-! ## The walk of a donation -/

theorem blockingHolder_of_run_setEffective {p : Priority}
    (h : (setEffective t p).run k = .ok ((), k')) (d : ThreadId) :
    k'.blockingHolder d = k.blockingHolder d := by
  have repriced := repriced_of_setEffective h
  refine blockingHolder_congr (repriced.view (fun x => (x.state, x.waitingOn)) (fun _ => rfl) d)
    (fun l => ?_) fun g => ?_
  · rw [holder?, repriced.locks, holder?]
  · obtain ⟨_, _, rfl⟩ := of_run_setEffective h
    exact Arena.contains_modify _ _ _ _

theorem Linked.of_run_setEffective {p : Priority} (linked : k.Linked)
    (h : (setEffective t p).run k = .ok ((), k')) : k'.Linked := by
  intro g thread' found' d
  obtain ⟨thread, found, same⟩ :=
    ((repriced_of_setEffective h).view (fun x => x.donors) fun _ => rfl).exists_get? found'
  rw [← same, linked g thread found d, blockingHolder_of_run_setEffective h]

theorem linked_withEvents {events : List Event} (linked : k.Linked) :
    (k.withEvents events).Linked := linked

/-- No thread outranks the thread it is linked to, `donor` apart. -/
def SettledBut (k : Kernel) (donor : ThreadId) : Prop :=
  ∀ d h, k.blockingHolder d = some h → d ≠ donor → k.priorityOf d ≤ k.priorityOf h

/-- `donor`, that a donation has come to, is not above the thread it is linked to, or all that were
visited have been raised to its priority. -/
def Leveled (k : Kernel) (visited : List ThreadId) (donor : ThreadId) : Prop :=
  (∀ h, k.blockingHolder donor = some h → k.priorityOf donor ≤ k.priorityOf h) ∨
    ∀ v ∈ visited, k.priorityOf v = k.priorityOf donor

/-- Who is left behind by a hop is settled. -/
theorem Hop.settled {donor holder : ThreadId} {visited : List ThreadId}
    (hop : k.Hop donor holder k') (blocks : k.blockingHolder donor = some holder)
    (settled : k.SettledBut donor) (leveled : k.Leveled visited donor) :
    k'.SettledBut holder ∧ k'.Leveled (holder :: visited) holder := by
  cases hop with
  | raised below ran =>
    have links := blockingHolder_of_run_setEffective ran
    have prices : ∀ v, k'.priorityOf v =
        if holder = v then k.priorityOf donor else k.priorityOf v :=
      priorityOf_of_run_setEffective
        (k := k.withEvents (.donates donor (k.priorityOf donor) holder :: k.events)) ran
    refine ⟨fun d g blocked other => ?_, .inr fun v seen => ?_⟩
    · rw [links] at blocked
      rw [prices, prices, if_neg (Ne.symm other)]
      by_cases here : d = donor
      · subst here
        cases blocks.symm.trans blocked
        rw [if_pos rfl]
      · have before := settled d g blocked here
        split
        · next raised => exact Nat.le_trans before (raised ▸ Nat.le_of_lt below)
        · exact before
    · have equal : ∀ v ∈ visited, k.priorityOf v = k.priorityOf donor := by
        obtain above | equal := leveled
        · exact absurd (above holder blocks) (Nat.not_le_of_lt below)
        · exact equal
      rw [prices, prices, if_pos rfl]
      split
      · rfl
      · next other =>
        obtain here | seen := List.mem_cons.mp seen
        · exact absurd here.symm other
        · exact equal v seen
  | passed above =>
    have all : ∀ d g, k.blockingHolder d = some g → k.priorityOf d ≤ k.priorityOf g := by
      intro d g links
      by_cases here : d = donor
      · subst here
        cases blocks.symm.trans links
        exact above
      · exact settled d g links here
    exact ⟨fun d g links _ => all d g links, .inl fun g links => all holder g links⟩

/-- A donation that ran out of depth only after it had come full circle leaves no
thread above the one it is linked to. -/
theorem Walks.settled {start : ThreadId} {depth : Nat} {visited : List ThreadId}
    {donor : ThreadId} (walks : Walks start depth visited donor k k')
    (settled : k.SettledBut donor) (leveled : k.Leveled visited donor) (lossless : k'.Lossless) :
    ∀ d h, k'.blockingHolder d = some h → k'.priorityOf d ≤ k'.priorityOf h := by
  induction walks with
  | ended last =>
    intro d g links
    refine settled d g links fun here => ?_
    rw [here, last] at links
    cases links
  | @truncated visited donor beyond k blocks =>
    have seen := lossless start visited.reverse beyond List.mem_cons_self
    rw [List.mem_reverse] at seen
    intro d g links
    by_cases here : d = donor
    · subst here
      obtain below | equal := leveled
      · exact below g links
      · cases blocks.symm.trans links
        exact Nat.le_of_eq (equal _ seen).symm
    · exact settled d g links here
  | hop blocks hop _ ih =>
    obtain ⟨settled, leveled⟩ := hop.settled blocks settled leveled
    exact ih settled leveled lossless

/-- The part of the law that a donation keeps at every step. -/
structure Bounded (k : Kernel) : Prop where
  base_le : ∀ t thread, k.threads.get? t = some thread → thread.base ≤ thread.priority
  le_fair : ∀ t thread, k.threads.get? t = some thread → thread.priority ≤ k.fairPriority thread

/-- Raising a thread to the priority of one of its donors keeps the bounds. -/
theorem Bounded.raise {donor holder : ThreadId} (bounded : k.Bounded) (linked : k.Linked)
    (blocks : k.blockingHolder donor = some holder)
    (below : k.priorityOf holder < k.priorityOf donor)
    (h : (setEffective holder (k.priorityOf donor)).run k = .ok ((), k')) : k'.Bounded := by
  have prices := priorityOf_of_run_setEffective h
  have grows : ∀ v, k.priorityOf v ≤ k'.priorityOf v := by
    intro v
    rw [prices]
    split
    · next here => exact Nat.le_of_lt (here ▸ below)
    · exact Nat.le_refl _
  have records : ∀ t thread', k'.threads.get? t = some thread' → ∃ thread,
      k.threads.get? t = some thread ∧ thread'.base = thread.base ∧
        thread'.donors = thread.donors := by
    intro t thread' found'
    obtain ⟨thread, found, same⟩ := ((repriced_of_setEffective h).view
      (fun x => (x.base, x.donors)) fun _ => rfl).exists_get? found'
    obtain ⟨base, donors⟩ := Prod.mk.inj same
    exact ⟨thread, found, base.symm, donors.symm⟩
  constructor
  case base_le =>
    intro t thread' found'
    obtain ⟨thread, found, base, _⟩ := records t thread' found'
    rw [base, ← priorityOf_of_get? found']
    refine Nat.le_trans (bounded.base_le t thread found) ?_
    rw [← priorityOf_of_get? found]
    exact grows t
  case le_fair =>
    intro t thread' found'
    obtain ⟨thread, found, base, donors⟩ := records t thread' found'
    rw [← priorityOf_of_get? found', le_fairPriority_iff, base, donors, prices]
    split
    · next here =>
      subst here
      refine .inr ⟨donor, (linked holder thread found donor).mpr blocks, ?_⟩
      exact grows donor
    · rw [priorityOf_of_get? found]
      refine (le_fairPriority_iff.mp (bounded.le_fair t thread found)).imp_right ?_
      exact fun ⟨d, member, le⟩ => ⟨d, member, Nat.le_trans le (grows d)⟩

theorem Walks.bounded {start : ThreadId} {depth : Nat} {visited : List ThreadId}
    {donor : ThreadId} (walks : Walks start depth visited donor k k') (bounded : k.Bounded)
    (linked : k.Linked) : k'.Bounded ∧ k'.Linked := by
  induction walks with
  | ended => exact ⟨bounded, linked⟩
  | truncated => exact ⟨⟨bounded.base_le, bounded.le_fair⟩, linked⟩
  | @hop _ _ donor holder k _ _ blocks hop _ ih =>
    cases hop with
    | raised below ran =>
      have noted : (k.withEvents
          (.donates donor (k.priorityOf donor) holder :: k.events)).Bounded :=
        ⟨bounded.base_le, bounded.le_fair⟩
      exact ih (noted.raise linked blocks below ran)
        ((linked_withEvents linked).of_run_setEffective ran)
    | passed => exact ih bounded linked

/-- A new donor apart, a donation settles all that is owed. -/
theorem fair_of_run_donate (bounded : k.Bounded) (linked : k.Linked)
    (settled : k.Lossless → k.SettledBut k.current)
    (h : donate.run k = .ok (u, k')) : k'.Fair := by
  have walks := of_run_donate h
  obtain ⟨bounded', linked'⟩ := walks.bounded bounded linked
  refine ⟨bounded'.base_le, bounded'.le_fair, fun lossless t thread found => ?_⟩
  have before := lossless.of_suffix (repriced_of_donate h).events.suffix
  have all := walks.settled (settled before) (.inr (List.forall_mem_nil _)) lossless
  rw [fairPriority_le_iff]
  refine ⟨bounded'.base_le t thread found, fun d member => ?_⟩
  rw [← priorityOf_of_get? found]
  exact all d t ((linked' t thread found d).mp member)

/-! ## How far a donation walks -/

/-- The holders on the way from `start`. -/
def chainFrom (next : ThreadId → Option ThreadId) (start : ThreadId) : Set ThreadId :=
  {h | Relation.TransGen (fun a b => next a = some b) start h}

section Chain

variable {next : ThreadId → Option ThreadId} {start donor holder : ThreadId}
  {visited : List ThreadId}

theorem chainFrom_eq_empty (last : next donor = none) : chainFrom next donor = ∅ := by
  refine Set.eq_empty_iff_forall_notMem.mpr fun h walk => ?_
  obtain ⟨first, step, _⟩ := Relation.TransGen.head'_iff.mp walk
  cases last.symm.trans step

theorem chainFrom_eq_insert (step : next donor = some holder) :
    chainFrom next donor = insert holder (chainFrom next holder) := by
  ext h
  constructor
  · intro walk
    obtain ⟨first, step', rest⟩ := Relation.TransGen.head'_iff.mp walk
    cases step.symm.trans step'
    obtain rfl | walk := Relation.reflTransGen_iff_eq_or_transGen.mp rest
    · exact .inl rfl
    · exact .inr walk
  · rintro (rfl | walk)
    · exact .single step
    · exact .head step walk

/-- What was visited is left only through `donor`. -/
def LeftThrough (next : ThreadId → Option ThreadId) (visited : List ThreadId) (donor : ThreadId) :
    Prop :=
  ∀ v ∈ visited, v = donor ∨ ∃ w ∈ visited, next v = some w

/-- A walk that has come full circle stays in it. -/
theorem chainFrom_subset (left : LeftThrough next visited donor)
    (circle : ∀ w, next donor = some w → w ∈ visited) :
    chainFrom next donor ⊆ {v | v ∈ visited} := by
  intro h walk
  induction walk with
  | single step => exact circle _ step
  | tail _ step seen =>
    obtain here | ⟨w, member, step'⟩ := left _ seen
    · exact circle _ (here ▸ step)
    · cases step.symm.trans step'
      exact member

/-- How a walk from `start` stands when it has come to `donor` by way of `visited`. -/
structure OnWay (next : ThreadId → Option ThreadId) (start : ThreadId) (visited : List ThreadId)
    (donor : ThreadId) : Prop where
  chain : chainFrom next start = {v | v ∈ visited} ∪ chainFrom next donor
  left : LeftThrough next visited donor
  /-- Nobody was visited twice, or the walk is in a circle. -/
  distinct : visited.Nodup ∨ ∀ w, next donor = some w → w ∈ visited

theorem OnWay.begin : OnWay next start [] start :=
  ⟨by simp only [List.not_mem_nil, Set.ofPred_false, Set.empty_union], List.forall_mem_nil _, .inl List.nodup_nil⟩

theorem OnWay.hop (way : OnWay next start visited donor) (step : next donor = some holder) :
    OnWay next start (holder :: visited) holder := by
  have inside : holder ∈ visited → ∀ w, next holder = some w → w ∈ visited := by
    intro seen w step'
    obtain rfl | ⟨w', member, step''⟩ := way.left holder seen
    · cases step.symm.trans step'
      exact seen
    · cases step''.symm.trans step'
      exact member
  constructor
  case chain =>
    rw [way.chain, chainFrom_eq_insert step]
    ext v
    simp only [Set.mem_union, Set.mem_insert_iff, Set.mem_ofPred_eq, List.mem_cons, or_assoc,
      or_left_comm]
  case left =>
    intro v seen
    obtain rfl | seen := List.mem_cons.mp seen
    · exact .inl rfl
    · obtain rfl | ⟨w, member, step'⟩ := way.left v seen
      · exact .inr ⟨holder, List.mem_cons_self, step⟩
      · exact .inr ⟨w, List.mem_cons_of_mem _ member, step'⟩
  case distinct =>
    by_cases seen : holder ∈ visited
    · exact .inr fun w step' => List.mem_cons_of_mem _ (inside seen w step')
    · refine .inl (List.nodup_cons.mpr ⟨seen, way.distinct.resolve_right fun circle => ?_⟩)
      exact seen (circle holder step)

theorem encard_visited_le : {v | v ∈ visited}.encard ≤ visited.length := by
  rw [← List.coe_toFinset, Set.encard_coe_eq_coe_finsetCard]
  exact Nat.cast_le.mpr visited.toFinset_card_le

theorem length_lt_encard {beyond : ThreadId} (distinct : visited.Nodup) (new : beyond ∉ visited)
    {chain : Set ThreadId} (within : ∀ v ∈ beyond :: visited, v ∈ chain) :
    (visited.length : ℕ∞) < chain.encard := by
  have nodup : (beyond :: visited).Nodup := List.nodup_cons.mpr ⟨new, distinct⟩
  refine lt_of_lt_of_le ?_ (Set.encard_le_encard (s := {v | v ∈ beyond :: visited}) within)
  rw [← List.coe_toFinset, Set.encard_coe_eq_coe_finsetCard, List.toFinset_card_of_nodup nodup,
    List.length_cons]
  exact Nat.cast_lt.mpr (Nat.lt_succ_self _)

/-- Where the walk ends, all on the chain were visited. -/
theorem OnWay.encard_le (way : OnWay next start visited donor) (last : next donor = none) :
    (chainFrom next start).encard ≤ visited.length := by
  rw [way.chain, chainFrom_eq_empty last, Set.union_empty]
  exact encard_visited_le

/-- Where the walk could go on, none but those visited are on the chain just if that would only take
it round a circle. -/
theorem OnWay.mem_visited_iff {beyond : ThreadId} (way : OnWay next start visited donor)
    (step : next donor = some beyond) :
    beyond ∈ visited ↔ (chainFrom next start).encard ≤ visited.length := by
  constructor
  · intro seen
    have circle := chainFrom_subset way.left fun w step' => by
      cases step.symm.trans step'
      exact seen
    rw [way.chain, Set.union_eq_left.mpr circle]
    exact encard_visited_le
  · intro short
    by_contra new
    have nodup := way.distinct.resolve_right fun circle => new (circle beyond step)
    refine absurd (length_lt_encard nodup new fun v member => ?_) (not_lt_of_ge short)
    rw [way.chain]
    obtain rfl | member := List.mem_cons.mp member
    · exact .inr (.single step)
    · exact .inl member

end Chain

theorem lossless_withEvents_cons {event : Event} :
    (k.withEvents (event :: k.events)).Lossless ↔ k.Lossless ∧
      ∀ start visited beyond, event = .truncated start visited beyond → beyond ∈ visited := by
  constructor
  · exact fun lossless => ⟨fun start visited beyond member =>
      lossless start visited beyond (List.mem_cons_of_mem _ member),
      fun start visited beyond same => lossless start visited beyond (same ▸ List.mem_cons_self)⟩
  · rintro ⟨lossless, last⟩ start visited beyond member
    obtain same | member := List.mem_cons.mp member
    · exact last start visited beyond same.symm
    · exact lossless start visited beyond member

theorem Hop.blockingHolder {donor holder : ThreadId} (hop : k.Hop donor holder k') (d : ThreadId) :
    k'.blockingHolder d = k.blockingHolder d := by
  cases hop with
  | raised _ ran => exact blockingHolder_of_run_setEffective ran d
  | passed => rfl

theorem Hop.lossless_iff {donor holder : ThreadId} (hop : k.Hop donor holder k') :
    k'.Lossless ↔ k.Lossless := by
  cases hop with
  | raised _ ran =>
    obtain ⟨_, _, rfl⟩ := of_run_setEffective ran
    refine lossless_withEvents_cons.trans (and_iff_left ?_)
    intro _ _ _ same
    cases same
  | passed => rfl

theorem Walks.lossless_iff {start : ThreadId} {depth : Nat} {visited : List ThreadId}
    {donor : ThreadId} {next : ThreadId → Option ThreadId}
    (walks : Walks start depth visited donor k k') (links : ∀ d, k.blockingHolder d = next d)
    (way : OnWay next start visited donor) :
    k'.Lossless ↔ k.Lossless ∧ (chainFrom next start).encard ≤ (visited.length + depth : ℕ) := by
  induction walks with
  | ended last =>
    refine (and_iff_left ?_).symm
    exact (way.encard_le (links _ ▸ last)).trans (Nat.cast_le.mpr (Nat.le_add_right _ _))
  | @truncated visited donor beyond k blocks =>
    rw [links] at blocks
    rw [lossless_withEvents_cons, Nat.add_zero, ← way.mem_visited_iff blocks]
    refine and_congr_right fun _ => ⟨fun noted => ?_, fun seen => ?_⟩
    · exact List.mem_reverse.mp (noted start visited.reverse beyond rfl)
    · intro _ _ _ same
      cases same
      exact List.mem_reverse.mpr seen
  | @hop depth visited _ holder _ _ _ blocks hop _ ih =>
    have longer : visited.length + (depth + 1) = (holder :: visited).length + depth := by
      rw [List.length_cons, Nat.add_right_comm, Nat.add_assoc]
    rw [longer, ← hop.lossless_iff]
    exact ih (fun d => (hop.blockingHolder d).trans (links d)) (way.hop (links _ ▸ blocks))

/-- A donation stops short of a holder exactly when there are more holders on its
chain than it may walk through. -/
theorem lossless_donate_iff (h : donate.run k = .ok (u, k')) :
    k'.Lossless ↔ k.Lossless ∧
      (chainFrom k.blockingHolder k.current).encard ≤ k.config.donationDepth := by
  have walked := (of_run_donate h).lossless_iff (fun _ => rfl) .begin
  rwa [List.length_nil, Nat.zero_add] at walked

/-! ## Steps that donate nothing -/

/-- Neither bases nor priorities have changed, nor donors that are there. -/
theorem Fair.congr (fair : k.Fair) (records : ∀ t thread', k'.threads.get? t = some thread' →
      ∃ thread, k.threads.get? t = some thread ∧ thread'.base = thread.base ∧
        thread'.priority = thread.priority ∧ ∀ d, d ∈ thread'.donors ↔ d ∈ thread.donors)
    (prices : ∀ t thread, k.threads.get? t = some thread → ∀ d ∈ thread.donors,
      k'.priorityOf d = k.priorityOf d)
    (grown : k.events <:+ k'.events) : k'.Fair := by
  constructor
  case base_le =>
    intro t thread' found'
    obtain ⟨thread, found, base, priority, _⟩ := records t thread' found'
    rw [base, priority]
    exact fair.base_le t thread found
  case le_fair =>
    intro t thread' found'
    obtain ⟨thread, found, base, priority, donors⟩ := records t thread' found'
    rw [le_fairPriority_iff, base, priority]
    refine (le_fairPriority_iff.mp (fair.le_fair t thread found)).imp_right ?_
    rintro ⟨d, member, le⟩
    exact ⟨d, (donors d).mpr member, by rw [prices t thread found d member]; exact le⟩
  case fair_le =>
    intro lossless t thread' found'
    obtain ⟨thread, found, base, priority, donors⟩ := records t thread' found'
    rw [fairPriority_le_iff, base, priority]
    obtain ⟨le, all⟩ := fairPriority_le_iff.mp (fair.fair_le (lossless.of_suffix grown) t thread found)
    refine ⟨le, fun d member => ?_⟩
    have member := (donors d).mp member
    rw [prices t thread found d member]
    exact all d member

theorem Fair.agree (fair : k.Fair)
    (same : Arena.Agree (fun x : Thread => (x.base, x.priority, x.donors)) k'.threads k.threads)
    (grown : k.events <:+ k'.events) : k'.Fair := by
  refine fair.congr (fun t thread' found' => ?_)
    (fun _ _ _ d _ => priorityOf_of_agree (same.coarsen fun x => x.2.1) d) grown
  obtain ⟨thread, found, eq⟩ := same.exists_get? found'
  simp only [Prod.mk.injEq] at eq
  obtain ⟨base, priority, donors⟩ := eq
  exact ⟨thread, found, base.symm, priority.symm, fun d => by rw [donors]⟩

/-- The priority of a thread that donates to nobody is recomputed. -/
theorem Fair.refreshed {f : Thread → Thread} (fair : k.Fair)
    (found : k.threads.get? t = some thread)
    (alone : ∀ h record, k.threads.get? h = some record → t ∉ record.donors)
    (own : t ∉ (f thread).donors) (price : (f thread).priority = k.fairPriority (f thread))
    (threads : k'.threads = k.threads.modify t f) (grown : k.events <:+ k'.events) : k'.Fair := by
  have prices : ∀ d, d ≠ t → k'.priorityOf d = k.priorityOf d := by
    intro d other
    rw [priorityOf, threads, Arena.get?_modify_of_ne _ (Ne.symm other), priorityOf]
  have owned : k'.fairPriority (f thread) = k.fairPriority (f thread) := by
    rw [fairPriority, fairPriority,
      List.map_congr_left fun d member => prices d fun here => own (here ▸ member)]
  have others : ∀ h record, k.threads.get? h = some record →
      k'.fairPriority record = k.fairPriority record := by
    intro h record foundRecord
    rw [fairPriority, fairPriority, List.map_congr_left fun d member =>
      prices d fun here => alone h record foundRecord (here ▸ member)]
  constructor
  case base_le =>
    intro h record foundRecord
    rw [threads] at foundRecord
    obtain ⟨rfl, rfl⟩ | ⟨_, old⟩ := Arena.of_get?_modify found foundRecord
    · rw [price]
      exact (fairPriority_le_iff.mp (Nat.le_refl _)).1
    · exact fair.base_le h record old
  case le_fair =>
    intro h record foundRecord
    rw [threads] at foundRecord
    obtain ⟨rfl, rfl⟩ | ⟨_, old⟩ := Arena.of_get?_modify found foundRecord
    · rw [owned, price]
    · rw [others h record old]
      exact fair.le_fair h record old
  case fair_le =>
    intro lossless h record foundRecord
    rw [threads] at foundRecord
    obtain ⟨rfl, rfl⟩ | ⟨_, old⟩ := Arena.of_get?_modify found foundRecord
    · rw [owned, price]
    · rw [others h record old]
      exact fair.fair_le (lossless.of_suffix grown) h record old

theorem Fair.enroll (fair : k.Fair) (donors : thread.donors = [])
    (priority : thread.priority = thread.base)
    (known : ∀ t record, k.threads.get? t = some record → ∀ d ∈ record.donors,
      k.threads.contains d = true) :
    Fair { k with threads := k.threads.push thread } := by
  have records : ∀ t record, (k.threads.push thread).get? t = some record →
      record = thread ∨ k.threads.get? t = some record :=
    fun _ _ found => (Arena.of_get?_push found).imp_left And.right
  have alone : ∀ k : Kernel, k.fairPriority thread = thread.base := fun k => by
    rw [fairPriority, donors]
    rfl
  have others : ∀ t record, k.threads.get? t = some record →
      fairPriority { k with threads := k.threads.push thread } record = k.fairPriority record := by
    intro t record found
    rw [fairPriority, fairPriority, List.map_congr_left fun d member => ?_]
    obtain ⟨donor, foundDonor⟩ := Arena.contains_iff.mp (known t record found d member)
    rw [priorityOf, priorityOf, Arena.get?_push, if_neg (Arena.ne_next_of_get? foundDonor)]
  constructor
  case base_le =>
    intro t record found
    obtain rfl | old := records t record found
    · exact Nat.le_of_eq priority.symm
    · exact fair.base_le t record old
  case le_fair =>
    intro t record found
    obtain rfl | old := records t record found
    · rw [alone]
      exact Nat.le_of_eq priority
    · rw [others t record old]
      exact fair.le_fair t record old
  case fair_le =>
    intro lossless t record found
    obtain rfl | old := records t record found
    · rw [alone]
      exact Nat.le_of_eq priority.symm
    · rw [others t record old]
      exact fair.fair_le lossless t record old

/-- The current thread becomes the holder of a lock, and takes over who waits for it. -/
theorem Fair.hold {l : LockId} (fair : k.Fair) (found : k.threads.get? k.current = some thread)
    (unqueued : thread.place ≠ .ready)
    (alone : ∀ h record, k.threads.get? h = some record → k.current ∉ record.donors)
    (unlisted : ∀ s semaphore, k.semaphores.get? s = some semaphore →
      k.current ∉ semaphore.waiters)
    (h : l.hold.run k = .ok ((), k')) : k'.Fair := by
  obtain ⟨lock, semaphore, donors, priority, events, foundLock, foundSemaphore, told,
    ⟨_, rfl, rfl⟩ | ⟨members, _, _, price⟩, rfl⟩ := LockId.of_run_hold found unqueued h
  all_goals have grown := (List.suffix_cons _ _).trans told.suffix
  · have same : k.threads.modify k.current (fun old => { old with
        waitingOn := none, donors := thread.donors, priority := thread.priority }) =
        k.threads.modify k.current fun old => { old with waitingOn := none } :=
      Arena.modify_congr found rfl
    refine fair.agree ?_ grown
    rw [withEvents_threads, LockId.held_threads, same]
    exact Arena.agree_modify fun _ => rfl
  · refine fair.refreshed (f := fun old => { old with waitingOn := none, donors, priority }) found
      alone (fun own => ?_) price rfl grown
    obtain ⟨either, _⟩ := (members k.current).mp own
    obtain old | waits := either
    · exact alone k.current thread found old
    · exact unlisted lock.semaphore semaphore foundSemaphore waits

end Kernel

open Kernel

namespace WaitGraph

variable {d : Discipline} {m m' : Machine} {k k' : Kernel} {due : Option Pending}
  {t : ThreadId} {thread : Thread} {l : LockId} {lock : Lock}

/-- Who runs donates to nobody. -/
theorem not_mem_donors (graph : WaitGraph ⟨k, due⟩) (placed : k.Placed)
    (found : k.threads.get? t = some thread) (running : thread.state = .running) (h : ThreadId)
    (record : Thread) (foundRecord : k.threads.get? h = some record) : t ∉ record.donors := by
  intro member
  obtain ⟨l, awaits, _⟩ := (graph.donors h record foundRecord t).mp member
  refine not_awaitsLock_of_place found ?_ awaits
  rw [placed.detached_of_running found running]
  exact nofun

end WaitGraph

namespace Kernel.Fair

variable {d : Discipline} {m m' : Machine} {k k' : Kernel} {due : Option Pending}
  {thread : Thread} {l : LockId} {lock : Lock}

/-- Taking a free lock. -/
theorem held (fair : k.Fair) (graph : WaitGraph ⟨k, due⟩) (placed : k.Placed) (runs : k.Runs)
    {s : SemaphoreId} (h : l.hold.run (s.taken k) = .ok ((), k')) : k'.Fair := by
  obtain ⟨thread, found, running, _⟩ := runs
  have detached := placed.detached_of_running found running
  have taken : (s.taken k).Fair := fair.agree (Arena.Agree.refl _ _) (List.suffix_cons _ _)
  refine taken.hold found (by rw [detached]; exact nofun)
    (graph.not_mem_donors placed found running) (fun s' semaphore foundSemaphore waits => ?_) h
  have agree : Arena.Agree (fun x : Semaphore => x.waiters) (k.semaphores.modify s fun old =>
      { old with value := old.value - 1 }) k.semaphores := Arena.agree_modify fun _ => rfl
  obtain ⟨old, foundOld, same⟩ := agree.exists_get? foundSemaphore
  refine placed.not_mem_of_detached found detached (.semaphore s') ?_
  rw [queueAt_semaphore foundOld, same]
  exact waits

/-- Asking for a held lock, and waiting for it. -/
theorem joined (fair : k.Fair) (graph : WaitGraph ⟨k, due⟩) (placed : k.Placed) (runs : k.Runs)
    (found : k.locks.get? l = some lock) {holder : ThreadId} (holds : lock.holder = some holder)
    (foundHolder : k.threads.get? holder = some thread) {donors : List ThreadId}
    (members : ∀ d, d ∈ donors ↔ d ∈ thread.donors ∨ d = k.current) {asking : Kernel}
    (donated : donate.run (l.asked holder donors k) = .ok ((), asking)) (waiters : List ThreadId) :
    (lock.semaphore.queued (.lock l) waiters asking).Fair := by
  have linked := graph.linked_asked placed runs found holds foundHolder members
  have prices : ∀ u, (l.asked holder donors k).priorityOf u = k.priorityOf u :=
    l.priorityOf_asked holder donors k
  have records : ∀ t thread', (l.asked holder donors k).threads.get? t = some thread' →
      ∃ old, k.threads.get? t = some old ∧ thread'.base = old.base ∧
        thread'.priority = old.priority ∧
        (∀ d ∈ old.donors, d ∈ thread'.donors) ∧
        ∀ d ∈ thread'.donors, d ≠ k.current → d ∈ old.donors := by
    intro t thread' found'
    rw [LockId.get?_asked, Option.map_eq_some_iff] at found'
    obtain ⟨old, foundOld, rfl⟩ := found'
    refine ⟨old, foundOld, rfl, rfl, ?_⟩
    dsimp only
    split
    · next same =>
      subst same
      cases foundHolder.symm.trans foundOld
      exact ⟨fun d member => (members d).mpr (.inl member),
        fun d member other => ((members d).mp member).resolve_right other⟩
    · exact ⟨fun _ => id, fun _ member _ => member⟩
  have bounded : (l.asked holder donors k).Bounded := by
    constructor
    case base_le =>
      intro t thread' found'
      obtain ⟨old, foundOld, base, priority, _⟩ := records t thread' found'
      rw [base, priority]
      exact fair.base_le t old foundOld
    case le_fair =>
      intro t thread' found'
      obtain ⟨old, foundOld, base, priority, keeps, _⟩ := records t thread' found'
      rw [le_fairPriority_iff, base, priority]
      refine (le_fairPriority_iff.mp (fair.le_fair t old foundOld)).imp_right ?_
      rintro ⟨d, member, le⟩
      exact ⟨d, keeps d member, by rw [prices]; exact le⟩
  have settled : (l.asked holder donors k).Lossless →
      (l.asked holder donors k).SettledBut k.current := by
    intro lossless d h blocks other
    obtain ⟨_, _, _, _, _, _, alive⟩ := blockingHolder_eq_some_iff.mp blocks
    obtain ⟨thread', found'⟩ := Arena.contains_iff.mp alive
    obtain ⟨old, foundOld, _, _, _, only⟩ := records h thread' found'
    have member := only d ((linked h thread' found' d).mpr blocks) other
    rw [prices, prices, priorityOf_of_get? foundOld]
    exact (fairPriority_le_iff.mp (fair.fair_le lossless h old foundOld)).2 d member
  exact (fair_of_run_donate bounded linked settled donated).agree (Arena.agree_modify fun _ => rfl)
    (List.suffix_cons _ _)

/-- The current thread's priority is recomputed from the donors that are left. -/
theorem recomputed (fair : k.Fair) (graph : WaitGraph ⟨k, none⟩) (placed : k.Placed)
    (found : k.threads.get? k.current = some thread) (running : thread.state = .running)
    {f : Thread → Thread} (donors : ∀ d ∈ (f thread).donors, d ∈ thread.donors)
    (price : (f thread).priority = k.fairPriority (f thread))
    (threads : k'.threads = k.threads.modify k.current f) (grown : k.events <:+ k'.events) :
    k'.Fair := by
  have alone := graph.not_mem_donors placed found running
  exact fair.refreshed found alone (fun own => alone k.current thread found (donors _ own)) price
    threads grown

theorem attempt {s : SemaphoreId} {retry : Pending} {success : Bool} (fair : k.Fair)
    (h : (s.attempt retry).run k = .ok (success, k')) : k'.Fair := by
  obtain ⟨_, _, ⟨_, _, rfl⟩ | ⟨_, _, _, _, rfl⟩⟩ := SemaphoreId.of_run_attempt h
  · exact fair.agree (Arena.Agree.refl _ _) (List.suffix_cons _ _)
  · exact fair.agree (Arena.agree_modify fun _ => rfl) (List.suffix_cons _ _)

theorem wake {s : SemaphoreId} (fair : k.Fair) (h : s.wake.run k = .ok ((), k')) : k'.Fair := by
  obtain ⟨_, _, ⟨_, rfl⟩ | ⟨t, rest, _, h⟩⟩ := SemaphoreId.of_run_wake h
  · exact fair.agree (Arena.Agree.refl _ _) (List.suffix_cons _ _)
  · obtain ⟨_, _, _, _, _, rfl⟩ := of_run_unblock h
    exact fair.agree (Arena.Agree.trans (Arena.agree_modify fun _ => rfl) (Arena.agree_modify fun _ => rfl))
      ((List.suffix_cons _ _).trans (List.suffix_cons _ _))

theorem reclaim (fair : k.Fair) (placed : k.Placed) (graph : WaitGraph ⟨k, none⟩)
    (h : reclaim.run k = .ok ((), k')) : k'.Fair := by
  obtain ⟨threads, events, told, _, gone, rfl⟩ := of_run_reclaim h
  refine fair.congr (fun t record found => ⟨record, get?_of_gone gone found, rfl, rfl,
    fun _ => Iff.rfl⟩) (fun t record found d member => ?_) told.suffix
  obtain ⟨_, ⟨donor, _, foundDonor, _, there⟩, _⟩ := (graph.donors t record found d).mp member
  have blocked := placed.blocked foundDonor (by rw [there]; exact nofun)
    (by rw [there]; exact nofun)
  rw [priorityOf, priorityOf, gone, if_neg]
  intro left
  cases blocked.symm.trans (placed.dying_of_mem left foundDonor)

theorem attemptLock {l : LockId} {due : Option Pending} {success : Bool} (fair : k.Fair)
    (graph : WaitGraph ⟨k, due⟩) (placed : k.Placed) (runs : k.Runs)
    (h : l.attempt.run k = .ok (success, k')) : k'.Fair := by
  obtain ⟨lock, found, ⟨_, _, holds⟩ |
    ⟨holder, thread, donors, asking, waiters, holds, _, foundHolder, members, donated, rfl⟩⟩ :=
    graph.of_run_attempt h
  · exact fair.held graph placed runs holds
  · exact fair.joined graph placed runs found holds foundHolder members donated waiters

/-- Who releases a lock gives back what it was lent, and wakes a waiter. -/
theorem release {l : LockId} {s : SemaphoreId} {dropped : Kernel} (fair : k.Fair)
    (graph : WaitGraph ⟨k, none⟩) (placed : k.Placed) (running : k.Running)
    (drops : l.dropDonors.run k = .ok ((), dropped))
    (h : s.wake.run ((dropped.mapLock l fun old => { old with holder := none }).withEvents
      (.releases k.current l :: dropped.events)) = .ok ((), k')) : k'.Fair := by
  obtain ⟨thread, foundCurrent, runs⟩ := running
  obtain ⟨donors, events, told, members, _, _, rfl⟩ :=
    LockId.of_run_dropDonors foundCurrent (placed.unqueued_of_running foundCurrent runs) drops
  have dropped : Fair ((k.repriced k.current donors
      (k.fairPriority { thread with donors })).withEvents events) :=
    fair.recomputed (f := fun old => { old with
      donors, priority := k.fairPriority { thread with donors } }) graph placed foundCurrent runs
      (fun d member => ((members d).mp member).1) rfl rfl told.suffix
  refine wake ?_ h
  exact dropped.agree (Arena.Agree.refl _ _) (List.suffix_cons _ _)

theorem rebase {base : Priority} (fair : k.Fair) (graph : WaitGraph ⟨k, none⟩) (placed : k.Placed)
    (running : k.Running) (h : (refresh k.current).run (k.mapThread k.current fun old =>
      { old with base }) = .ok ((), k')) : k'.Fair := by
  obtain ⟨thread, found, runs⟩ := running
  obtain ⟨donors, events, live, told, rfl⟩ :=
    of_run_rebase found (placed.unqueued_of_running found runs) h
  exact fair.recomputed (f := fun old => { old with
    base, donors, priority := k.fairPriority { thread with base, donors } }) graph placed found
    runs (fun d member => ((live d).mp member).1) rfl rfl told.suffix

theorem move {act : Option Act} (fair : m.kernel.Fair) (sound : Sound d m) (graph : WaitGraph m)
    (move : Move d act m m') : m'.kernel.Fair := by
  have placed := sound.placed
  cases move with
  | quiet same =>
    refine fair.agree ?_ same.events.suffix
    dsimp only
    rw [same.threads]
    exact Arena.Agree.refl _ _
  | tick | appoint | create | createLock =>
    exact fair.agree (Arena.Agree.refl _ _) (List.suffix_refl _)
  | enroll _ _ _ _ donors priority =>
    exact fair.enroll donors priority fun _ _ found _ => graph.contains_of_mem_donors found
  | unblock _ ran =>
    obtain ⟨_, _, _, _, _, rfl⟩ := of_run_unblock ran
    exact fair.agree (Arena.agree_modify fun _ => rfl) (List.suffix_refl _)
  | ready | halt | undertake =>
    exact fair.agree (Arena.agree_modify fun _ => rfl) (List.suffix_refl _)
  | doze _ _ told => exact fair.agree (Arena.agree_modify fun _ => rfl) told.suffix
  | rise _ _ _ _ told =>
    exact fair.agree (Arena.Agree.trans (Arena.agree_modify fun _ => rfl)
      (Arena.agree_modify fun _ => rfl)) told.suffix
  | reclaim ran => exact fair.reclaim placed graph ran
  | pick _ _ _ _ _ _ handed => exact fair.agree (Arena.agree_modify fun _ => rfl) handed.suffix
  | destroy _ _ ran | destroyLock _ _ _ ran =>
    obtain ⟨_, _, _, rfl⟩ := SemaphoreId.of_run_destroy ran
    exact fair.agree (Arena.Agree.refl _ _) (List.suffix_refl _)
  | take _ _ ran =>
    obtain ⟨_, _, _, rfl⟩ := SemaphoreId.of_run_take_true ran
    exact fair.agree (Arena.Agree.refl _ _) (List.suffix_cons _ _)
  | attempt _ _ _ ran => exact fair.attempt ran
  | attemptLock runs _ ran => exact fair.attemptLock graph placed runs ran
  | seize runs found takes ran =>
    obtain ⟨_, rfl⟩ := graph.of_run_take found takes
    exact fair.held graph placed runs ran
  | release running found holds drops ran => exact fair.release graph placed running drops ran
  | wake _ ran => exact fair.wake ran
  | rebase running ran => exact fair.rebase graph placed running ran
  | enlist => exact fair.agree (Arena.agree_modify fun _ => rfl) (List.suffix_cons _ _)
  | signal _ _ ran =>
    refine wake ?_ ran
    exact fair.agree (Arena.Agree.refl _ _) (List.suffix_cons _ _)
  | signalled _ takes ran =>
    obtain ⟨_, _, _, rfl⟩ := SemaphoreId.of_run_destroy ran
    exact (fair.attempt takes).agree (Arena.Agree.refl _ _) (List.suffix_refl _)
  | unsignalled _ ran => exact fair.attempt ran

end Kernel.Fair

end ThreadKernel
