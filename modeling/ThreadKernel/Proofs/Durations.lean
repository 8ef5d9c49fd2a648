import ThreadKernel.Proofs.Effects
import ThreadKernel.Proofs.Reachable

/-!
# How long a sleep for a duration lasts

To sleep for a duration is to sleep until a tick: the current one and as many more as there are
whole ticks in the duration.  The tick saturates, but of the number of whole ticks the low 64 bits
are kept.  So the sleep has its full length if that number is a word (`Duration.ticks_eq_iff`), as
it always is on a timer that ticks at most once a nanosecond (`Duration.wholeTicks_le_nanos`).  A
faster timer can make a long sleep short: `sleep_for_duration_cut_short`.
-/

namespace ThreadKernel

open Kernel

namespace Duration

/-- The whole ticks of a timer at `hz`, however many there are. -/
def wholeTicks (d : Duration) (hz : Nat) : Nat := d.nanos * hz / 1000000000

variable {d e : Duration} {hz : Nat}

theorem ticks_eq_iff : d.ticks hz = d.wholeTicks hz ↔ d.wholeTicks hz ≤ maxWord := by
  constructor
  · intro same
    rw [← same]
    exact ticks_le d hz
  · intro fits
    exact Nat.mod_eq_of_lt (Nat.lt_succ_of_le fits)

theorem wholeTicks_mono (shorter : d.nanos ≤ e.nanos) : d.wholeTicks hz ≤ e.wholeTicks hz :=
  Nat.div_le_div_right (Nat.mul_le_mul_right hz shorter)

/-- A timer that ticks at most once a nanosecond ticks at most that often. -/
theorem wholeTicks_le_nanos (slow : hz ≤ 1000000000) : d.wholeTicks hz ≤ d.nanos := by
  apply Nat.div_le_of_le_mul
  rw [Nat.mul_comm 1000000000]
  exact Nat.mul_le_mul_left d.nanos slow

end Duration

/-- The tick that a sleep for `d` from now on is to wait for. -/
def Kernel.tickAfter (k : Kernel) (d : Duration) : Nat :=
  saturate (k.clock.ticks + d.wholeTicks k.config.timerHz)

theorem Kernel.tickAfter_mono {k : Kernel} {d e : Duration} (shorter : d.nanos ≤ e.nanos) :
    k.tickAfter d ≤ k.tickAfter e :=
  saturate_mono (Nat.add_le_add_left (Duration.wholeTicks_mono shorter) _)

theorem run_sleepFor_of_fits {k : Kernel} {d : Duration}
    (fits : d.wholeTicks k.config.timerHz ≤ maxWord) :
    (sleepFor d).run k = (sleepUntil (k.tickAfter d)).run k := by
  rw [run_sleepFor, Duration.ticks_eq_iff.mpr fits, tickAfter]

/-- A duration whose whole ticks are a word is slept in full, so that a longer one is never over
earlier, and every duration is such at a frequency of at most one tick a nanosecond.  Of any other
duration the low 64 bits of that number are slept.  Larger units come to what they are in
nanoseconds, up to the largest duration. -/
theorem sleep_for_duration (k : Kernel) :
    (∀ d : Duration, d.wholeTicks k.config.timerHz ≤ maxWord →
      (sleepFor d).run k = (sleepUntil (k.tickAfter d)).run k) ∧
    (∀ d e : Duration, d.nanos ≤ e.nanos → k.tickAfter d ≤ k.tickAfter e) ∧
    (k.config.timerHz ≤ 1000000000 → ∀ d : Duration, d.nanos ≤ maxWord →
      d.wholeTicks k.config.timerHz ≤ maxWord) ∧
    (∀ d : Duration, (sleepFor d).run k = (sleepUntil (saturate (k.clock.ticks +
      d.wholeTicks k.config.timerHz % (maxWord + 1)))).run k) ∧
    (∀ m n, m ≤ n → (Duration.ofMicros m).nanos ≤ (Duration.ofMicros n).nanos ∧
      (Duration.ofMillis m).nanos ≤ (Duration.ofMillis n).nanos) ∧
    ∀ n, (Duration.ofMicros n).nanos = min (n * 1000) maxWord ∧
      (Duration.ofMillis n).nanos = min (n * 1000000) maxWord := by
  refine ⟨fun d fits => run_sleepFor_of_fits fits, fun d e shorter => tickAfter_mono shorter,
    fun slow d word => Nat.le_trans (Duration.wholeTicks_le_nanos slow) word, run_sleepFor k,
    fun m n le => ?_, fun n => ⟨rfl, rfl⟩⟩
  exact ⟨saturate_mono (Nat.mul_le_mul_right 1000 le),
    saturate_mono (Nat.mul_le_mul_right 1000000 le)⟩

/-- A timer that ticks once a millisecond has ticked twice: five milliseconds are over at the tick
7, and the longest duration, which all larger ones come to, at the tick 18446744073711. -/
theorem sleep_for_duration_of_millis : ∃ k, Reachable {} k ∧
    (k.clock.ticks, k.config.timerHz) = (2, 1000) ∧
    (sleepFor (.ofMillis 5)).run k = (sleepUntil 7).run k ∧
    (sleepFor (.ofMillis maxWord)).run k = (sleepUntil 18446744073711).run k := by
  have ran : (({} : Discipline).performAll [.start, .timer 2]
      (.fresh { timerHz := 1000 } .stable)).map (fun k => (k.clock.ticks, k.config.timerHz)) =
        some (2, 1000) := by decide +kernel
  rcases Option.map_eq_some_iff.mp ran with ⟨k, performed, told⟩
  rcases Prod.mk.inj told with ⟨ticks, hz⟩
  rcases sleep_for_duration k with ⟨lasts, _, slow, _⟩
  rw [hz] at lasts slow
  have sleeps : ∀ n, (sleepFor (.ofMillis n)).run k =
      (sleepUntil (k.tickAfter (.ofMillis n))).run k := fun n =>
    lasts _ (slow (by decide) _ (saturate_le _))
  have five : k.tickAfter (.ofMillis 5) = 7 := by
    rw [tickAfter, ticks, hz]
    decide
  have longest : k.tickAfter (.ofMillis maxWord) = 18446744073711 := by
    rw [tickAfter, ticks, hz]
    decide
  exact ⟨k, (Reachable.fresh _ _).performAll performed, told, five ▸ sleeps 5,
    longest ▸ sleeps maxWord⟩

/-- On a timer that ticks four times a nanosecond a sleep of 2 ^ 62 nanoseconds is over at once,
although one that is shorter by a nanosecond is not. -/
theorem sleep_for_duration_cut_short : ∃ k, Reachable {} k ∧ k.config.timerHz = 4000000000 ∧
    k.tickAfter ⟨4611686018427387904⟩ = maxWord ∧
    (∃ after, (sleepFor ⟨4611686018427387904⟩).run k = .ok (.completed, after)) ∧
    (∃ asleep, (sleepUntil maxWord).run k = .ok (.suspended, asleep)) ∧
    ∃ asleep, (sleepFor ⟨4611686018427387903⟩).run k = .ok (.suspended, asleep) := by
  have ran : (({} : Discipline).performAll [.start]
      (.fresh { timerHz := 4000000000 } .stable)).map (fun k =>
        (k.config.timerHz, k.tickAfter ⟨4611686018427387904⟩,
          ((sleepFor ⟨4611686018427387904⟩).run k).toOption.map Prod.fst,
          ((sleepUntil maxWord).run k).toOption.map Prod.fst,
          ((sleepFor ⟨4611686018427387903⟩).run k).toOption.map Prod.fst)) =
        some (4000000000, maxWord, some .completed, some .suspended, some .suspended) := by
    decide +kernel
  rcases Option.map_eq_some_iff.mp ran with ⟨k, performed, told⟩
  simp only [Prod.mk.injEq, Option.map_eq_some_iff] at told
  rcases told with ⟨hz, tick, ⟨⟨_, after⟩, ends, rfl⟩, ⟨⟨_, asleep⟩, sleeps, rfl⟩,
    ⟨⟨_, asleep'⟩, sleeps', rfl⟩⟩
  exact ⟨k, (Reachable.fresh _ _).performAll performed, hz, tick, ⟨after, ok_of_toOption ends⟩,
    ⟨asleep, ok_of_toOption sleeps⟩, asleep', ok_of_toOption sleeps'⟩

end ThreadKernel
