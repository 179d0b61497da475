import Mathlib.Tactic.Ring
import WebSocket.Hosting.Acceptor

/-!
# How long an acceptor waits

Of the two delays of a back-off, both raised to the least wait, the smaller is the wait after a first
failure.  Each further failure in a row doubles the wait up to the larger one (`Backoff.wait`), and a
stream that is accepted brings it back.  An acceptor gets there one delay after another
(`Acceptor.Keeps`), whatever its results are, until it comes to a wait that cannot be doubled
(`Acceptor.GivenUp`):

    wait j = min (least * 2 ^ (j - 1)) most
    next? d = none ↔ maxNanos < 2 * d.nanos                                     (next?_eq_none_iff)
-/

namespace WebSocket

namespace Backoff

/-- The smaller delay, with both raised to the least wait, in nanoseconds. -/
def least (b : Backoff) : Nat :=
  min (max b.initial.nanos floor.nanos) (max b.ceiling.nanos floor.nanos)

/-- The larger delay, with both raised to the least wait, in nanoseconds. -/
def most (b : Backoff) : Nat :=
  max (max b.initial.nanos floor.nanos) (max b.ceiling.nanos floor.nanos)

/-- The wait after the last one of so many failures in a row, in nanoseconds. -/
def wait (b : Backoff) (failures : Nat) : Nat := min (b.least * 2 ^ (failures - 1)) b.most

/-- Both delays, raised to the least wait, can be doubled. -/
def Doubles (b : Backoff) : Prop :=
  (b.initial.longer floor).double?.isSome ∧ (b.ceiling.longer floor).double?.isSome

instance (b : Backoff) : Decidable b.Doubles := inferInstanceAs (Decidable (_ ∧ _))

variable {b : Backoff} {d : Duration} {n : Nat}

theorem initial_normalized (b : Backoff) : b.normalized.initial.nanos = b.least := by
  have hinitial := b.initial.nanos_longer floor
  have hceiling := b.ceiling.nanos_longer floor
  unfold normalized least
  dsimp only
  split <;> dsimp only <;> omega

theorem ceiling_normalized (b : Backoff) : b.normalized.ceiling.nanos = b.most := by
  have hinitial := b.initial.nanos_longer floor
  have hceiling := b.ceiling.nanos_longer floor
  unfold normalized most
  dsimp only
  split <;> dsimp only <;> omega

theorem least_le_most (b : Backoff) : b.least ≤ b.most := by
  unfold least most
  omega

theorem floor_le_least (b : Backoff) : floor.nanos ≤ b.least := by
  unfold least
  omega

theorem wait_one (b : Backoff) : b.wait 1 = b.least :=
  (congrArg (min · b.most) (Nat.mul_one b.least)).trans (Nat.min_eq_left b.least_le_most)

theorem wait_le_most (b : Backoff) (n : Nat) : b.wait n ≤ b.most := Nat.min_le_right ..

theorem least_le_wait (b : Backoff) (n : Nat) : b.least ≤ b.wait n := by
  have hpos : 0 < 2 ^ (n - 1) := Nat.two_pow_pos (n - 1)
  exact Nat.le_min.mpr ⟨Nat.le_mul_of_pos_right _ hpos, b.least_le_most⟩

/-- A further failure doubles the wait, up to the larger delay. -/
theorem wait_succ (b : Backoff) (n : Nat) : b.wait (n + 2) = min (2 * b.wait (n + 1)) b.most := by
  have hdouble : b.least * 2 ^ (n + 1) = 2 * (b.least * 2 ^ n) := by ring
  unfold wait
  rw [Nat.add_sub_cancel, show n + 2 - 1 = n + 1 from rfl, hdouble]
  omega

theorem Doubles.most_le (h : b.Doubles) : 2 * b.most ≤ maxNanos := by
  obtain ⟨hinitial, hceiling⟩ := h
  rw [Option.isSome_iff_ne_none, ne_eq, Duration.double?_eq_none_iff, Duration.nanos_longer]
    at hinitial hceiling
  unfold most
  omega

theorem Doubles.wait_le (h : b.Doubles) (n : Nat) : 2 * b.wait n ≤ maxNanos := by
  have hle := b.wait_le_most n
  have hmost := h.most_le
  omega

theorem next?_eq_none_iff : b.next? d = none ↔ maxNanos < 2 * d.nanos := by
  rw [next?, Option.map_eq_none_iff, Duration.double?_eq_none_iff]

/-- A delay that is a wait is followed by the next wait, if it can be doubled. -/
theorem next?_of_wait (hd : d.nanos = b.wait (n + 1)) (hrange : 2 * d.nanos ≤ maxNanos) :
    ∃ later, b.normalized.next? d = some later ∧ later.nanos = b.wait (n + 2) := by
  have hdouble : d.double? = some ⟨2 * d.nanos, hrange⟩ := dif_pos hrange
  refine ⟨_, by rw [Backoff.next?, hdouble, Option.map_some], ?_⟩
  rw [Duration.nanos_shorter, ceiling_normalized, wait_succ, ← hd]

end Backoff

/-! ## Results -/

def Arrival.isFailure : Arrival → Bool
  | stream .. => false
  | failure _ => true

/-- How many failures there were in a row at last. -/
def streak (results : List Arrival) : Nat := (results.reverse.takeWhile Arrival.isFailure).length

variable {results : List Arrival}

theorem streak_append_failure (results : List Arrival) (fault : Fault) :
    streak (results ++ [.failure fault]) = streak results + 1 := by
  unfold streak
  rw [List.reverse_append, List.reverse_singleton, List.singleton_append,
    List.takeWhile_cons_of_pos rfl, List.length_cons]

theorem streak_append_stream (results : List Arrival) (transport : Transport)
    (peer : SocketAddress) : streak (results ++ [.stream transport peer]) = 0 := by
  simp [streak, Arrival.isFailure]

/-! ## The acceptor -/

namespace Acceptor

def isPausing (a : Acceptor) : Bool :=
  match a.phase with
  | .pausing _ => true
  | _ => false

/-- An acceptor that goes on: its delay is the wait after the failures so far and one more, or after
those so far while it pauses. -/
structure Keeps (b : Backoff) (results : List Arrival) (a : Acceptor) : Prop where
  backoff : a.backoff = b.normalized
  goesOn : a.phase ≠ .ended
  delay : ∃ n, a.delay.nanos = b.wait (n + 1) ∧ streak results = n + a.isPausing.toNat

/-- An acceptor that has ended: the wait after the failures in a row could not be doubled. -/
structure GivenUp (b : Backoff) (results : List Arrival) (a : Acceptor) : Prop where
  ended : a.phase = .ended
  failed : 0 < streak results
  overflow : maxNanos < 2 * b.wait (streak results)

variable {b : Backoff} {a : Acceptor}

theorem keeps_new (b : Backoff) : Keeps b [] (.new b) where
  backoff := rfl
  goesOn := nofun
  delay := ⟨0, by rw [b.wait_one]; exact b.initial_normalized, rfl⟩

namespace Keeps

theorem ask (h : Keeps b results a) (hphase : a.phase = .asking) :
    Keeps b results { a with phase := .waiting } where
  backoff := h.backoff
  goesOn := nofun
  delay := by
    obtain ⟨n, hdelay, hstreak⟩ := h.delay
    rw [isPausing, hphase] at hstreak
    exact ⟨n, hdelay, hstreak⟩

/-- A stream brings the wait back to its first length. -/
theorem take_stream (h : Keeps b results a) (transport : Transport) (peer : SocketAddress) :
    Keeps b (results ++ [.stream transport peer])
      { a with delay := a.backoff.initial, phase := .asking } where
  backoff := h.backoff
  goesOn := nofun
  delay := by
    refine ⟨0, ?_, streak_append_stream results transport peer⟩
    rw [b.wait_one, ← b.initial_normalized, h.backoff]

/-- After a failure the acceptor waits as long as the failures in a row make it. -/
theorem take_failure (h : Keeps b results a) (hphase : a.phase = .waiting) (fault : Fault)
    (deadline : Nat) : Keeps b (results ++ [.failure fault]) { a with phase := .pausing deadline } ∧
      a.delay.nanos = b.wait (streak (results ++ [.failure fault])) := by
  obtain ⟨n, hdelay, hstreak⟩ := h.delay
  rw [isPausing, hphase] at hstreak
  have hlonger : streak (results ++ [.failure fault]) = n + 1 := by
    rw [streak_append_failure, hstreak]
    rfl
  refine ⟨⟨h.backoff, nofun, n, hdelay, hlonger⟩, ?_⟩
  rw [hdelay, hlonger]

/-- An acceptor that pauses does so after a failure, as long as the failures in a row make it. -/
theorem delay_of_pausing (h : Keeps b results a) {deadline : Nat}
    (hphase : a.phase = .pausing deadline) :
    0 < streak results ∧ a.delay.nanos = b.wait (streak results) := by
  obtain ⟨n, hdelay, hstreak⟩ := h.delay
  rw [isPausing, hphase] at hstreak
  rw [hstreak]
  exact ⟨Nat.succ_pos n, hdelay⟩

/-- There is no next wait just if this one cannot be doubled. -/
theorem next?_eq_none_iff (h : Keeps b results a) {deadline : Nat}
    (hphase : a.phase = .pausing deadline) :
    a.backoff.next? a.delay = none ↔ maxNanos < 2 * b.wait (streak results) := by
  rw [Backoff.next?_eq_none_iff, (h.delay_of_pausing hphase).2]

/-- After the wait the next one is settled, and the acceptor asks again. -/
theorem resume (h : Keeps b results a) {deadline : Nat} (hphase : a.phase = .pausing deadline)
    {later : Duration} (hnext : a.backoff.next? a.delay = some later) :
    later.nanos = b.wait (streak results + 1) ∧
      Keeps b results { a with delay := later, phase := .asking } := by
  have hrange : 2 * a.delay.nanos ≤ maxNanos := by
    by_contra hover
    rw [Nat.not_le, ← Backoff.next?_eq_none_iff (b := a.backoff), hnext] at hover
    cases hover
  obtain ⟨n, hdelay, hstreak⟩ := h.delay
  rw [isPausing, hphase] at hstreak
  obtain ⟨settled, hsettled, hlater⟩ := Backoff.next?_of_wait hdelay hrange
  rw [h.backoff, hsettled] at hnext
  obtain rfl := Option.some.inj hnext
  refine ⟨?_, h.backoff, nofun, n + 1, hlater, hstreak⟩
  rw [hlater, hstreak]
  rfl

/-- After a wait that cannot be doubled there is no next one. -/
theorem stuck (h : Keeps b results a) {deadline : Nat} (hphase : a.phase = .pausing deadline)
    (hnext : a.backoff.next? a.delay = none) : GivenUp b results a.finish where
  ended := rfl
  failed := (h.delay_of_pausing hphase).1
  overflow := (h.next?_eq_none_iff hphase).mp hnext

end Keeps

end Acceptor

end WebSocket
