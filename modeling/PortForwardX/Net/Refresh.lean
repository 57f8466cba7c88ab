import PortForwardX.Transition.Machine
import PortForwardX.Net.Resolver

/-!
# The schedule of `ResolverLoop`

The loop adds up its sleeps of 200 ms and resolves the target again when they reach the
configured interval. That interval is a product of 32-bit words, so a long one wraps to a
short one.
-/
namespace PortForwardX.Net

open Transition

/-- `ResolverLoop` with the iterations it has completed and the resolutions it has
attempted so far. -/
structure ResolverRun where
  pc : ResolverPc := .test 0
  iterations : Nat := 0
  attempts : Nat := 0
  deriving DecidableEq, Repr

/-- The next instruction of the loop. `running` is what a load of `running_` returns; a
resolution ends the iteration whether it succeeds or not. -/
def ResolverRun.step (config : ForwardConfig) (r : ResolverRun) (running : Bool) :
    Option ResolverRun :=
  match r.pc with
  | .refresh => some ⟨.test 0, r.iterations + 1, r.attempts + 1⟩
  | .sleep elapsed =>
    (ResolverPc.next config running (.sleep elapsed)).map fun pc =>
      match pc with
      -- `continue`
      | .test elapsed => { r with pc := .test elapsed, iterations := r.iterations + 1 }
      | pc => { r with pc := pc }
  | pc => (pc.next config running).map fun pc => { r with pc := pc }

def resolverLoop (config : ForwardConfig) : Machine ResolverRun Bool :=
  ⟨fun r => r = {}, ResolverRun.step config⟩

/-- The minutes between refreshes that the configuration asks for. -/
def refreshMinutes (config : ForwardConfig) : Nat :=
  if config.dnsRefreshIntervalMinutes = 0 then 10 else config.dnsRefreshIntervalMinutes.toNat

/-- The iterations from one attempt to the next: as many sleeps as reach the interval, and
at least one. -/
def refreshPeriod (config : ForwardConfig) : Nat := max 1 ((refreshIntervalMs config + 199) / 200)

variable {config : ForwardConfig} {r r' : ResolverRun} {running : Bool}

theorem refreshMinutes_pos : 0 < refreshMinutes config := by
  unfold refreshMinutes
  split
  · decide
  next nonzero =>
    have := mt UInt32.toNat_inj.mp nonzero
    simp only [UInt32.toNat_zero] at this
    omega

/-- The interval is the configured one modulo the range of the word. -/
theorem refreshIntervalMs_eq :
    refreshIntervalMs config = refreshMinutes config * 60000 % UInt32.size := by
  unfold refreshIntervalMs refreshMinutes
  split
  · rfl
  · simp only [UInt32.toNat_mul, UInt32.reduceToNat, UInt32.size]
    omega

/-- The loop goes on to the next sleep as long as the interval is not reached. -/
theorem sleep_continues {i : Nat} :
    200 * i + 200 < refreshIntervalMs config ↔ i + 1 < refreshPeriod config := by
  unfold refreshPeriod
  omega

/-! ### Steps by name -/

inductive ResolverRun.Move (config : ForwardConfig) (r : ResolverRun) : ResolverRun → Prop
  | test {elapsed : Nat} (pc : r.pc = .test elapsed) : Move config r { r with pc := .sleep elapsed }
  | stop (pc : (∃ elapsed, r.pc = .test elapsed) ∨ ∃ elapsed, r.pc = .sleep elapsed) :
      Move config r { r with pc := .exited }
  | again {elapsed : Nat} (pc : r.pc = .sleep elapsed)
      (early : elapsed + 200 < refreshIntervalMs config) :
      Move config r ⟨.test (elapsed + 200), r.iterations + 1, r.attempts⟩
  | due {elapsed : Nat} (pc : r.pc = .sleep elapsed)
      (due : ¬ elapsed + 200 < refreshIntervalMs config) : Move config r { r with pc := .refresh }
  | refresh (pc : r.pc = .refresh) : Move config r ⟨.test 0, r.iterations + 1, r.attempts + 1⟩

theorem ResolverRun.step_move (moved : r.step config running = some r') :
    ResolverRun.Move config r r' := by
  obtain ⟨pc, iterations, attempts⟩ := r
  unfold ResolverRun.step at moved
  cases pc with
  | test elapsed =>
    cases running <;> obtain rfl := Option.some.inj moved
    · exact .stop (.inl ⟨_, rfl⟩)
    · exact .test rfl
  | sleep elapsed =>
    cases running with
    | false =>
      obtain rfl := Option.some.inj moved
      exact .stop (.inr ⟨_, rfl⟩)
    | true =>
      by_cases early : elapsed + 200 < refreshIntervalMs config
      · simp only [ResolverPc.next, early, if_true, Option.map_some, Option.some.injEq] at moved
        exact moved ▸ .again rfl early
      · simp only [ResolverPc.next, early, if_true, if_false, Option.map_some,
          Option.some.injEq] at moved
        exact moved ▸ .due rfl early
  | refresh =>
    obtain rfl := Option.some.inj moved
    exact .refresh rfl
  | exited => cases moved

/-- The loop ends only where it reads that the forwarder is not running. -/
theorem ResolverPc.next_running {pc pc' : ResolverPc} (next : pc.next config true = some pc') :
    pc' ≠ .exited := by
  cases pc with
  | test elapsed =>
    obtain rfl := Option.some.inj next
    simp
  | sleep elapsed =>
    simp only [ResolverPc.next, if_true] at next
    split at next <;> obtain rfl := Option.some.inj next <;> simp
  | refresh | exited => cases next

/-- A bound on the steps of the loop until it resolves. -/
def ResolverPc.untilRefresh (config : ForwardConfig) : ResolverPc → Nat
  | .test elapsed => 2 * (refreshIntervalMs config - elapsed) + 2
  | .sleep elapsed => 2 * (refreshIntervalMs config - elapsed) + 1
  | .refresh | .exited => 0

theorem ResolverPc.next_sooner {pc pc' : ResolverPc} (next : pc.next config true = some pc') :
    pc'.untilRefresh config < pc.untilRefresh config := by
  cases pc with
  | test elapsed =>
    obtain rfl := Option.some.inj next
    exact Nat.lt_succ_self _
  | sleep elapsed =>
    simp only [ResolverPc.next, if_true] at next
    split at next <;> obtain rfl := Option.some.inj next <;> simp only [untilRefresh] <;> omega
  | refresh | exited => cases next

/-- What a forwarder's resolver thread does in a step, is a step of the loop. -/
theorem ResolverRun.step_follows {pc : ResolverPc}
    (follows : r.pc.next config running = some pc ∨ (r.pc = .refresh ∧ pc = .test 0)) :
    ∃ r', r.step config running = some r' ∧ r'.pc = pc := by
  obtain ⟨at_, iterations, attempts⟩ := r
  unfold ResolverRun.step
  cases at_ with
  | test elapsed =>
    have next := follows.resolve_right (by simp)
    exact ⟨_, Option.map_eq_some_iff.mpr ⟨pc, next, rfl⟩, rfl⟩
  | sleep elapsed =>
    have next := follows.resolve_right (by simp)
    refine ⟨_, Option.map_eq_some_iff.mpr ⟨pc, next, rfl⟩, ?_⟩
    cases pc <;> rfl
  | refresh =>
    rcases follows with next | ⟨-, rfl⟩
    · cases next
    · exact ⟨_, rfl, rfl⟩
  | exited =>
    have next := follows.resolve_right (by simp)
    cases next

/-! ### Runs -/

/-- Between attempts the loop counts the sleeps of one period. -/
def ResolverRun.Counts (config : ForwardConfig) (r : ResolverRun) : Prop :=
  match r.pc with
  | .test elapsed | .sleep elapsed =>
    ∃ i < refreshPeriod config, elapsed = 200 * i ∧
      r.iterations = r.attempts * refreshPeriod config + i
  | .refresh => r.iterations + 1 = (r.attempts + 1) * refreshPeriod config
  | .exited => True

theorem ResolverRun.Move.counts (move : r.Move config r') (before : r.Counts config) :
    r'.Counts config := by
  have positive : 0 < refreshPeriod config := by
    unfold refreshPeriod
    omega
  unfold ResolverRun.Counts at before
  cases move with
  | test pc =>
    rw [pc] at before
    exact before
  | stop => trivial
  | again pc early =>
    rw [pc] at before
    obtain ⟨i, -, rfl, counted⟩ := before
    exact ⟨i + 1, sleep_continues.mp early, by omega, by rw [counted]; rfl⟩
  | due pc due =>
    rw [pc] at before
    obtain ⟨i, within, rfl, counted⟩ := before
    -- this was the last sleep of the period
    have last : i + 1 = refreshPeriod config := by
      have := mt sleep_continues.mpr due
      omega
    change r.iterations + 1 = (r.attempts + 1) * refreshPeriod config
    rw [counted, Nat.succ_mul, ← last]
    rfl
  | refresh pc =>
    rw [pc] at before
    exact ⟨0, positive, rfl, before⟩

theorem counts_reached {ok : ResolverRun → Bool → Prop}
    (reached : (resolverLoop config).Reach ok r) : r.Counts config := by
  refine reached.invariant (P := ResolverRun.Counts config) ?_ ?_
  · rintro _ rfl
    exact ⟨0, by unfold refreshPeriod; omega, rfl, by simp⟩
  · intro r r' running _ before _ moved
    exact (ResolverRun.step_move moved).counts before

/-- At the head of the loop one attempt has been made for every period completed. -/
theorem attempts_reached {ok : ResolverRun → Bool → Prop}
    (reached : (resolverLoop config).Reach ok r) {elapsed : Nat} (head : r.pc = .test elapsed) :
    r.attempts = r.iterations / refreshPeriod config := by
  have counted := counts_reached reached
  unfold ResolverRun.Counts at counted
  rw [head] at counted
  obtain ⟨i, within, -, counted⟩ := counted
  rw [counted, Nat.mul_comm, Nat.mul_add_div (by omega), Nat.div_eq_of_lt within, Nat.add_zero]

/-- While `running_` stays set the loop completes any number of iterations. -/
theorem iterations_unbounded (k : Nat) :
    ∃ r elapsed, (resolverLoop config).Reach Machine.anyStep r ∧ r.pc = .test elapsed ∧
      r.iterations = k := by
  induction k with
  | zero => exact ⟨{}, 0, .start rfl, rfl, rfl⟩
  | succ k ih =>
    obtain ⟨⟨pc, iterations, attempts⟩, elapsed, reached, rfl, rfl⟩ := ih
    have slept : (resolverLoop config).Reach Machine.anyStep ⟨.sleep elapsed, iterations, attempts⟩ :=
      .next (a := true) reached trivial rfl
    by_cases early : elapsed + 200 < refreshIntervalMs config
    · refine ⟨⟨.test (elapsed + 200), iterations + 1, attempts⟩, _, ?_, rfl, rfl⟩
      apply Machine.Reach.next (a := true) slept trivial
      simp [resolverLoop, ResolverRun.step, ResolverPc.next, early]
    · have due : (resolverLoop config).Reach Machine.anyStep ⟨.refresh, iterations, attempts⟩ := by
        apply Machine.Reach.next (a := true) slept trivial
        simp [resolverLoop, ResolverRun.step, ResolverPc.next, early]
      exact ⟨⟨.test 0, iterations + 1, attempts + 1⟩, 0, .next (a := true) due trivial rfl, rfl, rfl⟩

/-- In every run of `ResolverLoop`, after `k` completed iterations the target has been
resolved `200 * k / (60000 * m)` times, `m` being the configured minutes, if and only if
the interval in milliseconds fits the 32-bit word it is computed in. -/
theorem refresh_schedule_iff (config : ForwardConfig) :
    (∀ r elapsed, (resolverLoop config).Reach Machine.anyStep r → r.pc = .test elapsed →
      r.attempts = 200 * r.iterations / (60000 * refreshMinutes config)) ↔
    refreshMinutes config * 60000 < UInt32.size := by
  have minutes : 0 < refreshMinutes config := refreshMinutes_pos
  have reduce (k : Nat) :
      200 * k / (60000 * refreshMinutes config) = k / (300 * refreshMinutes config) := by
    rw [show 60000 * refreshMinutes config = 200 * (300 * refreshMinutes config) by omega,
      Nat.mul_div_mul_left _ _ (by decide)]
  constructor
  · intro exact_
    by_contra wraps
    rw [UInt32.size] at wraps
    -- the first attempt comes after one period, before the configured interval is over
    have short : refreshPeriod config < 300 * refreshMinutes config := by
      unfold refreshPeriod
      rw [refreshIntervalMs_eq, UInt32.size]
      omega
    obtain ⟨r, elapsed, reached, head, count⟩ := iterations_unbounded (refreshPeriod config)
    have attempts := attempts_reached reached head
    rw [exact_ r elapsed reached head, reduce, count, Nat.div_eq_of_lt short, Nat.div_self] at attempts
    · cases attempts
    · unfold refreshPeriod
      omega
  · intro fits r elapsed reached head
    have period : refreshPeriod config = 300 * refreshMinutes config := by
      unfold refreshPeriod
      rw [refreshIntervalMs_eq, Nat.mod_eq_of_lt fits]
      omega
    rw [attempts_reached reached head, period, reduce]

/-- An interval of 71583 minutes, almost fifty days, wraps to 12704 ms: the target is
resolved again after 64 iterations. -/
theorem long_interval_wraps :
    ∃ r, (resolverLoop { dnsRefreshIntervalMinutes := 71583 }).Reach Machine.anyStep r ∧
      r.pc = .test 0 ∧ r.iterations = 64 ∧ r.attempts = 1 ∧
      200 * r.iterations / (60000 * refreshMinutes { dnsRefreshIntervalMinutes := 71583 }) = 0 := by
  obtain ⟨r, elapsed, reached, head, count⟩ :=
    @iterations_unbounded { dnsRefreshIntervalMinutes := 71583 } 64
  have attempts := attempts_reached reached head
  have counted := counts_reached reached
  have period : refreshPeriod { dnsRefreshIntervalMinutes := 71583 } = 64 := by decide
  rw [count, period] at attempts
  unfold ResolverRun.Counts at counted
  rw [head, attempts, count, period] at counted
  obtain ⟨i, -, rfl, total⟩ := counted
  obtain rfl : i = 0 := by omega
  exact ⟨r, reached, head, count, attempts, by rw [count]; decide⟩

end PortForwardX.Net
