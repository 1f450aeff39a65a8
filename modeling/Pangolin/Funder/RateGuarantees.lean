import Pangolin.Funder.RateLimitRuns

/-!
# What the rate limiter guarantees

Whatever checks run concurrently, the bounds hold of every span that follows a state of a run:
of one address, of all addresses in an hour and in one window, and of the bucket a refused check
leaves.
-/

namespace Pangolin.Funder.RateLimit

open Transition

variable {Address : Type} [DecidableEq Address]
variable {config : RateLimitConfig} {state : Service Address}

/-- The guarantees from a state on. -/
structure Limits (config : RateLimitConfig) (state : Service Address) : Prop where
  bucket : ∀ addr bucket, state.limiter.perAddress.get? addr = some bucket →
    bucket.tokens ≤ config.perAddressBucketSize
  /-- One address, in a span in which its bucket is not dropped. -/
  address : ∀ addr origin duration next, origin + duration < horizon →
    Reaches (serve config) (Kept addr origin duration) state next →
    allowedTo addr next.answers ≤ allowedTo addr state.answers + underWay addr state.calls +
      (config.perAddressBucketSize + duration / config.interval + 1)
  /-- One address, within an hour of the first of its checks. -/
  address_hour : ∀ addr since origin duration next, origin + duration < horizon →
    since ≤ origin → (∀ call ∈ state.calls, call.addr = addr → since ≤ call.now) →
    origin + duration < since + bucketTtlSecs * second →
    Reaches (serve config) (During origin (origin + duration)) state next →
    allowedTo addr next.answers ≤ allowedTo addr state.answers + underWay addr state.calls +
      (config.perAddressBucketSize + duration / config.interval + 1)
  /-- All addresses, in an hour. -/
  hour : ∀ origin next, state.clock ≤ origin →
    Reaches (serve config) (During origin (origin + window)) state next →
    allowed next.answers ≤
      allowed state.answers + state.calls.length + 2 * config.globalCapPerHour
  /-- All addresses, in one window. -/
  one_window : ∀ next, Reaches (serve config) Timely state next →
    next.limiter.global.windowStart = state.limiter.global.windowStart →
    allowed next.answers + state.limiter.global.count =
        allowed state.answers + next.limiter.global.count ∧
      next.limiter.global.count ≤ config.globalCapPerHour
  /-- A check that the counter refuses leaves the bucket it found. -/
  refused : ∀ addr now retry,
    (checkPerAddress config addr now state.limiter.perAddress).2 = .allowed →
    (checkGlobal config now state.limiter.global).2 = .denied retry →
    (check config addr now state.limiter).2 = .denied retry ∧
      (∀ bucket, (evict now state.limiter.perAddress).get? addr = some bucket →
        ∃ after, (check config addr now state.limiter).1.perAddress.get? addr = some after ∧
          ∀ later, now ≤ later → later < horizon →
            (replenish config later after).tokens = (replenish config later bucket).tokens ∧
              (replenish config later after).lastReplenish =
                (replenish config later bucket).lastReplenish) ∧
      ((evict now state.limiter.perAddress).get? addr = none →
        (check config addr now state.limiter).1.perAddress.get? addr =
          some (fullBucket config now))
  /-- A second more than the time to wait is enough. -/
  retried : ∀ addr now later retry, state.clock ≤ now →
    1 ≤ config.perAddressBucketSize → 1 ≤ config.globalCapPerHour →
    now + (retry + 1) * second ≤ later →
    ((checkPerAddress config addr now state.limiter.perAddress).2 = .denied retry →
      (check config addr later (check config addr now state.limiter).1).2 =
        (checkGlobal config later state.limiter.global).2) ∧
    ((checkPerAddress config addr now state.limiter.perAddress).2 = .allowed →
      (checkGlobal config now state.limiter.global).2 = .denied retry →
      (check config addr later (check config addr now state.limiter).1).2 = .allowed)

/-- What every run keeps. -/
theorem sound_of_run {epoch : Nat}
    (run : Reaches (serve config) Timely (Service.new epoch) state) : Sound config state :=
  run.invariant (Sound config) (fun _ _ sound timely => sound_serve config sound timely)
    (sound_new epoch)

/-- The answer of a check that its bucket lets pass. -/
theorem check_of_allowed {addr : Address} {now : Nat} {limiter : RateLimiter Address}
    (first : (checkPerAddress config addr now limiter.perAddress).2 = .allowed) :
    (check config addr now limiter).2 = (checkGlobal config now limiter.global).2 := by
  cases second : (checkGlobal config now limiter.global).2 with
  | allowed => exact check_allowed first second
  | denied retry => rw [check_of_global_denial first second]

/-- A check that its bucket refuses does not touch the counter. -/
theorem check_of_denied {addr : Address} {now retry : Nat} {limiter : RateLimiter Address}
    (first : (checkPerAddress config addr now limiter.perAddress).2 = .denied retry) :
    (check config addr now limiter).1 =
      ⟨(checkPerAddress config addr now limiter.perAddress).1, limiter.global⟩ := by
  unfold check
  rw [show checkPerAddress config addr now limiter.perAddress =
    ((checkPerAddress config addr now limiter.perAddress).1, .denied retry) from
      Prod.ext rfl first]

/-- The limits hold from every state of every run. -/
theorem rate_limits (interval : 1 ≤ config.perAddressReplenishIntervalSecs) {epoch : Nat}
    (run : Reaches (serve config) Timely (Service.new epoch) state) : Limits config state := by
  have sound := sound_of_run run
  exact {
    bucket := sound.tokens_le
    address := fun addr origin duration next soon span =>
      allowedTo_le_of_kept interval sound soon span
    address_hour := fun addr since origin duration next soon early recent short span =>
      allowedTo_le_of_hour interval sound soon early recent short span
    hour := fun origin next starts span => allowed_le sound starts span
    one_window := fun next more same => by
      refine ⟨?_, (sound_of_run (run.trans more)).count_le⟩
      rcases allowed_of_window more with later | ⟨-, counted⟩
      · exact absurd later (same ▸ Nat.lt_irrefl _)
      · exact counted
    refused := fun addr now retry first second => by
      refine ⟨by rw [check_of_global_denial first second], ?_, ?_⟩
      · intro bucket held
        exact later_of_global_denial interval held
          (sound.tokens_le addr bucket (get?_of_evict held)) first second
      · intro absent
        exact full_of_global_denial interval absent first second
    retried := fun addr now later retry timely size cap waits => by
      refine ⟨?_, ?_⟩
      · intro first
        rw [check_of_denied first]
        apply check_of_allowed
        apply retry_per_address interval size _ first waits
        intro bucket held
        exact Nat.le_trans (sound.lastReplenish_le addr bucket held) timely
      · intro first second
        exact retry_global interval size cap (Nat.le_trans sound.windowStart_le timely)
          (sound.tokens_le addr) first second waits }

/-- A check with no other in between. -/
def alone (addr time : Nat) : List (Event Nat) :=
  ⟨time, .call addr⟩ :: List.replicate 3 ⟨time, .resume 0⟩

/-- The guarantees of the default configuration after two checks. -/
theorem rate_limits_default :
    Limits .default ((alone 1 0 ++ alone 2 second).foldl (serve .default) (Service.new 0)) :=
  rate_limits (by decide) (Reaches.foldl _ (by decide +kernel))

/-- The outcomes of a run, in the order of the answers. -/
def outcomes (config : RateLimitConfig) (events : List (Event Nat)) : List RateLimitOutcome :=
  (events.foldl (serve config) (Service.new 0)).answers.map Answer.outcome

/-- Two windows meet in one second, an idle bucket is dropped, the token of a check the counter is
about to refuse is missing to another one, the time to wait is cut to whole seconds, and a bucket
catches up at most `u32Max` intervals at once. -/
theorem limits_exceeded :
    outcomes ⟨10, 600, 1, by decide⟩ (alone 1 (3599 * second) ++ alone 2 (3600 * second)) =
        [.allowed, .allowed] ∧
      allowedTo 0 ((((List.replicate 10 (alone 0 0)).flatten ++
          ((List.range 65).map fun other => alone (other + 1) 0).flatten ++
          (List.replicate 10 (alone 0 (3600 * second))).flatten).foldl
            (serve .default) (Service.new 0)).answers) = 20 ∧
      outcomes ⟨1, 600, 1, by decide⟩ (alone 2 0 ++ alone 1 (3600 * second)) =
        [.allowed, .allowed] ∧
      outcomes ⟨1, 600, 1, by decide⟩ (alone 2 0 ++
          [⟨3599 * second, .call 1⟩, ⟨3599 * second, .resume 0⟩,
            ⟨3600 * second, .call 1⟩, ⟨3600 * second, .resume 1⟩,
            ⟨3600 * second, .resume 0⟩, ⟨3600 * second, .resume 0⟩]) =
        [.allowed, .denied 599, .denied 1] ∧
      outcomes ⟨1, 10, 100, by decide⟩ (alone 1 0 ++ alone 1 (second / 2) ++
          alone 1 (second / 2 + 9 * second)) = [.allowed, .denied 9, .denied 1] ∧
      outcomes ⟨1, 1, 100, by decide⟩ (alone 1 0 ++ alone 1 (10 * horizon) ++
          alone 1 (10 * horizon) ++ alone 1 (10 * horizon)) =
        [.allowed, .allowed, .allowed, .allowed] := by
  decide +kernel

end Pangolin.Funder.RateLimit
