import Mathlib.Algebra.Ring.Nat
import Pangolin.Lib.KeyMap

/-!
# The layered rate limiter

Every address has a bucket of tokens that fills up lazily, and all addresses share a counter
that starts again an hour after its window began.  A check takes a token, then asks the
counter, and gives the token back when the counter refuses.  Instants and durations are
nanoseconds since the limiter's epoch.
-/

namespace Pangolin.Funder.RateLimit

/-! ## Constants and state -/

/-- One second. -/
def second : Nat := 10 ^ 9

/-- `BUCKET_TTL_SECS`. -/
def bucketTtlSecs : Nat := 3600

/-- The window of the global counter. -/
def window : Nat := 3600 * second

def u32Max : Nat := 2 ^ 32 - 1

def u64Max : Nat := 2 ^ 64 - 1

structure TokenBucketState where
  tokens : Nat
  lastReplenish : Nat
  lastSeen : Nat
  deriving Repr, DecidableEq

structure GlobalCounterState where
  count : Nat
  windowStart : Nat
  deriving Repr, DecidableEq

structure RateLimitConfig where
  perAddressBucketSize : Nat
  perAddressReplenishIntervalSecs : Nat
  globalCapPerHour : Nat
  bucketSize_fits : perAddressBucketSize ≤ u32Max

/-- `RateLimitConfig::default`. -/
def RateLimitConfig.default : RateLimitConfig := ⟨10, 600, 200, by decide⟩

inductive RateLimitOutcome where
  | allowed
  | denied (retryAfterSeconds : Nat)
  deriving Repr, DecidableEq

variable {Address : Type} [DecidableEq Address]

abbrev Buckets (Address : Type) := KeyMap Address TokenBucketState

structure RateLimiter (Address : Type) where
  perAddress : Buckets Address
  global : GlobalCounterState

/-- `RateLimiter::new` at an instant. -/
def RateLimiter.new (now : Nat) : RateLimiter Address := ⟨.empty, ⟨0, now⟩⟩

/-! ## The two layers -/

section

variable (config : RateLimitConfig)

def RateLimitConfig.interval : Nat := config.perAddressReplenishIntervalSecs * second

/-- The lazy eviction: only a map of more than 64 entries is walked. -/
def evict (now : Nat) (map : Buckets Address) : Buckets Address :=
  if 64 < map.size then
    map.retain fun bucket => now - bucket.lastSeen < bucketTtlSecs * second
  else
    map

/-- The lazy replenishment.  Both conversions to `u32` saturate. -/
def replenish (now : Nat) (entry : TokenBucketState) : TokenBucketState :=
  let elapsed := now - entry.lastReplenish
  if 0 < config.perAddressReplenishIntervalSecs ∧ config.interval ≤ elapsed then
    let intervalsElapsed := elapsed / second / config.perAddressReplenishIntervalSecs
    let newTokens := min (entry.tokens + intervalsElapsed) u64Max
    { entry with
      tokens := min (min newTokens config.perAddressBucketSize) u32Max
      lastReplenish := entry.lastReplenish + config.interval * min intervalsElapsed u32Max }
  else
    entry

/-- Seconds until a duration is over, rounded down, and at least one. -/
def retryAfter (duration elapsed : Nat) : Nat := max ((duration - elapsed) / second) 1

/-- The decision on a replenished bucket. -/
def takeToken (now : Nat) (entry : TokenBucketState) : TokenBucketState × RateLimitOutcome :=
  let entry := { entry with lastSeen := now }
  if entry.tokens = 0 then
    (entry, .denied (retryAfter config.interval (now - entry.lastReplenish)))
  else
    ({ entry with tokens := entry.tokens - 1 }, .allowed)

/-- The bucket of a new address. -/
def fullBucket (now : Nat) : TokenBucketState := ⟨config.perAddressBucketSize, now, now⟩

/-- `check_per_address`. -/
def checkPerAddress (addr : Address) (now : Nat) (map : Buckets Address) :
    Buckets Address × RateLimitOutcome :=
  let map := evict now map
  let entry := (map.get? addr).getD (fullBucket config now)
  let taken := takeToken config now (replenish config now entry)
  (map.set addr taken.1, taken.2)

/-- `check_global`. -/
def checkGlobal (now : Nat) (state : GlobalCounterState) :
    GlobalCounterState × RateLimitOutcome :=
  let state := if window ≤ now - state.windowStart then ⟨0, now⟩ else state
  if config.globalCapPerHour ≤ state.count then
    (state, .denied (retryAfter window (now - state.windowStart)))
  else
    ({ state with count := state.count + 1 }, .allowed)

/-- `refund_per_address`. -/
def refundPerAddress (addr : Address) (map : Buckets Address) : Buckets Address :=
  match map.get? addr with
  | none => map
  | some entry =>
      let tokens := min (min (entry.tokens + 1) u32Max) config.perAddressBucketSize
      map.set addr { entry with tokens }

/-- `check`, when no other check comes between its locks. -/
def check (addr : Address) (now : Nat) (limiter : RateLimiter Address) :
    RateLimiter Address × RateLimitOutcome :=
  match checkPerAddress config addr now limiter.perAddress with
  | (perAddress, .denied retry) => ({ limiter with perAddress }, .denied retry)
  | (perAddress, .allowed) =>
      match checkGlobal config now limiter.global with
      | (global, .allowed) => (⟨perAddress, global⟩, .allowed)
      | (global, .denied retry) =>
          (⟨refundPerAddress config addr perAddress, global⟩, .denied retry)

/-! ## Replenishment -/

/-- Until then no bucket can be so many intervals behind that their number does not fit. -/
def horizon : Nat := 2 ^ 32 * second

variable {config} {entry : TokenBucketState} {now later : Nat}

/-- Whole seconds over whole seconds are whole intervals. -/
theorem intervals_eq (elapsed : Nat) :
    elapsed / second / config.perAddressReplenishIntervalSecs = elapsed / config.interval := by
  rw [Nat.div_div_eq_div_mul, RateLimitConfig.interval, Nat.mul_comm]

theorem interval_pos (interval : 1 ≤ config.perAddressReplenishIntervalSecs) :
    0 < config.interval :=
  Nat.mul_pos interval (by decide)

/-- A bucket is never over its size. -/
theorem replenish_tokens_le (bounded : entry.tokens ≤ config.perAddressBucketSize) :
    (replenish config now entry).tokens ≤ config.perAddressBucketSize := by
  unfold replenish
  dsimp only
  split
  · exact Nat.le_trans (Nat.min_le_left _ _) (Nat.min_le_right _ _)
  · exact bounded

@[simp] theorem replenish_lastSeen : (replenish config now entry).lastSeen = entry.lastSeen := by
  unfold replenish
  dsimp only
  split <;> rfl

variable (entry) in
/-- What replenishing does, as long as the number of intervals fits. -/
theorem replenish_eq (interval : 1 ≤ config.perAddressReplenishIntervalSecs)
    (soon : now < horizon) :
    let intervals := (now - entry.lastReplenish) / config.interval
    (replenish config now entry).lastReplenish =
        entry.lastReplenish + config.interval * intervals ∧
      (replenish config now entry).tokens =
        if intervals = 0 then entry.tokens
        else min (entry.tokens + intervals)
          (min u64Max (min config.perAddressBucketSize u32Max)) := by
  intro intervals
  have positive := interval_pos interval
  have fits : intervals ≤ u32Max := by
    have wide : second ≤ config.interval := Nat.le_mul_of_pos_left _ interval
    have below : now - entry.lastReplenish < 2 ^ 32 * config.interval :=
      Nat.lt_of_lt_of_le (Nat.lt_of_le_of_lt (Nat.sub_le _ _) soon) (Nat.mul_le_mul_left _ wide)
    have few : intervals < 2 ^ 32 := Nat.div_lt_of_lt_mul (by rwa [Nat.mul_comm])
    exact Nat.le_sub_one_of_lt few
  unfold replenish
  dsimp only
  by_cases due : config.interval ≤ now - entry.lastReplenish
  · have some_due : intervals ≠ 0 := Nat.ne_of_gt (Nat.div_pos due positive)
    rw [if_pos ⟨interval, due⟩, if_neg some_due, intervals_eq]
    refine ⟨?_, ?_⟩
    · dsimp only
      rw [Nat.min_eq_left fits]
    · dsimp only
      rw [Nat.min_assoc, Nat.min_assoc]
  · have none_due : intervals = 0 := Nat.div_eq_of_lt (Nat.lt_of_not_le due)
    rw [if_neg fun both => due both.2, if_pos none_due, none_due, Nat.mul_zero, Nat.add_zero]
    exact ⟨rfl, rfl⟩

/-- Replenishing on the way changes nothing of what replenishing later gives. -/
theorem replenish_replenish (interval : 1 ≤ config.perAddressReplenishIntervalSecs)
    (order : now ≤ later) (soon : later < horizon) :
    (replenish config later (replenish config now entry)).tokens =
        (replenish config later entry).tokens ∧
      (replenish config later (replenish config now entry)).lastReplenish =
        (replenish config later entry).lastReplenish := by
  obtain ⟨firstTime, firstTokens⟩ := replenish_eq entry interval
    (Nat.lt_of_le_of_lt order soon)
  obtain ⟨bothTime, bothTokens⟩ := replenish_eq (replenish config now entry) interval soon
  obtain ⟨laterTime, laterTokens⟩ := replenish_eq entry interval soon
  rw [bothTokens, bothTime, laterTokens, laterTime, firstTime, firstTokens]
  generalize firstEq : (now - entry.lastReplenish) / config.interval = first
  have rest : (later - (entry.lastReplenish + config.interval * first)) / config.interval =
      (later - entry.lastReplenish) / config.interval - first := by
    rw [← Nat.sub_sub, Nat.sub_mul_div]
  have fewer : first ≤ (later - entry.lastReplenish) / config.interval := by
    rw [← firstEq]
    exact Nat.div_le_div_right (Nat.sub_le_sub_right order _)
  rw [rest]
  generalize (later - entry.lastReplenish) / config.interval = whole at fewer ⊢
  generalize min u64Max (min config.perAddressBucketSize u32Max) = cap
  clear rest firstTime firstTokens bothTime bothTokens laterTime laterTokens
  constructor
  · split <;> split <;> split <;> omega
  · rw [Nat.add_assoc, ← Nat.mul_add]
    congr 2
    omega

/-- Replenishing does not look at when the bucket was last seen. -/
theorem replenish_seen (seen : Nat) :
    replenish config now { entry with lastSeen := seen } =
      { replenish config now entry with lastSeen := seen } := by
  unfold replenish
  dsimp only
  split <;> rfl

/-- A bucket that is due has a token. -/
theorem replenish_pos (interval : 1 ≤ config.perAddressReplenishIntervalSecs)
    (size : 1 ≤ config.perAddressBucketSize) (due : config.interval ≤ now - entry.lastReplenish) :
    1 ≤ (replenish config now entry).tokens := by
  have positive : 1 ≤ (now - entry.lastReplenish) / second /
      config.perAddressReplenishIntervalSecs := by
    rw [intervals_eq]
    exact Nat.div_pos due (interval_pos interval)
  unfold replenish
  dsimp only
  rw [if_pos ⟨interval, due⟩]
  dsimp only
  exact Nat.le_min.mpr ⟨Nat.le_min.mpr ⟨Nat.le_min.mpr ⟨Nat.le_add_left_of_le positive,
    by decide⟩, size⟩, by decide⟩

/-- Replenishing leaves a token of a bucket that has one. -/
theorem replenish_keeps (some_left : 1 ≤ entry.tokens)
    (bounded : entry.tokens ≤ config.perAddressBucketSize) :
    1 ≤ (replenish config now entry).tokens := by
  unfold replenish
  dsimp only
  split
  · exact Nat.le_min.mpr ⟨Nat.le_min.mpr ⟨Nat.le_min.mpr ⟨Nat.le_add_right_of_le some_left,
      by decide⟩, Nat.le_trans some_left bounded⟩, by decide⟩
  · exact some_left

theorem replenish_fullBucket (interval : 1 ≤ config.perAddressReplenishIntervalSecs) :
    replenish config now (fullBucket config now) = fullBucket config now := by
  unfold replenish fullBucket
  dsimp only
  rw [if_neg]
  intro due
  rw [Nat.sub_self] at due
  exact absurd due.2 (Nat.not_le.mpr (interval_pos interval))

/-! ## Taking a token -/

theorem takeToken_allowed (taken : (takeToken config now entry).2 = .allowed) :
    1 ≤ entry.tokens ∧ (takeToken config now entry).1 = ⟨entry.tokens - 1, entry.lastReplenish, now⟩ := by
  unfold takeToken at *
  dsimp only at *
  split at taken
  · cases taken
  · next some_left =>
      rw [if_neg some_left]
      exact ⟨Nat.one_le_iff_ne_zero.mpr some_left, rfl⟩

theorem takeToken_denied {retry : Nat} (taken : (takeToken config now entry).2 = .denied retry) :
    entry.tokens = 0 ∧ (takeToken config now entry).1 = ⟨0, entry.lastReplenish, now⟩ ∧
      retry = retryAfter config.interval (now - entry.lastReplenish) := by
  unfold takeToken at *
  dsimp only at *
  split at taken
  · next none_left =>
      rw [if_pos none_left, none_left]
      cases taken
      exact ⟨rfl, rfl, rfl⟩
  · cases taken

theorem takeToken_of_pos (some_left : 1 ≤ entry.tokens) :
    (takeToken config now entry).2 = .allowed := by
  unfold takeToken
  dsimp only
  rw [if_neg (Nat.one_le_iff_ne_zero.mp some_left)]

end

/-! ## The map of buckets -/

section

variable {config : RateLimitConfig} {addr other : Address} {now : Nat} {map : Buckets Address}

variable (addr now map) in
/-- An eviction drops a bucket or leaves it. -/
theorem get?_evict : (evict now map).get? addr = map.get? addr ∨
    (evict now map).get? addr = none := by
  unfold evict
  split
  · rw [KeyMap.get?_retain]
    cases map.get? addr with
    | none => exact .inl rfl
    | some bucket =>
        rw [Option.filter_some]
        split
        · exact .inl rfl
        · exact .inr rfl
  · exact .inl rfl

theorem get?_of_evict {bucket : TokenBucketState}
    (kept : (evict now map).get? addr = some bucket) : map.get? addr = some bucket := by
  rcases get?_evict addr now map with same | dropped
  · rwa [same] at kept
  · rw [dropped] at kept
    cases kept

/-- A bucket seen within the hour is not dropped. -/
theorem get?_evict_of_seen {bucket : TokenBucketState} (held : map.get? addr = some bucket)
    (seen : now - bucket.lastSeen < bucketTtlSecs * second) :
    (evict now map).get? addr = some bucket := by
  unfold evict
  split
  · rw [KeyMap.get?_retain, held, Option.filter_some, if_pos (decide_eq_true seen)]
  · exact held

/-- The bucket a check works on. -/
def entryOf (config : RateLimitConfig) (addr : Address) (now : Nat) (map : Buckets Address) :
    TokenBucketState :=
  replenish config now (((evict now map).get? addr).getD (fullBucket config now))

theorem checkPerAddress_outcome :
    (checkPerAddress config addr now map).2 =
      (takeToken config now (entryOf config addr now map)).2 := rfl

variable (now) in
theorem entryOf_tokens_le
    (bounded : ∀ bucket, map.get? addr = some bucket →
      bucket.tokens ≤ config.perAddressBucketSize) :
    (entryOf config addr now map).tokens ≤ config.perAddressBucketSize := by
  apply replenish_tokens_le
  cases found : (evict now map).get? addr with
  | none => exact Nat.le_refl _
  | some bucket => exact bounded bucket (get?_of_evict found)

@[simp] theorem get?_checkPerAddress_self :
    (checkPerAddress config addr now map).1.get? addr =
      some (takeToken config now (entryOf config addr now map)).1 :=
  KeyMap.get?_set_self

theorem get?_checkPerAddress_of_ne (different : other ≠ addr) :
    (checkPerAddress config addr now map).1.get? other = (evict now map).get? other :=
  KeyMap.get?_set_of_ne different

theorem get?_refund_self {bucket : TokenBucketState} (held : map.get? addr = some bucket) :
    (refundPerAddress config addr map).get? addr = some { bucket with
      tokens := min (min (bucket.tokens + 1) u32Max) config.perAddressBucketSize } := by
  unfold refundPerAddress
  rw [held]
  exact KeyMap.get?_set_self

theorem get?_refund_of_none (absent : map.get? addr = none) :
    refundPerAddress config addr map = map := by
  unfold refundPerAddress
  rw [absent]

theorem get?_refund_of_ne (different : other ≠ addr) :
    (refundPerAddress config addr map).get? other = map.get? other := by
  unfold refundPerAddress
  split
  · rfl
  · exact KeyMap.get?_set_of_ne different

end

/-! ## A check on its own -/

section

variable {config : RateLimitConfig} {addr : Address} {now later retry : Nat}
variable {limiter : RateLimiter Address}

/-- Both layers of a check that the counter refuses, and the refund. -/
theorem check_of_global_denial
    (first : (checkPerAddress config addr now limiter.perAddress).2 = .allowed)
    (refused : (checkGlobal config now limiter.global).2 = .denied retry) :
    check config addr now limiter =
      (⟨refundPerAddress config addr (checkPerAddress config addr now limiter.perAddress).1,
        (checkGlobal config now limiter.global).1⟩, .denied retry) := by
  unfold check
  rw [show checkPerAddress config addr now limiter.perAddress =
    ((checkPerAddress config addr now limiter.perAddress).1, .allowed) from
      Prod.ext rfl first]
  dsimp only
  rw [show checkGlobal config now limiter.global =
    ((checkGlobal config now limiter.global).1, .denied retry) from Prod.ext rfl refused]

/-- The bucket a refused check leaves: the one it found, replenished. -/
theorem bucket_of_global_denial
    (bounded : (entryOf config addr now limiter.perAddress).tokens ≤ config.perAddressBucketSize)
    (first : (checkPerAddress config addr now limiter.perAddress).2 = .allowed)
    (refused : (checkGlobal config now limiter.global).2 = .denied retry) :
    (check config addr now limiter).1.perAddress.get? addr =
      some { entryOf config addr now limiter.perAddress with lastSeen := now } := by
  obtain ⟨some_left, taken⟩ := takeToken_allowed (checkPerAddress_outcome.symm.trans first)
  have fits := config.bucketSize_fits
  have held : (checkPerAddress config addr now limiter.perAddress).1.get? addr =
      some (takeToken config now (entryOf config addr now limiter.perAddress)).1 :=
    get?_checkPerAddress_self
  rw [taken] at held
  rw [check_of_global_denial first refused, get?_refund_self held]
  generalize entryOf config addr now limiter.perAddress = entry at *
  have same : min (min (entry.tokens - 1 + 1) u32Max) config.perAddressBucketSize =
      entry.tokens := by
    rw [Nat.sub_add_cancel some_left, Nat.min_eq_left (Nat.le_trans bounded fits),
      Nat.min_eq_left bounded]
  simp only [same]

/-- A bucket that a refused check finds will have at any later time what it would have had
without the check. -/
theorem later_of_global_denial (interval : 1 ≤ config.perAddressReplenishIntervalSecs)
    {bucket : TokenBucketState} (held : (evict now limiter.perAddress).get? addr = some bucket)
    (bounded : bucket.tokens ≤ config.perAddressBucketSize)
    (first : (checkPerAddress config addr now limiter.perAddress).2 = .allowed)
    (refused : (checkGlobal config now limiter.global).2 = .denied retry) :
    ∃ after, (check config addr now limiter).1.perAddress.get? addr = some after ∧
      ∀ later, now ≤ later → later < horizon →
        (replenish config later after).tokens = (replenish config later bucket).tokens ∧
          (replenish config later after).lastReplenish =
            (replenish config later bucket).lastReplenish := by
  have entry : entryOf config addr now limiter.perAddress = replenish config now bucket := by
    rw [entryOf, held, Option.getD_some]
  have small : (entryOf config addr now limiter.perAddress).tokens ≤
      config.perAddressBucketSize := by
    rw [entry]
    exact replenish_tokens_le bounded
  refine ⟨_, bucket_of_global_denial small first refused, ?_⟩
  intro later order soon
  rw [replenish_seen, entry]
  exact replenish_replenish interval order soon

/-- A refused check leaves a full bucket for an address without one. -/
theorem full_of_global_denial (interval : 1 ≤ config.perAddressReplenishIntervalSecs)
    (absent : (evict now limiter.perAddress).get? addr = none)
    (first : (checkPerAddress config addr now limiter.perAddress).2 = .allowed)
    (refused : (checkGlobal config now limiter.global).2 = .denied retry) :
    (check config addr now limiter).1.perAddress.get? addr = some (fullBucket config now) := by
  have entry : entryOf config addr now limiter.perAddress = fullBucket config now := by
    rw [entryOf, absent, Option.getD_none, replenish_fullBucket interval]
  have small : (entryOf config addr now limiter.perAddress).tokens ≤
      config.perAddressBucketSize := by
    rw [entry]
    exact Nat.le_refl _
  rw [bucket_of_global_denial small first refused, entry]
  rfl

/-! ## Waiting -/

/-- A second more than the rounded time is enough for what was left. -/
theorem retryAfter_covers (duration elapsed waited : Nat)
    (waits : (retryAfter duration elapsed + 1) * second ≤ waited) :
    duration ≤ elapsed + waited := by
  have rounded : (duration - elapsed) / second ≤ retryAfter duration elapsed :=
    Nat.le_max_left _ _
  have whole : duration - elapsed < ((duration - elapsed) / second + 1) * second := by
    rw [Nat.mul_comm]
    exact Nat.lt_mul_div_succ _ (by decide)
  have enough : ((duration - elapsed) / second + 1) * second ≤ waited :=
    Nat.le_trans (Nat.mul_le_mul_right second (Nat.succ_le_succ rounded)) waits
  omega

/-- An empty bucket was not due, so that it is as the map held it. -/
theorem lastReplenish_of_empty (interval : 1 ≤ config.perAddressReplenishIntervalSecs)
    (size : 1 ≤ config.perAddressBucketSize) {map : Buckets Address}
    (known : ∀ bucket, map.get? addr = some bucket → bucket.lastReplenish ≤ now)
    (empty : (entryOf config addr now map).tokens = 0) :
    (entryOf config addr now map).lastReplenish ≤ now := by
  unfold entryOf at empty ⊢
  cases found : (evict now map).get? addr with
  | none =>
      rw [Option.getD_none, replenish_fullBucket interval]
      exact Nat.le_refl _
  | some bucket =>
      rw [found, Option.getD_some] at empty
      rw [Option.getD_some]
      by_cases due : config.interval ≤ now - bucket.lastReplenish
      · have some_left := replenish_pos interval size due
        omega
      · have same : replenish config now bucket = bucket := if_neg fun both => due both.2
        rw [same]
        exact known bucket (get?_of_evict found)

/-- After the time to wait, and a second, the bucket that refused has a token. -/
theorem retry_per_address (interval : 1 ≤ config.perAddressReplenishIntervalSecs)
    (size : 1 ≤ config.perAddressBucketSize) {map : Buckets Address}
    (known : ∀ bucket, map.get? addr = some bucket → bucket.lastReplenish ≤ now)
    (refused : (checkPerAddress config addr now map).2 = .denied retry)
    (waits : now + (retry + 1) * second ≤ later) :
    (checkPerAddress config addr later (checkPerAddress config addr now map).1).2 =
      .allowed := by
  obtain ⟨empty, left, rfl⟩ := takeToken_denied (checkPerAddress_outcome.symm.trans refused)
  have origin := lastReplenish_of_empty interval size known empty
  have held : (checkPerAddress config addr now map).1.get? addr =
      some (takeToken config now (entryOf config addr now map)).1 :=
    get?_checkPerAddress_self
  rw [left] at held
  rw [checkPerAddress_outcome]
  apply takeToken_of_pos
  generalize (entryOf config addr now map).lastReplenish = replenished at *
  generalize (checkPerAddress config addr now map).1 = map' at held ⊢
  rw [entryOf]
  rcases get?_evict addr later map' with same | dropped
  · rw [same, held, Option.getD_some]
    apply replenish_pos interval size
    have covered := retryAfter_covers config.interval (now - replenished) (later - now) (by omega)
    dsimp only
    omega
  · rw [dropped, Option.getD_none, replenish_fullBucket interval]
    exact size

/-- A refusal of the counter is over after the time to wait, and a second. -/
theorem checkGlobal_retry (cap : 1 ≤ config.globalCapPerHour) {state : GlobalCounterState}
    (began : state.windowStart ≤ now) (refused : (checkGlobal config now state).2 = .denied retry)
    (waits : now + (retry + 1) * second ≤ later) :
    (checkGlobal config later (checkGlobal config now state).1).2 = .allowed := by
  have fresh : ¬ config.globalCapPerHour ≤ 0 := Nat.not_le.mpr cap
  by_cases passed : window ≤ now - state.windowStart
  · simp only [checkGlobal, passed, fresh, if_true, if_false] at refused
    cases refused
  · by_cases full : config.globalCapPerHour ≤ state.count
    · simp only [checkGlobal, passed, full, if_true, if_false] at refused ⊢
      cases refused
      have covered := retryAfter_covers window (now - state.windowStart) (later - now) (by omega)
      have old : window ≤ later - state.windowStart := by omega
      simp only [old, fresh, if_true, if_false]
    · simp only [checkGlobal, passed, full, if_false] at refused
      cases refused

/-- A check is allowed when both layers allow it. -/
theorem check_allowed (first : (checkPerAddress config addr now limiter.perAddress).2 = .allowed)
    (second : (checkGlobal config now limiter.global).2 = .allowed) :
    (check config addr now limiter).2 = .allowed := by
  unfold check
  rw [show checkPerAddress config addr now limiter.perAddress =
    ((checkPerAddress config addr now limiter.perAddress).1, .allowed) from Prod.ext rfl first]
  dsimp only
  rw [show checkGlobal config now limiter.global =
    ((checkGlobal config now limiter.global).1, .allowed) from Prod.ext rfl second]

/-- A check the counter refuses is allowed after the time to wait, and a second. -/
theorem retry_global (interval : 1 ≤ config.perAddressReplenishIntervalSecs)
    (size : 1 ≤ config.perAddressBucketSize) (cap : 1 ≤ config.globalCapPerHour)
    (began : limiter.global.windowStart ≤ now)
    (bounded : ∀ bucket, limiter.perAddress.get? addr = some bucket →
      bucket.tokens ≤ config.perAddressBucketSize)
    (first : (checkPerAddress config addr now limiter.perAddress).2 = .allowed)
    (refused : (checkGlobal config now limiter.global).2 = .denied retry)
    (waits : now + (retry + 1) * second ≤ later) :
    (check config addr later (check config addr now limiter).1).2 = .allowed := by
  obtain ⟨some_left, -⟩ := takeToken_allowed (checkPerAddress_outcome.symm.trans first)
  have small := entryOf_tokens_le now bounded
  have held := bucket_of_global_denial small first refused
  have counter := checkGlobal_retry cap began refused waits
  rw [check_of_global_denial first refused] at held ⊢
  apply check_allowed _ counter
  rw [checkPerAddress_outcome]
  apply takeToken_of_pos
  dsimp only at held ⊢
  rw [entryOf]
  rcases get?_evict addr later (refundPerAddress config addr (checkPerAddress config addr now limiter.perAddress).1) with same | dropped
  · rw [same, held, Option.getD_some]
    exact replenish_keeps some_left small
  · rw [dropped, Option.getD_none, replenish_fullBucket interval]
    exact size

end

end Pangolin.Funder.RateLimit
