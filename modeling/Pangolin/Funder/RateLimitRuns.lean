import Mathlib.Data.List.Count
import Pangolin.Funder.RateLimit
import Pangolin.Lib.Reaches

/-!
# Runs of the rate limiter

Checks run concurrently.  A check reads the clock when it begins, and then takes the lock of
the buckets, the lock of the counter and, when the counter refuses, the lock of the buckets
again; between any two of these other checks may have their turns.
-/

namespace Pangolin.Funder.RateLimit

open Transition

/-! ## Turns -/

/-- The lock a check waits for. -/
inductive Stage where
  | perAddress
  | global
  | refund (retry : Nat)
  deriving Repr, DecidableEq

/-- A check under way.  Checks are numbered as they begin. -/
structure Call (Address : Type) where
  number : Nat
  addr : Address
  now : Nat
  stage : Stage
  deriving Repr, DecidableEq

structure Answer (Address : Type) where
  addr : Address
  outcome : RateLimitOutcome
  deriving Repr, DecidableEq

/-- What becomes of a check that has had a lock. -/
inductive Progress where
  | goesOn (stage : Stage)
  | answered (outcome : RateLimitOutcome)
  deriving Repr, DecidableEq

/-- The limiter, the checks under way and the answers given so far. -/
structure Service (Address : Type) where
  limiter : RateLimiter Address
  clock : Nat
  begun : Nat
  calls : List (Call Address)
  answers : List (Answer Address)

inductive Turn (Address : Type) where
  | call (addr : Address)
  | resume (index : Nat)
  deriving Repr, DecidableEq

structure Event (Address : Type) where
  time : Nat
  turn : Turn Address
  deriving Repr, DecidableEq

variable {Address : Type} [DecidableEq Address]

def Service.new (now : Nat) : Service Address := ⟨.new now, now, 0, [], []⟩

section

variable (config : RateLimitConfig)

def afterPerAddress : RateLimitOutcome → Progress
  | .denied retry => .answered (.denied retry)
  | .allowed => .goesOn .global

def afterGlobal : RateLimitOutcome → Progress
  | .denied retry => .goesOn (.refund retry)
  | .allowed => .answered .allowed

/-- The part of `check` under one lock. -/
def Call.advance (call : Call Address) (limiter : RateLimiter Address) :
    RateLimiter Address × Progress :=
  match call.stage with
  | .perAddress =>
      let checked := checkPerAddress config call.addr call.now limiter.perAddress
      (⟨checked.1, limiter.global⟩, afterPerAddress checked.2)
  | .global =>
      let checked := checkGlobal config call.now limiter.global
      (⟨limiter.perAddress, checked.1⟩, afterGlobal checked.2)
  | .refund retry =>
      (⟨refundPerAddress config call.addr limiter.perAddress, limiter.global⟩,
        .answered (.denied retry))

/-- The check, when it is still under way. -/
def Call.rest (call : Call Address) : Progress → List (Call Address)
  | .goesOn stage => [{ call with stage }]
  | .answered _ => []

/-- The answer, when there is one. -/
def Call.told (call : Call Address) : Progress → List (Answer Address)
  | .goesOn _ => []
  | .answered outcome => [⟨call.addr, outcome⟩]

/-- A check begins, or one of those under way has the lock it waits for. -/
def serve (state : Service Address) (event : Event Address) : Service Address :=
  match event.turn with
  | .call addr =>
      { state with
        clock := event.time
        begun := state.begun + 1
        calls := state.calls ++ [⟨state.begun, addr, event.time, .perAddress⟩] }
  | .resume index =>
      match state.calls[index]? with
      | none => { state with clock := event.time }
      | some call =>
          let advanced := call.advance config state.limiter
          { state with
            limiter := advanced.1
            clock := event.time
            calls := state.calls.take index ++ call.rest advanced.2 ++ state.calls.drop (index + 1)
            answers := state.answers ++ call.told advanced.2 }

end

/-- What the turn of a check under way leaves. -/
def Service.afterTurn (config : RateLimitConfig) (state : Service Address) (time : Nat)
    (before : List (Call Address)) (call : Call Address) (after : List (Call Address)) :
    Service Address :=
  { state with
    limiter := (call.advance config state.limiter).1
    clock := time
    calls := before ++ call.rest (call.advance config state.limiter).2 ++ after
    answers := state.answers ++ call.told (call.advance config state.limiter).2 }

/-- Time does not run back. -/
def Timely (state : Service Address) (event : Event Address) : Prop := state.clock ≤ event.time

instance (state : Service Address) (event : Event Address) : Decidable (Timely state event) :=
  inferInstanceAs (Decidable (_ ≤ _))

/-- Every event is in a span of time. -/
def During (since until' : Nat) (state : Service Address) (event : Event Address) : Prop :=
  Timely state event ∧ since ≤ event.time ∧ event.time ≤ until'

/-- The answers `Allowed` to an address. -/
def allowedTo (addr : Address) (answers : List (Answer Address)) : Nat :=
  answers.countP fun answer => answer.addr = addr ∧ answer.outcome = .allowed

/-- The answers `Allowed`. -/
def allowed (answers : List (Answer Address)) : Nat :=
  answers.countP fun answer => answer.outcome = .allowed

/-- The checks of an address under way. -/
def underWay (addr : Address) (calls : List (Call Address)) : Nat :=
  calls.countP fun call => call.addr = addr

variable {config : RateLimitConfig} {addr : Address} {state next : Service Address}
variable {event : Event Address} {call : Call Address}

variable (config state event) in
/-- What one turn does: a check begins, nothing happens, or one check of those under way
advances. -/
theorem serve_cases :
    (∃ addr, serve config state event =
      { state with
        clock := event.time
        begun := state.begun + 1
        calls := state.calls ++ [⟨state.begun, addr, event.time, .perAddress⟩] }) ∨
    serve config state event = { state with clock := event.time } ∨
    ∃ before call after, state.calls = before ++ call :: after ∧
      event.turn = .resume before.length ∧
      serve config state event = state.afterTurn config event.time before call after := by
  obtain ⟨time, turn⟩ := event
  cases turn with
  | call addr => exact .inl ⟨addr, rfl⟩
  | resume index =>
      cases found : state.calls[index]? with
      | none =>
          refine .inr (.inl ?_)
          simp only [serve, found]
      | some call =>
          obtain ⟨inside, rfl⟩ := List.getElem?_eq_some_iff.mp found
          refine .inr (.inr ⟨state.calls.take index, state.calls[index],
            state.calls.drop (index + 1), ?_, ?_, ?_⟩)
          · rw [List.getElem_cons_drop, List.take_append_drop]
          · rw [List.length_take_of_le (Nat.le_of_lt inside)]
          · simp only [serve, found, Service.afterTurn]

/-! ## What holds in every state -/

/-- What every run keeps. -/
structure Sound (config : RateLimitConfig) (state : Service Address) : Prop where
  tokens_le : ∀ addr bucket, state.limiter.perAddress.get? addr = some bucket →
    bucket.tokens ≤ config.perAddressBucketSize
  lastReplenish_le : ∀ addr bucket, state.limiter.perAddress.get? addr = some bucket →
    bucket.lastReplenish ≤ state.clock
  count_le : state.limiter.global.count ≤ config.globalCapPerHour
  windowStart_le : state.limiter.global.windowStart ≤ state.clock
  now_le : ∀ call ∈ state.calls, call.now ≤ state.clock
  number_lt : ∀ call ∈ state.calls, call.number < state.begun

theorem sound_new (now : Nat) : Sound config (Service.new now : Service Address) where
  tokens_le _ _ held := nomatch held
  lastReplenish_le _ _ held := nomatch held
  count_le := Nat.zero_le _
  windowStart_le := Nat.le_refl _
  now_le _ member := nomatch member
  number_lt _ member := nomatch member

/-- A replenished bucket is due at the earliest in the future. -/
theorem replenish_lastReplenish_le {entry : TokenBucketState} {now clock : Nat}
    (before : entry.lastReplenish ≤ clock) (past : now ≤ clock) :
    (replenish config now entry).lastReplenish ≤ clock := by
  unfold replenish
  dsimp only
  split
  · next due =>
      rw [intervals_eq]
      have whole : config.interval * ((now - entry.lastReplenish) / config.interval) ≤
          now - entry.lastReplenish := Nat.mul_div_le _ _
      have fewer : config.interval * min ((now - entry.lastReplenish) / config.interval) u32Max ≤
          config.interval * ((now - entry.lastReplenish) / config.interval) :=
        Nat.mul_le_mul_left _ (Nat.min_le_left _ _)
      dsimp only
      omega
  · exact before

@[simp] theorem takeToken_lastReplenish {entry : TokenBucketState} {now : Nat} :
    (takeToken config now entry).1.lastReplenish = entry.lastReplenish := by
  unfold takeToken
  dsimp only
  split <;> rfl

theorem takeToken_tokens_le {entry : TokenBucketState} {now : Nat} :
    (takeToken config now entry).1.tokens ≤ entry.tokens := by
  unfold takeToken
  dsimp only
  split
  · exact Nat.le_refl _
  · exact Nat.sub_le _ _

@[simp] theorem takeToken_lastSeen {entry : TokenBucketState} {now : Nat} :
    (takeToken config now entry).1.lastSeen = now := by
  unfold takeToken
  dsimp only
  split <;> rfl

/-- A property of the buckets that evicting, checking and refunding keep. -/
theorem advance_buckets (Keeps : TokenBucketState → Prop) {limiter : RateLimiter Address}
    (fresh : Keeps (fullBucket config call.now))
    (checked : ∀ bucket, Keeps bucket →
      Keeps (takeToken config call.now (replenish config call.now bucket)).1)
    (refunded : ∀ bucket, Keeps bucket → Keeps { bucket with
      tokens := min (min (bucket.tokens + 1) u32Max) config.perAddressBucketSize })
    (before : ∀ addr bucket, limiter.perAddress.get? addr = some bucket → Keeps bucket) :
    ∀ addr bucket, (call.advance config limiter).1.perAddress.get? addr = some bucket →
      Keeps bucket := by
  intro addr bucket held
  obtain ⟨number, owner, now, stage⟩ := call
  cases stage with
  | perAddress =>
      simp only [Call.advance] at held
      by_cases own : addr = owner
      · rw [own, get?_checkPerAddress_self, entryOf] at held
        cases held
        apply checked
        cases found : (evict now limiter.perAddress).get? owner with
        | none => exact fresh
        | some bucket => exact before owner bucket (get?_of_evict found)
      · rw [get?_checkPerAddress_of_ne own] at held
        exact before addr bucket (get?_of_evict held)
  | global => exact before addr bucket held
  | refund retry =>
      simp only [Call.advance] at held
      by_cases own : addr = owner
      · subst own
        cases found : limiter.perAddress.get? addr with
        | none =>
            rw [get?_refund_of_none found, found] at held
            cases held
        | some old =>
            rw [get?_refund_self found] at held
            cases held
            exact refunded old (before addr old found)
      · rw [get?_refund_of_ne own] at held
        exact before addr bucket held

/-- The counter a check counts on: a new one when the window is over. -/
def currentWindow (now : Nat) (counter : GlobalCounterState) : GlobalCounterState :=
  if window ≤ now - counter.windowStart then ⟨0, now⟩ else counter

theorem checkGlobal_eq {now : Nat} {counter : GlobalCounterState} :
    checkGlobal config now counter =
      if config.globalCapPerHour ≤ (currentWindow now counter).count then
        (currentWindow now counter,
          .denied (retryAfter window (now - (currentWindow now counter).windowStart)))
      else
        ({ currentWindow now counter with count := (currentWindow now counter).count + 1 },
          .allowed) := rfl

theorem currentWindow_cases (now : Nat) (counter : GlobalCounterState) :
    (counter.windowStart + window ≤ now ∧ currentWindow now counter = ⟨0, now⟩) ∨
      (now < counter.windowStart + window ∧ currentWindow now counter = counter) := by
  have positive : 0 < window := by decide
  unfold currentWindow
  split
  · exact .inl ⟨by omega, rfl⟩
  · exact .inr ⟨by omega, rfl⟩

variable (config) in
/-- A check either counts in the current window or leaves it. -/
theorem checkGlobal_cases (now : Nat) (counter : GlobalCounterState) :
    ((currentWindow now counter).count < config.globalCapPerHour ∧
      checkGlobal config now counter =
        (⟨(currentWindow now counter).count + 1, (currentWindow now counter).windowStart⟩,
          .allowed)) ∨
    ∃ retry, checkGlobal config now counter = (currentWindow now counter, .denied retry) := by
  rw [checkGlobal_eq]
  split
  · exact .inr ⟨_, rfl⟩
  · next room => exact .inl ⟨Nat.lt_of_not_le room, rfl⟩

/-- The counter stays within the cap. -/
theorem checkGlobal_count_le {now : Nat} {counter : GlobalCounterState}
    (before : counter.count ≤ config.globalCapPerHour) :
    (checkGlobal config now counter).1.count ≤ config.globalCapPerHour := by
  rcases checkGlobal_cases config now counter with
    ⟨room, counted⟩ | ⟨retry, left⟩
  · rw [counted]
    exact room
  · rw [left]
    rcases currentWindow_cases now counter with ⟨-, opened⟩ | ⟨-, same⟩
    · rw [opened]
      exact Nat.zero_le _
    · rw [same]
      exact before

theorem checkGlobal_windowStart {now : Nat} {counter : GlobalCounterState} :
    (checkGlobal config now counter).1.windowStart = (currentWindow now counter).windowStart := by
  rcases checkGlobal_cases config now counter with
    ⟨-, counted⟩ | ⟨retry, left⟩
  · rw [counted]
  · rw [left]

theorem checkGlobal_windowStart_le {now clock : Nat} {counter : GlobalCounterState}
    (before : counter.windowStart ≤ clock) (past : now ≤ clock) :
    (checkGlobal config now counter).1.windowStart ≤ clock := by
  rw [checkGlobal_windowStart]
  rcases currentWindow_cases now counter with ⟨-, opened⟩ | ⟨-, same⟩
  · rw [opened]
    exact past
  · rw [same]
    exact before

omit [DecidableEq Address] in
theorem rest_mem {progress : Progress} {other : Call Address}
    (member : other ∈ call.rest progress) :
    other.number = call.number ∧ other.addr = call.addr ∧ other.now = call.now := by
  cases progress with
  | goesOn stage =>
      rw [List.mem_singleton.mp member]
      exact ⟨rfl, rfl, rfl⟩
  | answered outcome => cases member

omit [DecidableEq Address] in
/-- A property of the checks under way that only looks at what a check keeps. -/
theorem calls_after (Keeps : Call Address → Prop) {before after : List (Call Address)}
    {progress : Progress}
    (constant : ∀ old new : Call Address, new.number = old.number ∧ new.addr = old.addr ∧
      new.now = old.now → Keeps old → Keeps new)
    (holds : ∀ other ∈ before ++ call :: after, Keeps other) :
    ∀ other ∈ before ++ call.rest progress ++ after, Keeps other := by
  intro other member
  rcases List.mem_append.mp member with early | late
  · rcases List.mem_append.mp early with first | own
    · exact holds other (List.mem_append_left _ first)
    · exact constant call other (rest_mem own)
        (holds call (List.mem_append_right _ (List.mem_cons_self ..)))
  · exact holds other (List.mem_append_right _ (List.mem_cons_of_mem _ late))

variable (config) in
/-- A turn keeps what holds in every state. -/
theorem sound_serve (sound : Sound config state) (timely : Timely state event) :
    Sound config (serve config state event) := by
  rcases serve_cases config state event with
    ⟨addr, served⟩ | served | ⟨before, call, after, calls, -, served⟩
  · rw [served]
    exact {
      tokens_le := sound.tokens_le
      lastReplenish_le := fun addr bucket held =>
        Nat.le_trans (sound.lastReplenish_le addr bucket held) timely
      count_le := sound.count_le
      windowStart_le := Nat.le_trans sound.windowStart_le timely
      now_le := fun call member => by
        rcases List.mem_append.mp member with old | new
        · exact Nat.le_trans (sound.now_le call old) timely
        · cases List.mem_singleton.mp new
          exact Nat.le_refl _
      number_lt := fun call member => by
        rcases List.mem_append.mp member with old | new
        · exact Nat.lt_succ_of_lt (sound.number_lt call old)
        · rw [List.mem_singleton.mp new]
          exact Nat.lt_succ_self _ }
  · rw [served]
    exact {
      tokens_le := sound.tokens_le
      lastReplenish_le := fun addr bucket held =>
        Nat.le_trans (sound.lastReplenish_le addr bucket held) timely
      count_le := sound.count_le
      windowStart_le := Nat.le_trans sound.windowStart_le timely
      now_le := fun call member => Nat.le_trans (sound.now_le call member) timely
      number_lt := sound.number_lt }
  · have member : call ∈ state.calls := calls ▸ List.mem_append_right _ (List.mem_cons_self ..)
    have past : call.now ≤ event.time := Nat.le_trans (sound.now_le call member) timely
    rw [served]
    refine {
      tokens_le := ?_, lastReplenish_le := ?_, count_le := ?_, windowStart_le := ?_
      now_le := ?_, number_lt := ?_ }
    · apply advance_buckets _ (Nat.le_refl _) _ _ sound.tokens_le
      · intro bucket bounded
        exact Nat.le_trans takeToken_tokens_le (replenish_tokens_le bounded)
      · intro bucket _
        exact Nat.min_le_right _ _
    · apply advance_buckets (fun bucket => bucket.lastReplenish ≤ event.time) past
      · intro bucket bounded
        rw [takeToken_lastReplenish]
        exact replenish_lastReplenish_le bounded past
      · intro bucket bounded
        exact bounded
      · intro addr bucket held
        exact Nat.le_trans (sound.lastReplenish_le addr bucket held) timely
    · unfold Service.afterTurn Call.advance
      split
      · exact sound.count_le
      · exact checkGlobal_count_le sound.count_le
      · exact sound.count_le
    · have earlier := Nat.le_trans sound.windowStart_le timely
      unfold Service.afterTurn Call.advance
      split
      · exact earlier
      · exact checkGlobal_windowStart_le earlier past
      · exact earlier
    · apply calls_after (fun other => other.now ≤ event.time)
        (fun old new same holds => same.2.2 ▸ holds)
      intro other member
      exact Nat.le_trans (sound.now_le other (calls ▸ member)) timely
    · apply calls_after (fun other => other.number < state.begun)
        (fun old new same holds => same.1 ▸ holds)
      intro other member
      exact sound.number_lt other (calls ▸ member)

/-! ## What an address has spent -/

/-- A check that has an address's token, or may have: it began before a span of time, or it is
past the bucket. -/
def charged (first : Nat) (addr : Address) (call : Call Address) : Bool :=
  call.addr = addr ∧ (call.number < first ∨ call.stage ≠ .perAddress)

/-- The answers `Allowed` to an address, and the checks that may still become one. -/
def spent (first : Nat) (addr : Address) (state : Service Address) : Nat :=
  allowedTo addr state.answers + state.calls.countP (charged first addr)

/-- What a turn charges. -/
def Progress.charge : Progress → Nat
  | .goesOn _ => 1
  | .answered .allowed => 1
  | .answered (.denied _) => 0

variable {first : Nat}

variable (next first) in
/-- A check of another address charges nothing. -/
theorem spent_of_ne {before after : List (Call Address)} {progress : Progress}
    (calls : state.calls = before ++ call :: after) (different : call.addr ≠ addr)
    (next_calls : next.calls = before ++ call.rest progress ++ after)
    (next_answers : next.answers = state.answers ++ call.told progress) :
    spent first addr next = spent first addr state := by
  rw [spent, spent, calls, next_calls, next_answers]
  cases progress <;> simp [Call.rest, Call.told, allowedTo, charged, different]

variable (next first) in
/-- A check of the address gives up its charge for what its turn charges. -/
theorem spent_of_self {before after : List (Call Address)} {progress : Progress}
    (calls : state.calls = before ++ call :: after) (own : call.addr = addr)
    (past : progress ≠ .goesOn .perAddress)
    (next_calls : next.calls = before ++ call.rest progress ++ after)
    (next_answers : next.answers = state.answers ++ call.told progress) :
    spent first addr next + (if charged first addr call then 1 else 0) =
      spent first addr state + progress.charge := by
  rw [spent, spent, calls, next_calls, next_answers, List.countP_append, List.countP_append,
    List.countP_append, List.countP_cons, allowedTo, allowedTo, List.countP_append]
  cases progress with
  | goesOn stage =>
      have passed : stage ≠ .perAddress := fun same => past (congrArg _ same)
      simp [Call.rest, Call.told, charged, own, passed, Progress.charge]
      omega
  | answered outcome =>
      cases outcome with
      | allowed =>
          simp [Call.rest, Call.told, own, Progress.charge]
          omega
      | denied retry =>
          simp [Call.rest, Call.told, Progress.charge]
          omega

theorem advance_past {limiter : RateLimiter Address} :
    (call.advance config limiter).2 ≠ .goesOn .perAddress := by
  unfold Call.advance
  split
  · dsimp only
    cases (checkPerAddress config call.addr call.now limiter.perAddress).2 <;> nofun
  · dsimp only
    cases (checkGlobal config call.now limiter.global).2 <;> nofun
  · nofun

/-! ## What a bucket can still give -/

/-- The tokens of a bucket and those it gets until an instant. -/
def potential (config : RateLimitConfig) (until' : Nat) (bucket : TokenBucketState) : Nat :=
  bucket.tokens + (until' - bucket.lastReplenish) / config.interval

variable {entry : TokenBucketState} {now since until' : Nat}

/-- Replenishing gives no more than was to come. -/
theorem potential_replenish (interval : 1 ≤ config.perAddressReplenishIntervalSecs)
    (soon : now < horizon) (before : now ≤ until') :
    potential config until' (replenish config now entry) ≤ potential config until' entry := by
  obtain ⟨advanced, tokens⟩ := replenish_eq entry interval soon
  have granted : (replenish config now entry).tokens ≤
      entry.tokens + (now - entry.lastReplenish) / config.interval := by
    rw [tokens]
    split
    · exact Nat.le_add_right _ _
    · exact Nat.min_le_left _ _
  have fewer : (now - entry.lastReplenish) / config.interval ≤
      (until' - entry.lastReplenish) / config.interval :=
    Nat.div_le_div_right (Nat.sub_le_sub_right before _)
  rw [potential, potential, advanced, ← Nat.sub_sub, Nat.sub_mul_div]
  omega

/-- What is taken from a bucket is charged. -/
theorem potential_takeToken :
    (afterPerAddress (takeToken config now entry).2).charge +
      potential config until' (takeToken config now entry).1 = potential config until' entry := by
  cases taken : (takeToken config now entry).2 with
  | allowed =>
      obtain ⟨some_left, left⟩ := takeToken_allowed taken
      rw [left, potential, potential]
      simp only [afterPerAddress, Progress.charge]
      omega
  | denied retry =>
      obtain ⟨empty, left, -⟩ := takeToken_denied taken
      rw [left, potential, potential, empty]
      simp only [afterPerAddress, Progress.charge]
      omega

/-- A bucket replenished within a span of time gives at most its size, what the span brings
and one token more. -/
theorem potential_of_replenished (interval : 1 ≤ config.perAddressReplenishIntervalSecs)
    {duration : Nat} (bounded : entry.tokens ≤ config.perAddressBucketSize)
    (due : since < entry.lastReplenish + config.interval) :
    potential config (since + duration) entry ≤
      config.perAddressBucketSize + duration / config.interval + 1 := by
  have later : (since + duration - entry.lastReplenish) / config.interval ≤
      (duration + config.interval) / config.interval := Nat.div_le_div_right (by omega)
  rw [Nat.add_div_right _ (interval_pos interval)] at later
  rw [potential]
  omega

/-- The bucket of a check is replenished up to the check. -/
theorem entryOf_due (interval : 1 ≤ config.perAddressReplenishIntervalSecs)
    (soon : now < horizon) {map : Buckets Address} :
    now < (entryOf config addr now map).lastReplenish + config.interval := by
  have positive := interval_pos interval
  unfold entryOf
  cases (evict now map).get? addr with
  | none =>
      rw [Option.getD_none, replenish_fullBucket interval]
      exact Nat.lt_add_of_pos_right positive
  | some bucket =>
      rw [Option.getD_some, (replenish_eq _ interval soon).1]
      have rest := Nat.lt_mul_div_succ (now - bucket.lastReplenish) positive
      rw [Nat.mul_succ] at rest
      omega

/-! ## Turns and one bucket -/

/-- The turn drops the bucket of an address. -/
def drops (addr : Address) (state : Service Address) (event : Event Address) : Bool :=
  match event.turn with
  | .call _ => false
  | .resume index =>
      match state.calls[index]? with
      | none => false
      | some call =>
          call.stage = .perAddress ∧ (state.limiter.perAddress.get? addr).isSome ∧
            ((evict call.now state.limiter.perAddress).get? addr).isNone

/-- A bucket that is not dropped is there when a check takes its turn. -/
theorem kept_of_drops {before after : List (Call Address)} {bucket : TokenBucketState}
    (calls : state.calls = before ++ call :: after) (turn : event.turn = .resume before.length)
    (stage : call.stage = .perAddress) (held : state.limiter.perAddress.get? addr = some bucket)
    (kept : drops addr state event = false) :
    (evict call.now state.limiter.perAddress).get? addr = some bucket := by
  have found : state.calls[before.length]? = some call := by
    rw [calls, List.getElem?_append_right (Nat.le_refl _), Nat.sub_self]
    rfl
  simp only [drops, turn, found, stage, held, Option.isSome_some, true_and,
    decide_eq_false_iff_not, Option.isNone_iff_eq_none] at kept
  rcases get?_evict addr call.now state.limiter.perAddress with
    same | dropped
  · rw [same, held]
  · exact absurd dropped kept

/-- The turn of another address leaves a bucket that it does not drop. -/
theorem bucket_of_ne {limiter : RateLimiter Address} {bucket : TokenBucketState}
    (different : addr ≠ call.addr) (held : limiter.perAddress.get? addr = some bucket)
    (kept : call.stage = .perAddress → (evict call.now limiter.perAddress).get? addr = some bucket) :
    (call.advance config limiter).1.perAddress.get? addr = some bucket := by
  unfold Call.advance
  split
  · next stage =>
      dsimp only
      rw [get?_checkPerAddress_of_ne different]
      exact kept stage
  · exact held
  · dsimp only
    rw [get?_refund_of_ne different]
    exact held

/-- Until it has its token a check that began in the span is not charged. -/
theorem charged_self (own : call.addr = addr) (stage : call.stage ≠ .perAddress) :
    charged first addr call = true := by
  simp [charged, own, stage]

theorem fresh_of_not_charged (own : call.addr = addr) (free : ¬ charged first addr call = true) :
    first ≤ call.number ∧ call.stage = .perAddress := by
  simp only [charged, own, true_and, decide_eq_true_eq, not_or, Nat.not_lt, not_not] at free
  exact free

theorem charge_le {progress : Progress} : progress.charge ≤ 1 := by
  rcases progress with - | (- | -)
  · exact Nat.le_refl _
  · exact Nat.le_refl _
  · exact Nat.zero_le _

variable (first) in
/-- The turn of a check of the address: what it charges is taken from the bucket, or was charged
before. -/
theorem bucket_of_self (interval : 1 ≤ config.perAddressReplenishIntervalSecs)
    {limiter : RateLimiter Address} {bucket : TokenBucketState}
    (own : call.addr = addr) (soon : call.now < horizon) (past : call.now ≤ until')
    (recent : since ≤ call.now) (seen : since ≤ bucket.lastSeen)
    (held : limiter.perAddress.get? addr = some bucket)
    (kept : call.stage = .perAddress → (evict call.now limiter.perAddress).get? addr = some bucket) :
    ∃ after, (call.advance config limiter).1.perAddress.get? addr = some after ∧
      since ≤ after.lastSeen ∧
      (call.advance config limiter).2.charge + potential config until' after ≤
        (if charged first addr call then 1 else 0) + potential config until' bucket := by
  subst own
  obtain ⟨number, addr, now, stage⟩ := call
  cases stage with
  | perAddress =>
      have entry : entryOf config addr now limiter.perAddress = replenish config now bucket := by
        rw [entryOf, kept rfl, Option.getD_some]
      refine ⟨(takeToken config now (replenish config now bucket)).1, ?_, ?_, ?_⟩
      · rw [← entry]
        exact get?_checkPerAddress_self
      · rw [takeToken_lastSeen]
        exact recent
      · simp only [Call.advance, checkPerAddress_outcome, entry]
        rw [potential_takeToken]
        exact Nat.le_add_left_of_le (potential_replenish interval soon past)
  | global =>
      refine ⟨bucket, held, seen, ?_⟩
      rw [if_pos (charged_self rfl (by simp))]
      apply Nat.add_le_add_right
      simp only [Call.advance]
      rcases (checkGlobal config now limiter.global).2 with - | retry <;> exact Nat.le_refl _
  | refund retry =>
      refine ⟨_, get?_refund_self held, seen, ?_⟩
      rw [if_pos (charged_self rfl (by simp))]
      have more : min (min (bucket.tokens + 1) u32Max) config.perAddressBucketSize ≤
          bucket.tokens + 1 := Nat.le_trans (Nat.min_le_left _ _) (Nat.min_le_left _ _)
      simp only [Call.advance, Progress.charge, potential]
      rw [Nat.zero_add, ← Nat.add_assoc, Nat.add_comm 1]
      exact Nat.add_le_add_right more _

/-- The first turn at the bucket of a check that began in the span. -/
theorem bucket_of_first (interval : 1 ≤ config.perAddressReplenishIntervalSecs)
    {limiter : RateLimiter Address} {origin : Nat} (duration : Nat) (own : call.addr = addr)
    (stage : call.stage = .perAddress) (soon : call.now < horizon) (recent : origin ≤ call.now)
    (bounded : ∀ bucket, limiter.perAddress.get? addr = some bucket →
      bucket.tokens ≤ config.perAddressBucketSize) :
    ∃ after, (call.advance config limiter).1.perAddress.get? addr = some after ∧
      after.lastSeen = call.now ∧
      (call.advance config limiter).2.charge + potential config (origin + duration) after ≤
        config.perAddressBucketSize + duration / config.interval + 1 := by
  subst own
  obtain ⟨number, addr, now, at_⟩ := call
  cases stage
  refine ⟨_, get?_checkPerAddress_self, takeToken_lastSeen, ?_⟩
  simp only [Call.advance, checkPerAddress_outcome]
  rw [potential_takeToken]
  exact potential_of_replenished interval (entryOf_tokens_le _ bounded)
    (Nat.lt_of_le_of_lt recent (entryOf_due interval soon))

/-! ## A span of time -/

/-- What holds of an address during a span that began at `origin`, with `limit` answers or
checks under way before it.  No check of the span has been at the bucket, or the bucket pays for
what is still to come. -/
structure Watched (config : RateLimitConfig) (addr : Address) (first since origin duration limit :
    Nat) (state : Service Address) : Prop where
  sound : Sound config state
  first_le : first ≤ state.begun
  recent : ∀ call ∈ state.calls, call.addr = addr → since ≤ call.now
  began : ∀ call ∈ state.calls, first ≤ call.number → origin ≤ call.now
  paid : spent first addr state ≤ limit ∨
    ∃ bucket, state.limiter.perAddress.get? addr = some bucket ∧ since ≤ bucket.lastSeen ∧
      spent first addr state + potential config (origin + duration) bucket ≤
        limit + (config.perAddressBucketSize + duration / config.interval + 1)

variable {origin duration limit : Nat}

/-- A turn of the span keeps what holds, unless it drops a bucket seen since. -/
theorem watched_serve (interval : 1 ≤ config.perAddressReplenishIntervalSecs)
    (soon : origin + duration < horizon) (early : since ≤ origin)
    (watched : Watched config addr first since origin duration limit state)
    (during : During origin (origin + duration) state event)
    (kept : ∀ bucket, state.limiter.perAddress.get? addr = some bucket →
      since ≤ bucket.lastSeen → drops addr state event = false) :
    Watched config addr first since origin duration limit (serve config state event) := by
  obtain ⟨timely, starts, ends⟩ := during
  have sound := sound_serve config watched.sound timely
  rcases serve_cases config state event with
    ⟨other, served⟩ | served | ⟨before, call, after, calls, turn, served⟩
  · rw [served] at sound ⊢
    refine ⟨sound, Nat.le_succ_of_le watched.first_le, ?_, ?_, ?_⟩
    · intro call member own
      rcases List.mem_append.mp member with old | new
      · exact watched.recent call old own
      · rw [List.mem_singleton.mp new]
        exact Nat.le_trans early starts
    · intro call member later
      rcases List.mem_append.mp member with old | new
      · exact watched.began call old later
      · rw [List.mem_singleton.mp new]
        exact starts
    · have same : spent first addr { state with
          clock := event.time
          begun := state.begun + 1
          calls := state.calls ++ [⟨state.begun, other, event.time, .perAddress⟩] } =
            spent first addr state := by
        have late := watched.first_le
        simp [spent, charged, List.countP_append, late]
      rw [same]
      exact watched.paid
  · rw [served] at sound ⊢
    exact ⟨sound, watched.first_le, watched.recent, watched.began, watched.paid⟩
  · have member : call ∈ state.calls := calls ▸ List.mem_append_right _ (List.mem_cons_self ..)
    have past : call.now ≤ origin + duration :=
      Nat.le_trans (watched.sound.now_le call member) (Nat.le_trans timely ends)
    rw [served] at sound ⊢
    refine ⟨sound, watched.first_le, ?_, ?_, ?_⟩
    · apply calls_after (fun other => other.addr = addr → since ≤ other.now)
        (fun old new same holds own => same.2.2 ▸ holds (same.2.1 ▸ own))
      intro other member
      exact watched.recent other (calls ▸ member)
    · apply calls_after (fun other => first ≤ other.number → origin ≤ other.now)
        (fun old new same holds own => same.2.2 ▸ holds (same.1 ▸ own))
      intro other member
      exact watched.began other (calls ▸ member)
    · by_cases own : call.addr = addr
      · have account := spent_of_self (state.afterTurn config event.time before call after) first
          calls own advance_past
          rfl rfl
        have at_most : (call.advance config state.limiter).2.charge ≤ 1 := charge_le
        rcases watched.paid with little | ⟨bucket, held, seen, enough⟩
        · by_cases charges : charged first addr call = true
          · rw [if_pos charges] at account
            exact .inl (by omega)
          · rw [if_neg charges, Nat.add_zero] at account
            obtain ⟨later, stage⟩ := fresh_of_not_charged own charges
            obtain ⟨bucket, held, seen, enough⟩ := bucket_of_first interval
              duration own stage (Nat.lt_of_le_of_lt past soon)
              (watched.began call member later) (watched.sound.tokens_le addr)
            refine .inr ⟨bucket, held, ?_, by omega⟩
            rw [seen]
            exact watched.recent call member own
        · obtain ⟨bucket', held', seen', enough'⟩ := bucket_of_self first
            interval own (Nat.lt_of_le_of_lt past soon) past (watched.recent call member own) seen
            held (fun stage => kept_of_drops calls turn stage held (kept bucket held seen))
          exact .inr ⟨bucket', held', seen', by omega⟩
      · have account := spent_of_ne (state.afterTurn config event.time before call after) first
          calls own rfl rfl
        rw [account]
        rcases watched.paid with little | ⟨bucket, held, seen, enough⟩
        · exact .inl little
        · refine .inr ⟨bucket, ?_, seen, enough⟩
          apply bucket_of_ne (Ne.symm own) held
          intro stage
          exact kept_of_drops calls turn stage held (kept bucket held seen)

/-- Before a span no check of it is under way. -/
theorem watched_start (sound : Sound config state)
    (recent : ∀ call ∈ state.calls, call.addr = addr → since ≤ call.now) :
    Watched config addr state.begun since origin duration
      (allowedTo addr state.answers + underWay addr state.calls) state where
  sound := sound
  first_le := Nat.le_refl _
  recent := recent
  began call member later := absurd (sound.number_lt call member) (Nat.not_lt.mpr later)
  paid := by
    refine .inl (Nat.add_le_add_left (List.countP_mono_left ?_) _)
    intro call _ charges
    simp only [charged, decide_eq_true_eq] at charges ⊢
    exact charges.1

/-- What a watched address has been allowed. -/
theorem watched_limit
    (watched : Watched config addr first since origin duration limit state) :
    allowedTo addr state.answers ≤
      limit + (config.perAddressBucketSize + duration / config.interval + 1) := by
  have part : allowedTo addr state.answers ≤ spent first addr state := Nat.le_add_right _ _
  rcases watched.paid with little | ⟨bucket, -, -, enough⟩
  · exact Nat.le_add_right_of_le (Nat.le_trans part little)
  · omega

/-- A span in which no turn drops the bucket of an address. -/
def Kept (addr : Address) (origin duration : Nat) (state : Service Address)
    (event : Event Address) : Prop :=
  During origin (origin + duration) state event ∧ drops addr state event = false

/-- An address is allowed the size of its bucket, what a span brings and one more, and what was
under way, when its bucket is not dropped meanwhile. -/
theorem allowedTo_le_of_kept (interval : 1 ≤ config.perAddressReplenishIntervalSecs)
    (sound : Sound config state) (soon : origin + duration < horizon)
    (run : Reaches (serve config) (Kept addr origin duration) state next) :
    allowedTo addr next.answers ≤ allowedTo addr state.answers + underWay addr state.calls +
      (config.perAddressBucketSize + duration / config.interval + 1) := by
  refine watched_limit (run.invariant (Watched config addr state.begun 0 origin duration _) ?_
    (watched_start sound fun _ _ _ => Nat.zero_le _))
  intro middle event watched guard
  exact watched_serve interval soon (Nat.zero_le _) watched guard.1 fun _ _ _ => guard.2

/-- A bucket seen within the hour is not dropped. -/
theorem not_drops_of_seen {bucket : TokenBucketState}
    (held : state.limiter.perAddress.get? addr = some bucket)
    (seen : ∀ call ∈ state.calls, call.now - bucket.lastSeen < bucketTtlSecs * second) :
    drops addr state event = false := by
  unfold drops
  split
  · rfl
  · split
    · rfl
    · next call found =>
        have member := List.mem_of_getElem? found
        rw [get?_evict_of_seen held (seen call member)]
        simp

/-- No bucket is dropped within an hour of the first of the address's checks. -/
theorem allowedTo_le_of_hour (interval : 1 ≤ config.perAddressReplenishIntervalSecs)
    (sound : Sound config state) (soon : origin + duration < horizon) (early : since ≤ origin)
    (recent : ∀ call ∈ state.calls, call.addr = addr → since ≤ call.now)
    (short : origin + duration < since + bucketTtlSecs * second)
    (run : Reaches (serve config) (During origin (origin + duration)) state next) :
    allowedTo addr next.answers ≤ allowedTo addr state.answers + underWay addr state.calls +
      (config.perAddressBucketSize + duration / config.interval + 1) := by
  refine watched_limit (run.invariant (Watched config addr state.begun since origin duration _) ?_
    (watched_start sound recent))
  intro middle event watched during
  apply watched_serve interval soon early watched during
  intro bucket held seen
  apply not_drops_of_seen held
  intro call member
  have past := watched.sound.now_le call member
  have timely := during.1
  have ends := during.2.2
  unfold Timely at timely
  omega

/-! ## The counter over a span -/

/-- The checks that began before a span. -/
def older (first : Nat) (calls : List (Call Address)) : Nat :=
  calls.countP fun call => call.number < first

omit [DecidableEq Address] in
variable (state call first) in
/-- A check that goes on is no older, and one that is answered gives up its place. -/
theorem older_after (before after : List (Call Address)) (progress : Progress) :
    allowed (state.answers ++ call.told progress) +
        older first (before ++ call.rest progress ++ after) ≤
      allowed state.answers + older first (before ++ call :: after) +
        (if first ≤ call.number ∧ progress = .answered .allowed then 1 else 0) := by
  rw [allowed, allowed, older, older, List.countP_append, List.countP_append,
    List.countP_append, List.countP_append, List.countP_cons]
  cases progress with
  | goesOn stage =>
      simp [Call.rest, Call.told]
      omega
  | answered outcome =>
      cases outcome with
      | allowed =>
          simp [Call.rest, Call.told]
          split <;> split <;> omega
      | denied retry => simp [Call.rest, Call.told]

/-- When `given` checks of a span were counted: none yet; all in a window that does not end before
the span begins; or some in a second window, which began within the span. -/
def Phase (config : RateLimitConfig) (origin given : Nat) (counter : GlobalCounterState) : Prop :=
  given = 0 ∨ (given ≤ counter.count ∧ origin < counter.windowStart + window) ∨
    (given ≤ config.globalCapPerHour + counter.count ∧ origin < counter.windowStart)

variable {given : Nat} {counter : GlobalCounterState}

/-- A check that began before the span opens no window in it. -/
theorem phase_of_stale (before : now ≤ origin) (phase : Phase config origin given counter) :
    Phase config origin given (checkGlobal config now counter).1 := by
  rcases phase with none_given | one_window
  · exact .inl none_given
  · have open_ : origin < counter.windowStart + window := by omega
    have same : currentWindow now counter = counter := by
      rcases currentWindow_cases now counter with ⟨ended, -⟩ | ⟨-, same⟩
      · omega
      · exact same
    have counts : counter.count ≤ (checkGlobal config now counter).1.count := by
      rcases checkGlobal_cases config now counter with
        ⟨-, counted⟩ | ⟨retry, left⟩
      · rw [counted, same]
        exact Nat.le_succ _
      · exact Nat.le_of_eq (by rw [left, same])
    have begins : (checkGlobal config now counter).1.windowStart = counter.windowStart := by
      rw [checkGlobal_windowStart, same]
    unfold Phase
    rw [begins]
    omega

/-- A check of a span of at most an hour counts, and the span sees at most two windows. -/
theorem phase_of_fresh (recent : origin ≤ now) (ends : now ≤ origin + window)
    (within : counter.count ≤ config.globalCapPerHour)
    (phase : Phase config origin given counter) :
    Phase config origin
      (given + if (checkGlobal config now counter).2 = .allowed then 1 else 0)
      (checkGlobal config now counter).1 := by
  have positive : 0 < window := by decide
  unfold Phase at phase ⊢
  rcases checkGlobal_cases config now counter with
    ⟨room, counted⟩ | ⟨retry, left⟩
  · rw [counted, if_pos rfl]
    dsimp only
    rcases currentWindow_cases now counter with
      ⟨ended, opened⟩ | ⟨runs, same⟩
    · rw [opened]
      dsimp only
      omega
    · rw [same]
      omega
  · rw [left, if_neg nofun]
    dsimp only
    rcases currentWindow_cases now counter with
      ⟨ended, opened⟩ | ⟨runs, same⟩
    · rw [opened]
      dsimp only
      omega
    · rw [same]
      omega

/-- What holds of the counter during a span of at most an hour that began at `origin`. -/
structure Counted (config : RateLimitConfig) (first origin limit : Nat)
    (state : Service Address) : Prop where
  sound : Sound config state
  first_le : first ≤ state.begun
  stale : ∀ call ∈ state.calls, call.number < first → call.now ≤ origin
  began : ∀ call ∈ state.calls, first ≤ call.number → origin ≤ call.now
  paid : ∃ given, allowed state.answers + older first state.calls ≤ limit + given ∧
    Phase config origin given state.limiter.global

/-- A check does not go on to an answer `Allowed` at the buckets. -/
theorem afterPerAddress_ne {outcome : RateLimitOutcome} :
    afterPerAddress outcome ≠ .answered .allowed := by
  cases outcome <;> nofun

theorem afterGlobal_iff {outcome : RateLimitOutcome} :
    afterGlobal outcome = .answered .allowed ↔ outcome = .allowed := by
  cases outcome <;> simp [afterGlobal]

/-- Only at the counter a check is answered `Allowed`. -/
theorem phase_advance {limiter : RateLimiter Address}
    (stale : call.number < first → call.now ≤ origin)
    (began : first ≤ call.number → origin ≤ call.now) (ends : call.now ≤ origin + window)
    (within : limiter.global.count ≤ config.globalCapPerHour)
    (phase : Phase config origin given limiter.global) :
    Phase config origin
      (given + if first ≤ call.number ∧ (call.advance config limiter).2 = .answered .allowed
        then 1 else 0)
      (call.advance config limiter).1.global := by
  obtain ⟨number, owner, now, stage⟩ := call
  cases stage with
  | perAddress =>
      rw [if_neg fun both => afterPerAddress_ne both.2]
      exact phase
  | global =>
      simp only [Call.advance, afterGlobal_iff]
      by_cases young : first ≤ number
      · simp only [young, true_and]
        exact phase_of_fresh (began young) ends within phase
      · simp only [young, false_and, if_false]
        exact phase_of_stale (stale (Nat.lt_of_not_le young)) phase
  | refund retry =>
      rw [if_neg]
      · exact phase
      · rintro ⟨-, answered⟩
        cases answered

/-- A turn of the span keeps what holds. -/
theorem counted_serve (counted : Counted config first origin limit state)
    (during : During origin (origin + window) state event) :
    Counted config first origin limit (serve config state event) := by
  obtain ⟨timely, starts, ends⟩ := during
  have sound := sound_serve config counted.sound timely
  rcases serve_cases config state event with
    ⟨other, served⟩ | served | ⟨before, call, after, calls, turn, served⟩
  · rw [served] at sound ⊢
    refine ⟨sound, Nat.le_succ_of_le counted.first_le, ?_, ?_, ?_⟩
    · intro call member earlier
      rcases List.mem_append.mp member with old | new
      · exact counted.stale call old earlier
      · rw [List.mem_singleton.mp new] at earlier
        exact absurd earlier (Nat.not_lt.mpr counted.first_le)
    · intro call member later
      rcases List.mem_append.mp member with old | new
      · exact counted.began call old later
      · rw [List.mem_singleton.mp new]
        exact starts
    · have same : older first
          (state.calls ++ [⟨state.begun, other, event.time, .perAddress⟩]) =
            older first state.calls := by
        have late := counted.first_le
        simp [older, List.countP_append, late]
      rw [same]
      exact counted.paid
  · rw [served] at sound ⊢
    exact ⟨sound, counted.first_le, counted.stale, counted.began, counted.paid⟩
  · have member : call ∈ state.calls := calls ▸ List.mem_append_right _ (List.mem_cons_self ..)
    have past : call.now ≤ origin + window :=
      Nat.le_trans (counted.sound.now_le call member) (Nat.le_trans timely ends)
    rw [served] at sound ⊢
    refine ⟨sound, counted.first_le, ?_, ?_, ?_⟩
    · apply calls_after (fun other => other.number < first → other.now ≤ origin)
        (fun old new same holds own => same.2.2 ▸ holds (same.1 ▸ own))
      intro other member
      exact counted.stale other (calls ▸ member)
    · apply calls_after (fun other => first ≤ other.number → origin ≤ other.now)
        (fun old new same holds own => same.2.2 ▸ holds (same.1 ▸ own))
      intro other member
      exact counted.began other (calls ▸ member)
    · obtain ⟨given, paid, phase⟩ := counted.paid
      rw [calls] at paid
      have account := older_after state call first before after
        (call.advance config state.limiter).2
      refine ⟨_, Nat.le_trans account (Nat.le_trans (Nat.add_le_add_right paid _)
        (Nat.le_of_eq (Nat.add_assoc ..))), ?_⟩
      exact phase_advance (counted.stale call member) (counted.began call member) past
        counted.sound.count_le phase

/-- Within an hour at most two windows of answers are `Allowed`, and what was under way. -/
theorem allowed_le (sound : Sound config state) (starts : state.clock ≤ origin)
    (run : Reaches (serve config) (During origin (origin + window)) state next) :
    allowed next.answers ≤
      allowed state.answers + state.calls.length + 2 * config.globalCapPerHour := by
  have start : Counted config state.begun origin
      (allowed state.answers + state.calls.length) state := by
    refine ⟨sound, Nat.le_refl _, ?_, ?_, 0, Nat.add_le_add_left List.countP_le_length _, .inl rfl⟩
    · intro call member _
      exact Nat.le_trans (sound.now_le call member) starts
    · intro call member later
      exact absurd (sound.number_lt call member) (Nat.not_lt.mpr later)
  have counted := run.invariant (Counted config state.begun origin _)
    (fun _ _ counted during => counted_serve counted during) start
  obtain ⟨given, paid, phase⟩ := counted.paid
  have within := counted.sound.count_le
  unfold Phase at phase
  omega

/-! ## One window -/

variable (config call) in
/-- Windows begin one after another, and in one window every answer `Allowed` is counted. -/
theorem window_advance (limiter : RateLimiter Address) :
    limiter.global.windowStart < (call.advance config limiter).1.global.windowStart ∨
      ((call.advance config limiter).1.global.windowStart = limiter.global.windowStart ∧
        (call.advance config limiter).1.global.count = limiter.global.count +
          if (call.advance config limiter).2 = .answered .allowed then 1 else 0) := by
  obtain ⟨number, owner, now, stage⟩ := call
  cases stage with
  | perAddress =>
      refine .inr ⟨rfl, ?_⟩
      rw [if_neg]
      · rfl
      · exact afterPerAddress_ne
  | global =>
      have positive : 0 < window := by decide
      simp only [Call.advance, afterGlobal_iff]
      rcases currentWindow_cases now limiter.global with
        ⟨ended, opened⟩ | ⟨-, same⟩
      · rw [checkGlobal_windowStart, opened]
        exact .inl (by dsimp only; omega)
      · refine .inr ⟨by rw [checkGlobal_windowStart, same], ?_⟩
        rcases checkGlobal_cases config now limiter.global with
          ⟨-, counted⟩ | ⟨retry, left⟩
        · rw [counted, same, if_pos rfl]
        · rw [left, same, if_neg nofun]
          rfl
  | refund retry => exact .inr ⟨rfl, rfl⟩

omit [DecidableEq Address] in
theorem allowed_told {progress : Progress} :
    allowed (state.answers ++ call.told progress) =
      allowed state.answers + if progress = .answered .allowed then 1 else 0 := by
  rw [allowed, allowed, List.countP_append]
  rcases progress with - | (- | -) <;> simp [Call.told]

/-- In one window the counter counts the answers. -/
theorem allowed_of_window (run : Reaches (serve config) Timely state next) :
    state.limiter.global.windowStart < next.limiter.global.windowStart ∨
      (next.limiter.global.windowStart = state.limiter.global.windowStart ∧
        allowed next.answers + state.limiter.global.count =
          allowed state.answers + next.limiter.global.count) := by
  induction run with
  | refl => exact .inr ⟨rfl, rfl⟩
  | @tail middle event _ _ ih =>
      rcases serve_cases config middle event with
        ⟨other, served⟩ | served | ⟨before, call, after, -, -, served⟩
      · rw [served]
        exact ih
      · rw [served]
        exact ih
      · rw [served]
        simp only [Service.afterTurn, allowed_told]
        rcases window_advance config call middle.limiter with
          later | ⟨same, counted⟩
        · refine .inl ?_
          rcases ih with already | ⟨begins, -⟩
          · exact Nat.lt_trans already later
          · rwa [begins] at later
        · rw [same, counted]
          rcases ih with already | ⟨begins, counts⟩
          · exact .inl already
          · exact .inr ⟨begins, by omega⟩

/-! ## A check on its own -/

variable {limiter limiter' : RateLimiter Address} {time clock begun : Nat}
variable {others : List (Call Address)} {answers : List (Answer Address)}

theorem serve_call :
    serve config state ⟨time, .call addr⟩ = { state with
      clock := time
      begun := state.begun + 1
      calls := state.calls ++ [⟨state.begun, addr, time, .perAddress⟩] } := rfl

/-- The turn of the check that began last. -/
theorem serve_last :
    serve config ⟨limiter, clock, begun, others ++ [call], answers⟩
        ⟨time, .resume others.length⟩ =
      ⟨(call.advance config limiter).1, time, begun,
        others ++ call.rest (call.advance config limiter).2,
        answers ++ call.told (call.advance config limiter).2⟩ := by
  have found : (others ++ [call])[others.length]? = some call := by
    rw [List.getElem?_append_right (Nat.le_refl _), Nat.sub_self]
    rfl
  simp only [serve, found]
  rw [List.take_left, List.drop_of_length_le (by simp), List.append_nil]

theorem serve_last_goesOn {stage : Stage}
    (advanced : call.advance config limiter = (limiter', .goesOn stage)) :
    serve config ⟨limiter, clock, begun, others ++ [call], answers⟩
        ⟨time, .resume others.length⟩ =
      ⟨limiter', time, begun, others ++ [{ call with stage }], answers⟩ := by
  rw [serve_last, advanced]
  simp [Call.rest, Call.told]

theorem serve_last_answered {outcome : RateLimitOutcome}
    (advanced : call.advance config limiter = (limiter', .answered outcome)) :
    serve config ⟨limiter, clock, begun, others ++ [call], answers⟩
        ⟨time, .resume others.length⟩ =
      ⟨limiter', time, begun, others, answers ++ [⟨call.addr, outcome⟩]⟩ := by
  rw [serve_last, advanced]
  simp [Call.rest, Call.told]

/-- The events of one check with so many locks. -/
def turnsOf (state : Service Address) (addr : Address) (time locks : Nat) :
    List (Event Address) :=
  ⟨time, .call addr⟩ :: List.replicate locks ⟨time, .resume state.calls.length⟩

/-- A check that no other comes between does at its turns what `check` does. -/
theorem check_of_turns :
    ∃ locks ≤ 3, (turnsOf state addr time locks).foldl (serve config) state =
      { limiter := (check config addr time state.limiter).1
        clock := time
        begun := state.begun + 1
        calls := state.calls
        answers := state.answers ++ [⟨addr, (check config addr time state.limiter).2⟩] } := by
  cases first : checkPerAddress config addr time state.limiter.perAddress with
  | mk perAddress outcome =>
      cases outcome with
      | denied retry =>
          have bucket : (⟨state.begun, addr, time, .perAddress⟩ : Call Address).advance config
              state.limiter =
                (⟨perAddress, state.limiter.global⟩, .answered (.denied retry)) := by
            simp only [Call.advance, first, afterPerAddress]
          refine ⟨1, by decide, ?_⟩
          simp only [turnsOf, List.replicate, List.foldl_cons, List.foldl_nil, check, first]
          rw [serve_call, serve_last_answered bucket]
      | allowed =>
          have bucket : (⟨state.begun, addr, time, .perAddress⟩ : Call Address).advance config
              state.limiter = (⟨perAddress, state.limiter.global⟩, .goesOn .global) := by
            simp only [Call.advance, first, afterPerAddress]
          cases second : checkGlobal config time state.limiter.global with
          | mk global outcome =>
              cases outcome with
              | allowed =>
                  have counter : (⟨state.begun, addr, time, .global⟩ : Call Address).advance config
                      ⟨perAddress, state.limiter.global⟩ =
                        (⟨perAddress, global⟩, .answered .allowed) := by
                    simp only [Call.advance, second, afterGlobal]
                  refine ⟨2, by decide, ?_⟩
                  simp only [turnsOf, List.replicate, List.foldl_cons, List.foldl_nil, check,
                    first, second]
                  rw [serve_call, serve_last_goesOn bucket, serve_last_answered counter]
              | denied retry =>
                  have counter : (⟨state.begun, addr, time, .global⟩ : Call Address).advance config
                      ⟨perAddress, state.limiter.global⟩ =
                        (⟨perAddress, global⟩, .goesOn (.refund retry)) := by
                    simp only [Call.advance, second, afterGlobal]
                  refine ⟨3, by decide, ?_⟩
                  simp only [turnsOf, List.replicate, List.foldl_cons, List.foldl_nil, check,
                    first, second]
                  rw [serve_call, serve_last_goesOn bucket, serve_last_goesOn counter,
                    serve_last_answered rfl]

end Pangolin.Funder.RateLimit
