import Pangolin.Lib.Reader

/-!
# Readers that ask for memory

A metered reader sets room aside while it reads, and its run shows every request beside what
it returned.  A run is within its means when no request is larger than what is left of the
input and none is more than an address space holds.

What a reader takes is described by a grammar of its own: the byte strings that spell a
value, and the beginnings after which a request is made.  The description is closed under
sequencing and repetition, so that the means of a whole decoder are read off the grammar of
its input.
-/

namespace Reading

variable {ε α β σ : Type}

/-- Room asked for, and the bytes that were left to read at that moment. -/
structure Request where
  capacity : Nat
  left : Nat
  deriving Repr, DecidableEq

/-- The end of a run without a value: the input is refused, or room is asked for that no
address space holds. -/
inductive Stop (ε : Type) where
  | refused (error : ε)
  | capacityOverflow
  deriving Repr, DecidableEq

/-- The largest allocation, in bytes. -/
def isizeMax : Nat := 2 ^ 63 - 1

/-- A reader with the requests it makes. -/
def Metered (ε α : Type) : Type := List UInt8 → List Request × Except (Stop ε) (α × List UInt8)

namespace Metered

/-- The second part of a sequence goes on where the first one ended. -/
def andThen (reader : Metered ε α) (next : α → Metered ε β) : Metered ε β := fun bytes =>
  match reader bytes with
  | (requests, .error stop) => (requests, .error stop)
  | (requests, .ok (value, rest)) => (requests ++ (next value rest).1, (next value rest).2)

instance monad : Monad (Metered ε) where
  pure value := fun bytes => ([], .ok (value, bytes))
  bind := andThen

def refuse (error : ε) : Metered ε α := fun _ => ([], .error (.refused error))

/-- A reader that asks for nothing. -/
def take (reader : Reader ε α) : Metered ε α := fun bytes =>
  ([], (reader bytes).mapError .refused)

/-- Room for a number of elements of a size. -/
def reserve (capacity size : Nat) : Metered ε Unit := fun bytes =>
  ([⟨capacity, bytes.length⟩],
    if isizeMax < capacity * size then .error .capacityOverflow else .ok ((), bytes))

/-- A loop of a number of rounds that carries a state. -/
def rounds (step : σ → Metered ε σ) : Nat → σ → Metered ε σ
  | 0, state => pure state
  | count + 1, state => do
      let next ← step state
      rounds step count next

/-- The values of a number of readings, pushed one after another. -/
def collect (reader : Metered ε α) (count : Nat) : Metered ε (List α) :=
  rounds (fun values => do let value ← reader; return values ++ [value]) count []

/-! ## What a run returns -/

/-- The reader alone, without its requests. -/
def plain (reader : Metered ε α) : Reader (Stop ε) α := fun bytes => (reader bytes).2

variable {reader : Metered ε α} {next : α → Metered ε β}

@[simp] theorem plain_pure (value : α) : (pure value : Metered ε α).plain = pure value := rfl

@[simp] theorem plain_refuse (error : ε) :
    (refuse error : Metered ε α).plain = throw (.refused error) := rfl

@[simp] theorem plain_bind (reader : Metered ε α) (next : α → Metered ε β) :
    (reader >>= next).plain = reader.plain >>= fun value => (next value).plain := by
  funext bytes
  change (andThen reader next bytes).2 =
    ((reader bytes).2 >>= fun result => (next result.1 result.2).2)
  unfold andThen
  cases ran : reader bytes with
  | mk requests outcome => cases outcome <;> rfl

theorem plain_reserve {capacity size : Nat} (room : capacity * size ≤ isizeMax) :
    (reserve capacity size : Metered ε Unit).plain = pure () := by
  funext bytes
  exact if_neg (Nat.not_lt.mpr room)

theorem plain_take_eq_ok_iff {reader : Reader ε α} {bytes rest : List UInt8} {value : α} :
    (take reader).plain bytes = .ok (value, rest) ↔ reader bytes = .ok (value, rest) := by
  change (reader bytes).mapError _ = _ ↔ _
  cases reader bytes with
  | error error => simp [Except.mapError]
  | ok result => simp [Except.mapError]

theorem reads_take {reader : Reader ε α} {bytes : List UInt8} {value : α}
    (reads : Reads reader bytes value) : Reads (take reader).plain bytes value :=
  fun rest => plain_take_eq_ok_iff.mpr (reads rest)

theorem reads_bind {bytes bytes' : List UInt8} {value : α} {value' : β}
    (first : Reads reader.plain bytes value) (second : Reads (next value).plain bytes' value') :
    Reads (reader >>= next).plain (bytes ++ bytes') value' := by
  rw [plain_bind]
  exact first.bind second

/-- The last reader of a sequence takes the last bytes. -/
theorem reads_last {bytes : List UInt8} {value : α} {value' : β}
    (first : Reads reader.plain bytes value) (second : Reads (next value).plain [] value') :
    Reads (reader >>= next).plain bytes value' := by
  rw [plain_bind]
  exact first.last second

/-- A step that reads nothing. -/
theorem reads_skip {bytes : List UInt8} {value : α} {value' : β}
    (first : Reads reader.plain [] value) (second : Reads (next value).plain bytes value') :
    Reads (reader >>= next).plain bytes value' :=
  reads_bind first second

theorem reads_reserve {capacity size : Nat} (room : capacity * size ≤ isizeMax) :
    Reads (reserve capacity size : Metered ε Unit).plain [] () := by
  rw [plain_reserve room]
  exact .pure ()

/-- One round of a loop and the rounds after it. -/
theorem reads_rounds {step : σ → Metered ε σ} {count : Nat} {state middle last : σ}
    {bytes bytes' : List UInt8} (one : Reads (step state).plain bytes middle)
    (more : Reads (rounds step count middle).plain bytes' last) :
    Reads (rounds step (count + 1) state).plain (bytes ++ bytes') last := by
  exact reads_bind one more

/-- The last round of a loop. -/
theorem reads_rounds_one {step : σ → Metered ε σ} {state last : σ} {bytes : List UInt8}
    (one : Reads (step state).plain bytes last) : Reads (rounds step 1 state).plain bytes last :=
  reads_last one (.pure last)

/-- A list written item by item is collected. -/
theorem reads_collect {write : α → List UInt8} {values : List α}
    (each : ∀ value ∈ values, Reads reader.plain (write value) value) :
    Reads (collect reader values.length).plain (values.flatMap write) values := by
  have general : ∀ (values before : List α),
      (∀ value ∈ values, Reads reader.plain (write value) value) →
      Reads (rounds (fun values => do let value ← reader; return values ++ [value])
        values.length before).plain (values.flatMap write) (before ++ values) := by
    intro values
    induction values with
    | nil =>
        intro before _
        rw [List.append_nil]
        exact .pure before
    | cons value values ih =>
        intro before each
        rw [List.flatMap_cons, List.append_cons]
        apply reads_rounds
        · exact reads_last (each value List.mem_cons_self) (.pure _)
        · apply ih
          intro other member
          exact each other (List.mem_cons_of_mem _ member)
  exact general values [] each

/-- Readers that differ only in what they refuse with. -/
def SameOk (reader reader' : Metered ε α) : Prop :=
  ∀ bytes result, reader.plain bytes = .ok result → reader'.plain bytes = .ok result

theorem SameOk.refl (reader : Metered ε α) : SameOk reader reader := fun _ _ read => read

theorem SameOk.bind {reader reader' : Metered ε α} {next next' : α → Metered ε β}
    (first : SameOk reader reader') (second : ∀ value, SameOk (next value) (next' value)) :
    SameOk (reader >>= next) (reader' >>= next') := by
  rintro bytes ⟨value, rest⟩ read
  rw [plain_bind] at read ⊢
  obtain ⟨middle, left, early, late⟩ := Reader.bind_eq_ok_iff.mp read
  exact Reader.bind_eq_ok_iff.mpr ⟨middle, left, first _ _ early, second middle _ _ late⟩

theorem SameOk.rounds {step step' : σ → Metered ε σ} (each : ∀ state, SameOk (step state)
    (step' state)) (count : Nat) (state : σ) :
    SameOk (Metered.rounds step count state) (Metered.rounds step' count state) := by
  induction count generalizing state with
  | zero => exact .refl _
  | succ count ih => exact (each state).bind ih

/-! ## Means -/

/-- Every request is within what is left, and none overflows the address space. -/
structure Within (reader : Metered ε α) (bytes : List UInt8) : Prop where
  requests : ∀ request ∈ (reader bytes).1, request.capacity ≤ request.left
  noOverflow : (reader bytes).2 ≠ .error .capacityOverflow

theorem within_bind_iff {bytes : List UInt8} :
    Within (reader >>= next) bytes ↔ Within reader bytes ∧
      ∀ value rest, reader.plain bytes = .ok (value, rest) → Within (next value) rest := by
  have sequence : (reader >>= next) bytes = andThen reader next bytes := rfl
  cases ran : reader bytes with
  | mk requests outcome =>
      have plainly : reader.plain bytes = outcome := congrArg Prod.snd ran
      cases outcome with
      | error stop =>
          have whole : (reader >>= next) bytes = (requests, .error stop) := by
            rw [sequence, andThen, ran]
          constructor
          · intro within
            refine ⟨⟨?_, ?_⟩, ?_⟩
            · simpa only [ran, whole] using within.requests
            · simpa only [ran, whole, ne_eq, Except.error.injEq] using within.noOverflow
            · intro value rest read
              rw [plainly] at read
              cases read
          · rintro ⟨within, -⟩
            constructor
            · simpa only [ran, whole] using within.requests
            · simpa only [ran, whole, ne_eq, Except.error.injEq] using within.noOverflow
      | ok result =>
          obtain ⟨value, rest⟩ := result
          have whole : (reader >>= next) bytes =
              (requests ++ (next value rest).1, (next value rest).2) := by
            rw [sequence, andThen, ran]
          constructor
          · intro within
            refine ⟨⟨?_, ?_⟩, ?_⟩
            · intro request member
              rw [ran] at member
              apply within.requests
              rw [whole]
              exact List.mem_append_left _ member
            · rw [ran]
              exact fun overflow => nomatch overflow
            · intro found left read
              rw [plainly] at read
              obtain ⟨rfl, rfl⟩ := Prod.mk.inj (Except.ok.inj read)
              constructor
              · intro request member
                apply within.requests
                rw [whole]
                exact List.mem_append_right _ member
              · have last := within.noOverflow
                rwa [whole] at last
          · rintro ⟨within, later⟩
            have after := later value rest plainly
            constructor
            · intro request member
              rw [whole] at member
              rcases List.mem_append.mp member with early | late
              · apply within.requests
                rwa [ran]
              · exact after.requests request late
            · rw [whole]
              exact after.noOverflow

end Metered

/-! ## Grammars -/

/-- Which byte strings spell which values, and after which beginnings room for a number of
elements of a size is asked for. -/
structure Grammar (α : Type) where
  Spells : List UInt8 → α → Prop
  Asks : List UInt8 → Nat → Nat → Prop

namespace Grammar

/-- Byte strings along which nothing is asked for. -/
def silent (spells : List UInt8 → α → Prop) : Grammar α where
  Spells := spells
  Asks _ _ _ := False

/-- Values of which nothing is written. -/
def given (known : α → Prop) : Grammar α := silent fun taken value => taken = [] ∧ known value

def only (value : α) : Grammar α := given fun found => found = value

/-- There is no value. -/
def never : Grammar α := given fun _ => False

/-- Room is asked for at once. -/
def room (capacity size : Nat) : Grammar Unit where
  Spells taken _ := taken = []
  Asks front asked each := front = [] ∧ asked = capacity ∧ each = size

/-- One part after another, with what is asked for in the first or in the second. -/
def followed (first : Grammar α) (next : α → Grammar β) : Grammar β where
  Spells taken value := ∃ front middle back, taken = front ++ back ∧ first.Spells front middle ∧
    (next middle).Spells back value
  Asks front capacity size := first.Asks front capacity size ∨
    ∃ before middle after, front = before ++ after ∧ first.Spells before middle ∧
      (next middle).Asks after capacity size

/-- Items one after another, each spelled after the state that the one before it left. -/
inductive Chain (item : σ → Grammar σ) : Nat → σ → List UInt8 → σ → Prop
  | none (state : σ) : Chain item 0 state [] state
  | more {count : Nat} {state middle last : σ} {one others : List UInt8}
      (first : (item state).Spells one middle) (next : Chain item count middle others last) :
      Chain item (count + 1) state (one ++ others) last

/-- A number of items, with what is asked for in one of them after those before it. -/
def rounds (item : σ → Grammar σ) (count : Nat) (state : σ) : Grammar σ where
  Spells := Chain item count state
  Asks front capacity size := ∃ done middle before after, done < count ∧
    front = before ++ after ∧ Chain item done state before middle ∧
      (item middle).Asks after capacity size

/-- The values of a number of items. -/
def listed (item : Grammar α) (count : Nat) : Grammar (List α) :=
  rounds (fun values => item.followed fun value => only (values ++ [value])) count []

theorem rounds_zero (item : σ → Grammar σ) (state : σ) : rounds item 0 state = only state := by
  refine (Grammar.mk.injEq _ _ _ _).mpr ⟨?_, ?_⟩
  · funext taken last
    apply propext
    constructor
    · intro chain
      cases chain
      exact ⟨rfl, rfl⟩
    · rintro ⟨rfl, rfl⟩
      exact .none last
  · funext front capacity size
    apply propext
    constructor
    · rintro ⟨done, -, -, -, impossible, -⟩
      exact absurd impossible (Nat.not_lt_zero done)
    · exact False.elim

theorem rounds_succ (item : σ → Grammar σ) (count : Nat) (state : σ) :
    rounds item (count + 1) state = (item state).followed (rounds item count) := by
  refine (Grammar.mk.injEq _ _ _ _).mpr ⟨?_, ?_⟩
  · funext taken last
    apply propext
    constructor
    · intro chain
      cases chain with
      | more first next => exact ⟨_, _, _, rfl, first, next⟩
    · rintro ⟨front, middle, back, rfl, first, next⟩
      exact .more first next
  · funext front capacity size
    apply propext
    constructor
    · rintro ⟨done, middle, before, after, bound, rfl, chain, asked⟩
      cases chain with
      | none => exact .inl asked
      | more first next =>
          rw [List.append_assoc]
          exact .inr ⟨_, _, _, rfl, first, _, _, _, _, Nat.lt_of_succ_lt_succ bound, rfl, next,
            asked⟩
    · rintro (asked | ⟨one, next, _, rfl, first, done, middle, before, after, bound, rfl, chain,
        asked⟩)
      · exact ⟨0, state, [], front, Nat.succ_pos count, rfl, .none state, asked⟩
      · exact ⟨done + 1, middle, one ++ before, after, Nat.succ_lt_succ bound,
          (List.append_assoc one before after).symm, .more first chain, asked⟩

/-- One of the items of a chain, with the items before it. -/
theorem Chain.split {item : σ → Grammar σ} {count : Nat} {state last : σ} {taken : List UInt8}
    (chain : Chain item count state taken last) {place : Nat} (inside : place < count) :
    ∃ middle next before one after, taken = before ++ (one ++ after) ∧
      Chain item place state before middle ∧ (item middle).Spells one next := by
  induction chain generalizing place with
  | none => exact absurd inside (Nat.not_lt_zero place)
  | @more count state middle last one others first chain ih =>
      cases place with
      | zero => exact ⟨state, middle, [], one, others, rfl, .none state, first⟩
      | succ place =>
          obtain ⟨found, next, before, item, after, rfl, earlier, here⟩ :=
            ih (Nat.lt_of_succ_lt_succ inside)
          refine ⟨found, next, one ++ before, item, after, ?_, .more first earlier, here⟩
          rw [List.append_assoc]

/-- Every room asked for along the bytes is within what is left. -/
def Affords (grammar : Grammar α) (bytes : List UInt8) : Prop :=
  ∀ front rest capacity size, bytes = front ++ rest → grammar.Asks front capacity size →
    capacity ≤ rest.length ∧ capacity * size ≤ isizeMax

end Grammar

/-- The reader takes what spells a value, and is within its means where the input affords
what is asked for along it. -/
structure Meets (reader : Metered ε α) (grammar : Grammar α) : Prop where
  within_iff : ∀ bytes, reader.Within bytes ↔ grammar.Affords bytes
  spells_of_ok : ∀ {bytes rest value}, reader.plain bytes = .ok (value, rest) →
    ∃ taken, bytes = taken ++ rest ∧ grammar.Spells taken value
  ok_of_spells : ∀ {taken value} rest, reader.Within (taken ++ rest) →
    grammar.Spells taken value → reader.plain (taken ++ rest) = .ok (value, rest)

namespace Meets

variable {reader : Metered ε α} {grammar : Grammar α}

theorem within_of_silent {bytes : List UInt8} (silent : (reader bytes).1 = [])
    (noOverflow : (reader bytes).2 ≠ .error .capacityOverflow) : reader.Within bytes where
  requests := by
    intro request member
    rw [silent] at member
    cases member
  noOverflow := noOverflow

theorem affords_silent (spells : List UInt8 → α → Prop) (bytes : List UInt8) :
    (Grammar.silent spells).Affords bytes :=
  fun _ _ _ _ _ asked => asked.elim

theorem pure (value : α) : Meets (Pure.pure value : Metered ε α) (.only value) where
  within_iff bytes := iff_of_true (within_of_silent rfl nofun) (affords_silent _ bytes)
  spells_of_ok := by
    intro bytes rest found read
    obtain ⟨rfl, rfl⟩ := Prod.mk.inj (Except.ok.inj read)
    exact ⟨[], rfl, rfl, rfl⟩
  ok_of_spells := by
    rintro taken found rest - ⟨rfl, rfl⟩
    rfl

theorem refuse (error : ε) : Meets (Metered.refuse error : Metered ε α) .never where
  within_iff bytes := iff_of_true (within_of_silent rfl nofun) (affords_silent _ bytes)
  spells_of_ok := by
    intro bytes rest found read
    cases read
  ok_of_spells := by
    rintro taken found rest _ ⟨-, impossible⟩
    exact impossible.elim

/-- A check that takes nothing: it returns the one value there is, or there is none. -/
theorem given {known : α → Prop}
    (settled : (∃ value, reader = Pure.pure value ∧ ∀ found, known found ↔ found = value) ∨
      ∃ error, reader = Metered.refuse error ∧ ∀ found, ¬ known found) :
    Meets reader (.given known) := by
  rcases settled with ⟨value, rfl, only⟩ | ⟨error, rfl, none⟩
  · obtain rfl : known = fun found => found = value := funext fun found => propext (only found)
    exact pure value
  · obtain rfl : known = fun _ => False := funext fun found => propext (iff_false_intro (none found))
    exact refuse error

/-- A check that returns nothing. -/
theorem check {condition : Prop} [Decidable condition] (value : α) (error : ε) :
    Meets (if condition then Pure.pure value else Metered.refuse error : Metered ε α)
      (.given fun found => condition ∧ found = value) := by
  apply given
  split
  · next holds => exact .inl ⟨value, rfl, fun found => and_iff_right holds⟩
  · next fails => exact .inr ⟨error, rfl, fun found both => fails both.1⟩

theorem take {reader : Reader ε α} {spells : List UInt8 → α → Prop}
    (same : ∀ bytes value rest, reader bytes = .ok (value, rest) ↔
      ∃ taken, bytes = taken ++ rest ∧ spells taken value) :
    Meets (Metered.take reader) (.silent spells) where
  within_iff bytes := by
    apply iff_of_true _ (affords_silent _ bytes)
    apply within_of_silent rfl
    change (reader bytes).mapError _ ≠ _
    cases reader bytes with
    | error error => exact fun overflow => nomatch overflow
    | ok result => exact fun overflow => nomatch overflow
  spells_of_ok := by
    intro bytes rest value read
    exact (same bytes value rest).mp (Metered.plain_take_eq_ok_iff.mp read)
  ok_of_spells := by
    intro taken value rest _ spelled
    exact Metered.plain_take_eq_ok_iff.mpr ((same _ value rest).mpr ⟨taken, rfl, spelled⟩)

theorem reserve (capacity size : Nat) :
    Meets (Metered.reserve capacity size : Metered ε Unit) (.room capacity size) where
  within_iff bytes := by
    constructor
    · rintro within front rest asked each rfl ⟨rfl, rfl, rfl⟩
      refine ⟨within.requests _ List.mem_cons_self, ?_⟩
      by_contra large
      exact within.noOverflow (if_pos (Nat.not_le.mp large))
    · intro affords
      obtain ⟨enough, room⟩ := affords [] bytes capacity size rfl ⟨rfl, rfl, rfl⟩
      constructor
      · intro request member
        obtain rfl := List.mem_singleton.mp member
        exact enough
      · have plainly := congrFun (Metered.plain_reserve (ε := ε) room) bytes
        change (Metered.reserve capacity size bytes).2 = _ at plainly
        rw [plainly]
        exact fun overflow => nomatch overflow
  spells_of_ok := by
    intro bytes rest value read
    by_cases large : isizeMax < capacity * size
    · have refused : (Metered.reserve capacity size : Metered ε Unit).plain bytes =
          .error .capacityOverflow := if_pos large
      rw [refused] at read
      cases read
    · rw [Metered.plain_reserve (Nat.not_lt.mp large)] at read
      obtain ⟨-, rfl⟩ := Prod.mk.inj (Except.ok.inj read)
      exact ⟨[], rfl, rfl⟩
  ok_of_spells := by
    rintro taken value rest within rfl
    apply if_neg
    intro large
    exact within.noOverflow (if_pos large)

theorem bind {next : α → Metered ε β} {grammarNext : α → Grammar β}
    (first : Meets reader grammar) (second : ∀ value, Meets (next value) (grammarNext value)) :
    Meets (reader >>= next) (grammar.followed grammarNext) where
  within_iff bytes := by
    rw [Metered.within_bind_iff]
    constructor
    · rintro ⟨within, later⟩ front rest capacity size rfl (asked | asked)
      · exact (first.within_iff _).mp within front rest capacity size rfl asked
      · obtain ⟨before, value, after, rfl, spelled, asked⟩ := asked
        rw [List.append_assoc] at within later
        have read := first.ok_of_spells (after ++ rest) within spelled
        exact ((second value).within_iff _).mp (later value _ read) after rest capacity size rfl
          asked
    · intro affords
      constructor
      · apply (first.within_iff bytes).mpr
        intro front rest capacity size split asked
        exact affords front rest capacity size split (.inl asked)
      · intro value rest read
        obtain ⟨taken, rfl, spelled⟩ := first.spells_of_ok read
        apply ((second value).within_iff rest).mpr
        rintro front left capacity size rfl asked
        apply affords (taken ++ front) left capacity size (List.append_assoc _ _ _).symm
        exact .inr ⟨taken, value, front, rfl, spelled, asked⟩
  spells_of_ok := by
    intro bytes rest value read
    rw [Metered.plain_bind] at read
    obtain ⟨middle, left, early, late⟩ := Reader.bind_eq_ok_iff.mp read
    obtain ⟨front, rfl, spelled⟩ := first.spells_of_ok early
    obtain ⟨back, rfl, spelledNext⟩ := (second middle).spells_of_ok late
    exact ⟨front ++ back, (List.append_assoc front back rest).symm, front, middle, back, rfl,
      spelled, spelledNext⟩
  ok_of_spells := by
    rintro taken value rest within ⟨front, middle, back, rfl, spelled, spelledNext⟩
    rw [Metered.within_bind_iff] at within
    obtain ⟨within, later⟩ := within
    rw [List.append_assoc] at within later ⊢
    have early := first.ok_of_spells (back ++ rest) within spelled
    rw [Metered.plain_bind]
    exact Reader.bind_eq_ok_iff.mpr ⟨middle, back ++ rest, early,
      (second middle).ok_of_spells rest (later middle _ early) spelledNext⟩

/-- A loop, of which each round meets its own grammar. -/
theorem rounds {step : σ → Metered ε σ} {item : σ → Grammar σ}
    (each : ∀ state, Meets (step state) (item state)) (count : Nat) (state : σ) :
    Meets (Metered.rounds step count state) (.rounds item count state) := by
  induction count generalizing state with
  | zero =>
      rw [Grammar.rounds_zero]
      exact pure state
  | succ count ih =>
      rw [Grammar.rounds_succ]
      exact (each state).bind ih

theorem collect (each : Meets reader grammar) (count : Nat) :
    Meets (Metered.collect reader count) (.listed grammar count) :=
  rounds (fun values => each.bind fun value => pure (values ++ [value])) count []

end Meets

end Reading
