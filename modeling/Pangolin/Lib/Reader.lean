import Mathlib.Data.List.Basic
import Mathlib.Tactic.Positivity
import Mathlib.Tactic.Ring

/-!
# Reading back what was written

A reader takes a value off the front of a byte string or fails.  `Reads` says that a reader
takes exactly the given bytes and returns the given value, whatever follows them; it is
closed under sequencing and repetition, so that a decoder written in the shape of its
encoder is shown to invert it item by item.

Numbers are written big-endian at a fixed width.
-/

namespace Reading

variable {ε α β : Type}

/-- A reader over a byte string. -/
abbrev Reader (ε α : Type) := StateT (List UInt8) (Except ε) α

namespace Reader

/-- Take a number of bytes. -/
def exactly (short : ε) (count : Nat) : Reader ε (List UInt8) := fun bytes =>
  if bytes.length < count then .error short else .ok (bytes.take count, bytes.drop count)

/-- Take one byte. -/
def byte (short : ε) : Reader ε UInt8 := fun bytes =>
  match bytes with
  | [] => .error short
  | first :: rest => .ok (first, rest)

/-- The same reader a number of times. -/
def times (reader : Reader ε α) : Nat → Reader ε (List α)
  | 0 => pure []
  | count + 1 => do
      let value ← reader
      let values ← times reader count
      return value :: values

/-- A loop whose step goes on with a new state or breaks with a result.  `stuck` is for a
loop that has used up its rounds. -/
def repeatUntil {σ : Type} (stuck : ε) (step : σ → Reader ε (σ ⊕ α)) : Nat → σ → Reader ε α
  | 0, _ => fun _ => .error stuck
  | rounds + 1, state => fun bytes =>
      match step state bytes with
      | .error error => .error error
      | .ok (.inr result, rest) => .ok (result, rest)
      | .ok (.inl next, rest) => repeatUntil stuck step rounds next rest

/-- A loop whose steps each take at least `size` bytes ends within as many rounds as the
bytes have room for such steps, and one more. -/
theorem repeatUntil_eq {σ : Type} {step : σ → Reader ε (σ ⊕ α)} {size : Nat} (positive : 0 < size)
    (consumes : ∀ state bytes next rest, step state bytes = .ok (.inl next, rest) →
      rest.length + size ≤ bytes.length) (stuck stuck' : ε) {rounds rounds' : Nat} (state : σ)
    {bytes : List UInt8} (enough : bytes.length / size < rounds)
    (enough' : bytes.length / size < rounds') :
    repeatUntil stuck step rounds state bytes = repeatUntil stuck' step rounds' state bytes := by
  induction rounds generalizing rounds' state bytes with
  | zero => exact absurd enough (Nat.not_lt_zero _)
  | succ rounds ih =>
      obtain ⟨more, rfl⟩ := Nat.exists_eq_add_one.mpr (Nat.zero_lt_of_lt enough')
      cases stepped : step state bytes with
      | error error => simp only [repeatUntil, stepped]
      | ok outcome =>
          obtain ⟨next | result, rest⟩ := outcome
          · have shorter := consumes state bytes next rest stepped
            have fewer : rest.length / size + 1 ≤ bytes.length / size := by
              rw [← Nat.add_div_right _ positive]
              exact Nat.div_le_div_right shorter
            simp only [repeatUntil, stepped]
            exact ih next (Nat.lt_of_succ_lt_succ (Nat.lt_of_le_of_lt fewer enough))
              (Nat.lt_of_succ_lt_succ (Nat.lt_of_le_of_lt fewer enough'))
          · simp only [repeatUntil, stepped]

/-- A sequence of readers succeeds exactly when both parts do. -/
theorem bind_eq_ok_iff {reader : Reader ε α} {next : α → Reader ε β} {bytes rest : List UInt8}
    {value : β} :
    (reader >>= next) bytes = .ok (value, rest) ↔
      ∃ middle left, reader bytes = .ok (middle, left) ∧ next middle left = .ok (value, rest) := by
  change (reader bytes >>= fun result => next result.1 result.2) = _ ↔ _
  cases result : reader bytes with
  | error error => simp [bind, Except.bind]
  | ok outcome => cases outcome; simp [bind, Except.bind]

/-- What is taken comes off the front. -/
theorem exactly_eq_ok {short : ε} {count : Nat} {bytes taken rest : List UInt8}
    (read : exactly short count bytes = .ok (taken, rest)) :
    bytes = taken ++ rest ∧ taken.length = count := by
  unfold exactly at read
  split at read
  · cases read
  · obtain ⟨rfl, rfl⟩ := Prod.mk.inj (Except.ok.inj read)
    refine ⟨(List.take_append_drop count bytes).symm, ?_⟩
    rw [List.length_take]
    omega

end Reader

/-- The reader takes exactly these bytes and returns this value. -/
def Reads (reader : Reader ε α) (bytes : List UInt8) (value : α) : Prop :=
  ∀ rest, reader (bytes ++ rest) = .ok (value, rest)

namespace Reads

variable {reader : Reader ε α} {next : α → Reader ε β} {bytes bytes' : List UInt8}
variable {value : α} {value' : β}

theorem pure (value : α) : Reads (Pure.pure value : Reader ε α) [] value := by
  intro rest
  rfl

theorem bind (first : Reads reader bytes value) (second : Reads (next value) bytes' value') :
    Reads (reader >>= next) (bytes ++ bytes') value' := by
  intro rest
  have read := first (bytes' ++ rest)
  rw [List.append_assoc]
  change (reader _ >>= fun result => next result.1 result.2) = _
  rw [read]
  exact second rest

/-- The last reader of a sequence takes the last bytes. -/
theorem last (first : Reads reader bytes value) (second : Reads (next value) [] value') :
    Reads (reader >>= next) bytes value' := by
  have both := first.bind second
  rwa [List.append_nil] at both

/-- A step that reads nothing. -/
theorem skip (first : Reads reader [] value) (second : Reads (next value) bytes value') :
    Reads (reader >>= next) bytes value' :=
  first.bind second

theorem exactly (short : ε) (bytes : List UInt8) :
    Reads (Reader.exactly short bytes.length) bytes bytes := by
  intro rest
  have enough : ¬ (bytes ++ rest).length < bytes.length := by
    rw [List.length_append]
    omega
  rw [Reader.exactly, if_neg enough, List.take_left, List.drop_left]

/-- A list written item by item reads back. -/
theorem times {write : α → List UInt8} {values : List α}
    (each : ∀ value ∈ values, Reads reader (write value) value) :
    Reads (reader.times values.length) (values.flatMap write) values := by
  induction values with
  | nil => exact pure []
  | cons value values ih =>
      apply (each value List.mem_cons_self).bind
      apply Reads.last
      · apply ih
        intro other member
        exact each other (List.mem_cons_of_mem _ member)
      · exact pure (value :: values)

/-- What a reader returns of bytes that are all its own. -/
theorem of_nil (reads : Reads reader bytes value) : reader bytes = .ok (value, []) := by
  have read := reads []
  rwa [List.append_nil] at read

end Reads

/-! ## Readers that refuse what does not fit -/

/-- The reader takes exactly these bytes and returns this value where the condition holds,
and fails on them where it does not. -/
structure Settles (fits : Prop) (reader : Reader ε α) (bytes : List UInt8) (value : α) : Prop where
  reads : fits → Reads reader bytes value
  refuses : ¬ fits → ∀ rest, ∃ error, reader (bytes ++ rest) = .error error

namespace Settles

variable {fits fits' : Prop} {reader : Reader ε α} {next : α → Reader ε β}
variable {bytes bytes' : List UInt8} {value : α} {value' : β}

theorem of_reads (reads : Reads reader bytes value) : Settles True reader bytes value where
  reads _ := reads
  refuses never := absurd trivial never

/-- A reader that refuses whatever comes. -/
theorem never (refuses : ∀ rest, ∃ error, reader (bytes ++ rest) = .error error) :
    Settles False reader bytes value where
  reads := False.elim
  refuses _ := refuses

theorem congr (settles : Settles fits reader bytes value) (same : fits ↔ fits') :
    Settles fits' reader bytes value where
  reads holds := settles.reads (same.mpr holds)
  refuses fails := settles.refuses fun holds => fails (same.mp holds)

theorem bind (first : Settles fits reader bytes value)
    (second : fits → Settles fits' (next value) bytes' value') :
    Settles (fits ∧ fits') (reader >>= next) (bytes ++ bytes') value' where
  reads := by
    intro ⟨holds, holds'⟩
    exact (first.reads holds).bind ((second holds).reads holds')
  refuses := by
    intro fails rest
    rw [List.append_assoc]
    by_cases holds : fits
    · obtain ⟨error, refused⟩ := (second holds).refuses (fun holds' => fails ⟨holds, holds'⟩) rest
      refine ⟨error, ?_⟩
      change (reader _ >>= fun result => next result.1 result.2) = _
      rw [first.reads holds]
      exact refused
    · obtain ⟨error, refused⟩ := first.refuses holds (bytes' ++ rest)
      refine ⟨error, ?_⟩
      change (reader _ >>= fun result => next result.1 result.2) = _
      rw [refused]
      rfl

/-- A step that always reads adds no condition. -/
theorem after (first : Reads reader bytes value)
    (second : Settles fits (next value) bytes' value') :
    Settles fits (reader >>= next) (bytes ++ bytes') value' :=
  ((of_reads first).bind fun _ => second).congr (and_iff_right trivial)

/-- The last reader of a sequence takes the last bytes. -/
theorem last (first : Settles fits reader bytes value)
    (second : fits → Reads (next value) [] value') :
    Settles fits (reader >>= next) bytes value' := by
  have both := first.bind fun holds => of_reads (second holds)
  rw [List.append_nil] at both
  exact both.congr (and_iff_left trivial)

/-- A step that reads nothing. -/
theorem skip (first : Reads reader [] value) (second : Settles fits (next value) bytes value') :
    Settles fits (reader >>= next) bytes value' :=
  after first second

/-- A check of what was read. -/
theorem checked (first : Reads reader bytes value) (second : Settles fits (next value) [] value') :
    Settles fits (reader >>= next) bytes value' := by
  have both := after first second
  rwa [List.append_nil] at both

/-- A check before a reader. -/
theorem guarded {condition : Prop} [Decidable condition] (error : ε)
    (second : ¬ condition → Settles fits reader bytes value) :
    Settles (¬ condition ∧ fits) (if condition then throw error else reader) bytes value := by
  by_cases holds : condition
  · rw [if_pos holds]
    apply (never fun rest => ⟨error, rfl⟩).congr
    simp only [holds, not_true_eq_false, false_and]
  · rw [if_neg holds]
    exact (second holds).congr (and_iff_right holds).symm

/-- A list written item by item reads back when each item does. -/
theorem times {write : α → List UInt8} {each : α → Prop} {values : List α}
    (settles : ∀ value ∈ values, Settles (each value) reader (write value) value) :
    Settles (∀ value ∈ values, each value) (reader.times values.length) (values.flatMap write)
      values := by
  induction values with
  | nil =>
      apply (of_reads (Reads.pure [])).congr
      simp only [List.not_mem_nil, false_imp_iff, implies_true]
  | cons value values ih =>
      rw [List.flatMap_cons]
      have tail : Settles (∀ value ∈ values, each value)
          (do let rest ← reader.times values.length; return value :: rest)
          (values.flatMap write) (value :: values) := by
        apply (ih fun other member => settles other (List.mem_cons_of_mem _ member)).last
        intro _
        exact Reads.pure (value :: values)
      apply ((settles value List.mem_cons_self).bind fun _ => tail).congr
      simp only [List.mem_cons, forall_eq_or_imp]

end Settles

/-! ## Readers that do not look ahead -/

/-- What the reader returns depends on the bytes it takes alone. -/
def Local (reader : Reader ε α) : Prop :=
  ∀ bytes value rest, reader bytes = .ok (value, rest) →
    ∃ taken, bytes = taken ++ rest ∧ Reads reader taken value

namespace Local

variable {reader : Reader ε α} {next : α → Reader ε β}

/-- A reader that always fails. -/
theorem fail (error : ε) : Local (fun _ => .error error : Reader ε α) := by
  intro bytes value rest read
  cases read

theorem pure (value : α) : Local (Pure.pure value : Reader ε α) := by
  intro bytes found rest read
  obtain ⟨rfl, rfl⟩ := Prod.mk.inj (Except.ok.inj read)
  exact ⟨[], rfl, .pure value⟩

theorem byte (short : ε) : Local (Reader.byte short) := by
  intro bytes value rest read
  cases bytes with
  | nil => cases read
  | cons first bytes =>
      obtain ⟨rfl, rfl⟩ := Prod.mk.inj (Except.ok.inj read)
      exact ⟨[first], rfl, fun _ => rfl⟩

theorem exactly (short : ε) (count : Nat) : Local (Reader.exactly short count) := by
  intro bytes value rest read
  obtain ⟨split, rfl⟩ := Reader.exactly_eq_ok read
  exact ⟨value, split, .exactly short value⟩

theorem bind (first : Local reader) (second : ∀ value, Local (next value)) :
    Local (reader >>= next) := by
  intro bytes value rest read
  obtain ⟨middle, left, result, later⟩ := Reader.bind_eq_ok_iff.mp read
  obtain ⟨taken, rfl, readFirst⟩ := first bytes middle left result
  obtain ⟨more, rfl, readSecond⟩ := second middle left value rest later
  exact ⟨taken ++ more, (List.append_assoc taken more rest).symm, readFirst.bind readSecond⟩

theorem ite {condition : Prop} [Decidable condition] {first second : Reader ε α}
    (one : condition → Local first) (two : ¬ condition → Local second) :
    Local (if condition then first else second) := by
  split
  · exact one ‹_›
  · exact two ‹_›

theorem times (each : Local reader) (count : Nat) : Local (reader.times count) := by
  induction count with
  | zero => exact pure []
  | succ count ih => exact each.bind fun value => ih.bind fun values => pure (value :: values)

theorem length_le (localReader : Local reader) {bytes rest : List UInt8} {value : α}
    (read : reader bytes = .ok (value, rest)) : rest.length ≤ bytes.length := by
  obtain ⟨taken, rfl, -⟩ := localReader bytes value rest read
  rw [List.length_append]
  omega

/-- A reader that begins with a byte takes at least that byte. -/
theorem length_lt {short : ε} {next : UInt8 → Reader ε α} (second : ∀ value, Local (next value))
    {bytes rest : List UInt8} {value : α}
    (read : (Reader.byte short >>= next) bytes = .ok (value, rest)) :
    rest.length < bytes.length := by
  cases bytes with
  | nil => cases read
  | cons first bytes => exact Nat.lt_succ_of_le ((second first).length_le read)

/-- Nothing shorter than what such a reader takes or refuses is accepted. -/
theorem not_ok_of_front (localReader : Local reader) {fits : Prop} {written front rest : List UInt8}
    {value found : α} (settles : Settles fits reader written value)
    (proper : front.length < written.length) (isFront : front <+: written) :
    reader front ≠ .ok (found, rest) := by
  intro read
  obtain ⟨taken, rfl, readTaken⟩ := localReader front found rest read
  obtain ⟨more, rfl⟩ := isFront
  have whole := readTaken (rest ++ more)
  rw [← List.append_assoc] at whole
  by_cases holds : fits
  · -- Both readings start with `taken`, so they end at the same place.
    rw [(settles.reads holds).of_nil] at whole
    obtain ⟨-, nothing⟩ := Prod.mk.inj (Except.ok.inj whole)
    have none := congrArg List.length nothing
    simp only [List.length_append, List.length_nil] at none proper
    omega
  · obtain ⟨error, refused⟩ := settles.refuses holds []
    rw [List.append_nil, whole] at refused
    cases refused

/-- Nothing shorter than what such a reader takes is accepted. -/
theorem not_ok_of_prefix (localReader : Local reader) {written front rest : List UInt8} {value : α}
    {found : α} (reads : Reads reader written value) (proper : front.length < written.length)
    (isFront : front <+: written) : reader front ≠ .ok (found, rest) :=
  localReader.not_ok_of_front (.of_reads reads) proper isFront

end Local

/-! ## Numbers -/

/-- The big-endian bytes of a number at a width. -/
def toBytes : Nat → Nat → List UInt8
  | 0, _ => []
  | width + 1, value => UInt8.ofNat (value / 256 ^ width) :: toBytes width value

def ofBytes (bytes : List UInt8) : Nat :=
  bytes.foldl (fun value byte => value * 256 + byte.toNat) 0

@[simp] theorem length_toBytes (width value : Nat) : (toBytes width value).length = width := by
  induction width with
  | zero => rfl
  | succ width ih => rw [toBytes, List.length_cons, ih]

/-- The little-endian bytes of a number at a width. -/
def toBytesLe (width value : Nat) : List UInt8 := (toBytes width value).reverse

def ofBytesLe (bytes : List UInt8) : Nat := ofBytes bytes.reverse

theorem foldl_toBytes (width value start : Nat) :
    (toBytes width value).foldl (fun value byte => value * 256 + byte.toNat) start =
      start * 256 ^ width + value % 256 ^ width := by
  induction width generalizing start with
  | zero => simp [toBytes, Nat.mod_one]
  | succ width ih =>
      have digit : (UInt8.ofNat (value / 256 ^ width)).toNat = value / 256 ^ width % 256 := by
        simp
      rw [toBytes, List.foldl_cons, ih, digit, pow_succ, Nat.mod_mul]
      ring

/-- A number below the width's bound reads back. -/
theorem ofBytes_toBytes {width value : Nat} (fits : value < 256 ^ width) :
    ofBytes (toBytes width value) = value := by
  rw [ofBytes, foldl_toBytes, Nat.mod_eq_of_lt fits]
  omega

@[simp] theorem length_toBytesLe (width value : Nat) : (toBytesLe width value).length = width := by
  rw [toBytesLe, List.length_reverse, length_toBytes]

theorem ofBytesLe_toBytesLe {width value : Nat} (fits : value < 256 ^ width) :
    ofBytesLe (toBytesLe width value) = value := by
  rw [ofBytesLe, toBytesLe, List.reverse_reverse, ofBytes_toBytes fits]

theorem foldl_ofBytes (bytes : List UInt8) (start : Nat) :
    bytes.foldl (fun value byte => value * 256 + byte.toNat) start =
      start * 256 ^ bytes.length + ofBytes bytes := by
  induction bytes generalizing start with
  | nil => simp [ofBytes]
  | cons byte bytes ih =>
      rw [ofBytes, List.foldl_cons, List.foldl_cons, ih, ih, List.length_cons, pow_succ]
      ring

theorem ofBytes_cons (byte : UInt8) (bytes : List UInt8) :
    ofBytes (byte :: bytes) = byte.toNat * 256 ^ bytes.length + ofBytes bytes := by
  rw [ofBytes, List.foldl_cons, foldl_ofBytes, Nat.zero_mul, Nat.zero_add]

theorem ofBytes_lt (bytes : List UInt8) : ofBytes bytes < 256 ^ bytes.length := by
  induction bytes with
  | nil => decide
  | cons byte bytes ih =>
      have digit := byte.toNat_lt
      rw [ofBytes_cons, List.length_cons, pow_succ]
      calc byte.toNat * 256 ^ bytes.length + ofBytes bytes
          < (byte.toNat + 1) * 256 ^ bytes.length := by rw [Nat.succ_mul]; omega
        _ ≤ 256 * 256 ^ bytes.length := Nat.mul_le_mul_right _ digit
        _ = 256 ^ bytes.length * 256 := Nat.mul_comm _ _

/-- Bytes of one width are those of the number they are of. -/
theorem toBytes_ofBytes (bytes : List UInt8) : toBytes bytes.length (ofBytes bytes) = bytes := by
  have general : ∀ (bytes : List UInt8) (high : Nat),
      toBytes bytes.length (high * 256 ^ bytes.length + ofBytes bytes) = bytes := by
    intro bytes
    induction bytes with
    | nil =>
        intro high
        rfl
    | cons byte bytes ih =>
        intro high
        have split : high * 256 ^ (bytes.length + 1) + ofBytes (byte :: bytes) =
            (high * 256 + byte.toNat) * 256 ^ bytes.length + ofBytes bytes := by
          rw [ofBytes_cons]
          ring
        have top : ((high * 256 + byte.toNat) * 256 ^ bytes.length + ofBytes bytes) /
            256 ^ bytes.length = high * 256 + byte.toNat := by
          rw [Nat.add_comm, Nat.add_mul_div_right _ _ (by positivity),
            Nat.div_eq_of_lt (ofBytes_lt bytes), Nat.zero_add]
        have first : UInt8.ofNat (high * 256 + byte.toNat) = byte := by
          apply UInt8.toNat_inj.mp
          have digit := byte.toNat_lt
          rw [UInt8.toNat_ofNat']
          omega
        rw [List.length_cons, split, toBytes, top, first, ih]
  have whole := general bytes 0
  rwa [Nat.zero_mul, Nat.zero_add] at whole

/-- A number of a width. -/
def Reader.number (short : ε) (width : Nat) : Reader ε Nat := do
  let bytes ← Reader.exactly short width
  return ofBytes bytes

theorem Reads.number (short : ε) {width value : Nat} (fits : value < 256 ^ width) :
    Reads (Reader.number short width) (toBytes width value) value := by
  have taken := Reads.exactly short (toBytes width value)
  rw [length_toBytes] at taken
  apply taken.last
  rw [ofBytes_toBytes fits]
  exact .pure value

/-- A number that is read is one of the width, in front of what is left. -/
theorem Reader.number_eq_ok {short : ε} {width value : Nat} {bytes rest : List UInt8}
    (read : Reader.number short width bytes = .ok (value, rest)) :
    value < 256 ^ width ∧ bytes = toBytes width value ++ rest := by
  obtain ⟨taken, left, exact, done⟩ := Reader.bind_eq_ok_iff.mp read
  obtain ⟨rfl, rfl⟩ := Prod.mk.inj (Except.ok.inj done)
  obtain ⟨rfl, rfl⟩ := Reader.exactly_eq_ok exact
  exact ⟨ofBytes_lt taken, by rw [toBytes_ofBytes]⟩

theorem toBytesLe_ofBytesLe (bytes : List UInt8) :
    toBytesLe bytes.length (ofBytesLe bytes) = bytes := by
  have whole := toBytes_ofBytes bytes.reverse
  rw [List.length_reverse] at whole
  rw [toBytesLe, ofBytesLe, whole, List.reverse_reverse]

end Reading
