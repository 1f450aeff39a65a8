import Pangolin.Lib.Reader

/-!
# CBOR item headers

The headers a low-level CBOR codec pushes and pulls.  A codec is any pair of functions that
reads back the definite headers it writes; the shortest-form encoding of the format's
specification is one.
-/

namespace Cbor

open Reading

inductive Header where
  | positive (value : Nat)
  | negative (value : Nat)
  | float (bits : Nat)
  | simple (value : Nat)
  | tag (value : Nat)
  | breakCode
  | bytes (length : Option Nat)
  | text (length : Option Nat)
  | array (length : Option Nat)
  | map (length : Option Nat)
  deriving Repr, DecidableEq

namespace Header

/-- The simple values `false` and `true`. -/
def ofBool (value : Bool) : Header := .simple (if value then 21 else 20)

/-- Headers of definite items whose argument is a 64-bit number. -/
def Definite : Header → Prop
  | .positive value | .negative value => value < 2 ^ 64
  | .simple value => value < 24
  | .bytes (some length) | .text (some length) | .array (some length) => length < 2 ^ 64
  | _ => False

end Header

/-- A codec for headers. -/
structure HeaderCodec where
  push : Header → List UInt8
  pull : List UInt8 → Option (Header × List UInt8)
  pull_push : ∀ header rest, header.Definite → pull (push header ++ rest) = some (header, rest)

/-! ## The shortest form -/

/-- The first byte of an item and its argument, in as few bytes as hold it. -/
def pushArgument (major argument : Nat) : List UInt8 :=
  if argument < 24 then [UInt8.ofNat (major * 32 + argument)]
  else if argument < 2 ^ 8 then UInt8.ofNat (major * 32 + 24) :: toBytes 1 argument
  else if argument < 2 ^ 16 then UInt8.ofNat (major * 32 + 25) :: toBytes 2 argument
  else if argument < 2 ^ 32 then UInt8.ofNat (major * 32 + 26) :: toBytes 4 argument
  else UInt8.ofNat (major * 32 + 27) :: toBytes 8 argument

/-- A fixed-width argument. -/
def pullFixed (width : Nat) (bytes : List UInt8) : Option (Nat × List UInt8) :=
  if bytes.length < width then none else some (ofBytes (bytes.take width), bytes.drop width)

/-- The argument announced by the low bits of the first byte. -/
def pullArgument (info : Nat) (bytes : List UInt8) : Option (Nat × List UInt8) :=
  if info < 24 then some (info, bytes)
  else if info = 24 then pullFixed 1 bytes
  else if info = 25 then pullFixed 2 bytes
  else if info = 26 then pullFixed 4 bytes
  else if info = 27 then pullFixed 8 bytes
  else none

/-- The header of a major type and an argument; none of the indefinite ones is here. -/
def headerOf : Nat → Nat → Option Header
  | 0, argument => some (.positive argument)
  | 1, argument => some (.negative argument)
  | 2, argument => some (.bytes (some argument))
  | 3, argument => some (.text (some argument))
  | 4, argument => some (.array (some argument))
  | 7, argument => some (.simple argument)
  | _, _ => none

def pushShortest : Header → List UInt8
  | .positive value => pushArgument 0 value
  | .negative value => pushArgument 1 value
  | .bytes (some length) => pushArgument 2 length
  | .text (some length) => pushArgument 3 length
  | .array (some length) => pushArgument 4 length
  | .simple value => pushArgument 7 value
  | _ => []

def pullShortest : List UInt8 → Option (Header × List UInt8)
  | [] => none
  | first :: bytes => do
      let (argument, rest) ← pullArgument (first.toNat % 32) bytes
      let header ← headerOf (first.toNat / 32) argument
      return (header, rest)

theorem pullFixed_toBytes {width argument : Nat} (fits : argument < 256 ^ width)
    (rest : List UInt8) :
    pullFixed width (toBytes width argument ++ rest) = some (argument, rest) := by
  have enough : ¬ (toBytes width argument ++ rest).length < width := by
    rw [List.length_append, length_toBytes]
    omega
  have taken : (toBytes width argument ++ rest).take width = toBytes width argument :=
    List.take_left' (length_toBytes width argument)
  have dropped : (toBytes width argument ++ rest).drop width = rest :=
    List.drop_left' (length_toBytes width argument)
  rw [pullFixed, if_neg enough, taken, dropped, ofBytes_toBytes fits]

/-- The first byte splits into the major type and the low bits. -/
theorem firstByte {major info : Nat} (smallMajor : major < 8) (smallInfo : info < 32) :
    (UInt8.ofNat (major * 32 + info)).toNat / 32 = major ∧
      (UInt8.ofNat (major * 32 + info)).toNat % 32 = info := by
  have value : (UInt8.ofNat (major * 32 + info)).toNat = major * 32 + info := by
    rw [UInt8.toNat_ofNat']
    omega
  rw [value]
  omega

theorem length_pushArgument (major argument : Nat) : (pushArgument major argument).length ≤ 9 := by
  unfold pushArgument
  repeat' split
  all_goals simp only [List.length_cons, List.length_nil, length_toBytes]; omega

/-- A pushed argument is one first byte, whose low bits announce it, and a tail it is pulled
from. -/
theorem pushArgument_eq {argument : Nat} (major : Nat) (fits : argument < 2 ^ 64) :
    ∃ info tail, pushArgument major argument = UInt8.ofNat (major * 32 + info) :: tail ∧
      info < 28 ∧ (argument < 24 → info = argument) ∧
      ∀ rest, pullArgument info (tail ++ rest) = some (argument, rest) := by
  have fixed : ∀ info width, 24 ≤ argument → info < 28 →
      (∀ bytes, pullArgument info bytes = pullFixed width bytes) → argument < 256 ^ width →
      ∃ info' tail, UInt8.ofNat (major * 32 + info) :: toBytes width argument =
          UInt8.ofNat (major * 32 + info') :: tail ∧
        info' < 28 ∧ (argument < 24 → info' = argument) ∧
        ∀ rest, pullArgument info' (tail ++ rest) = some (argument, rest) := by
    intro info width long small announced fitsWidth
    refine ⟨info, _, rfl, small, by omega, ?_⟩
    intro rest
    rw [announced]
    exact pullFixed_toBytes fitsWidth rest
  unfold pushArgument
  split
  · next short => exact ⟨argument, [], rfl, by omega, fun _ => rfl, fun rest => if_pos short⟩
  split
  · exact fixed 24 1 (by omega) (by omega) (fun _ => rfl) (by omega)
  split
  · exact fixed 25 2 (by omega) (by omega) (fun _ => rfl) (by omega)
  split
  · exact fixed 26 4 (by omega) (by omega) (fun _ => rfl) (by omega)
  · exact fixed 27 8 (by omega) (by omega) (fun _ => rfl) (by omega)

theorem pullShortest_pushArgument {major argument : Nat} (smallMajor : major < 8)
    (fits : argument < 2 ^ 64) (rest : List UInt8) :
    pullShortest (pushArgument major argument ++ rest) =
      (headerOf major argument).map fun header => (header, rest) := by
  obtain ⟨info, tail, pushed, small, -, read⟩ := pushArgument_eq major fits
  obtain ⟨sameMajor, sameInfo⟩ := firstByte smallMajor (show info < 32 by omega)
  simp only [pushed, List.cons_append, pullShortest, sameMajor, sameInfo, read,
    Option.bind_eq_bind, Option.bind_some]
  cases headerOf major argument <;> rfl

/-- The shortest-form codec. -/
def HeaderCodec.shortest : HeaderCodec where
  push := pushShortest
  pull := pullShortest
  pull_push := by
    intro header rest definite
    match header, definite with
    | .positive value, definite => exact pullShortest_pushArgument (by omega) definite rest
    | .negative value, definite => exact pullShortest_pushArgument (by omega) definite rest
    | .bytes (some length), definite => exact pullShortest_pushArgument (by omega) definite rest
    | .text (some length), definite => exact pullShortest_pushArgument (by omega) definite rest
    | .array (some length), definite => exact pullShortest_pushArgument (by omega) definite rest
    | .simple value, definite =>
        have small : value < 24 := definite
        exact pullShortest_pushArgument (by omega) (by omega) rest

/-! ## The whole header grammar -/

/-- A codec that also writes map headers, in at most nine bytes a header, and whose headers
end where they say. -/
structure StreamCodec extends HeaderCodec where
  length_push : ∀ header, header.Definite → (push header).length ≤ 9
  pull_push_map : ∀ length rest, length < 2 ^ 64 →
    pull (push (.map (some length)) ++ rest) = some (.map (some length), rest)
  pull_takes : ∀ bytes header rest, pull bytes = some (header, rest) →
    ∃ taken, taken ≠ [] ∧ bytes = taken ++ rest ∧
      ∀ more, pull (taken ++ more) = some (header, more)

/-- The header of a major type, the low bits of the first byte and the argument. -/
def headerAt (major info argument : Nat) : Header :=
  match major with
  | 0 => .positive argument
  | 1 => .negative argument
  | 2 => .bytes (some argument)
  | 3 => .text (some argument)
  | 4 => .array (some argument)
  | 5 => .map (some argument)
  | 6 => .tag argument
  | _ => if info ≤ 24 then .simple argument else .float argument

/-- The headers without a length. -/
def indefiniteAt : Nat → Option Header
  | 2 => some (.bytes none)
  | 3 => some (.text none)
  | 4 => some (.array none)
  | 5 => some (.map none)
  | 7 => some .breakCode
  | _ => none

def pullHeader : List UInt8 → Option (Header × List UInt8)
  | [] => none
  | first :: bytes =>
      let major := first.toNat / 32
      let info := first.toNat % 32
      if info = 31 then (indefiniteAt major).map fun header => (header, bytes)
      else (pullArgument info bytes).map fun (argument, rest) =>
        (headerAt major info argument, rest)

def pushHeader : Header → List UInt8
  | .map (some length) => pushArgument 5 length
  | header => pushShortest header

theorem pullHeader_pushArgument {major argument : Nat} (smallMajor : major < 8)
    (fits : argument < 2 ^ 64) (rest : List UInt8) :
    ∃ info, (argument < 24 → info = argument) ∧
      pullHeader (pushArgument major argument ++ rest) =
        some (headerAt major info argument, rest) := by
  obtain ⟨info, tail, pushed, small, short, read⟩ := pushArgument_eq major fits
  obtain ⟨sameMajor, sameInfo⟩ := firstByte smallMajor (show info < 32 by omega)
  refine ⟨info, short, ?_⟩
  simp only [pushed, List.cons_append, pullHeader, sameMajor, sameInfo, read,
    (show info ≠ 31 by omega), if_false, Option.map_some]

theorem pullFixed_takes {width argument : Nat} {bytes rest : List UInt8}
    (pulled : pullFixed width bytes = some (argument, rest)) :
    ∃ taken, bytes = taken ++ rest ∧ ∀ more, pullFixed width (taken ++ more) =
      some (argument, more) := by
  unfold pullFixed at pulled
  split at pulled
  · cases pulled
  · next enough =>
      obtain ⟨rfl, rfl⟩ := Prod.mk.inj (Option.some.inj pulled)
      have sized : (bytes.take width).length = width := by
        rw [List.length_take]
        omega
      refine ⟨bytes.take width, (List.take_append_drop width bytes).symm, ?_⟩
      intro more
      rw [pullFixed, if_neg (by rw [List.length_append]; omega), List.take_left' sized,
        List.drop_left' sized]

theorem pullArgument_takes {info argument : Nat} {bytes rest : List UInt8}
    (pulled : pullArgument info bytes = some (argument, rest)) :
    ∃ taken, bytes = taken ++ rest ∧ ∀ more, pullArgument info (taken ++ more) =
      some (argument, more) := by
  unfold pullArgument at pulled ⊢
  split at pulled
  · obtain ⟨rfl, rfl⟩ := Prod.mk.inj (Option.some.inj pulled)
    exact ⟨[], rfl, fun more => by simp [*]⟩
  split at pulled
  · simpa [*] using pullFixed_takes pulled
  split at pulled
  · simpa [*] using pullFixed_takes pulled
  split at pulled
  · simpa [*] using pullFixed_takes pulled
  split at pulled
  · simpa [*] using pullFixed_takes pulled
  · cases pulled

theorem pullHeader_takes {bytes rest : List UInt8} {header : Header}
    (pulled : pullHeader bytes = some (header, rest)) :
    ∃ taken, taken ≠ [] ∧ bytes = taken ++ rest ∧
      ∀ more, pullHeader (taken ++ more) = some (header, more) := by
  cases bytes with
  | nil => cases pulled
  | cons first bytes =>
      by_cases indefinite : first.toNat % 32 = 31
      · simp only [pullHeader, indefinite, if_true, Option.map_eq_some_iff] at pulled
        obtain ⟨found, known, same⟩ := pulled
        obtain ⟨rfl, rfl⟩ := Prod.mk.inj same
        refine ⟨[first], List.cons_ne_nil _ _, rfl, ?_⟩
        intro more
        simp only [List.singleton_append, pullHeader, indefinite, if_true, known, Option.map_some]
      · simp only [pullHeader, indefinite, if_false, Option.map_eq_some_iff] at pulled
        obtain ⟨⟨argument, left⟩, read, same⟩ := pulled
        obtain ⟨rfl, rfl⟩ := Prod.mk.inj same
        obtain ⟨taken, rfl, again⟩ := pullArgument_takes read
        refine ⟨first :: taken, List.cons_ne_nil _ _, rfl, ?_⟩
        intro more
        simp only [List.cons_append, pullHeader, indefinite, if_false, again more, Option.map_some]

/-- The codec of the format's specification: arguments pushed in the shortest form, and
every header pulled. -/
def StreamCodec.rfc8949 : StreamCodec where
  push := pushHeader
  pull := pullHeader
  length_push := by
    intro header definite
    match header, definite with
    | .positive _, _ | .negative _, _ | .bytes (some _), _ | .text (some _), _
    | .array (some _), _ | .simple _, _ => exact length_pushArgument _ _
  pull_push := by
    intro header rest definite
    match header, definite with
    | .positive value, definite =>
        obtain ⟨info, -, read⟩ := pullHeader_pushArgument (show 0 < 8 by omega) definite rest
        exact read
    | .negative value, definite =>
        obtain ⟨info, -, read⟩ := pullHeader_pushArgument (show 1 < 8 by omega) definite rest
        exact read
    | .bytes (some length), definite =>
        obtain ⟨info, -, read⟩ := pullHeader_pushArgument (show 2 < 8 by omega) definite rest
        exact read
    | .text (some length), definite =>
        obtain ⟨info, -, read⟩ := pullHeader_pushArgument (show 3 < 8 by omega) definite rest
        exact read
    | .array (some length), definite =>
        obtain ⟨info, -, read⟩ := pullHeader_pushArgument (show 4 < 8 by omega) definite rest
        exact read
    | .simple value, definite =>
        have small : value < 24 := definite
        obtain ⟨info, short, read⟩ := pullHeader_pushArgument (show 7 < 8 by omega)
          (show value < 2 ^ 64 by omega) rest
        have low : info ≤ 24 := by
          rw [short small]
          omega
        have same : headerAt 7 info value = .simple value := if_pos low
        rw [same] at read
        exact read
  pull_push_map := by
    intro length rest small
    obtain ⟨info, -, read⟩ := pullHeader_pushArgument (show 5 < 8 by omega) small rest
    exact read
  pull_takes _ _ _ := pullHeader_takes

/-- A codec whose map headers are as short as the others. -/
structure FrameCodec extends StreamCodec where
  length_push_map : ∀ length, length < 2 ^ 64 → (push (.map (some length))).length ≤ 9

def FrameCodec.rfc8949 : FrameCodec where
  toStreamCodec := .rfc8949
  length_push_map length _ := length_pushArgument 5 length

end Cbor
