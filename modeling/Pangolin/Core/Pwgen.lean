import Pangolin.Lib.Shuffle
import Mathlib.Tactic.Ring

/-!
# The password generator

`generate` places one character of each enabled class, fills the other slots from the
combined alphabet and shuffles.  Every random choice is an index below a bound, and
`uniform_index` makes it from bytes of the operating system.  The generator is written over
any source of indices, so that it can be run on bytes and on the bare sequence of indices.
-/

namespace Pangolin.Core

open Shuffle

/-! ## Policies -/

/-- `Error::Validation`, the one error of the generator. -/
structure PolicyError where
  kind : String
  message : String
  deriving Repr, DecidableEq

def policyErr (message : String) : PolicyError := ⟨"password_policy", message⟩

def pwgenLengthMin : Nat := 8

def pwgenLengthMax : Nat := 128

def pwgenLengthDefault : UInt16 := 16

/-- The alphabets are ASCII, so a byte of the source is a character here. -/
def upper : List Char :=
  ['A', 'B', 'C', 'D', 'E', 'F', 'G', 'H', 'I', 'J', 'K', 'L', 'M', 'N', 'O', 'P', 'Q', 'R', 'S',
    'T', 'U', 'V', 'W', 'X', 'Y', 'Z']

def lower : List Char :=
  ['a', 'b', 'c', 'd', 'e', 'f', 'g', 'h', 'i', 'j', 'k', 'l', 'm', 'n', 'o', 'p', 'q', 'r', 's',
    't', 'u', 'v', 'w', 'x', 'y', 'z']

def digits : List Char := ['0', '1', '2', '3', '4', '5', '6', '7', '8', '9']

def symbols : List Char :=
  ['!', '\x22', '#', '$', '%', '&', '\x27', '(', ')', '*', '+', ',', '-', '.', '/', ':', ';', '<',
    '=', '>', '?', '@', '[', '\x5c', ']', '^', '_', '\x60', '\x7b', '|', '\x7d', '~']

/-- The characters dropped under `exclude_ambiguous`. -/
def ambiguous : List Char := ['0', 'O', '1', 'l', 'I', '|']

structure PwgenPolicy where
  length : UInt16
  uppercase : Bool
  lowercase : Bool
  digits : Bool
  symbols : Bool
  excludeAmbiguous : Bool
  deriving Repr, DecidableEq

namespace PwgenPolicy

/-- `PwgenPolicy::default`. -/
def default : PwgenPolicy := ⟨pwgenLengthDefault, true, true, true, true, true⟩

def enabledClassCount (policy : PwgenPolicy) : Nat :=
  policy.uppercase.toNat + policy.lowercase.toNat + policy.digits.toNat + policy.symbols.toNat

def validate (policy : PwgenPolicy) : Except PolicyError Unit :=
  let k := policy.enabledClassCount
  if k = 0 then
    .error (policyErr "at least one character class must be enabled")
  else if policy.length.toNat < pwgenLengthMin ∨ pwgenLengthMax < policy.length.toNat then
    .error (policyErr ("length " ++ toString policy.length.toNat ++ " out of range [" ++
      toString pwgenLengthMin ++ ", " ++ toString pwgenLengthMax ++ "]"))
  else if policy.length.toNat < k then
    .error (policyErr ("length " ++ toString policy.length.toNat ++ " is below the " ++
      toString k ++ " enabled character classes; cannot guarantee at least one of each"))
  else
    .ok ()

/-- The class without the characters the policy drops. -/
def strip (policy : PwgenPolicy) (source : List Char) : List Char :=
  if policy.excludeAmbiguous then source.filter fun char => !ambiguous.contains char else source

/-- The first part of `alphabets`: one vector for each enabled class. -/
def classes (policy : PwgenPolicy) : List (List Char) :=
  (if policy.uppercase then [policy.strip upper] else []) ++
  (if policy.lowercase then [policy.strip lower] else []) ++
  (if policy.digits then [policy.strip Core.digits] else []) ++
  (if policy.symbols then [policy.strip Core.symbols] else [])

/-- The second part of `alphabets`: the union of the classes. -/
def combined (policy : PwgenPolicy) : List Char := policy.classes.flatten

end PwgenPolicy

/-! ## The generator -/

/-- The loop of `uniform_index` over the bytes still to come; it goes on for as long as they
are in the tail that would bias the remainder. -/
def rejectionLoop (n : Nat) : List UInt8 → Option (Nat × List UInt8)
  | [] => none
  | byte :: bytes =>
      if byte.toNat < 256 - 256 % n then some (byte.toNat % n, bytes) else rejectionLoop n bytes

def uniformIndex (n : Nat) : StateT (List UInt8) Option Nat := fun bytes =>
  if n = 1 then some (0, bytes) else rejectionLoop n bytes

/-- Indices read off a given sequence, each of which has to be below its bound. -/
def nextDraw (n : Nat) : StateT (List Nat) Option Nat
  | [] => none
  | draw :: draws => if draw < n then some (draw, draws) else none

section Generator

variable {m : Type → Type} [Monad m] (index : Nat → m Nat)

/-- One character of each class. -/
def seedSlots : List (List Char) → Array Char → m (Array Char)
  | [], slots => pure slots
  | chars :: rest, slots => do
      let idx ← index chars.length
      seedSlots rest (slots.push (chars.getD idx ' '))

/-- The `while slots.len() < len` loop, with the number of slots that are left. -/
def fillSlots (combined : List Char) : Nat → Array Char → m (Array Char)
  | 0, slots => pure slots
  | left + 1, slots => do
      let idx ← index combined.length
      fillSlots combined left (slots.push (combined.getD idx ' '))

/-- The `while i > 1` loop. -/
def shuffleSlots {α : Type} : Nat → Array α → m (Array α)
  | 0, slots => pure slots
  | 1, slots => pure slots
  | i + 2, slots => do
      let j ← index (i + 2)
      shuffleSlots (i + 1) (slots.swapIfInBounds (i + 1) j)

def generate (policy : PwgenPolicy) : m (Except PolicyError String) :=
  match policy.validate with
  | .error error => pure (.error error)
  | .ok () => do
      let len := policy.length.toNat
      let seeded ← seedSlots index policy.classes #[]
      let filled ← fillSlots index policy.combined (len - seeded.size) seeded
      let shuffled ← shuffleSlots index len filled
      pure (.ok (String.ofList shuffled.toList))

end Generator

/-! ## Rejection sampling -/

/-- A byte below the largest multiple of `n`. -/
def Acceptable (n : Nat) (byte : UInt8) : Prop := byte.toNat < 256 - 256 % n

instance (n : Nat) : DecidablePred (Acceptable n) := fun byte =>
  inferInstanceAs (Decidable (byte.toNat < 256 - 256 % n))

/-- The first acceptable byte of a stream. -/
def firstAcceptable (n : Nat) (bytes : List UInt8) : Option UInt8 :=
  bytes.find? fun byte => Acceptable n byte

theorem rejectionLoop_of_first {n : Nat} {bytes : List UInt8} {byte : UInt8}
    (first : firstAcceptable n bytes = some byte) :
    ∃ rest, rejectionLoop n bytes = some (byte.toNat % n, rest) := by
  rw [firstAcceptable] at first
  induction bytes with
  | nil => cases first
  | cons head bytes ih =>
      rw [List.find?_cons] at first
      by_cases accepted : Acceptable n head
      · simp only [accepted, decide_true, Option.some.injEq] at first
        subst first
        exact ⟨bytes, if_pos accepted⟩
      · simp only [accepted, decide_false] at first
        obtain ⟨rest, found⟩ := ih first
        exact ⟨rest, (if_neg accepted).trans found⟩

/-- The index is the remainder of the first acceptable byte. -/
theorem uniformIndex_of_first {n : Nat} {bytes : List UInt8} {byte : UInt8}
    (first : firstAcceptable n bytes = some byte) :
    ∃ rest, uniformIndex n bytes = some (byte.toNat % n, rest) := by
  by_cases one : n = 1
  · refine ⟨bytes, ?_⟩
    rw [uniformIndex, if_pos one, one, Nat.mod_one]
  · rw [uniformIndex, if_neg one]
    exact rejectionLoop_of_first first

theorem rejectionLoop_lt {n index : Nat} (positive : 0 < n) {bytes rest : List UInt8}
    (found : rejectionLoop n bytes = some (index, rest)) : index < n := by
  induction bytes with
  | nil => cases found
  | cons byte bytes ih =>
      rw [rejectionLoop] at found
      split at found
      · simp only [Option.some.injEq, Prod.mk.injEq] at found
        rw [← found.1]
        exact Nat.mod_lt _ positive
      · exact ih found

theorem uniformIndex_lt {n index : Nat} (positive : 0 < n) {bytes rest : List UInt8}
    (found : uniformIndex n bytes = some (index, rest)) : index < n := by
  rw [uniformIndex] at found
  split at found
  · simp only [Option.some.injEq, Prod.mk.injEq] at found
    omega
  · exact rejectionLoop_lt positive found

/-- Every index has as many acceptable bytes as every other. -/
theorem card_acceptable {n : Nat} (positive : 0 < n) {value : Nat} (below : value < n) :
    Nat.card { byte : UInt8 // Acceptable n byte ∧ byte.toNat % n = value } = 256 / n := by
  have limit : 256 - 256 % n = n * (256 / n) := by
    have parts := Nat.div_add_mod 256 n
    omega
  have inByte : ∀ block < 256 / n, n * block + value < n * (256 / n) := by
    intro block bound
    calc n * block + value < n * block + n := by omega
      _ = n * (block + 1) := by ring
      _ ≤ n * (256 / n) := Nat.mul_le_mul_left n bound
  have fits : ∀ block < 256 / n, (UInt8.ofNat (n * block + value)).toNat = n * block + value := by
    intro block bound
    have small := inByte block bound
    have top := Nat.mul_div_le 256 n
    rw [UInt8.toNat_ofNat']
    exact Nat.mod_eq_of_lt (by omega)
  -- the acceptable bytes of a value are one in each block of `n` bytes
  have blocks : { byte : UInt8 // Acceptable n byte ∧ byte.toNat % n = value } ≃ Fin (256 / n) :=
    { toFun := fun byte => ⟨byte.val.toNat / n, Nat.div_lt_of_lt_mul (by
        rw [← limit]
        exact byte.property.1)⟩
      invFun := fun block => ⟨UInt8.ofNat (n * block + value), by
        refine ⟨?_, ?_⟩
        · rw [Acceptable, fits block block.isLt, limit]
          exact inByte block block.isLt
        · rw [fits block block.isLt, Nat.mul_add_mod, Nat.mod_eq_of_lt below]⟩
      left_inv := by
        rintro ⟨byte, -, remainder⟩
        apply Subtype.ext
        have parts := Nat.div_add_mod byte.toNat n
        rw [remainder] at parts
        change UInt8.ofNat (n * (byte.toNat / n) + value) = byte
        rw [parts, UInt8.ofNat_toNat]
      right_inv := by
        intro block
        apply Fin.ext
        change (UInt8.ofNat (n * block + value)).toNat / n = block
        rw [fits block block.isLt, Nat.mul_add_div positive, Nat.div_eq_of_lt below, Nat.add_zero] }
  rw [Nat.card_congr blocks, Nat.card_eq_fintype_card, Fintype.card_fin]

/-! ## Runs over a sequence of indices -/

theorem nextDraw_eq_some_iff {n draw : Nat} {draws rest : List Nat} :
    nextDraw n draws = some (draw, rest) ↔ draw < n ∧ draws = draw :: rest := by
  cases draws with
  | nil => simp [nextDraw]
  | cons first draws =>
      rw [nextDraw]
      split
      · simp only [Option.some.injEq, Prod.mk.injEq, List.cons.injEq]
        grind
      · simp only [reduceCtorEq, List.cons.injEq, false_iff]
        grind

/-- Filling is seeding with as many copies of the combined alphabet. -/
theorem fillSlots_eq {m : Type → Type} [Monad m] (index : Nat → m Nat) (combined : List Char)
    (left : Nat) (slots : Array Char) :
    fillSlots index combined left slots =
      seedSlots index (List.replicate left combined) slots := by
  induction left generalizing slots with
  | zero => rfl
  | succ left ih =>
      rw [fillSlots, List.replicate_succ, seedSlots]
      exact congrArg _ (funext fun idx => ih _)

theorem seedSlots_append {m : Type → Type} [Monad m] [LawfulMonad m] (index : Nat → m Nat)
    (front back : List (List Char)) (slots : Array Char) :
    seedSlots index (front ++ back) slots =
      seedSlots index front slots >>= seedSlots index back := by
  induction front generalizing slots with
  | nil => simp [seedSlots]
  | cons chars front ih =>
      rw [List.cons_append, seedSlots, seedSlots, bind_assoc]
      exact congrArg _ (funext fun idx => ih _)

/-- The characters the drawn indices stand for. -/
def picked (alphabets : List (List Char)) (picks : List Nat) : List Char :=
  List.zipWith (fun chars pick => chars.getD pick ' ') alphabets picks

theorem bind_eq_some_iff {σ α β : Type} {first : StateT σ Option α}
    {next : α → StateT σ Option β} {state rest : σ} {result : β} :
    (first >>= next) state = some (result, rest) ↔
      ∃ value later, first state = some (value, later) ∧ next value later = some (result, rest) := by
  change ((first state).bind fun pair => next pair.1 pair.2) = some (result, rest) ↔ _
  simp only [Option.bind_eq_some_iff, Prod.exists]

/-- Reads off the next index of a sequence, and goes on. -/
theorem bind_nextDraw_eq_some_iff {α : Type} {n : Nat} {next : Nat → StateT (List Nat) Option α}
    {draws rest : List Nat} {result : α} :
    (nextDraw n >>= next) draws = some (result, rest) ↔
      ∃ draw later, draw < n ∧ draws = draw :: later ∧ next draw later = some (result, rest) := by
  simp only [bind_eq_some_iff, nextDraw_eq_some_iff, and_assoc]

theorem seedSlots_eq_some_iff {alphabets : List (List Char)} {slots result : Array Char}
    {draws rest : List Nat} :
    seedSlots nextDraw alphabets slots draws = some (result, rest) ↔
      ∃ picks, InBounds picks (alphabets.map List.length) ∧ draws = picks ++ rest ∧
        result = slots ++ (picked alphabets picks).toArray := by
  induction alphabets generalizing slots draws with
  | nil =>
      rw [seedSlots]
      change some (slots, draws) = _ ↔ _
      simp only [Option.some.injEq, Prod.mk.injEq, List.map_nil, List.forall₂_nil_right_iff,
        exists_eq_left, List.nil_append, picked, List.zipWith_nil_left, Array.append_empty]
      grind
  | cons chars alphabets ih =>
      rw [seedSlots, bind_nextDraw_eq_some_iff]
      simp only [ih, List.map_cons, List.forall₂_cons_right_iff]
      constructor
      · rintro ⟨draw, later, bound, rfl, picks, fit, rfl, rfl⟩
        refine ⟨draw :: picks, ⟨draw, picks, bound, fit, rfl⟩, rfl, ?_⟩
        simp [picked]
      · rintro ⟨_, ⟨draw, picks, bound, fit, rfl⟩, rfl, rfl⟩
        refine ⟨draw, picks ++ rest, bound, rfl, picks, fit, rfl, ?_⟩
        simp [picked]

/-- The array after the swaps. -/
def swapped {α : Type} : Nat → Array α → List Nat → Array α
  | i + 2, slots, j :: swaps => swapped (i + 1) (slots.swapIfInBounds (i + 1) j) swaps
  | _, slots, _ => slots

theorem shuffleSlots_eq_some_iff {α : Type} : (count : Nat) → {slots result : Array α} →
    {draws rest : List Nat} →
    (shuffleSlots nextDraw count slots draws = some (result, rest) ↔
      ∃ swaps, InBounds swaps (bounds count) ∧ draws = swaps ++ rest ∧
        result = swapped count slots swaps)
  | 0, slots, result, draws, rest => by
      rw [shuffleSlots]
      change some (slots, draws) = _ ↔ _
      simp only [Option.some.injEq, Prod.mk.injEq, bounds, List.forall₂_nil_right_iff,
        exists_eq_left, List.nil_append, swapped]
      grind
  | 1, slots, result, draws, rest => by
      rw [shuffleSlots]
      change some (slots, draws) = _ ↔ _
      simp only [Option.some.injEq, Prod.mk.injEq, bounds, List.forall₂_nil_right_iff,
        exists_eq_left, List.nil_append, swapped]
      grind
  | i + 2, slots, result, draws, rest => by
      rw [shuffleSlots, bind_nextDraw_eq_some_iff]
      simp only [shuffleSlots_eq_some_iff (i + 1), bounds, List.forall₂_cons_right_iff]
      constructor
      · rintro ⟨draw, later, bound, rfl, swaps, fit, rfl, rfl⟩
        exact ⟨draw :: swaps, ⟨draw, swaps, bound, fit, rfl⟩, rfl, rfl⟩
      · rintro ⟨_, ⟨draw, swaps, bound, fit, rfl⟩, rfl, rfl⟩
        exact ⟨draw, swaps ++ rest, bound, rfl, swaps, fit, rfl, rfl⟩

theorem size_swapped {α : Type} : (count : Nat) → (slots : Array α) → (swaps : List Nat) →
    (swapped count slots swaps).size = slots.size
  | 0, _, _ => rfl
  | 1, _, _ => rfl
  | _ + 2, _, [] => rfl
  | i + 2, slots, j :: swaps => by
      rw [swapped, size_swapped (i + 1), Array.size_swapIfInBounds]

theorem getElem?_swapIfInBounds {α : Type} {slots : Array α} {i j : Nat} (iBound : i < slots.size)
    (jBound : j < slots.size) (slot : Nat) :
    (slots.swapIfInBounds i j)[slot]? = slots[Equiv.swap i j slot]? := by
  rw [Array.swapIfInBounds_def, dif_pos iBound, dif_pos jBound, Array.getElem?_swap,
    Equiv.swap_apply_def]
  grind

/-- The shuffled array is the array read through the permutation of the draws. -/
theorem getElem?_swapped {α : Type} : (count : Nat) → {slots : Array α} → {swaps : List Nat} →
    InBounds swaps (bounds count) → count ≤ slots.size → (slot : Nat) →
    (swapped count slots swaps)[slot]? = slots[permutation count swaps slot]?
  | 0, _, _, .nil, _, _ => rfl
  | 1, _, _, .nil, _, _ => rfl
  | i + 2, slots, j :: swaps, .cons bound fit, size, slot => by
      have inner : i + 1 ≤ (slots.swapIfInBounds (i + 1) j).size := by
        rw [Array.size_swapIfInBounds]
        omega
      rw [swapped, getElem?_swapped (i + 1) fit inner, permutation,
        getElem?_swapIfInBounds (by omega) (by omega)]
      rfl

/-! ## What the generator returns -/

namespace PwgenPolicy

theorem length_classes (policy : PwgenPolicy) :
    policy.classes.length = policy.enabledClassCount := by
  obtain ⟨_, uppercase, lowercase, digits, symbols, _⟩ := policy
  cases uppercase <;> cases lowercase <;> cases digits <;> cases symbols <;> rfl

theorem enabledClassCount_le (policy : PwgenPolicy) : policy.enabledClassCount ≤ 4 := by
  have boolean := fun flag : Bool => Bool.toNat_le flag
  have first := boolean policy.uppercase
  have second := boolean policy.lowercase
  have third := boolean policy.digits
  have fourth := boolean policy.symbols
  rw [enabledClassCount]
  omega

theorem validate_eq_ok_iff (policy : PwgenPolicy) :
    policy.validate = .ok () ↔
      0 < policy.enabledClassCount ∧ 8 ≤ policy.length.toNat ∧ policy.length.toNat ≤ 128 := by
  have few := policy.enabledClassCount_le
  have least : pwgenLengthMin = 8 := rfl
  have most : pwgenLengthMax = 128 := rfl
  unfold validate
  dsimp only
  split
  · simp only [reduceCtorEq, false_iff]
    omega
  · split
    · simp only [reduceCtorEq, false_iff]
      omega
    · split
      · simp only [reduceCtorEq, false_iff]
        omega
      · simp only [true_iff]
        omega

theorem classes_le_length {policy : PwgenPolicy} (valid : policy.validate = .ok ()) :
    policy.classes.length ≤ policy.length.toNat := by
  have bounds := policy.validate_eq_ok_iff.mp valid
  have few := policy.enabledClassCount_le
  rw [length_classes]
  omega

/-- The alphabet each slot is drawn from, before the shuffle. -/
def slotAlphabets (policy : PwgenPolicy) : List (List Char) :=
  policy.classes ++
    List.replicate (policy.length.toNat - policy.classes.length) policy.combined

theorem length_slotAlphabets {policy : PwgenPolicy} (valid : policy.validate = .ok ()) :
    policy.slotAlphabets.length = policy.length.toNat := by
  have few := classes_le_length valid
  rw [slotAlphabets, List.length_append, List.length_replicate]
  omega

/-- The bounds of all draws of `generate`: one for each class, one for each other slot, and
those of the shuffle. -/
def drawBounds (policy : PwgenPolicy) : List Nat :=
  policy.slotAlphabets.map List.length ++ bounds policy.length.toNat

end PwgenPolicy

theorem length_picked {alphabets : List (List Char)} {picks : List Nat}
    (fit : InBounds picks (alphabets.map List.length)) :
    (picked alphabets picks).length = alphabets.length := by
  have same := fit.length_eq
  rw [List.length_map] at same
  rw [picked, List.length_zipWith, same, Nat.min_self]

/-- The string of the drawn picks and swaps. -/
def PwgenPolicy.drawn (policy : PwgenPolicy) (picks swaps : List Nat) : String :=
  String.ofList
    (swapped policy.length.toNat (picked policy.slotAlphabets picks).toArray swaps).toList

/-- The slots before the shuffle, as one loop over their alphabets. -/
theorem seed_fill_eq_some_iff {policy : PwgenPolicy} {draws rest : List Nat} {slots : Array Char} :
    (seedSlots nextDraw policy.classes #[] >>= fun seeded =>
        fillSlots nextDraw policy.combined (policy.length.toNat - seeded.size) seeded) draws =
        some (slots, rest) ↔
      ∃ picks, InBounds picks (policy.slotAlphabets.map List.length) ∧ draws = picks ++ rest ∧
        slots = (picked policy.slotAlphabets picks).toArray := by
  have asOne : seedSlots nextDraw policy.slotAlphabets #[] draws = some (slots, rest) ↔ _ :=
    seedSlots_eq_some_iff
  simp only [Array.empty_append] at asOne
  rw [← asOne, PwgenPolicy.slotAlphabets, seedSlots_append, bind_eq_some_iff, bind_eq_some_iff]
  -- the number of slots left is the same in both, the seeds being one for each class
  refine exists_congr fun seeded => exists_congr fun later => and_congr_right fun seeds => ?_
  obtain ⟨picks, fit, -, rfl⟩ := seedSlots_eq_some_iff.mp seeds
  have size : (#[] ++ (picked policy.classes picks).toArray).size = policy.classes.length := by
    rw [Array.empty_append, List.size_toArray, length_picked fit]
  rw [size, fillSlots_eq]

theorem generate_of_valid {m : Type → Type} [Monad m] [LawfulMonad m] (index : Nat → m Nat)
    {policy : PwgenPolicy} (valid : policy.validate = .ok ()) :
    generate index policy =
      (seedSlots index policy.classes #[] >>= fun seeded =>
        fillSlots index policy.combined (policy.length.toNat - seeded.size) seeded) >>=
      fun filled => shuffleSlots index policy.length.toNat filled >>= fun shuffled =>
        pure (.ok (String.ofList shuffled.toList)) := by
  rw [generate, valid, bind_assoc]

theorem generate_eq_some_iff {policy : PwgenPolicy} (valid : policy.validate = .ok ())
    {draws rest : List Nat} {password : String} :
    generate nextDraw policy draws = some (.ok password, rest) ↔
      ∃ picks swaps, InBounds picks (policy.slotAlphabets.map List.length) ∧
        InBounds swaps (bounds policy.length.toNat) ∧ draws = picks ++ (swaps ++ rest) ∧
        password = policy.drawn picks swaps := by
  rw [generate_of_valid nextDraw valid, bind_eq_some_iff]
  simp only [seed_fill_eq_some_iff]
  simp only [bind_eq_some_iff, shuffleSlots_eq_some_iff]
  constructor
  · rintro ⟨_, later, ⟨picks, pickFit, rfl, rfl⟩, _, _, ⟨swaps, swapFit, rfl, rfl⟩, last⟩
    change some (Except.ok _, _) = some (Except.ok password, rest) at last
    simp only [Option.some.injEq, Prod.mk.injEq, Except.ok.injEq] at last
    obtain ⟨rfl, rfl⟩ := last
    exact ⟨picks, swaps, pickFit, swapFit, rfl, rfl⟩
  · rintro ⟨picks, swaps, pickFit, swapFit, rfl, rfl⟩
    exact ⟨_, _, ⟨picks, pickFit, rfl, rfl⟩, _, _, ⟨swaps, swapFit, rfl, rfl⟩, rfl⟩

/-- A string the policy allows: its length, its alphabet, and one of each class. -/
structure PwgenPolicy.Allows (policy : PwgenPolicy) (password : String) : Prop where
  length_eq : password.toList.length = policy.length.toNat
  within : ∀ char ∈ password.toList, char ∈ policy.combined
  one_of_each : ∀ chars ∈ policy.classes, ∃ char ∈ password.toList, char ∈ chars

/-- The three conditions as a check of the characters. -/
theorem PwgenPolicy.Allows.of_all {policy : PwgenPolicy} {password : String}
    (length_eq : password.toList.length = policy.length.toNat)
    (within : password.toList.all policy.combined.contains = true)
    (one_of_each : policy.classes.all (fun chars => password.toList.any chars.contains) = true) :
    policy.Allows password where
  length_eq := length_eq
  within char member := List.contains_iff_mem.mp (List.all_eq_true.mp within char member)
  one_of_each chars member := by
    obtain ⟨char, inside, ofClass⟩ := List.any_eq_true.mp (List.all_eq_true.mp one_of_each chars member)
    exact ⟨char, inside, List.contains_iff_mem.mp ofClass⟩

theorem picked_mem {alphabets : List (List Char)} {picks : List Nat}
    (fit : InBounds picks (alphabets.map List.length)) :
    List.Forall₂ (· ∈ ·) (picked alphabets picks) alphabets := by
  induction alphabets generalizing picks with
  | nil =>
      rw [picked, List.zipWith_nil_left]
      exact .nil
  | cons chars alphabets ih =>
      rw [List.map_cons, InBounds, List.forall₂_cons_right_iff] at fit
      obtain ⟨pick, later, bound, rest, rfl⟩ := fit
      refine .cons ?_ (ih rest)
      change chars.getD pick ' ' ∈ chars
      rw [List.getD_eq_getElem?_getD, List.getElem?_eq_getElem bound, Option.getD_some]
      exact List.getElem_mem bound

/-- The string is the picked characters read through the permutation of the swaps. -/
theorem getElem?_drawn {policy : PwgenPolicy} (valid : policy.validate = .ok ())
    {picks swaps : List Nat} (pickFit : InBounds picks (policy.slotAlphabets.map List.length))
    (swapFit : InBounds swaps (bounds policy.length.toNat)) (slot : Nat) :
    (policy.drawn picks swaps).toList[slot]? =
      (picked policy.slotAlphabets picks)[permutation policy.length.toNat swaps slot]? := by
  have size : policy.length.toNat ≤ (picked policy.slotAlphabets picks).toArray.size := by
    rw [List.size_toArray, length_picked pickFit, PwgenPolicy.length_slotAlphabets valid]
  rw [PwgenPolicy.drawn, String.toList_ofList, Array.getElem?_toList,
    getElem?_swapped _ swapFit size, List.getElem?_toArray]

theorem mem_drawn {policy : PwgenPolicy} (valid : policy.validate = .ok ())
    {picks swaps : List Nat} (pickFit : InBounds picks (policy.slotAlphabets.map List.length))
    (swapFit : InBounds swaps (bounds policy.length.toNat)) {char : Char} :
    char ∈ (policy.drawn picks swaps).toList ↔ char ∈ picked policy.slotAlphabets picks := by
  simp only [List.mem_iff_getElem?, getElem?_drawn valid pickFit swapFit]
  constructor
  · rintro ⟨slot, found⟩
    exact ⟨_, found⟩
  · rintro ⟨slot, found⟩
    refine ⟨(permutation policy.length.toNat swaps).symm slot, ?_⟩
    rw [Equiv.apply_symm_apply]
    exact found

theorem PwgenPolicy.mem_combined {policy : PwgenPolicy} {chars : List Char} {char : Char}
    (alphabet : chars ∈ policy.slotAlphabets) (member : char ∈ chars) :
    char ∈ policy.combined := by
  rw [slotAlphabets, List.mem_append] at alphabet
  rcases alphabet with ofClass | filler
  · exact List.mem_flatten.mpr ⟨chars, ofClass, member⟩
  · rwa [List.eq_of_mem_replicate filler] at member

theorem allows_drawn {policy : PwgenPolicy} (valid : policy.validate = .ok ())
    {picks swaps : List Nat} (pickFit : InBounds picks (policy.slotAlphabets.map List.length))
    (swapFit : InBounds swaps (bounds policy.length.toNat)) :
    policy.Allows (policy.drawn picks swaps) where
  length_eq := by
    rw [PwgenPolicy.drawn, String.toList_ofList, Array.length_toList, size_swapped,
      List.size_toArray, length_picked pickFit, PwgenPolicy.length_slotAlphabets valid]
  within := by
    intro char member
    rw [mem_drawn valid pickFit swapFit] at member
    obtain ⟨slot, bound, rfl⟩ := List.mem_iff_getElem.mp member
    have within := (picked_mem pickFit).get bound
      (by rwa [length_picked pickFit] at bound)
    exact PwgenPolicy.mem_combined (List.get_mem _ _) within
  one_of_each := by
    intro chars ofClass
    have alphabet : chars ∈ policy.slotAlphabets := List.mem_append_left _ ofClass
    obtain ⟨slot, bound, rfl⟩ := List.mem_iff_getElem.mp alphabet
    have inPicked : slot < (picked policy.slotAlphabets picks).length := by
      rwa [length_picked pickFit]
    refine ⟨_, (mem_drawn valid pickFit swapFit).mpr (List.getElem_mem inPicked), ?_⟩
    exact (picked_mem pickFit).get inPicked bound

/-- Every sequence of indices within the bounds makes a password. -/
theorem generate_of_inBounds {policy : PwgenPolicy} (valid : policy.validate = .ok ())
    {draws : List Nat} (fit : InBounds draws policy.drawBounds) :
    ∃ password, generate nextDraw policy draws = some (.ok password, []) := by
  refine ⟨_, (generate_eq_some_iff valid).mpr ⟨_, _, List.forall₂_take_append _ _ _ fit,
    List.forall₂_drop_append _ _ _ fit, ?_, rfl⟩⟩
  rw [List.append_nil, List.take_append_drop]

theorem PwgenPolicy.mem_classes {policy : PwgenPolicy} {chars : List Char}
    (ofClass : chars ∈ policy.classes) :
    ∃ source ∈ [upper, lower, Core.digits, Core.symbols], chars = policy.strip source := by
  simp only [classes, List.mem_append, List.mem_ite_nil_right, List.mem_singleton] at ofClass
  rcases ofClass with ((⟨-, rfl⟩ | ⟨-, rfl⟩) | ⟨-, rfl⟩) | ⟨-, rfl⟩
  · exact ⟨upper, by simp, rfl⟩
  · exact ⟨lower, by simp, rfl⟩
  · exact ⟨Core.digits, by simp, rfl⟩
  · exact ⟨Core.symbols, by simp, rfl⟩

theorem PwgenPolicy.strip_ne_nil (policy : PwgenPolicy) {source : List Char}
    (member : source ∈ [upper, lower, Core.digits, Core.symbols]) : policy.strip source ≠ [] := by
  have stripped : ∀ source ∈ [upper, lower, Core.digits, Core.symbols],
      (source.filter fun char => !ambiguous.contains char) ≠ [] ∧ source ≠ [] := by decide
  rw [strip]
  split
  · exact (stripped source member).1
  · exact (stripped source member).2

theorem PwgenPolicy.slotAlphabets_ne_nil {policy : PwgenPolicy} (valid : policy.validate = .ok ())
    {chars : List Char} (alphabet : chars ∈ policy.slotAlphabets) : chars ≠ [] := by
  have classNonempty : ∀ chars ∈ policy.classes, chars ≠ [] := by
    intro chars ofClass
    obtain ⟨source, member, rfl⟩ := mem_classes ofClass
    exact policy.strip_ne_nil member
  rw [slotAlphabets, List.mem_append] at alphabet
  rcases alphabet with ofClass | filler
  · exact classNonempty chars ofClass
  · rw [List.eq_of_mem_replicate filler, combined]
    have some_ : 0 < policy.classes.length := by
      rw [length_classes]
      exact (policy.validate_eq_ok_iff.mp valid).1
    have first := List.getElem_mem some_
    intro empty
    exact classNonempty _ first (List.flatten_eq_nil_iff.mp empty _ first)

theorem PwgenPolicy.not_ambiguous {policy : PwgenPolicy} (excluded : policy.excludeAmbiguous)
    {char : Char} (member : char ∈ policy.combined) : char ∉ ambiguous := by
  obtain ⟨chars, ofClass, within⟩ := List.mem_flatten.mp member
  obtain ⟨source, -, rfl⟩ := mem_classes ofClass
  rw [strip, if_pos excluded, List.mem_filter] at within
  simpa using within.2

/-! ## From bytes to indices -/

section Sources

variable {σ : Type} {index : Nat → StateT σ Option Nat}
variable (bounded : ∀ {n drawn : Nat} {state rest : σ}, 0 < n →
  index n state = some (drawn, rest) → drawn < n)

include bounded

/-- Whatever the indices come from, the slots are those of some picks within the bounds. -/
theorem seedSlots_picks {alphabets : List (List Char)} (nonempty : ∀ chars ∈ alphabets, chars ≠ [])
    {slots result : Array Char} {state rest : σ}
    (run : seedSlots index alphabets slots state = some (result, rest)) :
    ∃ picks, InBounds picks (alphabets.map List.length) ∧
      result = slots ++ (picked alphabets picks).toArray := by
  induction alphabets generalizing slots state with
  | nil =>
      change some (slots, state) = _ at run
      simp only [Option.some.injEq, Prod.mk.injEq] at run
      exact ⟨[], .nil, by simp [picked, run.1]⟩
  | cons chars alphabets ih =>
      rw [seedSlots] at run
      obtain ⟨pick, later, drawn, next⟩ := bind_eq_some_iff.mp run
      have positive : 0 < chars.length :=
        List.length_pos_iff.mpr (nonempty chars List.mem_cons_self)
      obtain ⟨picks, fit, rfl⟩ :=
        ih (fun other member => nonempty other (List.mem_cons_of_mem _ member)) next
      refine ⟨pick :: picks, .cons (bounded positive drawn) fit, ?_⟩
      simp [picked]

theorem shuffleSlots_swaps {α : Type} : (count : Nat) → {slots result : Array α} →
    {state rest : σ} → shuffleSlots index count slots state = some (result, rest) →
    ∃ swaps, InBounds swaps (bounds count) ∧ result = swapped count slots swaps
  | 0, slots, result, state, rest, run => by
      change some (slots, state) = _ at run
      simp only [Option.some.injEq, Prod.mk.injEq] at run
      exact ⟨[], .nil, run.1.symm⟩
  | 1, slots, result, state, rest, run => by
      change some (slots, state) = _ at run
      simp only [Option.some.injEq, Prod.mk.injEq] at run
      exact ⟨[], .nil, run.1.symm⟩
  | i + 2, slots, result, state, rest, run => by
      rw [shuffleSlots] at run
      obtain ⟨swap, later, drawn, next⟩ := bind_eq_some_iff.mp run
      obtain ⟨swaps, fit, rfl⟩ := shuffleSlots_swaps (i + 1) next
      exact ⟨swap :: swaps, .cons (bounded (by omega) drawn) fit, rfl⟩

/-- A run of the generator is a run over the indices it drew. -/
theorem generate_draws {policy : PwgenPolicy} (valid : policy.validate = .ok ())
    {password : String} {state rest : σ}
    (run : generate index policy state = some (.ok password, rest)) :
    ∃ draws, InBounds draws policy.drawBounds ∧
      generate nextDraw policy draws = some (.ok password, []) := by
  rw [generate_of_valid index valid] at run
  obtain ⟨slots, afterPicks, before, run⟩ := bind_eq_some_iff.mp run
  obtain ⟨shuffled, afterSwaps, shuffles, last⟩ := bind_eq_some_iff.mp run
  change some (Except.ok _, _) = some (Except.ok password, rest) at last
  simp only [Option.some.injEq, Prod.mk.injEq, Except.ok.injEq] at last
  obtain ⟨rfl, rfl⟩ := last
  obtain ⟨seeded, afterSeeds, seeds, fills⟩ := bind_eq_some_iff.mp before
  have classNonempty : ∀ chars ∈ policy.classes, chars ≠ [] := fun chars ofClass =>
    PwgenPolicy.slotAlphabets_ne_nil valid (List.mem_append_left _ ofClass)
  have size : seeded.size = policy.classes.length := by
    obtain ⟨picks, fit, rfl⟩ := seedSlots_picks bounded classNonempty seeds
    rw [Array.empty_append, List.size_toArray, length_picked fit]
  have asOne : seedSlots index policy.slotAlphabets #[] state = some (slots, afterPicks) := by
    rw [PwgenPolicy.slotAlphabets, seedSlots_append, bind_eq_some_iff]
    rw [size, fillSlots_eq] at fills
    exact ⟨seeded, afterSeeds, seeds, fills⟩
  obtain ⟨picks, pickFit, rfl⟩ := seedSlots_picks bounded
    (fun _ alphabet => PwgenPolicy.slotAlphabets_ne_nil valid alphabet) asOne
  obtain ⟨swaps, swapFit, rfl⟩ := shuffleSlots_swaps bounded _ shuffles
  refine ⟨picks ++ swaps, List.rel_append pickFit swapFit, ?_⟩
  rw [generate_eq_some_iff valid]
  refine ⟨picks, swaps, pickFit, swapFit, by simp, ?_⟩
  rw [Array.empty_append]
  rfl

end Sources

/-- The loops of the generator: rejection sampling is unbiased, every sequence of indices makes
a password of the policy, runs on bytes are runs on indices, and the shuffle draws each
permutation once. -/
theorem generate_loops (n : Nat) (least : 1 ≤ n) (policy : PwgenPolicy)
    (valid : policy.validate = .ok ()) :
    ((∀ bytes, (∃ byte ∈ bytes, Acceptable n byte) →
        ∃ byte rest, firstAcceptable n bytes = some byte ∧
          uniformIndex n bytes = some (byte.toNat % n, rest) ∧ byte.toNat % n < n) ∧
      ∀ value < n,
        Nat.card { byte : UInt8 // Acceptable n byte ∧ byte.toNat % n = value } = 256 / n) ∧
    (∀ draws, InBounds draws policy.drawBounds →
      ∃ password, generate nextDraw policy draws = some (.ok password, []) ∧
        policy.Allows password ∧
        (policy.excludeAmbiguous → ∀ char ∈ password.toList, char ∉ ambiguous)) ∧
    (∀ bytes password rest, generate uniformIndex policy bytes = some (.ok password, rest) →
      policy.Allows password ∧ ∃ draws, InBounds draws policy.drawBounds ∧
        generate nextDraw policy draws = some (.ok password, [])) ∧
    Function.Bijective (slotPermutation policy.length.toNat) ∧
    ∀ (draws : { draws // InBounds draws (bounds policy.length.toNat) }) (slots : Array Char),
      slots.size = policy.length.toNat →
        ∃ shuffled, shuffleSlots nextDraw policy.length.toNat slots draws.val =
            some (shuffled, []) ∧
          ∀ slot : Fin policy.length.toNat,
            shuffled[(slot : Nat)]? =
              slots[(slotPermutation policy.length.toNat draws slot : Nat)]? := by
  have allowed : ∀ {draws password}, generate nextDraw policy draws = some (.ok password, []) →
      policy.Allows password := by
    intro draws password run
    obtain ⟨picks, swaps, pickFit, swapFit, -, rfl⟩ := (generate_eq_some_iff valid).mp run
    exact allows_drawn valid pickFit swapFit
  refine ⟨⟨?_, fun value below => card_acceptable least below⟩, ?_, ?_,
    slotPermutation_bijective _, ?_⟩
  · intro bytes exists_
    obtain ⟨byte, first⟩ : ∃ byte, firstAcceptable n bytes = some byte := by
      rw [← Option.isSome_iff_exists, firstAcceptable, List.find?_isSome]
      simpa using exists_
    obtain ⟨rest, run⟩ := uniformIndex_of_first first
    exact ⟨byte, rest, first, run, Nat.mod_lt _ least⟩
  · intro draws fit
    obtain ⟨password, run⟩ := generate_of_inBounds valid fit
    have allows := allowed run
    exact ⟨password, run, allows, fun excluded char member =>
      PwgenPolicy.not_ambiguous excluded (allows.within char member)⟩
  · intro bytes password rest run
    obtain ⟨draws, fit, run⟩ := generate_draws (fun positive => uniformIndex_lt positive) valid run
    exact ⟨allowed run, draws, fit, run⟩
  · intro draws slots size
    refine ⟨_, (shuffleSlots_eq_some_iff _).mpr ⟨draws.val, draws.property, by simp, rfl⟩, ?_⟩
    intro slot
    rw [getElem?_swapped _ draws.property size.ge, slotPermutation_apply]

/-- The default policy, and indices below three. -/
theorem generate_loops_default :
    Nat.card { byte : UInt8 // Acceptable 3 byte ∧ byte.toNat % 3 = 2 } = 85 ∧
    ∃ password, generate nextDraw PwgenPolicy.default (List.replicate 31 0) =
      some (.ok password, []) ∧ PwgenPolicy.default.Allows password := by
  have loops := generate_loops 3 (by decide) PwgenPolicy.default (by decide)
  refine ⟨loops.1.2 2 (by decide), ?_⟩
  obtain ⟨password, run, allows, -⟩ := loops.2.1 (List.replicate 31 0) (by decide)
  exact ⟨password, run, allows⟩

end Pangolin.Core
