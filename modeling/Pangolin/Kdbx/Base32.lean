import Pangolin.Kdbx.Totp
import Pangolin.Lib.Rfc4648

/-!
# Base32 secrets

Of the decoder's 32-bit buffer only the pending bits count.  The bytes written and the bits
pending are at any moment the bits of the letters read, so what is accepted is the RFC 4648
text of the result, up to case and separators.
-/

namespace Pangolin.Kdbx

open Utf8 BitGroups Rfc4648

/-- The characters `decode_base32` passes over. -/
def isSeparator (char : Char) : Bool := char = '=' || isAsciiWhitespace char || char = '-'

/-- A secret without separators, in upper case. -/
def normalized (text : Text) : Text :=
  (text.filter fun char => !isSeparator char).map Char.toUpper

/-- A text shown in any case and with separators anywhere. -/
inductive Rendering : Text → Text → Prop where
  | nil : Rendering [] []
  | upper {text shown : Text} (char : Char) :
      Rendering text shown → Rendering (char :: text) (char :: shown)
  | lower {text shown : Text} (char : Char) :
      Rendering text shown → Rendering (char :: text) (char.toLower :: shown)
  | separator {text shown : Text} (char : Char) :
      isSeparator char = true → Rendering text shown → Rendering text (char :: shown)

/-! ## Letters -/

theorem base32Value_eq_some_iff {char : Char} {digit : Nat} :
    base32Value char = some digit ↔ digit < 32 ∧ char.toUpper = base32Char digit := by
  constructor
  · intro value
    unfold base32Value at value
    simp only at value
    have letters : ∀ index < 26, base32Char index = Char.ofNat (index + 65) := by decide
    have figures : ∀ index < 6, base32Char (index + 26) = Char.ofNat (index + 50) := by decide
    split at value
    · next range =>
        have low : 65 ≤ char.toUpper.toNat := range.1
        have high : char.toUpper.toNat ≤ 90 := range.2
        have equal : char.toUpper.toNat - 65 = digit := Option.some.inj value
        refine ⟨by omega, ?_⟩
        rw [letters digit (by omega), ← equal, Nat.sub_add_cancel low, Char.ofNat_toNat]
    split at value
    · next range =>
        have low : 50 ≤ char.toUpper.toNat := range.1
        have high : char.toUpper.toNat ≤ 55 := range.2
        have equal : char.toUpper.toNat - 50 + 26 = digit := Option.some.inj value
        refine ⟨by omega, ?_⟩
        rw [← equal, figures _ (by omega), Nat.sub_add_cancel low, Char.ofNat_toNat]
    · cases value
  · rintro ⟨below, upper⟩
    have letters : ∀ index < 32, base32Value (base32Char index) = some index := by decide
    have same : base32Value char = base32Value (base32Char digit) := by
      have cased : (base32Char digit).toUpper = base32Char digit := by
        have capitals : ∀ index < 32, (base32Char index).toUpper = base32Char index := by decide
        exact capitals digit below
      unfold base32Value
      rw [upper, cased]
    rw [same, letters digit below]

/-- The letters of either case decode to the digits their upper case stands for. -/
theorem mapM_base32Value_eq_some_iff {text : Text} {digits : List Nat} :
    text.mapM base32Value = some digits ↔
      (∀ digit ∈ digits, digit < 2 ^ 5) ∧ text.map Char.toUpper = digits.map base32Char := by
  induction text generalizing digits with
  | nil => cases digits <;> simp
  | cons char text ih =>
      cases digits with
      | nil => simp [List.mapM_cons, Option.bind_eq_some_iff]
      | cons digit digits =>
          simp only [List.mapM_cons, Option.bind_eq_bind, Option.bind_eq_some_iff, Option.pure_def,
            Option.some.injEq, List.cons.injEq, List.map_cons, List.forall_mem_cons]
          constructor
          · rintro ⟨_, value, _, rest, rfl, rfl⟩
            obtain ⟨below, upper⟩ := base32Value_eq_some_iff.mp value
            obtain ⟨fit, same⟩ := ih.mp rest
            exact ⟨⟨below, fit⟩, upper, same⟩
          · rintro ⟨⟨below, fit⟩, upper, same⟩
            exact ⟨digit, base32Value_eq_some_iff.mpr ⟨below, upper⟩, digits,
              ih.mpr ⟨fit, same⟩, rfl, rfl⟩

/-! ## The loop -/

/-- A letter shifts five bits into the buffer. -/
theorem toBits_shift {buffer bits value : Nat} (few : bits < 8) (fits : value < 32) :
    toBits (bits + 5) ((buffer * 32 + value) % 2 ^ 32) = toBits bits buffer ++ toBits 5 value := by
  have high : (buffer * 32 + value) / 2 ^ 5 = buffer := by omega
  have low : (buffer * 32 + value) % 2 ^ 5 = value % 2 ^ 5 := by omega
  rw [toBits_mod (by omega), toBits_add, high, ← toBits_mod (Nat.le_refl 5) (buffer * 32 + value),
    low, toBits_mod (Nat.le_refl 5)]

/-- A full byte leaves the buffer. -/
theorem byteBits_emit {buffer bits : Nat} (full : 8 ≤ bits) (out : List UInt8) :
    byteBits (out ++ [UInt8.ofNat (buffer / 2 ^ (bits - 8))]) ++ toBits (bits - 8) buffer =
      byteBits out ++ toBits bits buffer := by
  have parts : bits = 8 + (bits - 8) := by omega
  have byte : (UInt8.ofNat (buffer / 2 ^ (bits - 8))).toNat = buffer / 2 ^ (bits - 8) % 2 ^ 8 :=
    UInt8.toNat_ofNat'
  have split : toBits bits buffer =
      toBits 8 (buffer / 2 ^ (bits - 8)) ++ toBits (bits - 8) buffer := by
    rw [← toBits_add, ← parts]
  rw [byteBits_append, byteBits_cons, byteBits_nil, byte, toBits_mod (Nat.le_refl 8), split]
  simp

/-- The decoder accepts digits that spell its output followed by fewer than five zeros. -/
theorem base32Loop_eq_some_iff {text : Text} {buffer bits : Nat} {out result : List UInt8}
    (few : bits < 8) :
    base32Loop buffer bits out text = some result ↔
      ∃ digits, (text.filter fun char => !isSeparator char).mapM base32Value = some digits ∧
        ∃ zeros < 5, byteBits out ++ toBits bits buffer ++ spell 5 digits =
          byteBits result ++ List.replicate zeros false := by
  induction text generalizing buffer bits out with
  | nil =>
      rw [base32Loop]
      constructor
      · intro accepted
        split at accepted
        · cases accepted
        · next clean =>
            obtain rfl := Option.some.inj accepted
            refine ⟨[], rfl, bits, by omega, ?_⟩
            have zero : buffer % 2 ^ bits = 0 := by
              rcases Nat.eq_zero_or_pos bits with none | some
              · rw [none, Nat.pow_zero, Nat.mod_one]
              · by_contra left
                exact clean (.inr ⟨left, some⟩)
            rw [toBits_eq_replicate_iff.mpr zero]
            simp [spell]
      · rintro ⟨digits, read, zeros, short, spelled⟩
        obtain rfl := (Option.some.inj read).symm
        have spelled : byteBits out ++ toBits bits buffer =
            byteBits result ++ List.replicate zeros false := by
          simpa [spell] using spelled
        obtain ⟨rfl, pending⟩ := byteBits_append_inj (by simpa using few) (by simp; omega) spelled
        have same : bits = zeros := by simpa using congrArg List.length pending
        subst same
        have zero := toBits_eq_replicate_iff.mp pending
        rw [if_neg]
        rintro (many | ⟨left, -⟩)
        · omega
        · exact left zero
  | cons char text ih =>
      by_cases separator : isSeparator char = true
      · have passed : base32Loop buffer bits out (char :: text) =
            base32Loop buffer bits out text := if_pos separator
        have dropped : (char :: text).filter (fun char => !isSeparator char) =
            text.filter fun char => !isSeparator char := by simp [separator]
        rw [passed, dropped]
        exact ih few
      · have kept : (char :: text).filter (fun char => !isSeparator char) =
            char :: text.filter fun char => !isSeparator char := by simp [separator]
        rw [kept, List.mapM_cons]
        cases letter : base32Value char with
        | none =>
            have refused : base32Loop buffer bits out (char :: text) = none := by
              rw [base32Loop, letter]
              exact if_neg separator
            simp [refused]
        | some value =>
            have fits : value < 32 := (base32Value_eq_some_iff.mp letter).1
            obtain ⟨next, out', below, spelled, shifted⟩ : ∃ next out', next < 8 ∧
                byteBits out' ++ toBits next ((buffer * 32 + value) % 2 ^ 32) =
                  byteBits out ++ toBits bits buffer ++ toBits 5 value ∧
                base32Loop buffer bits out (char :: text) =
                  base32Loop ((buffer * 32 + value) % 2 ^ 32) next out' text := by
              have step : base32Loop buffer bits out (char :: text) =
                  if 8 ≤ bits + 5 then
                    base32Loop ((buffer * 32 + value) % 2 ^ 32) (bits + 5 - 8)
                      (out ++ [UInt8.ofNat ((buffer * 32 + value) % 2 ^ 32 /
                        2 ^ (bits + 5 - 8))]) text
                  else base32Loop ((buffer * 32 + value) % 2 ^ 32) (bits + 5) out text := by
                rw [base32Loop, letter]
                exact if_neg separator
              by_cases full : 8 ≤ bits + 5
              · refine ⟨_, _, ?_, ?_, step.trans (if_pos full)⟩
                · omega
                · rw [byteBits_emit full, toBits_shift few fits, List.append_assoc]
              · refine ⟨_, _, ?_, ?_, step.trans (if_neg full)⟩
                · omega
                · rw [toBits_shift few fits, List.append_assoc]
            rw [shifted, ih below, spelled]
            constructor
            · rintro ⟨digits, read, zeros, short, same⟩
              refine ⟨value :: digits, by simp [read], zeros, short, ?_⟩
              rw [← same, spell, List.flatMap_cons, ← spell]
              simp
            · rintro ⟨all, read, zeros, short, same⟩
              obtain ⟨digits, rest, rfl⟩ : ∃ digits,
                  (text.filter fun char => !isSeparator char).mapM base32Value = some digits ∧
                    value :: digits = all := by
                simpa [Option.bind_eq_some_iff] using read
              refine ⟨digits, rest, zeros, short, ?_⟩
              rw [← same, spell, spell, List.flatMap_cons]
              simp

/-! ## Accepted secrets -/

/-- What `decode_base32` accepts is the RFC 4648 text of its result. -/
theorem decodeBase32_eq_some_iff {text : Text} {bytes : List UInt8} :
    decodeBase32 text = some bytes ↔ normalized text = base32 bytes := by
  rw [decodeBase32, base32Loop_eq_some_iff (by decide)]
  simp only [byteBits_nil, List.nil_append, toBits]
  constructor
  · rintro ⟨digits, read, zeros, short, spelled⟩
    obtain ⟨fit, letters⟩ := mapM_base32Value_eq_some_iff.mp read
    rw [normalized, letters, base32, ← (eq_groups_iff (by decide) fit).mpr ⟨zeros, short, spelled⟩]
  · intro same
    obtain ⟨fit, zeros, short, spelled⟩ :=
      cut_spells (byteBits bytes) (show ([] : List Bool).length < 5 by decide)
    refine ⟨groups 5 (byteBits bytes), mapM_base32Value_eq_some_iff.mpr ⟨fit, same⟩, zeros, short,
      ?_⟩
    rw [groups, spelled]
    rfl

/-- A letter of the alphabet is no separator in either case, and its own upper case. -/
theorem alphabet_cases {char : Char} (letter : char ∈ base32Alphabet) :
    isSeparator char = false ∧ char.toUpper = char ∧ isSeparator char.toLower = false ∧
      char.toLower.toUpper = char := by
  have all : base32Alphabet.all (fun char => !isSeparator char && char.toUpper = char &&
      !isSeparator char.toLower && char.toLower.toUpper = char) = true := by decide
  have holds := List.all_eq_true.mp all char letter
  simpa [and_assoc] using holds

theorem base32_letters (bytes : List UInt8) : ∀ char ∈ base32 bytes, char ∈ base32Alphabet := by
  intro char member
  obtain ⟨digit, -, rfl⟩ := List.mem_map.mp member
  unfold base32Char
  rw [List.getD_eq_getElem?_getD]
  cases found : base32Alphabet[digit]? with
  | none => decide
  | some letter => exact List.mem_of_getElem? found

/-- Any rendering of base32 text normalizes to that text. -/
theorem Rendering.normalized_eq {text shown : Text} (rendering : Rendering text shown)
    (letters : ∀ char ∈ text, char ∈ base32Alphabet) : normalized shown = text := by
  induction rendering with
  | nil => rfl
  | upper char rest ih =>
      obtain ⟨plain, cased, -, -⟩ := alphabet_cases (letters char List.mem_cons_self)
      have later := ih fun other member => letters other (List.mem_cons_of_mem _ member)
      unfold normalized at later ⊢
      simp [plain, cased, later]
  | lower char rest ih =>
      obtain ⟨-, -, plain, cased⟩ := alphabet_cases (letters char List.mem_cons_self)
      have later := ih fun other member => letters other (List.mem_cons_of_mem _ member)
      unfold normalized at later ⊢
      simp [plain, cased, later]
  | separator char skipped rest ih =>
      have later := ih letters
      unfold normalized at later ⊢
      simpa [skipped] using later

/-- Every rendering of the text of a secret decodes to it; what is accepted is, normalized,
the text of its result; so secrets that differ after that decode to different bytes. -/
theorem base32_decodes_canonically :
    (∀ bytes text, Rendering (base32 bytes) text → decodeBase32 text = some bytes) ∧
      (∀ text bytes, decodeBase32 text = some bytes → normalized text = base32 bytes) ∧
      ∀ first second, (decodeBase32 first).isSome = true → decodeBase32 first = decodeBase32 second →
        normalized first = normalized second := by
  refine ⟨?_, ?_, ?_⟩
  · intro bytes text rendering
    exact decodeBase32_eq_some_iff.mpr (rendering.normalized_eq (base32_letters bytes))
  · intro text bytes accepted
    exact decodeBase32_eq_some_iff.mp accepted
  · intro first second accepted same
    obtain ⟨bytes, decoded⟩ := Option.isSome_iff_exists.mp accepted
    rw [decodeBase32_eq_some_iff.mp decoded, decodeBase32_eq_some_iff.mp (same.symm.trans decoded)]

/-- The secret "foob" in mixed case, in groups and padded, and an accepted text. -/
theorem foob_decodes :
    decodeBase32 "mZxw 6y-q=".toList = some [102, 111, 111, 98] ∧
      normalized "mZxw 6y-q=".toList = base32 [102, 111, 111, 98] := by
  have rendering : Rendering (base32 [102, 111, 111, 98]) "mZxw 6y-q=".toList :=
    .lower 'M' (.upper 'Z' (.lower 'X' (.lower 'W' (.separator ' ' rfl (.upper '6' (.lower 'Y'
      (.separator '-' rfl (.lower 'Q' (.separator '=' rfl .nil)))))))))
  have decoded := base32_decodes_canonically.1 _ _ rendering
  exact ⟨decoded, base32_decodes_canonically.2.1 _ _ decoded⟩

end Pangolin.Kdbx
