import Mathlib.Data.List.Nodup
import Pangolin.Core.TextCodec
import Pangolin.Store.Bip39Wordlist

/-!
# Seed phrases

A recovery backup is sealed under a phrase of 24 words.  A phrase is generated from 32 bytes
of entropy and a checksum byte, eleven bits a word; different entropies give different
phrases, and every generated phrase is one the backups accept.
-/

namespace Pangolin.Store.RecoveryBackup

open Pangolin.Core BinarySearch Radix

inductive BackupError where
  | validation (kind message : String)
  | integrityFailed
  | authenticationFailed
  | unknownSchemaVersion (found supported : Nat)
  | kdfParamOutOfRange (which : String) (value : Nat)
  | textChecksumMismatch
  | textInvalidEncoding
  | seedPhraseMalformed (reason : String)
  deriving Repr, DecidableEq

/-- `SEED_PHRASE_WORD_COUNT`. -/
def seedPhraseWordCount : Nat := 24

/-- `BIP39_ENTROPY_BYTES`. -/
def bip39EntropyBytes : Nat := 32

/-! ## From a phrase to the key derivation -/

/-- `is_bip39_english_word`. -/
def isBip39EnglishWord (word : String) : Bool := binarySearch wordLt bip39EnglishWordlist word

/-- `seed_phrase_to_kdf_input`: the words joined with single spaces. -/
def seedPhraseToKdfInput (seedPhrase : List String) : Except BackupError (List UInt8) :=
  if seedPhrase.length ≠ seedPhraseWordCount then
    .error (.seedPhraseMalformed "seed phrase must be exactly 24 words")
  else if seedPhrase.any fun word => !isBip39EnglishWord word then
    .error (.seedPhraseMalformed "seed phrase contains a word not in the BIP-39 English wordlist")
  else
    .ok ((seedPhrase.map wordBytes).intersperse [0x20]).flatten

theorem isBip39EnglishWord_iff {word : String} :
    isBip39EnglishWord word = true ↔ word ∈ bip39EnglishWordlist :=
  binarySearch_iff (fun _ _ less => bytesLt_asymm less) sorted_bip39EnglishWordlist

/-- Twenty-four words of the list are accepted. -/
theorem seedPhraseToKdfInput_of_words {seedPhrase : List String}
    (sized : seedPhrase.length = seedPhraseWordCount)
    (listed : ∀ word ∈ seedPhrase, word ∈ bip39EnglishWordlist) :
    seedPhraseToKdfInput seedPhrase =
      .ok ((seedPhrase.map wordBytes).intersperse [0x20]).flatten := by
  have known : (seedPhrase.any fun word => !isBip39EnglishWord word) = false := by
    apply List.any_eq_false.mpr
    intro word member
    rw [isBip39EnglishWord_iff.mpr (listed word member)]
    decide
  rw [seedPhraseToKdfInput, if_neg (not_not.mpr sized), known]
  rfl

/-! ## From entropy to a phrase -/

/-- The word at an index. -/
def bip39Word (idx : Nat) : String := bip39EnglishWordlist.getD idx ""

/-- The variables of the loop over the entropy and its checksum. -/
structure WordState where
  buf : Nat
  bits : Nat
  words : List String
  deriving Repr, DecidableEq

/-- The `while bits >= 11` loop. -/
def emitWords (buf : Nat) : Nat → List String → Nat × List String
  | bits + 11, words => emitWords buf bits (words ++ [bip39Word (buf >>> bits &&& 0x07FF)])
  | bits, words => (bits, words)

/-- One byte, shifted into the 32-bit buffer. -/
def entropyByte (state : WordState) (byte : UInt8) : WordState :=
  let buf := shiftInto 32 8 state.buf byte.toNat
  let emitted := emitWords buf (state.bits + 8) state.words
  ⟨buf, emitted.1, emitted.2⟩

/-- `bip39_words_from_entropy`. -/
def bip39WordsFromEntropy (sha256 : Sha256) (entropy : List UInt8) :
    Except BackupError (List String) :=
  if entropy.length ≠ bip39EntropyBytes then
    .error (.validation "argument" ("BIP-39 entropy must be " ++ toString bip39EntropyBytes ++
      " bytes (got " ++ toString entropy.length ++ ")"))
  else
    .ok ((entropy ++ [(sha256 entropy)[0]]).foldl entropyByte ⟨0, 0, []⟩).words

/-! ## The phrase determines the entropy -/

/-- The words emitted so far are those of the indices the bytes regroup to. -/
structure WordInv (bytes : List UInt8) (state : WordState) (indices : List Nat) : Prop where
  words_eq : state.words = indices.map bip39Word
  regroups : Regroups 8 11 (byteDigits bytes) indices state.buf state.bits

theorem emitWords_inv {bytes : List UInt8} (buf bits : Nat) (words : List String) :
    ∀ {indices}, WordInv bytes ⟨buf, bits, words⟩ indices →
      ∃ indices', WordInv bytes ⟨buf, (emitWords buf bits words).1, (emitWords buf bits words).2⟩
          indices' ∧ (emitWords buf bits words).1 < 11 := by
  fun_induction emitWords buf bits words with
  | case1 bits words ih =>
      intro indices inv
      have group : buf >>> bits &&& 0x07FF = buf >>> bits % 2 ^ 11 :=
        Nat.and_two_pow_sub_one_eq_mod _ 11
      have written : words = indices.map bip39Word := inv.words_eq
      have next : WordInv bytes ⟨buf, bits, words ++ [bip39Word (buf >>> bits % 2 ^ 11)]⟩
          (indices ++ [buf >>> bits % 2 ^ 11]) := by
        constructor
        · rw [written, List.map_append]
          rfl
        · exact inv.regroups.emit
      rw [group] at ih ⊢
      exact ih next
  | case2 bits words few =>
      intro indices inv
      refine ⟨indices, inv, ?_⟩
      by_contra many
      exact few (bits - 11) (by omega)

theorem foldl_entropyByte_inv (bytes : List UInt8) :
    ∃ indices, WordInv bytes (bytes.foldl entropyByte ⟨0, 0, []⟩) indices ∧
      (bytes.foldl entropyByte ⟨0, 0, []⟩).bits < 11 := by
  induction bytes using List.reverseRecOn with
  | nil => exact ⟨[], ⟨rfl, .start 8 11 0⟩, by decide⟩
  | append_singleton bytes byte ih =>
      obtain ⟨indices, inv, few⟩ := ih
      rw [List.foldl_append]
      apply emitWords_inv
      · constructor
        · exact inv.words_eq
        · rw [byteDigits, List.map_append]
          exact inv.regroups.shift byte.toNat_lt (by omega)

theorem bip39Word_eq {idx : Nat} (small : idx < 2 ^ 11) :
    ∃ inside : idx < bip39EnglishWordlist.length,
      bip39Word idx = bip39EnglishWordlist.get ⟨idx, inside⟩ := by
  have inside : idx < bip39EnglishWordlist.length := by
    rw [length_bip39EnglishWordlist]
    exact small
  refine ⟨inside, ?_⟩
  rw [bip39Word, List.getD_eq_getElem?_getD, List.getElem?_eq_getElem inside]
  rfl

theorem mem_of_bip39Word {idx : Nat} (small : idx < 2 ^ 11) :
    bip39Word idx ∈ bip39EnglishWordlist := by
  obtain ⟨inside, word⟩ := bip39Word_eq small
  rw [word]
  exact List.get_mem _ _

theorem bip39Word_inj {idx idx' : Nat} (small : idx < 2 ^ 11) (small' : idx' < 2 ^ 11)
    (same : bip39Word idx = bip39Word idx') : idx = idx' := by
  obtain ⟨inside, word⟩ := bip39Word_eq small
  obtain ⟨inside', word'⟩ := bip39Word_eq small'
  rw [word, word'] at same
  exact congrArg Fin.val (List.nodup_iff_injective_get.mp nodup_bip39EnglishWordlist same)

theorem map_bip39Word_inj {indices : List Nat} : ∀ {indices' : List Nat},
    (∀ idx ∈ indices, idx < 2 ^ 11) → (∀ idx ∈ indices', idx < 2 ^ 11) →
      indices.map bip39Word = indices'.map bip39Word → indices = indices' := by
  induction indices with
  | nil =>
      intro indices' _ _ same
      exact (List.map_eq_nil_iff.mp same.symm).symm
  | cons idx indices ih =>
      intro indices' below below' same
      cases indices' with
      | nil => cases same
      | cons idx' indices' =>
          obtain ⟨first, rest⟩ := List.cons.inj same
          rw [bip39Word_inj (below _ List.mem_cons_self) (below' _ List.mem_cons_self) first,
            ih (fun other member => below other (List.mem_cons_of_mem _ member))
              (fun other member => below' other (List.mem_cons_of_mem _ member)) rest]

/-- What the generator makes of 32 bytes: the words of 24 indices, which the bytes and the
checksum regroup to. -/
theorem bip39WordsFromEntropy_regroups (sha256 : Sha256) {entropy : List UInt8}
    (sized : entropy.length = bip39EntropyBytes) :
    ∃ indices buf, bip39WordsFromEntropy sha256 entropy = .ok (indices.map bip39Word) ∧
      indices.length = seedPhraseWordCount ∧
      Regroups 8 11 (byteDigits (entropy ++ [(sha256 entropy)[0]])) indices buf 0 := by
  obtain ⟨indices, inv, few⟩ := foldl_entropyByte_inv (entropy ++ [(sha256 entropy)[0]])
  have lengths := inv.regroups.length_eq
  have regroups := inv.regroups
  rw [byteDigits, List.length_map, List.length_append, List.length_singleton, sized,
    bip39EntropyBytes] at lengths
  -- 33 bytes are 24 groups of eleven bits, with none left over.
  have none : ((entropy ++ [(sha256 entropy)[0]]).foldl entropyByte ⟨0, 0, []⟩).bits = 0 := by
    omega
  rw [none] at regroups lengths
  refine ⟨indices, _, ?_, ?_, regroups⟩
  · rw [bip39WordsFromEntropy, if_neg (not_not.mpr sized), inv.words_eq]
  · rw [seedPhraseWordCount]
    omega

/-- Generated phrases are accepted, and the entropy can be told from the phrase. -/
theorem bip39WordsFromEntropy_accepted (sha256 : Sha256) {entropy : List UInt8}
    (sized : entropy.length = bip39EntropyBytes) :
    ∃ words input, bip39WordsFromEntropy sha256 entropy = .ok words ∧
      words.length = seedPhraseWordCount ∧ (∀ word ∈ words, word ∈ bip39EnglishWordlist) ∧
      seedPhraseToKdfInput words = .ok input ∧
      ∀ entropy', entropy'.length = bip39EntropyBytes →
        bip39WordsFromEntropy sha256 entropy' = .ok words → entropy = entropy' := by
  obtain ⟨indices, buf, generated, count, regroups⟩ := bip39WordsFromEntropy_regroups sha256 sized
  have length_eq : (indices.map bip39Word).length = seedPhraseWordCount := by
    rw [List.length_map, count]
  have listed : ∀ word ∈ indices.map bip39Word, word ∈ bip39EnglishWordlist := by
    intro word member
    obtain ⟨idx, inside, rfl⟩ := List.mem_map.mp member
    exact mem_of_bip39Word (regroups.below idx inside)
  refine ⟨_, _, generated, length_eq, listed, seedPhraseToKdfInput_of_words length_eq listed, ?_⟩
  intro entropy' sized' generated'
  obtain ⟨indices', buf', other, -, regroups'⟩ := bip39WordsFromEntropy_regroups sha256 sized'
  rw [generated', Except.ok.injEq] at other
  have same := map_bip39Word_inj regroups.below regroups'.below other
  rw [← same] at regroups'
  have digits := regroups.inj regroups' (by decide) byteDigits_lt byteDigits_lt
  have bytes : entropy ++ [(sha256 entropy)[0]] = entropy' ++ [(sha256 entropy')[0]] :=
    (List.map_inj_right fun _ _ => UInt8.toNat_inj.mp).mp digits
  exact (List.append_inj bytes (sized.trans sized'.symm)).1

end Pangolin.Store.RecoveryBackup
