import Pangolin.Crypto.Keys
import Pangolin.Lib.Reader

/-!
# Sealing bytes under a password

Archives and recovery backups are files: the key derivation takes the bytes of a password,
and the AEAD takes and returns bytes.  Both are parameters here, with the laws the writers
and the readers of the files rely on.
-/

namespace Pangolin.Crypto

open Reading

/-- The length of the AEAD tag. -/
def aeadTagLen : Nat := 16

/-- Argon2id and XChaCha20-Poly1305 on bytes. -/
structure PasswordCipher where
  Key : Type
  hashPassword : Password → KdfSalt → KdfParams → Option Key
  encrypt : Key → Nonce → (plaintext aad : List UInt8) → Option (List UInt8)
  decrypt : Key → Nonce → (ciphertext aad : List UInt8) → Option (List UInt8)

namespace PasswordCipher

/-- What is encrypted is longer by the tag and decrypts under the same key, nonce and
associated data. -/
structure Correct (cipher : PasswordCipher) : Prop where
  length_encrypt : ∀ {key nonce plaintext aad ciphertext},
    cipher.encrypt key nonce plaintext aad = some ciphertext →
      ciphertext.length = plaintext.length + aeadTagLen
  decrypt_encrypt : ∀ {key nonce plaintext aad ciphertext},
    cipher.encrypt key nonce plaintext aad = some ciphertext →
      cipher.decrypt key nonce ciphertext aad = some plaintext

variable (cipher : PasswordCipher)

/-- `kdf::derive_key` on bytes. -/
def deriveKey (password : Password) (salt : KdfSalt) (params : KdfParams) :
    Option cipher.Key :=
  if params.validate then cipher.hashPassword password salt params else none

/-- `AeadKey::open` on bytes. -/
def openBytes (key : cipher.Key) (nonce : Nonce) (ciphertext aad : List UInt8) :
    Option (List UInt8) :=
  if ciphertext.length < aeadTagLen then none else cipher.decrypt key nonce ciphertext aad

variable {cipher}

theorem Correct.openBytes_encrypt (correct : cipher.Correct) {key : cipher.Key} {nonce : Nonce}
    {plaintext aad ciphertext : List UInt8}
    (encrypted : cipher.encrypt key nonce plaintext aad = some ciphertext) :
    cipher.openBytes key nonce ciphertext aad = some plaintext := by
  have long : ¬ ciphertext.length < aeadTagLen := by
    rw [correct.length_encrypt encrypted]
    omega
  rw [openBytes, if_neg long, correct.decrypt_encrypt encrypted]

/-! ## A cipher with the laws -/

/-- A tag that depends on the key, the nonce and the associated data. -/
def plainTag (key : List UInt8) (nonce : Nonce) (aad : List UInt8) : List UInt8 :=
  toBytes aeadTagLen (ofBytes key + nonce.raw + ofBytes aad)

/-- The cipher that appends a tag and hides nothing. -/
def plain : PasswordCipher where
  Key := List UInt8
  hashPassword password salt _ := some (password.bytes ++ toBytes 16 salt.raw)
  encrypt key nonce plaintext aad := some (plaintext ++ plainTag key nonce aad)
  decrypt key nonce ciphertext aad :=
    let split := ciphertext.length - aeadTagLen
    if ciphertext.drop split = plainTag key nonce aad then some (ciphertext.take split) else none

theorem length_plainTag (key : List UInt8) (nonce : Nonce) (aad : List UInt8) :
    (plainTag key nonce aad).length = aeadTagLen := length_toBytes _ _

theorem plain_correct : plain.Correct where
  length_encrypt := by
    intro key nonce plaintext aad ciphertext encrypted
    obtain rfl := Option.some.inj encrypted
    exact List.length_append.trans (congrArg _ (length_plainTag key nonce aad))
  decrypt_encrypt := by
    intro (key : List UInt8) nonce plaintext aad ciphertext encrypted
    obtain rfl := Option.some.inj encrypted
    have sized : (plaintext ++ plainTag key nonce aad).length - aeadTagLen = plaintext.length := by
      rw [List.length_append, length_plainTag, Nat.add_sub_cancel]
    simp only [plain, sized, List.drop_left, List.take_left, if_true]

end PasswordCipher

end Pangolin.Crypto
