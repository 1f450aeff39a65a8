import Mathlib.Data.List.Basic

/-!
# Ideal sealed values

A symbolic account of authenticated encryption.  A sealed value remembers the
key, the public context and the message it was built from, and gives the message
back only to a caller presenting the same key and context.  The context stands
for whatever the scheme authenticates without hiding it: associated data, and the
nonce where it is kept apart from the ciphertext.

Nothing here is computational: two sealed values are equal exactly when they were
built from equal inputs, and no key opens a value it did not seal.
-/

namespace Symbolic

universe u v w

/-- A ciphertext of the ideal scheme, indexed by the types of its inputs. -/
structure Sealed (Key : Type u) (Context : Type v) (Msg : Type w) where
  key : Key
  context : Context
  msg : Msg
  deriving Repr, DecidableEq

namespace Sealed

variable {Key : Type u} {Context : Type v} {Msg : Type w}
variable [DecidableEq Key] [DecidableEq Context]

/-- Authenticated opening: the message comes back only under the key and context
it was sealed with. -/
def open? (box : Sealed Key Context Msg) (key : Key) (context : Context) : Option Msg :=
  if box.key = key ∧ box.context = context then some box.msg else none

/-- Opening is exact: it succeeds with a message precisely when all inputs are
the sealing ones. -/
theorem open?_eq_some_iff (box : Sealed Key Context Msg) (key : Key) (context : Context)
    (msg : Msg) :
    box.open? key context = some msg ↔
      box.key = key ∧ box.context = context ∧ box.msg = msg := by
  unfold open?
  split
  · next same =>
      obtain ⟨sameKey, sameContext⟩ := same
      simp [sameKey, sameContext]
  · next different =>
      constructor
      · intro impossible
        cases impossible
      · rintro ⟨sameKey, sameContext, -⟩
        exact absurd ⟨sameKey, sameContext⟩ different

/-- A value opens under its own inputs. -/
@[simp] theorem open?_self (box : Sealed Key Context Msg) :
    box.open? box.key box.context = some box.msg :=
  (open?_eq_some_iff box box.key box.context box.msg).mpr ⟨rfl, rfl, rfl⟩

/-- A foreign key opens nothing. -/
theorem open?_eq_none_of_key_ne {box : Sealed Key Context Msg} {key : Key}
    (different : box.key ≠ key) (context : Context) : box.open? key context = none := by
  unfold open?
  rw [if_neg]
  rintro ⟨sameKey, -⟩
  exact different sameKey

end Sealed

end Symbolic
