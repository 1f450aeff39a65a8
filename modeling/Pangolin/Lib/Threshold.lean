import Mathlib.Data.List.Perm.Subperm

/-!
# Threshold secret sharing

The interface of a `t`-of-`n` scheme with its one law: any `t` of the shares of a
split recombine to the secret, in any order.  What fewer shares, or shares of
different splits, recombine to is left open.
-/

namespace Symbolic

universe u v w

/-- A threshold scheme over secrets, shares and splitting randomness. -/
structure ThresholdScheme (Secret : Type u) (Share : Type v) (Coins : Type w) where
  split : (threshold count : Nat) → Secret → Coins → Option (List Share)
  combine : List Share → Option Secret
  length_split : ∀ {threshold count secret coins shares},
    split threshold count secret coins = some shares → shares.length = count
  combine_of_subperm : ∀ {threshold count secret coins shares chosen},
    split threshold count secret coins = some shares → chosen.Subperm shares →
      threshold ≤ chosen.length → 0 < threshold → combine chosen = some secret

end Symbolic
