import Pangolin.Store.Schema

/-!
# The retained-epoch VDK chain

`vdk_chain_state` points at the current epoch, whose VDK is the one the meta row
wraps.  `vdk_chain` keeps one row per retained epoch.  Unlock rebuilds the chain
under a single password authority: one row that does not open aborts the unlock.
-/

namespace Pangolin.Store

open Crypto

/-- The unlocked chain: retained epochs with their VDKs, and the current epoch. -/
structure VdkChain where
  retained : List (Nat × VdkKey)
  currentEpoch : Nat
  deriving Repr, DecidableEq

namespace VdkChain

/-- The VDK of a retained epoch; the current epoch's key is never in here. -/
def aeadForEpoch (chain : VdkChain) (epoch : Nat) : Option VdkKey :=
  (chain.retained.find? fun entry => entry.1 = epoch).map Prod.snd

end VdkChain

/-- An absent pointer row is the single epoch 0 of a vault that never rotated. -/
def readCurrentEpoch (keys : KeyTables) : Nat :=
  keys.vdkChainState.getD 0

/-- The context a chain row's anchor is opened with: the meta row's vault id and
the row's own schema version. -/
def RetainedEpoch.anchorContext (row : RetainedEpoch) (vaultId : VaultId) : WrapContext :=
  ⟨vaultId, row.anchorWrapSchema⟩

/-- The loop of `VdkChain::build_on_unlock`: the current epoch's row is skipped,
every other row must open under the one authority. -/
def unwrapRetained (currentEpoch : Nat) (vaultId : VaultId) (authority : AuthorityKey) :
    List RetainedEpoch → Option (List (Nat × VdkKey))
  | [] => some []
  | row :: rows =>
      if row.epoch = currentEpoch then
        unwrapRetained currentEpoch vaultId authority rows
      else do
        let vdk ← unwrapWith row.anchor (row.anchorContext vaultId) authority
        let others ← unwrapRetained currentEpoch vaultId authority rows
        return (row.epoch, vdk) :: others

def buildOnUnlock (keys : KeyTables) (vaultId : VaultId) (authority : AuthorityKey) :
    Except StoreError VdkChain :=
  match unwrapRetained (readCurrentEpoch keys) vaultId authority keys.vdkChain with
  | some retained => .ok ⟨retained, readCurrentEpoch keys⟩
  | none => .error .authenticationFailed

/-- `append_retained_and_advance_tx`. -/
def appendRetainedAndAdvance (keys : KeyTables) (retainedEpoch : Nat) (anchor : WrappedVdk)
    (anchorWrapSchema : Nat) (deviceWrapped : DeviceWrappedVdk) (newCurrentEpoch : Nat) :
    Except StoreError KeyTables :=
  if ¬ fitsI64 retainedEpoch then
    .error (.corrupted "vdk_chain.epoch overflows i64")
  else if ¬ fitsI64 newCurrentEpoch then
    .error (.corrupted "vdk_chain_state.epoch overflows i64")
  else
    .ok { keys with
      vdkChain := Table.upsert RetainedEpoch.epoch keys.vdkChain
        ⟨retainedEpoch, anchor, anchorWrapSchema, deviceWrapped⟩
      vdkChainState := some newCurrentEpoch }

/-! ## What the loop computes -/

section

variable {currentEpoch : Nat} {vaultId : VaultId} {authority : AuthorityKey}

/-- The row opens under the authority; the demand the unlock loop makes of every
row but the current epoch's. -/
def RetainedEpoch.OpensUnder (row : RetainedEpoch) (vaultId : VaultId)
    (authority : AuthorityKey) : Prop :=
  row.anchor.key = authority ∧ row.anchor.context = row.anchorContext vaultId

instance (row : RetainedEpoch) (vaultId : VaultId) (authority : AuthorityKey) :
    Decidable (row.OpensUnder vaultId authority) :=
  inferInstanceAs (Decidable (_ ∧ _))

/-- The loop succeeds exactly when every row it does not skip opens, and then
returns those rows' keys in table order. -/
theorem unwrapRetained_eq_some_iff (rows : List RetainedEpoch)
    (retained : List (Nat × VdkKey)) :
    unwrapRetained currentEpoch vaultId authority rows = some retained ↔
      (∀ row ∈ rows, row.epoch ≠ currentEpoch → row.OpensUnder vaultId authority) ∧
        retained = (rows.filter fun row => row.epoch ≠ currentEpoch).map
          fun row => (row.epoch, row.anchor.msg) := by
  induction rows generalizing retained with
  | nil => simp [unwrapRetained, eq_comm]
  | cons row rows ih =>
      by_cases current : row.epoch = currentEpoch
      · simp [unwrapRetained, current, ih]
      · simp only [unwrapRetained, current, if_false]
        constructor
        · intro built
          simp only [bind, Option.bind_eq_some_iff, pure, Option.some.injEq] at built
          obtain ⟨vdk, opened, others, rest, rfl⟩ := built
          obtain ⟨sameKey, sameContext, rfl⟩ :=
            (unwrapWith_eq_some_iff _ _ _ _).mp opened
          obtain ⟨opens, rfl⟩ := (ih others).mp rest
          refine ⟨?_, by simp [current]⟩
          intro candidate member retainedEpoch
          rcases List.mem_cons.mp member with rfl | inTail
          · exact ⟨sameKey, sameContext⟩
          · exact opens candidate inTail retainedEpoch
        · rintro ⟨opens, rfl⟩
          obtain ⟨sameKey, sameContext⟩ := opens row List.mem_cons_self current
          have opened : unwrapWith row.anchor (row.anchorContext vaultId) authority =
              some row.anchor.msg :=
            (unwrapWith_eq_some_iff _ _ _ _).mpr ⟨sameKey, sameContext, rfl⟩
          have rest := (ih _).mpr
            ⟨fun candidate member => opens candidate (List.mem_cons_of_mem _ member), rfl⟩
          simp [bind, pure, opened, rest, current]

/-- Unlock's chain rebuild succeeds exactly when every retained anchor opens under
the one authority it is given. -/
theorem buildOnUnlock_eq_ok_iff (keys : KeyTables) (chain : VdkChain) :
    buildOnUnlock keys vaultId authority = .ok chain ↔
      (∀ row ∈ keys.vdkChain, row.epoch ≠ readCurrentEpoch keys →
        row.OpensUnder vaultId authority) ∧
      chain = ⟨(keys.vdkChain.filter fun row => row.epoch ≠ readCurrentEpoch keys).map
        fun row => (row.epoch, row.anchor.msg), readCurrentEpoch keys⟩ := by
  unfold buildOnUnlock
  cases built : unwrapRetained (readCurrentEpoch keys) vaultId authority keys.vdkChain with
  | none =>
      simp only [reduceCtorEq, false_iff]
      rintro ⟨opens, -⟩
      have succeeds := (unwrapRetained_eq_some_iff keys.vdkChain _).mpr ⟨opens, rfl⟩
      rw [built] at succeeds
      cases succeeds
  | some retained =>
      obtain ⟨opens, rfl⟩ := (unwrapRetained_eq_some_iff _ _).mp built
      constructor
      · intro equal
        exact ⟨opens, (Except.ok.inj equal).symm⟩
      · rintro ⟨-, rfl⟩
        rfl

/-- The key an unlocked chain holds for a retained epoch is the one its row wraps. -/
theorem aeadForEpoch_of_buildOnUnlock {keys : KeyTables} {chain : VdkChain}
    {row : RetainedEpoch} (built : buildOnUnlock keys vaultId authority = .ok chain)
    (unique : (keys.vdkChain.map RetainedEpoch.epoch).Nodup) (member : row ∈ keys.vdkChain)
    (retained : row.epoch ≠ readCurrentEpoch keys) :
    chain.aeadForEpoch row.epoch = some row.anchor.msg := by
  obtain ⟨-, rfl⟩ := (buildOnUnlock_eq_ok_iff keys chain).mp built
  unfold VdkChain.aeadForEpoch
  have listed : row ∈ keys.vdkChain.filter fun row => row.epoch ≠ readCurrentEpoch keys := by
    simp [member, retained]
  have found := Table.lookup_eq_some_of_mem RetainedEpoch.epoch
    (unique.sublist ((List.filter_sublist).map _)) listed
  rw [Table.lookup] at found
  rw [List.find?_map]
  simp only [Option.map_map]
  change Option.map _ (List.find?
    (fun candidate : RetainedEpoch => decide (candidate.epoch = row.epoch)) _) = _
  rw [found]
  rfl

end

end Pangolin.Store
