import Pangolin.Store.Lineage
import Pangolin.Store.GraphWalk

/-!
# Where the session's cache comes from

Unlock caches one identity per account.  It is the one sealed in the account's canonical
head when the account is forked and that head opens here, and otherwise the one sealed in
the row its stored head pointer names.
-/

namespace Pangolin.Store

open Symbolic Crypto

/-- The identity sealed in the row. -/
def RevisionRow.Seals (row : RevisionRow) (identity : AccountIdentity) : Prop :=
  row.encPayload.plaintext = some (.live identity)

theorem Ciphertext.plaintext_of_open? {ciphertext : Ciphertext} {vdk : VdkKey} {nonce : Nonce}
    {aad : RevisionAad} {payload : IdentityPayload}
    (opened : ciphertext.open? vdk nonce aad = some payload) :
    ciphertext.plaintext = some payload := by
  cases ciphertext with
  | sealedPayload box =>
      obtain ⟨-, -, sameMsg⟩ := (Sealed.open?_eq_some_iff _ _ _ _).mp opened
      exact congrArg some sameMsg
  | bytes raw => cases opened

theorem seals_of_readRow {vaultId : VaultId} {vdk : VdkKey} {row : RevisionRow}
    {identity : AccountIdentity} (read : readRow vaultId vdk row = .ok identity) :
    row.Seals identity := by
  unfold readRow at read
  split at read
  · cases read
  · cases read
  · next payload _ opened =>
      split at read
      · cases read
      · split at read
        · obtain rfl := Except.ok.inj read
          exact Ciphertext.plaintext_of_open? opened
        · cases read

theorem seals_of_decodeRow {vaultId : VaultId} {vdk : VdkKey} {chain : VdkChain}
    {row : RevisionRow} {identity : AccountIdentity}
    (decoded : decodeRow vaultId vdk chain row = .ok (.live identity)) : row.Seals identity := by
  unfold decodeRow at decoded
  split at decoded
  · cases decoded
  · split at decoded
    · cases decoded
    · split at decoded
      · cases decoded
      · cases decoded
      · next payload _ opened =>
          split at decoded
          · cases decoded
          · split at decoded
            · obtain ⟨rfl⟩ := HeadDecodeOutcome.live.inj (Except.ok.inj decoded)
              exact Ciphertext.plaintext_of_open? opened
            · cases decoded

/-! ## Hydration -/

/-- The outcome a hydration keeps is the canonical head's. -/
theorem decode_of_decodeLeaves {decode : RevisionId → Except StoreError HeadDecodeOutcome}
    {canonical : RevisionId} {leaves : List RevisionId} {upgrade : Bool}
    {outcome : HeadDecodeOutcome}
    (decoded : decodeLeaves decode canonical leaves = .ok (upgrade, some outcome)) :
    decode canonical = .ok outcome := by
  induction leaves generalizing upgrade outcome with
  | nil => cases decoded
  | cons leaf leaves ih =>
      obtain ⟨first, opened, rest⟩ := Fallible.bind_eq_ok_iff.mp decoded
      obtain ⟨⟨laterUpgrade, later⟩, laterDecoded, equal⟩ := Fallible.bind_eq_ok_iff.mp rest
      have kept := Except.ok.inj equal
      cases later with
      | some kept' =>
          have same : kept' = outcome := by
            cases first <;> simpa using (Prod.mk.inj kept).2
          exact same ▸ ih laterDecoded
      | none =>
          by_cases isCanonical : leaf = canonical
          · have same : first = outcome := by
              cases first <;> simpa [isCanonical] using (Prod.mk.inj kept).2
            exact same ▸ isCanonical ▸ opened
          · cases first <;> simp [isCanonical] at kept

/-- The rows a hydration can take an account's identity from. -/
inductive HeadSource (revisions : List RevisionRow) (account : AccountRow) :
    RevisionId → Prop where
  | stored : HeadSource revisions account account.headRevisionId
  | canonical (graph : RevisionGraph) (head : RevisionId) :
      1 < (accountHeadRows revisions account.accountId).length →
      RevisionGraph.build (readRevisionRows revisions account.accountId) = .ok graph →
      graph.canonicalHead = some head → HeadSource revisions account head

theorem headSource_of_headsToDecode {revisions : List RevisionRow} {account : AccountRow}
    {canonical : RevisionId} {leaves : List RevisionId}
    (listed : headsToDecode revisions account = .ok (canonical, leaves)) :
    HeadSource revisions account canonical := by
  unfold headsToDecode at listed
  split at listed
  · next forked =>
      obtain ⟨graph, built, equal⟩ := Fallible.bind_eq_ok_iff.mp listed
      obtain ⟨rfl, -⟩ := Prod.mk.inj (Except.ok.inj equal)
      cases chosen : graph.canonicalHead with
      | none => exact .stored
      | some head => exact .canonical graph head forked built chosen
  · obtain ⟨rfl, -⟩ := Prod.mk.inj (Except.ok.inj listed)
    exact .stored

/-- A hydrated identity is decoded from one of those rows. -/
theorem hydrateAccount_source {revisions : List RevisionRow} {vaultId : VaultId} {vdk : VdkKey}
    {chain : VdkChain} {account : AccountRow} {hydrated : Hydrated} {identity : AccountIdentity}
    (done : hydrateAccount revisions vaultId vdk chain account = .ok hydrated)
    (cached : hydrated.cached = some identity) :
    ∃ id, HeadSource revisions account id ∧
      decodeHeadRow revisions vaultId vdk chain account.accountId id = .ok (.live identity) := by
  obtain ⟨⟨canonical, leaves⟩, listed, rest⟩ := Fallible.bind_eq_ok_iff.mp done
  obtain ⟨⟨upgrade, outcome⟩, decoded, rest⟩ := Fallible.bind_eq_ok_iff.mp rest
  simp only [pure_bind] at rest
  split at rest
  · split at rest
    · obtain rfl := Except.ok.inj rest
      cases cached
    · obtain ⟨fallback, opened, finished⟩ := Fallible.bind_eq_ok_iff.mp rest
      obtain rfl := Option.some.inj ((hydrated_of_final finished).2 identity cached)
      exact ⟨_, .stored, opened⟩
  · obtain rfl := (hydrated_of_final rest).2 identity cached
    exact ⟨canonical, headSource_of_headsToDecode listed, decode_of_decodeLeaves decoded⟩

theorem hydrateAll_source {revisions : List RevisionRow} {vaultId : VaultId} {vdk : VdkKey}
    {chain : VdkChain} {accounts : List AccountRow} {data : ActiveStateData}
    (done : hydrateAll revisions vaultId vdk chain accounts = .ok data) {accountId : AccountId}
    {identity : AccountIdentity} (cached : (accountId, identity) ∈ data.cache) :
    ∃ account ∈ accounts, account.accountId = accountId ∧
      ∃ id, HeadSource revisions account id ∧
        decodeHeadRow revisions vaultId vdk chain accountId id = .ok (.live identity) := by
  induction accounts generalizing data with
  | nil =>
      obtain rfl := Except.ok.inj done
      cases cached
  | cons account accounts ih =>
      obtain ⟨hydrated, first, rest⟩ := Fallible.bind_eq_ok_iff.mp done
      obtain ⟨later, others, equal⟩ := Fallible.bind_eq_ok_iff.mp rest
      obtain rfl := Except.ok.inj equal
      rcases List.mem_append.mp cached with here | there
      · cases held : hydrated.cached with
        | none => simp [held] at here
        | some found =>
            obtain ⟨rfl, rfl⟩ : accountId = account.accountId ∧ identity = found := by
              simpa [held] using here
            exact ⟨account, List.mem_cons_self, rfl, hydrateAccount_source first held⟩
      · obtain ⟨source, member, found⟩ := ih others there
        exact ⟨source, List.mem_cons_of_mem _ member, found⟩

/-- An account with one head hydrates to what its stored head decodes to. -/
theorem hydrateAccount_live {revisions : List RevisionRow} {vaultId : VaultId} {vdk : VdkKey}
    {chain : VdkChain} {account : AccountRow} {identity : AccountIdentity}
    (single : (accountHeadRows revisions account.accountId).length ≤ 1)
    (decoded : decodeHeadRow revisions vaultId vdk chain account.accountId
      account.headRevisionId = .ok (.live identity)) :
    hydrateAccount revisions vaultId vdk chain account = .ok ⟨false, some identity⟩ := by
  have heads : headsToDecode revisions account =
      .ok (account.headRevisionId, [account.headRevisionId]) := by
    rw [headsToDecode, if_neg (by omega)]
  simp [hydrateAccount, heads, decodeLeaves, decoded, bind, Except.bind, pure, Except.pure]

/-- What one account hydrates to is cached. -/
theorem mem_hydrateAll {revisions : List RevisionRow} {vaultId : VaultId} {vdk : VdkKey}
    {chain : VdkChain} {accounts : List AccountRow} {data : ActiveStateData}
    (done : hydrateAll revisions vaultId vdk chain accounts = .ok data) {account : AccountRow}
    (member : account ∈ accounts) {hydrated : Hydrated} {identity : AccountIdentity}
    (result : hydrateAccount revisions vaultId vdk chain account = .ok hydrated)
    (cached : hydrated.cached = some identity) : (account.accountId, identity) ∈ data.cache := by
  induction accounts generalizing data with
  | nil => cases member
  | cons first accounts ih =>
      obtain ⟨firstHydrated, firstDone, rest⟩ := Fallible.bind_eq_ok_iff.mp done
      obtain ⟨later, others, equal⟩ := Fallible.bind_eq_ok_iff.mp rest
      obtain rfl := Except.ok.inj equal
      rcases List.mem_cons.mp member with rfl | there
      · obtain rfl := Except.ok.inj (firstDone.symm.trans result)
        apply List.mem_append_left
        simp [cached]
      · exact List.mem_append_right _ (ih others there)

end Pangolin.Store
