import Pangolin.Store.SearchQuery
import Mathlib.Data.List.Sort

/-!
# The search index

The index keeps two tables and a map from accounts to row numbers.  Over any run of inserts,
updates and removals the tables hold one row each for the indexed accounts, with what the
latest write gave.
-/

namespace Pangolin.Store.Search

open Patterns Utf8

/-- `ACCOUNT_ID_LEN`. -/
def accountIdLen : Nat := 32

abbrev AccountId := Vector UInt8 accountIdLen

/-- `ACCOUNT_SEARCH_RESULT_CAP`. -/
def accountSearchResultCap : Nat := 200

/-! ## The tables -/

/-- A row of `accounts`. -/
structure AccountsRow where
  rowid : Nat
  accountId : List UInt8
  updatedAt : Int
  deriving Repr, DecidableEq

/-- A row of `account_fts`. -/
structure FtsRow where
  rowid : Nat
  displayName : Text
  tags : Text
  hostnames : Text
  deriving Repr, DecidableEq

def FtsRow.columns (row : FtsRow) : List Text := [row.displayName, row.tags, row.hostnames]

/-- The full-text row of a projection. -/
def ftsRow (rowid : Nat) (projection : SearchProjection) : FtsRow :=
  ⟨rowid, projection.displayName, projection.tagsJoined, projection.hostnamesJoined⟩

structure SearchIndex where
  accounts : List AccountsRow
  accountFts : List FtsRow
  nextRowid : Nat
  rowidByAccount : AccountId → Option Nat

/-- `INSERT INTO accounts`: the row number and the account are unique. -/
def insertAccounts (rows : List AccountsRow) (row : AccountsRow) : Option (List AccountsRow) :=
  if rows.any fun other => other.rowid = row.rowid || other.accountId = row.accountId then none
  else some (rows ++ [row])

/-- `INSERT INTO account_fts`: the row number is unique. -/
def insertFts (rows : List FtsRow) (row : FtsRow) : Option (List FtsRow) :=
  if rows.any fun other => other.rowid = row.rowid then none else some (rows ++ [row])

/-! ## Writing -/

namespace SearchIndex

/-- `SearchIndex::insert`. -/
def insert (index : SearchIndex) (accountId : AccountId) (updatedAt : Int)
    (projection : SearchProjection) : SearchIndex × Except StoreError Unit :=
  let rowid := index.nextRowid
  let index := { index with nextRowid := rowid + 1 }
  match insertAccounts index.accounts ⟨rowid, accountId.toList, updatedAt⟩ with
  | none => (index, .error .sqlite)
  | some accounts =>
      match insertFts index.accountFts (ftsRow rowid projection) with
      | none => ({ index with accounts }, .error .sqlite)
      | some accountFts =>
          let rowidByAccount := Function.update index.rowidByAccount accountId (some rowid)
          ({ index with accounts, accountFts, rowidByAccount }, .ok ())

/-- `SearchIndex::update`.  The full-text row is deleted before the new one is inserted. -/
def update (index : SearchIndex) (accountId : AccountId) (updatedAt : Int)
    (projection : SearchProjection) : SearchIndex × Except StoreError Unit :=
  match index.rowidByAccount accountId with
  | none => index.insert accountId updatedAt projection
  | some rowid =>
      let others := index.accountFts.filter fun row => row.rowid ≠ rowid
      match insertFts others (ftsRow rowid projection) with
      | none => ({ index with accountFts := others }, .error .sqlite)
      | some accountFts =>
          let accounts := index.accounts.map fun row =>
            if row.rowid = rowid then { row with updatedAt } else row
          ({ index with accountFts, accounts }, .ok ())

/-- `SearchIndex::remove`. -/
def remove (index : SearchIndex) (accountId : AccountId) :
    SearchIndex × Except StoreError Unit :=
  match index.rowidByAccount accountId with
  | none => (index, .ok ())
  | some rowid =>
      let rowidByAccount := Function.update index.rowidByAccount accountId none
      let accountFts := index.accountFts.filter fun row => row.rowid ≠ rowid
      let accounts := index.accounts.filter fun row => row.rowid ≠ rowid
      ({ index with rowidByAccount, accountFts, accounts }, .ok ())

/-! ## Searching -/

/-- `account_fts f JOIN accounts a ON a.rowid = f.rowid`. -/
def joined (index : SearchIndex) : List (FtsRow × AccountsRow) :=
  index.accountFts.flatMap fun fts =>
    (index.accounts.filter fun account => account.rowid = fts.rowid).map fun account =>
      (fts, account)

end SearchIndex

/-- `ORDER BY updated_at DESC, rowid DESC`. -/
def Recent (first second : AccountsRow) : Prop :=
  second.updatedAt < first.updatedAt ∨
    second.updatedAt = first.updatedAt ∧ second.rowid ≤ first.rowid

instance : DecidableRel Recent := fun _ _ => inferInstanceAs (Decidable (_ ∨ _ ∧ _))

/-- `ORDER BY bm25(account_fts), a.updated_at DESC, a.rowid DESC`. -/
def Ranked (relevance : FtsRow → Int) (first second : FtsRow × AccountsRow) : Prop :=
  relevance first.1 < relevance second.1 ∨
    relevance first.1 = relevance second.1 ∧ Recent first.2 second.2

instance (relevance : FtsRow → Int) : DecidableRel (Ranked relevance) :=
  fun _ _ => inferInstanceAs (Decidable (_ ∨ _ ∧ _))

/-- `collect_rows`. -/
def collectRows : List AccountsRow → Except StoreError (List (AccountId × Int))
  | [] => .ok []
  | row :: rows =>
      if sized : row.accountId.length = accountIdLen then do
        let rest ← collectRows rows
        return (⟨row.accountId.toArray, by simpa using sized⟩, row.updatedAt) :: rest
      else
        .error (.corrupted "search index account_id not 32 bytes")

section

variable (tools : SearchTools) (bm25 : List FtsRow → Text → FtsRow → Int)

/-- `SearchIndex::search`.  A query that does not read as quoted phrases is an error. -/
def SearchIndex.search (index : SearchIndex) (rawQuery : Text) :
    Except StoreError (List (AccountId × Int)) :=
  match sanitiseQuery tools rawQuery with
  | .empty => collectRows ((index.accounts.insertionSort Recent).take accountSearchResultCap)
  | .fts expr =>
      match phrases expr with
      | none => .error .sqlite
      | some phrases =>
          let rows := index.joined.filter fun row => phrasesMatch phrases row.1.columns
          let ranked := rows.insertionSort (Ranked (bm25 index.accountFts expr))
          collectRows ((ranked.take accountSearchResultCap).map Prod.snd)
  | .like tokens =>
      let rows := index.joined.filter fun row => tokensLike tokens row.1.columns
      let sorted := (rows.map Prod.snd).insertionSort Recent
      collectRows (sorted.take accountSearchResultCap)

end

/-! ## What is indexed -/

/-- A write to the index. -/
inductive IndexCall where
  | insert (accountId : AccountId) (updatedAt : Int) (projection : SearchProjection)
  | update (accountId : AccountId) (updatedAt : Int) (projection : SearchProjection)
  | remove (accountId : AccountId)

def IndexCall.run (index : SearchIndex) : IndexCall → SearchIndex × Except StoreError Unit
  | .insert accountId updatedAt projection => index.insert accountId updatedAt projection
  | .update accountId updatedAt projection => index.update accountId updatedAt projection
  | .remove accountId => index.remove accountId

/-- The indexed accounts, each with the time and the projection of its latest write. -/
abbrev Indexed := AccountId → Option (Int × SearchProjection)

/-- What a write means for the indexed accounts. -/
def IndexCall.apply (indexed : Indexed) : IndexCall → Indexed
  | .insert accountId updatedAt projection
  | .update accountId updatedAt projection =>
      Function.update indexed accountId (some (updatedAt, projection))
  | .remove accountId => Function.update indexed accountId none

/-- An insert is of an account that is not indexed. -/
def IndexCall.Fresh (indexed : Indexed) : IndexCall → Prop
  | .insert accountId _ _ => indexed accountId = none
  | _ => True

/-- An account with its row number and its latest write. -/
structure Entry (index : SearchIndex) (indexed : Indexed) (accountId : AccountId) (rowid : Nat)
    (updatedAt : Int) (projection : SearchProjection) : Prop where
  rowid : index.rowidByAccount accountId = some rowid
  write : indexed accountId = some (updatedAt, projection)

/-- The tables hold one row each for the indexed accounts. -/
structure Mirrors (index : SearchIndex) (indexed : Indexed) : Prop where
  known : ∀ accountId, (index.rowidByAccount accountId).isSome = (indexed accountId).isSome
  below : ∀ accountId rowid, index.rowidByAccount accountId = some rowid →
    rowid < index.nextRowid
  injective : ∀ first second rowid, index.rowidByAccount first = some rowid →
    index.rowidByAccount second = some rowid → first = second
  accountRowids : (index.accounts.map AccountsRow.rowid).Nodup
  ftsRowids : (index.accountFts.map FtsRow.rowid).Nodup
  accounts : ∀ row, row ∈ index.accounts ↔ ∃ accountId rowid updatedAt projection,
    Entry index indexed accountId rowid updatedAt projection ∧
      row = ⟨rowid, accountId.toList, updatedAt⟩
  fts : ∀ row, row ∈ index.accountFts ↔ ∃ accountId rowid updatedAt projection,
    Entry index indexed accountId rowid updatedAt projection ∧ row = ftsRow rowid projection

section

variable {index index' : SearchIndex} {indexed : Indexed}
variable {accountId other : AccountId} {rowid rowid' : Nat} {updatedAt updatedAt' : Int}
variable {projection projection' : SearchProjection}

/-- The entries after a write to one account. -/
theorem entry_update_iff {slot : Option Nat} {write : Option (Int × SearchProjection)}
    (slots : index'.rowidByAccount = Function.update index.rowidByAccount accountId slot) :
    Entry index' (Function.update indexed accountId write) other rowid updatedAt projection ↔
      other = accountId ∧ slot = some rowid ∧ write = some (updatedAt, projection) ∨
        other ≠ accountId ∧ Entry index indexed other rowid updatedAt projection := by
  by_cases same : other = accountId
  · subst same
    constructor
    · intro entry
      have known := entry.rowid
      have latest := entry.write
      rw [slots, Function.update_self] at known
      rw [Function.update_self] at latest
      exact .inl ⟨rfl, known, latest⟩
    · rintro (⟨-, known, latest⟩ | ⟨different, -⟩)
      · refine ⟨?_, ?_⟩
        · rw [slots, Function.update_self, known]
        · rw [Function.update_self, latest]
      · exact absurd rfl different
  · constructor
    · intro entry
      have known := entry.rowid
      have latest := entry.write
      rw [slots, Function.update_of_ne same] at known
      rw [Function.update_of_ne same] at latest
      exact .inr ⟨same, known, latest⟩
    · rintro (⟨same', -⟩ | ⟨-, entry⟩)
      · exact absurd same' same
      · refine ⟨?_, ?_⟩
        · rw [slots, Function.update_of_ne same, entry.rowid]
        · rw [Function.update_of_ne same, entry.write]

namespace Mirrors

section

variable (mirrors : Mirrors index indexed)
include mirrors

/-- An account with a row number is indexed. -/
theorem entry_of_rowid (known : index.rowidByAccount accountId = some rowid) :
    ∃ updatedAt projection, Entry index indexed accountId rowid updatedAt projection := by
  have both := mirrors.known accountId
  rw [known] at both
  obtain ⟨⟨updatedAt, projection⟩, write⟩ := Option.isSome_iff_exists.mp both.symm
  exact ⟨updatedAt, projection, known, write⟩

theorem entry_of_write (write : indexed accountId = some (updatedAt, projection)) :
    ∃ rowid, Entry index indexed accountId rowid updatedAt projection := by
  have both := mirrors.known accountId
  rw [write] at both
  obtain ⟨rowid, known⟩ := Option.isSome_iff_exists.mp both
  exact ⟨rowid, known, write⟩

theorem account_below {row : AccountsRow} (member : row ∈ index.accounts) :
    row.rowid < index.nextRowid := by
  obtain ⟨_, _, _, _, entry, rfl⟩ := (mirrors.accounts row).mp member
  exact mirrors.below _ _ entry.rowid

theorem fts_below {row : FtsRow} (member : row ∈ index.accountFts) :
    row.rowid < index.nextRowid := by
  obtain ⟨_, _, _, _, entry, rfl⟩ := (mirrors.fts row).mp member
  exact mirrors.below _ _ entry.rowid

variable (updatedAt projection) in
/-- The next row number and an account that is not indexed are in neither table. -/
theorem insert_accepts (fresh : indexed accountId = none) :
    insertAccounts index.accounts ⟨index.nextRowid, accountId.toList, updatedAt⟩ =
        some (index.accounts ++ [⟨index.nextRowid, accountId.toList, updatedAt⟩]) ∧
      insertFts index.accountFts (ftsRow index.nextRowid projection) =
        some (index.accountFts ++ [ftsRow index.nextRowid projection]) := by
  constructor
  · rw [insertAccounts, if_neg]
    rw [List.any_eq_true]
    rintro ⟨row, member, taken⟩
    have below := mirrors.account_below member
    obtain ⟨found, _, _, _, entry, rfl⟩ := (mirrors.accounts row).mp member
    simp only [Bool.or_eq_true, decide_eq_true_eq] at taken
    rcases taken with sameRow | sameAccount
    · exact absurd sameRow (Nat.ne_of_lt below)
    · obtain rfl := Vector.toList_inj.mp sameAccount
      have write := entry.write
      rw [fresh] at write
      cases write
  · rw [insertFts, if_neg]
    rw [List.any_eq_true]
    rintro ⟨row, member, taken⟩
    exact absurd (of_decide_eq_true taken) (Nat.ne_of_lt (mirrors.fts_below member))

/-- A row is not the account's own exactly when it is another account's. -/
theorem others_iff {Row : Type} (table : AccountId → Nat → Int → SearchProjection → Row)
    (rowidOf : Row → Nat) (rowidOf_table : ∀ id rowid time shown,
      rowidOf (table id rowid time shown) = rowid) {rows : List Row}
    (exact : ∀ row, row ∈ rows ↔ ∃ id rowid time shown,
      Entry index indexed id rowid time shown ∧ row = table id rowid time shown) (row : Row) :
    (row ∈ rows ∧ ∀ own, index.rowidByAccount accountId = some own → rowidOf row ≠ own) ↔
      ∃ id rowid time shown, id ≠ accountId ∧ Entry index indexed id rowid time shown ∧
        row = table id rowid time shown := by
  rw [exact]
  constructor
  · rintro ⟨⟨id, rowid, time, shown, entry, rfl⟩, others⟩
    refine ⟨id, rowid, time, shown, ?_, entry, rfl⟩
    rintro rfl
    exact others rowid entry.rowid (rowidOf_table ..)
  · rintro ⟨id, rowid, time, shown, different, entry, rfl⟩
    refine ⟨⟨id, rowid, time, shown, entry, rfl⟩, ?_⟩
    intro own known same
    rw [rowidOf_table] at same
    subst same
    exact different (mirrors.injective id accountId rowid entry.rowid known)

/-- A write to one account leaves the rows of the others and stores its own. -/
theorem write (slot : Option Nat) {latest : Option (Int × SearchProjection)}
    (slots : index'.rowidByAccount = Function.update index.rowidByAccount accountId slot)
    (both : slot.isSome = latest.isSome) (grows : index.nextRowid ≤ index'.nextRowid)
    (own : ∀ rowid, slot = some rowid → rowid < index'.nextRowid ∧
      ∀ other, index.rowidByAccount other = some rowid → other = accountId)
    (accountRowids : (index'.accounts.map AccountsRow.rowid).Nodup)
    (ftsRowids : (index'.accountFts.map FtsRow.rowid).Nodup)
    (accounts : ∀ row, row ∈ index'.accounts ↔
      (∃ rowid updatedAt projection, slot = some rowid ∧ latest = some (updatedAt, projection) ∧
        row = ⟨rowid, accountId.toList, updatedAt⟩) ∨
      row ∈ index.accounts ∧
        ∀ own, index.rowidByAccount accountId = some own → row.rowid ≠ own)
    (fts : ∀ row, row ∈ index'.accountFts ↔
      (∃ rowid updatedAt projection, slot = some rowid ∧ latest = some (updatedAt, projection) ∧
        row = ftsRow rowid projection) ∨
      row ∈ index.accountFts ∧
        ∀ own, index.rowidByAccount accountId = some own → row.rowid ≠ own) :
    Mirrors index' (Function.update indexed accountId latest) where
  known other := by
    rw [slots]
    by_cases same : other = accountId
    · rw [same, Function.update_self, Function.update_self, both]
    · rw [Function.update_of_ne same, Function.update_of_ne same, mirrors.known]
  below other rowid known := by
    rw [slots] at known
    by_cases same : other = accountId
    · rw [same, Function.update_self] at known
      exact (own rowid known).1
    · rw [Function.update_of_ne same] at known
      exact Nat.lt_of_lt_of_le (mirrors.below other rowid known) grows
  injective first second rowid known known' := by
    rw [slots] at known known'
    by_cases same : first = accountId
    · by_cases same' : second = accountId
      · rw [same, same']
      · rw [same, Function.update_self] at known
        rw [Function.update_of_ne same'] at known'
        rw [same, (own rowid known).2 second known']
    · rw [Function.update_of_ne same] at known
      by_cases same' : second = accountId
      · rw [same', Function.update_self] at known'
        rw [same', (own rowid known').2 first known]
      · rw [Function.update_of_ne same'] at known'
        exact mirrors.injective first second rowid known known'
  accountRowids := accountRowids
  ftsRowids := ftsRowids
  accounts row := by
    rw [accounts, mirrors.others_iff (fun id rowid time _ => ⟨rowid, id.toList, time⟩)
      AccountsRow.rowid (fun _ _ _ _ => rfl) mirrors.accounts]
    simp only [entry_update_iff slots, or_and_right, exists_or]
    apply or_congr
    · constructor
      · rintro ⟨rowid, time, shown, known, written, rfl⟩
        exact ⟨accountId, rowid, time, shown, ⟨rfl, known, written⟩, rfl⟩
      · rintro ⟨_, rowid, time, shown, ⟨rfl, known, written⟩, rfl⟩
        exact ⟨rowid, time, shown, known, written, rfl⟩
    · simp only [and_assoc]
  fts row := by
    rw [fts, mirrors.others_iff (fun _ rowid _ shown => ftsRow rowid shown) FtsRow.rowid
      (fun _ _ _ _ => rfl) mirrors.fts]
    simp only [entry_update_iff slots, or_and_right, exists_or]
    apply or_congr
    · constructor
      · rintro ⟨rowid, time, shown, known, written, rfl⟩
        exact ⟨accountId, rowid, time, shown, ⟨rfl, known, written⟩, rfl⟩
      · rintro ⟨_, rowid, time, shown, ⟨rfl, known, written⟩, rfl⟩
        exact ⟨rowid, time, shown, known, written, rfl⟩
    · simp only [and_assoc]

theorem insert (fresh : indexed accountId = none) :
    (index.insert accountId updatedAt projection).2 = .ok () ∧
      Mirrors (index.insert accountId updatedAt projection).1
        (Function.update indexed accountId (some (updatedAt, projection))) := by
  obtain ⟨account, fts⟩ :=
    mirrors.insert_accepts updatedAt projection fresh
  have inserted : index.insert accountId updatedAt projection =
      (⟨index.accounts ++ [⟨index.nextRowid, accountId.toList, updatedAt⟩],
        index.accountFts ++ [ftsRow index.nextRowid projection], index.nextRowid + 1,
        Function.update index.rowidByAccount accountId (some index.nextRowid)⟩, .ok ()) := by
    simp only [SearchIndex.insert, account, fts]
  have unknown : index.rowidByAccount accountId = none := by
    have both := mirrors.known accountId
    rw [fresh] at both
    exact Option.isSome_eq_false_iff.mp both |> Option.isNone_iff_eq_none.mp
  rw [inserted]
  refine ⟨rfl, mirrors.write (some index.nextRowid) rfl rfl (Nat.le_succ _) ?_ ?_ ?_ ?_ ?_⟩
  · intro rowid next
    obtain rfl := Option.some.inj next
    refine ⟨Nat.lt_succ_self _, ?_⟩
    intro other known
    exact absurd (mirrors.below other _ known) (Nat.lt_irrefl _)
  · rw [List.map_append, List.nodup_append]
    refine ⟨mirrors.accountRowids, List.nodup_singleton _, ?_⟩
    intro rowid member new single
    obtain ⟨row, stored, rfl⟩ := List.mem_map.mp member
    rw [List.mem_singleton.mp single]
    exact Nat.ne_of_lt (mirrors.account_below stored)
  · rw [List.map_append, List.nodup_append]
    refine ⟨mirrors.ftsRowids, List.nodup_singleton _, ?_⟩
    intro rowid member new single
    obtain ⟨row, stored, rfl⟩ := List.mem_map.mp member
    rw [List.mem_singleton.mp single]
    exact Nat.ne_of_lt (mirrors.fts_below stored)
  · intro row
    simp only [List.mem_append, List.mem_singleton, unknown, Option.some.injEq, Prod.mk.injEq]
    rw [or_comm]
    apply or_congr
    · constructor
      · rintro rfl
        exact ⟨_, _, _, rfl, ⟨rfl, rfl⟩, rfl⟩
      · rintro ⟨_, _, _, rfl, ⟨rfl, rfl⟩, rfl⟩
        rfl
    · exact ⟨fun stored => ⟨stored, nofun⟩, And.left⟩
  · intro row
    simp only [List.mem_append, List.mem_singleton, unknown, Option.some.injEq, Prod.mk.injEq]
    rw [or_comm]
    apply or_congr
    · constructor
      · rintro rfl
        exact ⟨_, _, _, rfl, ⟨rfl, rfl⟩, rfl⟩
      · rintro ⟨_, _, _, rfl, ⟨rfl, rfl⟩, rfl⟩
        rfl
    · exact ⟨fun stored => ⟨stored, nofun⟩, And.left⟩

/-- The row of an account that is indexed already is written anew. -/
theorem update_known (known : index.rowidByAccount accountId = some rowid) :
    (index.update accountId updatedAt projection).2 = .ok () ∧
      Mirrors (index.update accountId updatedAt projection).1
        (Function.update indexed accountId (some (updatedAt, projection))) := by
  obtain ⟨time, shown, entry⟩ := mirrors.entry_of_rowid known
  have accepted : insertFts (index.accountFts.filter fun row => row.rowid ≠ rowid)
      (ftsRow rowid projection) =
        some ((index.accountFts.filter fun row => row.rowid ≠ rowid) ++
          [ftsRow rowid projection]) := by
    rw [insertFts, if_neg]
    rw [List.any_eq_true]
    rintro ⟨row, member, taken⟩
    exact of_decide_eq_true (List.mem_filter.mp member).2 (of_decide_eq_true taken)
  simp only [SearchIndex.update, known, accepted, true_and]
  refine mirrors.write (some rowid)
    (Function.update_eq_self_iff.mpr known.symm).symm rfl (Nat.le_refl _) ?_ ?_ ?_ ?_ ?_
  · intro own same
    obtain rfl := Option.some.inj same
    exact ⟨mirrors.below _ _ known, fun other found => mirrors.injective other _ _ found known⟩
  · rw [List.map_map]
    have unchanged : index.accounts.map (AccountsRow.rowid ∘ fun row =>
        if row.rowid = rowid then { row with updatedAt } else row) =
          index.accounts.map AccountsRow.rowid := by
      apply List.map_congr_left
      intro row _
      dsimp only [Function.comp_apply]
      split <;> rfl
    rw [unchanged]
    exact mirrors.accountRowids
  · rw [List.map_append, List.nodup_append]
    refine ⟨mirrors.ftsRowids.sublist (List.filter_sublist.map _), List.nodup_singleton _, ?_⟩
    intro found member new single
    obtain ⟨row, stored, rfl⟩ := List.mem_map.mp member
    rw [List.mem_singleton.mp single]
    exact of_decide_eq_true (List.mem_filter.mp stored).2
  · intro row
    simp only [List.mem_map, Option.some.injEq, Prod.mk.injEq, known, forall_eq']
    constructor
    · rintro ⟨old, stored, rfl⟩
      by_cases own : old.rowid = rowid
      · left
        obtain ⟨id, _, _, _, oldEntry, rfl⟩ := (mirrors.accounts old).mp stored
        dsimp only at own
        subst own
        obtain rfl := mirrors.injective id accountId _ oldEntry.rowid known
        rw [if_pos rfl]
        exact ⟨_, _, _, rfl, ⟨rfl, rfl⟩, rfl⟩
      · right
        rw [if_neg own]
        exact ⟨stored, own⟩
    · rintro (⟨_, _, _, rfl, ⟨rfl, rfl⟩, rfl⟩ | ⟨stored, own⟩)
      · refine ⟨⟨rowid, accountId.toList, time⟩, ?_, if_pos rfl⟩
        exact (mirrors.accounts _).mpr ⟨_, _, _, _, entry, rfl⟩
      · exact ⟨row, stored, if_neg own⟩
  · intro row
    simp only [List.mem_append, List.mem_filter, List.mem_singleton, Option.some.injEq,
      Prod.mk.injEq, known, forall_eq', decide_eq_true_eq]
    rw [or_comm]
    apply or_congr
    · constructor
      · rintro rfl
        exact ⟨_, _, _, rfl, ⟨rfl, rfl⟩, rfl⟩
      · rintro ⟨_, _, _, rfl, ⟨rfl, rfl⟩, rfl⟩
        rfl
    · rfl

theorem update :
    (index.update accountId updatedAt projection).2 = .ok () ∧
      Mirrors (index.update accountId updatedAt projection).1
        (Function.update indexed accountId (some (updatedAt, projection))) := by
  cases known : index.rowidByAccount accountId with
  | none =>
      have fresh : indexed accountId = none := by
        have both := mirrors.known accountId
        rw [known] at both
        exact Option.isNone_iff_eq_none.mp (Option.isSome_eq_false_iff.mp both.symm)
      rw [SearchIndex.update, known]
      exact mirrors.insert fresh
  | some rowid => exact mirrors.update_known known

theorem remove :
    (index.remove accountId).2 = .ok () ∧
      Mirrors (index.remove accountId).1 (Function.update indexed accountId none) := by
  cases known : index.rowidByAccount accountId with
  | none =>
      have absent : indexed accountId = none := by
        have both := mirrors.known accountId
        rw [known] at both
        exact Option.isNone_iff_eq_none.mp (Option.isSome_eq_false_iff.mp both.symm)
      simp only [SearchIndex.remove, known, true_and]
      rw [Function.update_eq_self_iff.mpr absent.symm]
      exact mirrors
  | some rowid =>
      simp only [SearchIndex.remove, known, true_and]
      refine mirrors.write none rfl rfl (Nat.le_refl _) nofun ?_ ?_ ?_ ?_
      · exact mirrors.accountRowids.sublist (List.filter_sublist.map _)
      · exact mirrors.ftsRowids.sublist (List.filter_sublist.map _)
      · intro row
        simp only [List.mem_filter, known, Option.some.injEq, forall_eq', decide_eq_true_eq,
          reduceCtorEq, false_and, exists_false, false_or]
      · intro row
        simp only [List.mem_filter, known, Option.some.injEq, forall_eq', decide_eq_true_eq,
          reduceCtorEq, false_and, exists_false, false_or]

/-- A write that is no second insert succeeds and keeps the tables in step. -/
theorem run {call : IndexCall} (fresh : call.Fresh indexed) :
    (call.run index).2 = .ok () ∧ Mirrors (call.run index).1 (call.apply indexed) := by
  cases call with
  | insert accountId updatedAt projection => exact mirrors.insert fresh
  | update accountId updatedAt projection => exact mirrors.update
  | remove accountId => exact mirrors.remove

end

end Mirrors

end

end Pangolin.Store.Search
