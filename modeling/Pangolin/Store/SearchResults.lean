import Pangolin.Store.SearchIndex
import Mathlib.Data.Set.Card

/-!
# What a search returns

The full-text query, the scan and the query without tokens each select rows of the tables,
sort them and cut them off at the cap.  Whatever the order, the accounts returned are those
the query is about, and all of them when they are few enough.
-/

namespace Pangolin.Store.Search

open Patterns Utf8

/-! ## What a search finds -/

/-- The indexed accounts with a property of their projection. -/
def keeping (indexed : Indexed) (keeps : SearchProjection → Prop) : Set AccountId :=
  { accountId | ∃ updatedAt projection,
      indexed accountId = some (updatedAt, projection) ∧ keeps projection }

/-- The accounts with a property are found, each once and with its latest time, and all of
them unless they are more than the cap. -/
structure Finds (indexed : Indexed) (keeps : SearchProjection → Prop)
    (found : List (AccountId × Int)) : Prop where
  once : (found.map Prod.fst).Nodup
  sound : ∀ accountId updatedAt, (accountId, updatedAt) ∈ found →
    ∃ projection, indexed accountId = some (updatedAt, projection) ∧ keeps projection
  complete : (keeping indexed keeps).encard ≤ accountSearchResultCap →
    ∀ accountId updatedAt projection, indexed accountId = some (updatedAt, projection) →
      keeps projection → (accountId, updatedAt) ∈ found

theorem Finds.congr {indexed : Indexed} {keeps keeps' : SearchProjection → Prop}
    {found : List (AccountId × Int)} (finds : Finds indexed keeps found)
    (same : ∀ projection, keeps projection ↔ keeps' projection) : Finds indexed keeps' found := by
  obtain rfl : keeps = keeps' := funext fun projection => propext (same projection)
  exact finds

/-- Rows of accounts are collected as they are. -/
theorem collectRows_ok (rows : List AccountsRow)
    (ids : ∀ row ∈ rows, ∃ accountId : AccountId, row.accountId = accountId.toList) :
    ∃ found, collectRows rows = .ok found ∧
      found.map (fun pair => (pair.1.toList, pair.2)) =
        rows.map fun row => (row.accountId, row.updatedAt) := by
  induction rows with
  | nil => exact ⟨[], rfl, rfl⟩
  | cons row rows ih =>
      obtain ⟨accountId, same⟩ := ids row List.mem_cons_self
      have sized : row.accountId.length = accountIdLen := by simp [same]
      obtain ⟨found, collected, pairs⟩ :=
        ih fun other member => ids other (List.mem_cons_of_mem _ member)
      refine ⟨(⟨row.accountId.toArray, by simpa using sized⟩, row.updatedAt) :: found, ?_, ?_⟩
      · rw [collectRows, dif_pos sized, collected]
        rfl
      · rw [List.map_cons, List.map_cons, pairs]
        rfl

section

variable {index : SearchIndex} {indexed : Indexed} {keeps : SearchProjection → Prop}

/-- The rows of the accounts with a property, each once. -/
structure Rows (index : SearchIndex) (indexed : Indexed) (keeps : SearchProjection → Prop)
    (rows : List AccountsRow) : Prop where
  distinct : (rows.map AccountsRow.rowid).Nodup
  exact : ∀ row, row ∈ rows ↔ ∃ accountId rowid updatedAt projection,
    Entry index indexed accountId rowid updatedAt projection ∧ keeps projection ∧
      row = ⟨rowid, accountId.toList, updatedAt⟩

namespace Rows

variable {rows rows' : List AccountsRow} (held : Rows index indexed keeps rows)
include held

theorem perm (same : rows'.Perm rows) : Rows index indexed keeps rows' where
  distinct := (same.map _).nodup_iff.mpr held.distinct
  exact row := same.mem_iff.trans (held.exact row)

/-- Any of the rows, collected, are accounts with the property, each once. -/
theorem collect_sublist (part : rows'.Sublist rows) :
    ∃ found, collectRows rows' = .ok found ∧
      found.map (fun pair => (pair.1.toList, pair.2)) =
        rows'.map (fun row => (row.accountId, row.updatedAt)) ∧
      (found.map Prod.fst).Nodup ∧
      ∀ accountId updatedAt, (accountId, updatedAt) ∈ found →
        ∃ projection, indexed accountId = some (updatedAt, projection) ∧ keeps projection := by
  have known : ∀ row ∈ rows', ∃ accountId rowid updatedAt projection,
      Entry index indexed accountId rowid updatedAt projection ∧ keeps projection ∧
        row = ⟨rowid, accountId.toList, updatedAt⟩ :=
    fun row member => (held.exact row).mp (part.subset member)
  obtain ⟨found, collected, pairs⟩ := collectRows_ok rows' fun row member => by
    obtain ⟨accountId, _, _, _, -, -, rfl⟩ := known row member
    exact ⟨accountId, rfl⟩
  refine ⟨found, collected, pairs, ?_, ?_⟩
  · -- Rows of one account have one row number, and row numbers are distinct.
    have distinct : (rows'.map AccountsRow.rowid).Nodup := held.distinct.sublist (part.map _)
    have accounts : (rows'.map AccountsRow.accountId).Nodup := by
      rw [List.nodup_map_iff_inj_on distinct.of_map]
      intro first one second two same
      obtain ⟨id, rowid, _, _, entry, -, rfl⟩ := known first one
      obtain ⟨id', rowid', _, _, entry', -, rfl⟩ := known second two
      obtain rfl := Vector.toList_inj.mp same
      apply List.inj_on_of_nodup_map distinct one two
      exact Option.some.inj (entry.rowid.symm.trans entry'.rowid)
    have named := congrArg (List.map Prod.fst) pairs
    rw [List.map_map, List.map_map] at named
    have lists : ((found.map Prod.fst).map Vector.toList).Nodup := by
      rw [List.map_map]
      exact named ▸ accounts
    exact lists.of_map
  · intro accountId updatedAt member
    have listed := List.mem_map_of_mem (f := fun pair => (pair.1.toList, pair.2)) member
    rw [pairs, List.mem_map] at listed
    obtain ⟨row, stored, same⟩ := listed
    obtain ⟨id, _, time, projection, entry, kept, rfl⟩ := known row stored
    obtain ⟨sameId, rfl⟩ := Prod.mk.inj same
    obtain rfl := Vector.toList_inj.mp sameId
    exact ⟨projection, entry.write, kept⟩

/-- The first rows up to the cap are all of them when the accounts are no more. -/
theorem finds (mirrors : Mirrors index indexed) :
    ∃ found, collectRows (rows.take accountSearchResultCap) = .ok found ∧
      Finds indexed keeps found := by
  obtain ⟨found, collected, pairs, once, sound⟩ :=
    held.collect_sublist (List.take_sublist accountSearchResultCap rows)
  refine ⟨found, collected, once, sound, ?_⟩
  intro few accountId updatedAt projection write kept
  obtain ⟨every, -, everyPairs, everyOnce, everySound⟩ := held.collect_sublist (.refl rows)
  have inEvery : ∀ id time shown, indexed id = some (time, shown) → keeps shown →
      (id, time) ∈ every := by
    intro id time shown known keptShown
    obtain ⟨rowid, entry⟩ := mirrors.entry_of_write known
    have stored := (held.exact _).mpr ⟨id, rowid, time, shown, entry, keptShown, rfl⟩
    have listed := List.mem_map_of_mem (f := fun row => (row.accountId, row.updatedAt)) stored
    rw [← everyPairs, List.mem_map] at listed
    obtain ⟨⟨id', time'⟩, member, same⟩ := listed
    obtain ⟨sameId, rfl⟩ := Prod.mk.inj same
    obtain rfl := Vector.toList_inj.mp sameId
    exact member
  have whole : keeping indexed keeps = ((every.map Prod.fst).toFinset : Set AccountId) := by
    ext id
    simp only [keeping, Set.mem_ofPred_eq, List.coe_toFinset, List.mem_map]
    constructor
    · rintro ⟨time, shown, known, keptShown⟩
      exact ⟨_, inEvery id time shown known keptShown, rfl⟩
    · rintro ⟨⟨id', time⟩, member, rfl⟩
      obtain ⟨shown, known, keptShown⟩ := everySound id' time member
      exact ⟨time, shown, known, keptShown⟩
  rw [whole, Set.encard_coe_eq_coe_finsetCard, List.toFinset_card_of_nodup everyOnce,
    List.length_map] at few
  have short : rows.length ≤ accountSearchResultCap := by
    have lengths := congrArg List.length everyPairs
    rw [List.length_map, List.length_map] at lengths
    rw [← lengths]
    exact_mod_cast few
  rw [List.take_of_length_le short, ← everyPairs] at pairs
  have same : found = every := by
    apply List.map_injective_iff.mpr _ pairs
    intro first second equal
    obtain ⟨sameId, sameTime⟩ := Prod.mk.inj equal
    exact Prod.ext (Vector.toList_inj.mp sameId) sameTime
  rw [same]
  exact inEvery accountId updatedAt projection write kept

end Rows

variable (mirrors : Mirrors index indexed)
include mirrors

/-- The empty query asks for all rows of `accounts`. -/
theorem Mirrors.rows_accounts : Rows index indexed (fun _ => True) index.accounts where
  distinct := mirrors.accountRowids
  exact row := by
    rw [mirrors.accounts]
    simp only [true_and]

/-- A row of the join is the two rows of one account. -/
theorem Mirrors.mem_joined {pair : FtsRow × AccountsRow} :
    pair ∈ index.joined ↔ ∃ accountId rowid updatedAt projection,
      Entry index indexed accountId rowid updatedAt projection ∧
        pair = (ftsRow rowid projection, ⟨rowid, accountId.toList, updatedAt⟩) := by
  simp only [SearchIndex.joined, List.mem_flatMap, List.mem_map, List.mem_filter,
    decide_eq_true_eq]
  constructor
  · rintro ⟨fts, stored, account, ⟨stored', same⟩, rfl⟩
    obtain ⟨id, rowid, time, shown, entry, rfl⟩ := (mirrors.fts fts).mp stored
    obtain ⟨id', rowid', time', shown', entry', rfl⟩ := (mirrors.accounts account).mp stored'
    obtain rfl : rowid' = rowid := same
    obtain rfl := mirrors.injective id id' _ entry.rowid entry'.rowid
    have write := entry.write.symm.trans entry'.write
    obtain ⟨rfl, rfl⟩ := Prod.mk.inj (Option.some.inj write)
    exact ⟨id, rowid', time, shown, entry, rfl⟩
  · rintro ⟨id, rowid, time, shown, entry, rfl⟩
    exact ⟨_, (mirrors.fts _).mpr ⟨id, rowid, time, shown, entry, rfl⟩, _,
      ⟨(mirrors.accounts _).mpr ⟨id, rowid, time, shown, entry, rfl⟩, rfl⟩, rfl⟩

/-- The join has each row number once. -/
theorem Mirrors.nodup_joined : (index.joined.map fun pair => pair.2.rowid).Nodup := by
  have sameRow : ∀ fts : FtsRow, ((index.accounts.filter fun account =>
      account.rowid = fts.rowid).map fun account => (fts, account)).map
        (fun pair => pair.2.rowid) =
      (index.accounts.filter fun account => account.rowid = fts.rowid).map
        AccountsRow.rowid := by
    intro fts
    rw [List.map_map]
    rfl
  rw [SearchIndex.joined, List.map_flatMap, List.nodup_flatMap]
  constructor
  · intro fts _
    rw [sameRow]
    exact mirrors.accountRowids.sublist (List.filter_sublist.map _)
  · have distinct := mirrors.ftsRowids
    rw [List.Nodup, List.pairwise_map] at distinct
    refine distinct.imp ?_
    intro first second different
    rw [Function.onFun, sameRow, sameRow]
    intro rowid one two
    obtain ⟨account, stored, rfl⟩ := List.mem_map.mp one
    obtain ⟨account', stored', same⟩ := List.mem_map.mp two
    have left := of_decide_eq_true (List.mem_filter.mp stored).2
    have right := of_decide_eq_true (List.mem_filter.mp stored').2
    exact different (left.symm.trans (same.symm.trans right))

/-- Where a condition on the columns means a property of the projection, the rows it selects
from the join are those of the accounts with the property. -/
theorem Mirrors.rows_joined (condition : List Text → Bool)
    (means : ∀ projection, condition projection.columns = true ↔ keeps projection) :
    Rows index indexed keeps
      ((index.joined.filter fun row => condition row.1.columns).map Prod.snd) where
  distinct := by
    rw [List.map_map]
    exact mirrors.nodup_joined.sublist (List.filter_sublist.map _)
  exact row := by
    simp only [List.mem_map, List.mem_filter, mirrors.mem_joined]
    constructor
    · rintro ⟨_, ⟨⟨id, rowid, time, shown, entry, rfl⟩, chosen⟩, rfl⟩
      exact ⟨id, rowid, time, shown, entry, (means shown).mp chosen, rfl⟩
    · rintro ⟨id, rowid, time, shown, entry, kept, rfl⟩
      exact ⟨_, ⟨⟨id, rowid, time, shown, entry, rfl⟩, (means shown).mpr kept⟩, rfl⟩

/-- A search finds the accounts that its query is about, whichever way it takes. -/
theorem Mirrors.search (tools : SearchTools) (bm25 : List FtsRow → Text → FtsRow → Int)
    (query : Text) :
    ∃ found, index.search tools bm25 query = .ok found ∧
      Finds indexed (Qualifies tools query) found := by
  have tokens : ∀ projection, Qualifies tools query projection ↔
      ∀ token ∈ (queryTokens tools query).filter fun token => !token.isEmpty,
        Matches token projection :=
    fun _ => qualifies_iff_nonempty
  have lower : ∀ token ∈ (queryTokens tools query).filter fun token => !token.isEmpty,
      Uncapitalised token := by
    intro token member
    obtain ⟨raw, -, rfl⟩ := List.mem_map.mp (List.mem_of_mem_filter member)
    exact toLowercase_uncapitalised raw
  rw [SearchIndex.search, sanitiseQuery]
  generalize (queryTokens tools query).filter (fun token => !token.isEmpty) = kept at *
  dsimp only
  by_cases none_left : kept.isEmpty = true
  · rw [if_pos none_left]
    obtain ⟨found, collected, finds⟩ :=
      (mirrors.rows_accounts.perm (List.perm_insertionSort Recent _)).finds mirrors
    refine ⟨found, collected, finds.congr ?_⟩
    intro projection
    rw [tokens, List.isEmpty_iff.mp none_left]
    simp only [List.not_mem_nil, false_imp_iff, implies_true]
  · rw [if_neg none_left]
    by_cases short : (kept.any fun token => token.length < 3) = true
    · rw [if_pos short]
      have rows := mirrors.rows_joined (tokensLike kept) fun projection =>
        (tokensLike_iff lower).trans (tokens projection).symm
      exact (rows.perm (List.perm_insertionSort Recent _)).finds mirrors
    · rw [if_neg short]
      have long : ∀ token ∈ kept, 3 ≤ token.length := by
        intro token member
        by_contra few
        exact short (List.any_eq_true.mpr ⟨token, member, decide_eq_true (Nat.lt_of_not_le few)⟩)
      have rows := mirrors.rows_joined (phrasesMatch kept) fun projection =>
        (phrasesMatch_iff long).trans (tokens projection).symm
      have read : phrases ([' '].intercalate (kept.map ftsQuote)) = some kept :=
        phrases_intercalate kept
      simp only [read]
      rw [List.map_take]
      exact (rows.perm ((List.perm_insertionSort _ _).map Prod.snd)).finds mirrors

end

/-! ## Searching after a run of writes -/

/-- The other query has one more token. -/
def AddsToken (tools : SearchTools) (query token other : Text) : Prop :=
  ∀ found, found ∈ queryTokens tools other ↔ found ∈ queryTokens tools query ∨ found = token

theorem addsToken_char {tools : SearchTools} (query : Text) {char : Char}
    (visible : isWhitespace char = false) :
    AddsToken tools query (toLowercase tools.toTextTools [char]) (query ++ [' ', char]) := by
  have single : [char].splitOnP isWhitespace = [[char]] :=
    List.splitOnP_eq_singleton (by simpa using visible)
  intro found
  rw [queryTokens, splitWhitespace, List.splitOnP_append_cons query [char] (by decide), single,
    List.filter_append, List.map_append, List.mem_append]
  exact or_congr_right List.mem_singleton

section

variable (tools : SearchTools) (bm25 : List FtsRow → Text → FtsRow → Int)

end

/-! ## A small index -/

namespace SearchSample

/-- The text tools on ASCII texts. -/
def tools : SearchTools where
  nfc := id
  lowercaseMapping char := [foldAscii char]
  cased := Char.isAlpha
  caseIgnorable char := char = '.'
  parseUrl _ := none
  nfc_nfc _ := rfl
  nfc_trim_nfc _ := rfl
  trim_nfc_trim := trim_trim
  nfc_ne_nil _ nonempty := nonempty
  parseUrl_parseUrl := nofun
  hostStr _ := none
  lowercaseMapping_uncapitalised char other member := by
    rw [List.mem_singleton.mp member]
    exact isCapital_foldAscii char

def snapshot (displayName : String) : AccountSnapshot :=
  { displayName := encode displayName.toList
    username := []
    password := []
    url := []
    notes := []
    totpSecret := [] }

def projection (displayName : String) : SearchProjection :=
  .fromSnapshot tools (snapshot displayName)

/-- Two accounts, of which the first is renamed and the second removed. -/
def calls : List IndexCall :=
  [.insert (Vector.replicate _ 1) 5 (projection "Mail"),
    .insert (Vector.replicate _ 2) 6 (projection "100%_Sure"),
    .update (Vector.replicate _ 1) 7 (projection "Work 100%"), .remove (Vector.replicate _ 2)]

end SearchSample

end Pangolin.Store.Search
