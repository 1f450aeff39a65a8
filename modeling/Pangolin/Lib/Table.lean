import Mathlib.Data.List.Basic
import Mathlib.Data.List.Nodup

/-!
# Keyed tables

A table is a list of rows; a key function plays the role of the primary key.  The
operations are those an SQL store offers on such a table: lookup, insertion that
replaces, insertion that ignores, insertion that refuses a duplicate, and deletion
by predicate.
-/

namespace Table

universe u v w

variable {Row : Type u} {Key : Type v} [DecidableEq Key]

/-- The row stored under `key`. -/
def lookup (keyOf : Row → Key) (rows : List Row) (key : Key) : Option Row :=
  rows.find? fun row => keyOf row = key

/-- `INSERT OR REPLACE`: the new row takes the place of any row under its key. -/
def upsert (keyOf : Row → Key) (rows : List Row) (row : Row) : List Row :=
  rows.filter (fun old => keyOf old ≠ keyOf row) ++ [row]

/-- `INSERT OR IGNORE`: a row already stored under the key stays. -/
def insertIgnore (keyOf : Row → Key) (rows : List Row) (row : Row) : List Row :=
  if rows.any fun old => keyOf old = keyOf row then rows else rows ++ [row]

/-- `INSERT`: refused when the primary key is taken. -/
def insert? (keyOf : Row → Key) (rows : List Row) (row : Row) : Option (List Row) :=
  if rows.any fun old => keyOf old = keyOf row then none else some (rows ++ [row])

variable {keyOf : Row → Key} {rows rows' : List Row} {row : Row} {key : Key}

theorem mem_of_lookup (found : lookup keyOf rows key = some row) : row ∈ rows :=
  List.mem_of_find?_eq_some found

theorem key_of_lookup (found : lookup keyOf rows key = some row) : keyOf row = key := by
  simpa using List.find?_some found

/-- With unique keys, membership determines the lookup. -/
theorem lookup_eq_some_of_mem (keyOf : Row → Key) (unique : (rows.map keyOf).Nodup)
    (member : row ∈ rows) :
    lookup keyOf rows (keyOf row) = some row := by
  induction rows with
  | nil => cases member
  | cons head tail ih =>
      rw [List.map_cons, List.nodup_cons] at unique
      rcases List.mem_cons.mp member with rfl | inTail
      · simp [lookup]
      · have different : keyOf head ≠ keyOf row := by
          intro same
          exact unique.1 (same ▸ List.mem_map_of_mem inTail)
        simpa [lookup, List.find?_cons, different] using ih unique.2 inTail

theorem lookup_eq_none_iff :
    lookup keyOf rows key = none ↔ ∀ row ∈ rows, keyOf row ≠ key := by
  simp [lookup]

@[simp] theorem mem_upsert (candidate : Row) :
    candidate ∈ upsert keyOf rows row ↔
      (candidate ∈ rows ∧ keyOf candidate ≠ keyOf row) ∨ candidate = row := by
  simp [upsert]

/-- After replacing a row, its key finds it and every other key finds what it found. -/
theorem lookup_upsert (keyOf : Row → Key) (rows : List Row) (row : Row) (key : Key) :
    lookup keyOf (upsert keyOf rows row) key =
      if key = keyOf row then some row else lookup keyOf rows key := by
  unfold lookup upsert
  rw [List.find?_append, List.find?_filter]
  by_cases same : key = keyOf row
  · subst same
    have absent : rows.find? (fun _ => false) = none := by simp
    simp [absent]
  · have unaffected : ∀ old, decide (decide (keyOf old ≠ keyOf row) = true ∧
        decide (keyOf old = key) = true) = decide (keyOf old = key) := by
      intro old
      by_cases found : keyOf old = key
      · simp [found, same]
      · simp [found]
    have other : [row].find? (fun old => decide (keyOf old = key)) = none := by
      simpa using fun equal => same equal.symm
    simp only [unaffected, if_neg same, other, Option.or_none]

/-- Rewriting rows without touching their keys rewrites what a lookup finds. -/
theorem lookup_map (rows : List Row) (key : Key) {change : Row → Row}
    (sameKey : ∀ row, keyOf (change row) = keyOf row) :
    lookup keyOf (rows.map change) key = (lookup keyOf rows key).map change := by
  unfold lookup
  rw [List.find?_map]
  have same : ((fun row => decide (keyOf row = key)) ∘ change) =
      fun row => decide (keyOf row = key) := by
    funext row
    simp [sameKey]
  rw [same]

/-- A row appended under a fresh key. -/
theorem lookup_append_singleton (rows : List Row) (row : Row) (key : Key)
    (fresh : ∀ old ∈ rows, keyOf old ≠ keyOf row) :
    lookup keyOf (rows ++ [row]) key =
      if key = keyOf row then some row else lookup keyOf rows key := by
  unfold lookup
  rw [List.find?_append]
  by_cases same : key = keyOf row
  · subst same
    have absent : rows.find? (fun old => decide (keyOf old = keyOf row)) = none := by
      simpa using fresh
    simp [absent]
  · have other : [row].find? (fun old => decide (keyOf old = key)) = none := by
      simpa using fun equal => same equal.symm
    simp [same, other]

/-- Replacing a row keeps the primary key unique. -/
theorem nodup_upsert (unique : (rows.map keyOf).Nodup) :
    ((upsert keyOf rows row).map keyOf).Nodup := by
  rw [upsert, List.map_append, List.map_singleton]
  refine List.Nodup.append (unique.sublist (List.filter_sublist.map _))
    (List.nodup_singleton _) ?_
  intro key inOld inNew
  obtain ⟨old, member, rfl⟩ := List.mem_map.mp inOld
  simp only [ne_eq, decide_not, List.mem_filter, Bool.not_eq_eq_eq_not, Bool.not_true,
    decide_eq_false_iff_not] at member
  exact member.2 (List.mem_singleton.mp inNew)

/-- Writing rows under distinct fresh keys appends them. -/
theorem foldl_upsert {Item : Type w} (keyOf : Row → Key) (rows : List Row)
    (build : Item → Row) (items : List Item)
    (unique : ((items.map build).map keyOf).Nodup)
    (fresh : ∀ item ∈ items, ∀ old ∈ rows, keyOf old ≠ keyOf (build item)) :
    items.foldl (fun rows item => upsert keyOf rows (build item)) rows =
      rows ++ items.map build := by
  induction items generalizing rows with
  | nil => simp
  | cons item items ih =>
      rw [List.map_cons, List.map_cons, List.nodup_cons] at unique
      have first : upsert keyOf rows (build item) = rows ++ [build item] := by
        rw [upsert, List.filter_eq_self.mpr]
        intro old member
        simpa using fresh item List.mem_cons_self old member
      rw [List.foldl_cons, first, ih _ unique.2, List.append_assoc, List.map_cons,
        List.singleton_append]
      intro later laterMember old oldMember same
      rcases List.mem_append.mp oldMember with inRows | isFirst
      · exact fresh later (List.mem_cons_of_mem _ laterMember) old inRows same
      · rw [List.mem_singleton] at isFirst
        subst isFirst
        exact unique.1 (same ▸ List.mem_map_of_mem (List.mem_map_of_mem laterMember))

/-- What a successful `INSERT` did. -/
theorem insert?_eq_some (inserted : insert? keyOf rows row = some rows') :
    (∀ old ∈ rows, keyOf old ≠ keyOf row) ∧ rows' = rows ++ [row] := by
  unfold insert? at inserted
  split at inserted
  · cases inserted
  · next absent =>
      refine ⟨?_, (Option.some.inj inserted).symm⟩
      intro old member same
      exact absent (List.any_eq_true.mpr ⟨old, member, by simpa using same⟩)

end Table
