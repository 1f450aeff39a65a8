import Mathlib.Data.List.Nodup

/-!
# Finite maps

A finite map is a list of entries with different keys.  Looking a key up after a write and
after an eviction by predicate is said once here.
-/

universe u v

/-- Entries, no two of one key. -/
structure KeyMap (Key : Type u) (Value : Type v) where
  entries : List (Key × Value)
  unique : (entries.map Prod.fst).Nodup

namespace KeyMap

variable {Key : Type u} {Value : Type v} [DecidableEq Key]

def empty : KeyMap Key Value := ⟨[], List.nodup_nil⟩

/-- The number of entries. -/
def size (map : KeyMap Key Value) : Nat := map.entries.length

def get? (map : KeyMap Key Value) (key : Key) : Option Value :=
  (map.entries.find? fun entry => entry.1 = key).map Prod.snd

/-- Keep the entries whose value passes. -/
def retain (map : KeyMap Key Value) (keep : Value → Bool) : KeyMap Key Value where
  entries := map.entries.filter fun entry => keep entry.2
  unique := map.unique.sublist (List.filter_sublist.map _)

def set (map : KeyMap Key Value) (key : Key) (value : Value) : KeyMap Key Value where
  entries := (key, value) :: map.entries.filter fun entry => entry.1 ≠ key
  unique := by
    rw [List.map_cons, List.nodup_cons]
    refine ⟨?_, map.unique.sublist (List.filter_sublist.map _)⟩
    intro member
    obtain ⟨entry, kept, same⟩ := List.mem_map.mp member
    exact of_decide_eq_true (List.mem_filter.mp kept).2 same

variable {map : KeyMap Key Value} {key other : Key} {value : Value}

@[simp] theorem get?_empty : (empty : KeyMap Key Value).get? key = none := rfl

@[simp] theorem get?_set_self : (map.set key value).get? key = some value := by
  simp [get?, set]

theorem get?_set_of_ne (different : other ≠ key) :
    (map.set key value).get? other = map.get? other := by
  have skipped : ¬ key = other := different.symm
  rw [get?, get?, set, List.find?_cons_of_neg (by simpa using skipped), List.find?_filter]
  congr 2
  funext entry
  by_cases same : entry.1 = other
  · simp [same, different]
  · simp [same]

theorem get?_eq_some_iff : map.get? key = some value ↔ (key, value) ∈ map.entries := by
  obtain ⟨entries, unique⟩ := map
  induction entries with
  | nil => simp [get?]
  | cons entry entries ih =>
      rw [List.map_cons, List.nodup_cons] at unique
      have rest := ih unique.2
      rw [get?] at rest ⊢
      by_cases same : entry.1 = key
      · have fresh : ∀ other, (key, other) ∉ entries := by
          intro other member
          exact unique.1 (same ▸ List.mem_map_of_mem member)
        simp [← same, Prod.ext_iff, eq_comm (a := value)]
        intro member
        exact absurd (same ▸ member) (fresh value)
      · rw [List.find?_cons_of_neg (by simpa using same)]
        simp only [List.mem_cons, rest, Prod.ext_iff, Ne.symm same, false_and, false_or]

/-- An entry is looked up after an eviction when it passes. -/
theorem get?_retain (keep : Value → Bool) :
    (map.retain keep).get? key = (map.get? key).filter keep := by
  apply Option.ext
  intro value
  rw [get?_eq_some_iff, Option.filter_eq_some_iff, get?_eq_some_iff]
  exact List.mem_filter

end KeyMap
