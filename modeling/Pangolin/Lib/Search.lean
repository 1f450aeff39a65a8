import Mathlib.Data.List.Basic

/-!
# Searching a sorted list

Binary search over a list that is sorted by a strict order: it finds an entry exactly when
the list has it.  Bytes are ordered lexicographically; a list whose neighbours are in that
order is sorted.
-/

namespace BinarySearch

variable {α : Type}

section

variable [DecidableEq α] (less : α → α → Bool) (items : List α) (target : α)

/-- Whether the target is in the window from `low` up to `high`; each round halves it. -/
def searchIn : (rounds low high : Nat) → Bool
  | 0, _, _ => false
  | rounds + 1, low, high =>
      if low < high then
        let mid := low + (high - low) / 2
        match items[mid]? with
        | none => false
        | some entry =>
            if entry = target then true
            else if less entry target then searchIn rounds (mid + 1) high
            else searchIn rounds low mid
      else
        false

def binarySearch : Bool := searchIn less items target items.length 0 items.length

variable {less items target}

/-- What is found is an entry, sorted or not. -/
theorem mem_of_searchIn {rounds low high : Nat}
    (found : searchIn less items target rounds low high = true) : target ∈ items := by
  induction rounds generalizing low high with
  | zero => cases found
  | succ rounds ih =>
      unfold searchIn at found
      split at found
      · dsimp only at found
        split at found
        · cases found
        · next entry known =>
            split at found
            · next same =>
                rw [← same]
                exact List.mem_of_getElem? known
            · split at found
              · exact ih found
              · exact ih found
      · cases found

/-- An entry in the window of a sorted list is found. -/
theorem searchIn_of_getElem? (asymmetric : ∀ a b, less a b = true → less b a = false)
    (sorted : items.Pairwise fun a b => less a b = true) {rounds low high index : Nat}
    (after : low ≤ index) (before : index < high) (bounded : high ≤ items.length)
    (enough : high - low ≤ rounds) (here : items[index]? = some target) :
    searchIn less items target rounds low high = true := by
  induction rounds generalizing low high with
  | zero => omega
  | succ rounds ih =>
      have inside : low + (high - low) / 2 < items.length := by omega
      have ordered : ∀ {i j : Nat} (first : i < items.length) (second : j < items.length), i < j →
          less items[i] items[j] = true := fun first second small =>
        List.pairwise_iff_getElem.mp sorted _ _ first second small
      obtain ⟨within, rfl⟩ := List.getElem?_eq_some_iff.mp here
      rw [searchIn, if_pos (Nat.lt_of_le_of_lt after before)]
      dsimp only
      rw [List.getElem?_eq_getElem inside]
      dsimp only
      split
      · rfl
      · next differs =>
          -- The order against the middle entry says on which side the target is.
          split
          · next smaller =>
              apply ih _ before bounded (by omega)
              by_contra left
              rcases Nat.lt_or_eq_of_le (Nat.le_of_lt_succ (Nat.lt_of_not_le left)) with
                earlier | same
              · rw [asymmetric _ _ (ordered within inside earlier)] at smaller
                cases smaller
              · subst same
                exact differs rfl
          · next larger =>
              apply ih after _ (Nat.le_of_lt inside) (by omega)
              by_contra right
              rcases Nat.lt_or_eq_of_le (Nat.le_of_not_lt right) with later | same
              · exact larger (ordered inside within later)
              · subst same
                exact differs rfl

theorem binarySearch_iff (asymmetric : ∀ a b, less a b = true → less b a = false)
    (sorted : items.Pairwise fun a b => less a b = true) :
    binarySearch less items target = true ↔ target ∈ items := by
  constructor
  · exact mem_of_searchIn
  · intro member
    obtain ⟨index, here⟩ := List.mem_iff_getElem?.mp member
    obtain ⟨within, -⟩ := List.getElem?_eq_some_iff.mp here
    exact searchIn_of_getElem? asymmetric sorted (Nat.zero_le index) within (Nat.le_refl _)
      (Nat.sub_le _ _) here

end

/-! ## Byte strings -/

/-- The lexicographic order of byte strings. -/
def bytesLt : List UInt8 → List UInt8 → Bool
  | _, [] => false
  | [], _ :: _ => true
  | first :: bytes, first' :: bytes' =>
      Nat.blt first.toNat first'.toNat ||
        (Nat.beq first.toNat first'.toNat && bytesLt bytes bytes')

theorem bytesLt_cons {first first' : UInt8} {bytes bytes' : List UInt8} :
    bytesLt (first :: bytes) (first' :: bytes') = true ↔
      first.toNat < first'.toNat ∨ first.toNat = first'.toNat ∧ bytesLt bytes bytes' = true := by
  rw [bytesLt, Bool.or_eq_true, Bool.and_eq_true, Nat.blt_eq, Nat.beq_eq]

theorem bytesLt_trans {a b c : List UInt8} (first : bytesLt a b = true)
    (second : bytesLt b c = true) : bytesLt a c = true := by
  induction a generalizing b c with
  | nil =>
      cases c with
      | nil => cases b <;> cases second
      | cons byte c => rfl
  | cons x a ih =>
      cases b with
      | nil => cases first
      | cons y b =>
          cases c with
          | nil => cases second
          | cons z c =>
              rw [bytesLt_cons] at first second ⊢
              rcases first with less | ⟨same, rest⟩
              · rcases second with less' | ⟨same', -⟩
                · exact .inl (Nat.lt_trans less less')
                · exact .inl (same' ▸ less)
              · rcases second with less' | ⟨same', rest'⟩
                · exact .inl (same ▸ less')
                · exact .inr ⟨same.trans same', ih rest rest'⟩

theorem bytesLt_irrefl (a : List UInt8) : bytesLt a a = false := by
  induction a with
  | nil => rfl
  | cons x a ih =>
      by_contra less
      rcases bytesLt_cons.mp (Bool.not_eq_false _ ▸ less) with smaller | ⟨-, rest⟩
      · exact Nat.lt_irrefl _ smaller
      · rw [ih] at rest
        cases rest

theorem bytesLt_asymm {a b : List UInt8} (less : bytesLt a b = true) : bytesLt b a = false := by
  by_contra greater
  have loop := bytesLt_trans less (Bool.not_eq_false _ ▸ greater)
  rw [bytesLt_irrefl] at loop
  cases loop

/-- Each entry is below the next, by the bytes of a key. -/
def ascending (key : α → List UInt8) : List UInt8 → List α → Bool
  | _, [] => true
  | last, item :: items => bytesLt last (key item) && ascending key (key item) items

/-- A list whose first entries are in order, and whose other entries are from there on. -/
theorem ascending_of_split {key : α → List UInt8} {items : List α} {last : List UInt8} {item : α}
    (index : Nat) (here : items[index]? = some item)
    (front : ascending key last (items.take (index + 1)) = true)
    (back : ascending key (key item) (items.drop (index + 1)) = true) :
    ascending key last items = true := by
  induction items generalizing index last with
  | nil => cases here
  | cons first items ih =>
      rw [List.take_succ_cons, ascending, Bool.and_eq_true] at front
      rw [ascending, Bool.and_eq_true]
      constructor
      · exact front.1
      · cases index with
        | zero =>
            cases here
            exact back
        | succ index => exact ih index here front.2 back

/-- Neighbours in order make a sorted list. -/
theorem pairwise_of_ascending {key : α → List UInt8} {items : List α} {last : List UInt8}
    (ordered : ascending key last items = true) :
    (∀ item ∈ items, bytesLt last (key item) = true) ∧
      items.Pairwise fun a b => bytesLt (key a) (key b) = true := by
  induction items generalizing last with
  | nil => exact ⟨nofun, .nil⟩
  | cons item items ih =>
      rw [ascending, Bool.and_eq_true] at ordered
      obtain ⟨above, sorted⟩ := ih ordered.2
      constructor
      · intro other member
        rcases List.mem_cons.mp member with rfl | later
        · exact ordered.1
        · exact bytesLt_trans ordered.1 (above other later)
      · exact .cons above sorted

end BinarySearch
