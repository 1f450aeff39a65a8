import Pangolin.Core.Pwgen
import Mathlib.Data.Fintype.Card

/-!
# How often each password is drawn

A password comes from as many sequences of indices as there are permutations that put one
character of each class onto the slot seeded for the class.  Their number is the product of
the classes' counts in the password times a factorial, so that all passwords are drawn
equally often only when there is one class.
-/

namespace Pangolin.Core

open Shuffle

/-- The number of sequences of indices that make the password. -/
noncomputable def PwgenPolicy.multiplicity (policy : PwgenPolicy) (password : String) : Nat :=
  Nat.card { draws : List Nat // generate nextDraw policy draws = some (.ok password, []) }

/-- The passwords the policy allows are drawn equally often, and no other string is drawn. -/
def PwgenPolicy.Uniform (policy : PwgenPolicy) : Prop :=
  (∃ count, ∀ password, policy.Allows password → policy.multiplicity password = count) ∧
    ∀ password, ¬ policy.Allows password → policy.multiplicity password = 0

/-! ## Picks -/

theorem exists_picks {alphabets : List (List Char)} {word : List Char}
    (members : List.Forall₂ (· ∈ ·) word alphabets) :
    ∃ picks, InBounds picks (alphabets.map List.length) ∧ picked alphabets picks = word := by
  induction members with
  | nil => exact ⟨[], .nil, rfl⟩
  | cons member _ ih =>
      obtain ⟨picks, fit, rfl⟩ := ih
      obtain ⟨pick, bound, rfl⟩ := List.mem_iff_getElem.mp member
      refine ⟨pick :: picks, .cons bound fit, congrArg (· :: _) ?_⟩
      change List.getD _ pick ' ' = _
      rw [List.getD_eq_getElem?_getD, List.getElem?_eq_getElem bound, Option.getD_some]

/-- In alphabets without repetitions the picks can be read off the characters. -/
theorem picked_injective {alphabets : List (List Char)} (nodup : ∀ chars ∈ alphabets, chars.Nodup)
    {picks picks' : List Nat} (fit : InBounds picks (alphabets.map List.length))
    (fit' : InBounds picks' (alphabets.map List.length))
    (same : picked alphabets picks = picked alphabets picks') : picks = picks' := by
  induction alphabets generalizing picks picks' with
  | nil =>
      cases fit
      cases fit'
      rfl
  | cons chars alphabets ih =>
      rw [List.map_cons, InBounds, List.forall₂_cons_right_iff] at fit fit'
      obtain ⟨pick, later, bound, rest, rfl⟩ := fit
      obtain ⟨pick', later', bound', rest', rfl⟩ := fit'
      simp only [picked, List.zipWith_cons_cons, List.cons.injEq, List.getD_eq_getElem?_getD,
        List.getElem?_eq_getElem bound, List.getElem?_eq_getElem bound', Option.getD_some] at same
      have distinct := nodup chars List.mem_cons_self
      have first : pick = pick' := (distinct.getElem_inj_iff).mp same.1
      have others := ih (fun other member => nodup other (List.mem_cons_of_mem _ member))
        rest rest' same.2
      rw [first, others]

/-! ## The alphabets -/

namespace PwgenPolicy

theorem nodup_classes {policy : PwgenPolicy} {chars : List Char} (ofClass : chars ∈ policy.classes) :
    chars.Nodup := by
  have sources : ∀ source ∈ [upper, lower, Core.digits, Core.symbols], source.Nodup := by decide
  obtain ⟨source, member, rfl⟩ := mem_classes ofClass
  rw [strip]
  split
  · exact (sources source member).filter _
  · exact sources source member

theorem mem_strip {policy : PwgenPolicy} {source : List Char} {char : Char}
    (member : char ∈ policy.strip source) : char ∈ source := by
  rw [strip] at member
  split at member
  · exact List.mem_of_mem_filter member
  · exact member

/-- No character is in two classes. -/
theorem disjoint_classes (policy : PwgenPolicy) : policy.classes.Pairwise List.Disjoint := by
  have apart : [upper, lower, Core.digits, Core.symbols].Pairwise
      fun left right => left.all (fun char => !right.contains char) = true := by decide
  have sources : [upper, lower, Core.digits, Core.symbols].Pairwise
      fun left right => ∀ char ∈ left, char ∉ right := by
    apply apart.imp
    intro left right apart char inLeft inRight
    have absent := List.all_eq_true.mp apart char inLeft
    rw [List.contains_iff_mem.mpr inRight] at absent
    cases absent
  have stripped : (([upper, lower, Core.digits, Core.symbols].map policy.strip).Pairwise
      List.Disjoint) := by
    refine List.Pairwise.map _ (fun left right apart => ?_) sources
    intro char inLeft inRight
    exact apart char (mem_strip inLeft) (mem_strip inRight)
  refine stripped.sublist ?_
  obtain ⟨_, uppercase, lowercase, digits, symbols, _⟩ := policy
  cases uppercase <;> cases lowercase <;> cases digits <;> cases symbols <;>
    simp [classes]

theorem get_disjoint (policy : PwgenPolicy) {index index' : Fin policy.classes.length}
    (apart : index ≠ index') :
    List.Disjoint (policy.classes.get index) (policy.classes.get index') := by
  have ordered := List.pairwise_iff_get.mp policy.disjoint_classes
  rcases Nat.lt_or_gt_of_ne (Fin.val_ne_of_ne apart) with before | after
  · exact ordered index index' before
  · exact (ordered index' index after).symm

theorem nodup_slotAlphabets {policy : PwgenPolicy} {chars : List Char}
    (alphabet : chars ∈ policy.slotAlphabets) : chars.Nodup := by
  rw [slotAlphabets, List.mem_append] at alphabet
  rcases alphabet with ofClass | filler
  · exact nodup_classes ofClass
  · rw [List.eq_of_mem_replicate filler, combined, List.nodup_flatten]
    exact ⟨fun chars ofClass => nodup_classes ofClass, policy.disjoint_classes⟩

end PwgenPolicy

/-! ## Draws as permutations -/

/-- The character at a slot of a password. -/
def charAt (password : String) (slot : Nat) : Char := password.toList.getD slot ' '

theorem getElem?_toList {password : String} {slot : Nat} (bound : slot < password.toList.length) :
    password.toList[slot]? = some (charAt password slot) := by
  rw [charAt, List.getD_eq_getElem?_getD, List.getElem?_eq_getElem bound, Option.getD_some]

section Password

variable {policy : PwgenPolicy} {password : String}

/-- The slots before the shuffle, read off the password through a permutation. -/
def unshuffled (policy : PwgenPolicy) (password : String)
    (moved : Equiv.Perm (Fin policy.length.toNat)) : List Char :=
  List.ofFn fun slot => charAt password (moved slot)

/-- The password is that of the draws exactly when the picked characters are its own, taken
back through the shuffle. -/
theorem drawn_eq_iff (valid : policy.validate = .ok ())
    (length_eq : password.toList.length = policy.length.toNat) {picks : List Nat}
    (pickFit : InBounds picks (policy.slotAlphabets.map List.length))
    (swaps : { swaps // InBounds swaps (bounds policy.length.toNat) }) :
    policy.drawn picks swaps.val = password ↔
      picked policy.slotAlphabets picks =
        unshuffled policy password (slotPermutation policy.length.toNat swaps).symm := by
  have size : (picked policy.slotAlphabets picks).length = policy.length.toNat := by
    rw [length_picked pickFit, PwgenPolicy.length_slotAlphabets valid]
  have drawnSize := (allows_drawn valid pickFit swaps.property).length_eq
  have read := fun slot : Fin policy.length.toNat =>
    getElem?_drawn valid pickFit swaps.property slot
  simp only [← slotPermutation_apply] at read
  constructor
  · intro made
    apply List.ext_getElem?
    intro slot
    by_cases bound : slot < policy.length.toNat
    · have here := read ((slotPermutation policy.length.toNat swaps).symm ⟨slot, bound⟩)
      rw [Equiv.apply_symm_apply, made, getElem?_toList (by rw [length_eq]; exact Fin.isLt _)]
        at here
      rw [← here, unshuffled, List.getElem?_ofFn, dif_pos bound]
    · rw [List.getElem?_eq_none (by omega), unshuffled,
        List.getElem?_eq_none (by rw [List.length_ofFn]; omega)]
  · intro same
    apply String.toList_injective
    apply List.ext_getElem?
    intro slot
    by_cases bound : slot < policy.length.toNat
    · rw [read ⟨slot, bound⟩, same, unshuffled, List.getElem?_ofFn, dif_pos (Fin.isLt _),
        Fin.eta, Equiv.symm_apply_apply, getElem?_toList (by omega)]
    · rw [List.getElem?_eq_none (by omega), List.getElem?_eq_none (by omega)]

/-- The permutations under which the password's characters fit the alphabets of their slots. -/
def Fits (policy : PwgenPolicy) (password : String)
    (moved : Equiv.Perm (Fin policy.length.toNat)) : Prop :=
  List.Forall₂ (· ∈ ·) (unshuffled policy password moved) policy.slotAlphabets

theorem multiplicity_eq_fits (valid : policy.validate = .ok ())
    (length_eq : password.toList.length = policy.length.toNat) :
    policy.multiplicity password =
      Nat.card { moved : Equiv.Perm (Fin policy.length.toNat) // Fits policy password moved } := by
  have swapsOf := fun moved : Equiv.Perm (Fin policy.length.toNat) =>
    (slotPermutation_bijective policy.length.toNat).2 moved.symm
  choose swaps ofPermutation using swapsOf
  have picksOf := fun moved : { moved // Fits policy password moved } =>
    exists_picks moved.property
  choose picks pickFit ofFits using picksOf
  have made : ∀ moved : { moved // Fits policy password moved },
      generate nextDraw policy (picks moved ++ (swaps moved.val).val) =
        some (.ok password, []) := by
    intro moved
    rw [generate_eq_some_iff valid]
    refine ⟨picks moved, (swaps moved.val).val, pickFit moved, (swaps moved.val).property,
      by simp, Eq.symm ?_⟩
    rw [drawn_eq_iff valid length_eq (pickFit moved), ofFits, ofPermutation, Equiv.symm_symm]
  refine (Nat.card_eq_of_bijective
    (fun moved => ⟨picks moved ++ (swaps moved.val).val, made moved⟩) ⟨?_, ?_⟩).symm
  · intro moved other same
    have lists := congrArg Subtype.val same
    have lengths : (picks moved).length = (picks other).length :=
      (pickFit moved).length_eq.trans (pickFit other).length_eq.symm
    have tails := (List.append_inj lists lengths).2
    have permutations := congrArg (slotPermutation policy.length.toNat) (Subtype.ext tails)
    rw [ofPermutation, ofPermutation] at permutations
    exact Subtype.ext (Equiv.symm_bijective.injective permutations)
  · rintro ⟨draws, run⟩
    obtain ⟨drawnPicks, drawnSwaps, drawnFit, swapFit, rfl, rfl⟩ :=
      (generate_eq_some_iff valid).mp run
    let moved := (slotPermutation policy.length.toNat ⟨drawnSwaps, swapFit⟩).symm
    have word := (drawn_eq_iff valid length_eq drawnFit ⟨drawnSwaps, swapFit⟩).mp rfl
    have fits : Fits policy (policy.drawn drawnPicks drawnSwaps) moved := by
      rw [Fits, ← word]
      exact picked_mem drawnFit
    refine ⟨⟨moved, fits⟩, Subtype.ext ?_⟩
    have sameSwaps : swaps moved = ⟨drawnSwaps, swapFit⟩ := by
      apply (slotPermutation_bijective policy.length.toNat).1
      rw [ofPermutation]
      exact Equiv.symm_symm _
    have samePicks : picks ⟨moved, fits⟩ = drawnPicks := by
      apply picked_injective (fun _ alphabet => PwgenPolicy.nodup_slotAlphabets alphabet)
        (pickFit _) drawnFit
      rw [ofFits, word]
    change picks ⟨moved, fits⟩ ++ (swaps moved).val = drawnPicks ++ (drawnSwaps ++ [])
    rw [samePicks, sameSwaps, List.append_nil]

/-! ## The count -/

/-- The slot seeded for a class. -/
def seedSlot (valid : policy.validate = .ok ()) :
    Fin policy.classes.length ↪ Fin policy.length.toNat :=
  Fin.castLEEmb (PwgenPolicy.classes_le_length valid)

/-- Of an allowed password only the characters on the seeded slots have to be looked at. -/
theorem fits_iff (valid : policy.validate = .ok ()) (allows : policy.Allows password)
    (moved : Equiv.Perm (Fin policy.length.toNat)) :
    Fits policy password moved ↔
      ∀ index, charAt password (moved (seedSlot valid index)) ∈ policy.classes.get index := by
  have few := PwgenPolicy.classes_le_length valid
  have size := PwgenPolicy.length_slotAlphabets valid
  rw [Fits, List.forall₂_iff_get]
  constructor
  · rintro ⟨-, members⟩ index
    have bound := index.isLt
    have here := members index (by rw [unshuffled, List.length_ofFn]; omega) (by omega)
    simp only [unshuffled, List.get_eq_getElem, List.getElem_ofFn, PwgenPolicy.slotAlphabets,
      List.getElem_append_left bound] at here
    exact here
  · intro seeds
    refine ⟨by rw [unshuffled, List.length_ofFn, size], fun slot bound bound' => ?_⟩
    have inSlots : slot < policy.length.toNat := by omega
    simp only [unshuffled, List.get_eq_getElem, List.getElem_ofFn, PwgenPolicy.slotAlphabets]
    by_cases seed : slot < policy.classes.length
    · rw [List.getElem_append_left seed]
      exact seeds ⟨slot, seed⟩
    · rw [List.getElem_append_right (by omega), List.getElem_replicate]
      apply allows.within
      have inside : (moved ⟨slot, inSlots⟩ : Nat) < password.toList.length := by
        rw [allows.length_eq]
        exact Fin.isLt _
      exact List.mem_of_getElem? (getElem?_toList inside)

/-- The number of characters of the password from the class. -/
def classCount (policy : PwgenPolicy) (password : String) (index : Fin policy.classes.length) :
    Nat :=
  password.toList.countP fun char => char ∈ policy.classes.get index

theorem card_positions {count : Nat} (length_eq : password.toList.length = count)
    (select : Char → Bool) :
    Nat.card { slot : Fin count // select (charAt password slot) } =
      password.toList.countP select := by
  subst length_eq
  have asGet : ∀ slot : Fin password.toList.length,
      charAt password slot = password.toList.get slot := by
    intro slot
    rw [charAt, List.getD_eq_getElem?_getD, List.getElem?_eq_getElem slot.isLt, Option.getD_some,
      List.get_eq_getElem]
  simp only [asGet]
  rw [Nat.card_eq_fintype_card, Fintype.card_subtype]
  calc (Finset.univ.filter fun slot => select (password.toList.get slot)).card
      = (List.finRange password.toList.length).countP
          fun slot => select (password.toList.get slot) := by
        simp [Fin.univ_def, Finset.card, List.countP_eq_length_filter]
    _ = ((List.finRange password.toList.length).map password.toList.get).countP select := by
        rw [List.countP_map]
        rfl
    _ = password.toList.countP select := by rw [List.map_get_finRange]

theorem multiplicity_eq (valid : policy.validate = .ok ()) (allows : policy.Allows password) :
    policy.multiplicity password =
      (∏ index, classCount policy password index) *
        (policy.length.toNat - policy.classes.length).factorial := by
  let targets : Fin policy.classes.length → Set (Fin policy.length.toNat) := fun index =>
    { slot | charAt password slot ∈ policy.classes.get index }
  have disjoint : Pairwise fun index index' => Disjoint (targets index) (targets index') := by
    intro index index' apart
    rw [Set.disjoint_left]
    intro slot member member'
    exact policy.get_disjoint apart member member'
  have counts : ∀ index, Nat.card (targets index) = classCount policy password index := by
    intro index
    rw [classCount, ← card_positions allows.length_eq]
    simp only [decide_eq_true_eq]
    rfl
  rw [multiplicity_eq_fits valid allows.length_eq,
    Nat.card_congr (Equiv.subtypeEquivRight (fits_iff valid allows))]
  have hitting := card_hitting (seedSlot valid) targets disjoint
  simp only [counts, Nat.card_fin] at hitting
  exact hitting

/-- No other string is made. -/
theorem multiplicity_eq_zero (valid : policy.validate = .ok ()) (refused : ¬ policy.Allows password) :
    policy.multiplicity password = 0 := by
  have none : IsEmpty
      { draws : List Nat // generate nextDraw policy draws = some (.ok password, []) } := by
    constructor
    rintro ⟨draws, run⟩
    obtain ⟨picks, swaps, pickFit, swapFit, -, rfl⟩ := (generate_eq_some_iff valid).mp run
    exact refused (allows_drawn valid pickFit swapFit)
  exact Nat.card_of_isEmpty

/-- With one class every character is of that class. -/
theorem classCount_of_one_class (one : policy.classes.length = 1) (allows : policy.Allows password)
    (index : Fin policy.classes.length) :
    classCount policy password index = policy.length.toNat := by
  rw [classCount, ← allows.length_eq, List.countP_eq_length]
  intro char member
  obtain ⟨chars, ofClass, within⟩ := List.mem_flatten.mp (allows.within char member)
  obtain ⟨slot, rfl⟩ := List.get_of_mem ofClass
  have same : slot = index := Fin.ext (by omega)
  rw [← same]
  exact decide_eq_true within

end Password

/-! ## Two classes -/

section TwoClasses

variable {policy : PwgenPolicy}

/-- The first character of a class. -/
def representative (policy : PwgenPolicy) (index : Fin policy.classes.length) : Char :=
  (policy.classes.get index).headD ' '

theorem representative_mem_iff (valid : policy.validate = .ok ())
    {index index' : Fin policy.classes.length} :
    representative policy index ∈ policy.classes.get index' ↔ index = index' := by
  have own : representative policy index ∈ policy.classes.get index := by
    have nonempty := PwgenPolicy.slotAlphabets_ne_nil valid
      (List.mem_append_left _ (List.get_mem policy.classes index))
    rw [representative]
    cases chars : policy.classes.get index with
    | nil => exact absurd chars nonempty
    | cons first rest => exact List.mem_cons_self
  constructor
  · intro other
    by_contra apart
    exact policy.get_disjoint apart own other
  · rintro rfl
    exact own

/-- One character of each class, after some more. -/
def sampleWord (policy : PwgenPolicy) (more : List (Fin policy.classes.length)) : String :=
  String.ofList ((more ++ List.finRange policy.classes.length).map (representative policy))

theorem classCount_sampleWord (valid : policy.validate = .ok ())
    (more : List (Fin policy.classes.length)) (index : Fin policy.classes.length) :
    classCount policy (sampleWord policy more) index = more.count index + 1 := by
  have once : (List.finRange policy.classes.length).count index = 1 :=
    List.count_eq_one_of_mem (List.nodup_finRange _) (List.mem_finRange index)
  rw [classCount, sampleWord, String.toList_ofList, List.countP_map, ← once, ← List.count_append,
    List.count]
  congr 1
  funext other
  simp only [Function.comp_apply, representative_mem_iff valid]
  exact (beq_eq_decide other index).symm

theorem allows_sampleWord (valid : policy.validate = .ok ())
    {more : List (Fin policy.classes.length)}
    (length_eq : more.length = policy.length.toNat - policy.classes.length) :
    policy.Allows (sampleWord policy more) where
  length_eq := by
    have few := PwgenPolicy.classes_le_length valid
    rw [sampleWord, String.toList_ofList, List.length_map, List.length_append,
      List.length_finRange]
    omega
  within := by
    intro char member
    rw [sampleWord, String.toList_ofList] at member
    obtain ⟨index, -, rfl⟩ := List.mem_map.mp member
    exact List.mem_flatten.mpr ⟨_, List.get_mem _ index, (representative_mem_iff valid).mpr rfl⟩
  one_of_each := by
    intro chars ofClass
    obtain ⟨index, rfl⟩ := List.get_of_mem ofClass
    refine ⟨representative policy index, ?_, (representative_mem_iff valid).mpr rfl⟩
    rw [sampleWord, String.toList_ofList]
    exact List.mem_map_of_mem (List.mem_append_right _ (List.mem_finRange index))

/-- The count of a sample made from two of the classes. -/
theorem multiplicity_sampleWord (valid : policy.validate = .ok ())
    {first second : Fin policy.classes.length} (apart : first ≠ second) (more less : Nat)
    (length_eq : more + less = policy.length.toNat - policy.classes.length) :
    policy.multiplicity
        (sampleWord policy (List.replicate more first ++ List.replicate less second)) =
      (more + 1) * (less + 1) *
        (policy.length.toNat - policy.classes.length).factorial := by
  have allows : policy.Allows
      (sampleWord policy (List.replicate more first ++ List.replicate less second)) :=
    allows_sampleWord valid (by simpa using length_eq)
  rw [multiplicity_eq valid allows]
  simp only [classCount_sampleWord valid, List.count_append, List.count_replicate, beq_iff_eq]
  rw [Fintype.prod_eq_mul first second apart]
  · simp [apart, apart.symm]
  · rintro index ⟨notFirst, notSecond⟩
    simp [notFirst.symm, notSecond.symm]

/-- A second class makes some passwords likelier than others. -/
theorem not_uniform_of_two_classes (valid : policy.validate = .ok ())
    (two : 2 ≤ policy.classes.length) : ¬ policy.Uniform := by
  rintro ⟨⟨count, equal⟩, -⟩
  let first : Fin policy.classes.length := ⟨0, by omega⟩
  let second : Fin policy.classes.length := ⟨1, by omega⟩
  have apart : first ≠ second := fun same => Nat.zero_ne_one (congrArg Fin.val same)
  have bounds := policy.validate_eq_ok_iff.mp valid
  have few := policy.enabledClassCount_le
  rw [← policy.length_classes] at few
  obtain ⟨rest, left⟩ : ∃ rest, policy.length.toNat - policy.classes.length = rest + 1 :=
    ⟨policy.length.toNat - policy.classes.length - 1, by omega⟩
  have lone := multiplicity_sampleWord valid apart (rest + 1) 0 (by omega)
  have shared := multiplicity_sampleWord valid apart rest 1 (by omega)
  rw [equal _ (allows_sampleWord valid (by simp [left]))] at lone shared
  have counts := Nat.eq_of_mul_eq_mul_right (Nat.factorial_pos _) (lone.symm.trans shared)
  omega

end TwoClasses

/-- The generator is uniform exactly for policies with one class. -/
theorem generate_uniform_iff (policy : PwgenPolicy) (valid : policy.validate = .ok ()) :
    policy.Uniform ↔ policy.enabledClassCount = 1 := by
  have positive := (policy.validate_eq_ok_iff.mp valid).1
  rw [← policy.length_classes] at positive ⊢
  constructor
  · intro uniform
    by_contra several
    exact not_uniform_of_two_classes valid (by omega) uniform
  · intro one
    refine ⟨⟨(∏ _ : Fin policy.classes.length, policy.length.toNat) *
      (policy.length.toNat - policy.classes.length).factorial, fun password allows => ?_⟩,
      fun password refused => multiplicity_eq_zero valid refused⟩
    rw [multiplicity_eq valid allows]
    simp only [classCount_of_one_class one allows]

/-- Eight lowercase letters. -/
def lettersOnly : PwgenPolicy := ⟨8, false, true, false, false, false⟩

theorem generate_uniform_lettersOnly : lettersOnly.validate = .ok () ∧ lettersOnly.Uniform :=
  ⟨by decide, (generate_uniform_iff lettersOnly (by decide)).mpr rfl⟩

/-- Eight lowercase letters and digits. -/
def lettersAndDigits : PwgenPolicy := ⟨8, false, true, true, false, false⟩

/-- A password with two digits is drawn more often than one with a single digit. -/
theorem generate_favours_digits :
    lettersAndDigits.validate = .ok () ∧
    (lettersAndDigits.Allows "aaaaaaa0" ∧ lettersAndDigits.multiplicity "aaaaaaa0" = 5040) ∧
    (lettersAndDigits.Allows "aaaaaa00" ∧ lettersAndDigits.multiplicity "aaaaaa00" = 8640) ∧
    ¬ lettersAndDigits.Uniform := by
  have valid : lettersAndDigits.validate = .ok () := by decide
  have single : lettersAndDigits.Allows "aaaaaaa0" :=
    .of_all (by decide) (by decide) (by decide)
  have double : lettersAndDigits.Allows "aaaaaa00" :=
    .of_all (by decide) (by decide) (by decide)
  have singleCount : lettersAndDigits.multiplicity "aaaaaaa0" = 5040 :=
    (multiplicity_eq valid single).trans (by decide)
  have doubleCount : lettersAndDigits.multiplicity "aaaaaa00" = 8640 :=
    (multiplicity_eq valid double).trans (by decide)
  refine ⟨valid, ⟨single, singleCount⟩, ⟨double, doubleCount⟩, ?_⟩
  rintro ⟨⟨count, equal⟩, -⟩
  have same := (equal _ single).trans (equal _ double).symm
  rw [singleCount, doubleCount] at same
  exact absurd same (by decide)

end Pangolin.Core
