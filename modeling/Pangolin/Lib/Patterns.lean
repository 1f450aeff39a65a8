import Mathlib.Data.List.Infix

/-!
# Text patterns of SQL

Two ways to ask a database for the texts that contain a given one: a `LIKE` pattern between
two wildcards, with the characters of the text escaped, and a full-text query of quoted
phrases, with the quotes of a phrase doubled.  Both find exactly the texts that contain it;
`LIKE` does not tell ASCII letters of either case apart.
-/

namespace Patterns

/-! ## ASCII letters -/

def isCapital (char : Char) : Bool := 'A' ≤ char && char ≤ 'Z'

/-- The small letter of an ASCII capital, and any other character itself. -/
def foldAscii (char : Char) : Char :=
  if isCapital char then Char.ofNat (char.toNat + 32) else char

theorem isCapital_foldAscii (char : Char) : isCapital (foldAscii char) = false := by
  have letters : ∀ letter : Fin 26, isCapital (Char.ofNat (letter + 97)) = false := by decide
  rw [foldAscii]
  split
  · next capital =>
      simp only [isCapital, Bool.and_eq_true, decide_eq_true_eq] at capital
      have low : 65 ≤ char.toNat := capital.1
      have high : char.toNat ≤ 90 := capital.2
      have folded := letters ⟨char.toNat - 65, by omega⟩
      rwa [show char.toNat - 65 + 97 = char.toNat + 32 by omega] at folded
  · next small => exact Bool.eq_false_iff.mpr small

/-- A text without ASCII capitals. -/
def Uncapitalised (text : List Char) : Prop := ∀ char ∈ text, isCapital char = false

theorem uncapitalised_nil : Uncapitalised [] := nofun

theorem Uncapitalised.map_foldAscii {text : List Char} (small : Uncapitalised text) :
    text.map foldAscii = text := by
  rw [List.map_congr_left (g := id), List.map_id]
  intro char member
  rw [foldAscii, small char member]
  rfl

/-! ## `LIKE` -/

/-- `text LIKE pattern ESCAPE escape`.  A pattern that ends in the escape character matches
nothing. -/
def like (escape : Char) : List Char → List Char → Bool
  | [], text => text.isEmpty
  | char :: pattern, text =>
      if char = escape then
        match pattern, text with
        | literal :: pattern, first :: rest =>
            foldAscii literal = foldAscii first && like escape pattern rest
        | _, _ => false
      else if char = '%' then
        text.tails.any fun rest => like escape pattern rest
      else
        match text with
        | first :: rest =>
            (char = '_' || foldAscii char = foldAscii first) && like escape pattern rest
        | [] => false

/-- The text with its wildcards and escape characters escaped. -/
def escaped (escape : Char) (text : List Char) : List Char :=
  text.flatMap fun char =>
    if char = '%' ∨ char = '_' ∨ char = escape then [escape, char] else [char]

section

variable {escape : Char} {token text rest : List Char}

/-- An escaped text matches itself, up to the case of ASCII letters. -/
theorem like_escaped_append :
    like escape (escaped escape token ++ rest) text = true ↔
      ∃ first tail, text = first ++ tail ∧ token.map foldAscii = first.map foldAscii ∧
        like escape rest tail = true := by
  induction token generalizing text with
  | nil =>
      constructor
      · intro matched
        exact ⟨[], text, rfl, rfl, matched⟩
      · rintro ⟨first, tail, rfl, same, matched⟩
        rw [List.map_nil, eq_comm, List.map_eq_nil_iff] at same
        subst same
        exact matched
  | cons char token ih =>
      -- Escaped or not, the character stands for itself.
      have step : like escape (escaped escape (char :: token) ++ rest) text =
          match text with
          | [] => false
          | first :: others => decide (foldAscii char = foldAscii first) &&
              like escape (escaped escape token ++ rest) others := by
        rw [escaped, List.flatMap_cons, List.append_assoc]
        by_cases special : char = '%' ∨ char = '_' ∨ char = escape
        · rw [if_pos special]
          cases text with
          | nil => simp [like]
          | cons first others => simp [like, escaped]
        · rw [if_neg special]
          obtain ⟨noPercent, noUnderscore, noEscape⟩ :=
            (by simpa only [not_or] using special : char ≠ '%' ∧ char ≠ '_' ∧ char ≠ escape)
          rw [List.singleton_append, like.eq_def]
          simp only [noPercent, noUnderscore, noEscape, if_false, decide_false, Bool.false_or]
          cases text with
          | nil => rfl
          | cons first others => rfl
      rw [step]
      cases text with
      | nil =>
          constructor
          · nofun
          · rintro ⟨first, tail, split, same, -⟩
            obtain ⟨rfl, rfl⟩ := List.append_eq_nil_iff.mp split.symm
            cases same
      | cons first others =>
          simp only [Bool.and_eq_true, decide_eq_true_eq, ih]
          constructor
          · rintro ⟨sameChar, front, tail, rfl, same, matched⟩
            exact ⟨first :: front, tail, rfl, by rw [List.map_cons, List.map_cons, sameChar, same],
              matched⟩
          · rintro ⟨front, tail, split, same, matched⟩
            cases front with
            | nil => cases same
            | cons head front =>
                obtain ⟨rfl, rfl⟩ := List.cons.inj split
                obtain ⟨sameChar, sameRest⟩ := List.cons.inj same
                exact ⟨sameChar, front, tail, rfl, sameRest, matched⟩

/-- Between two wildcards an escaped text matches what contains it. -/
theorem like_contains (noPercent : escape ≠ '%') :
    like escape ('%' :: (escaped escape token ++ ['%'])) text = true ↔
      token.map foldAscii <:+: text.map foldAscii := by
  have open_end : ∀ tail, like escape ['%'] tail = true := by
    intro tail
    simp only [like, noPercent.symm, if_false, if_true, List.any_eq_true, List.mem_tails]
    exact ⟨[], List.nil_suffix, rfl⟩
  rw [like.eq_def]
  simp only [noPercent.symm, if_false, if_true, List.any_eq_true]
  constructor
  · rintro ⟨suffix, member, matched⟩
    obtain ⟨before, rfl⟩ := (List.mem_tails _ _).mp member
    obtain ⟨first, tail, rfl, same, -⟩ := like_escaped_append.mp matched
    rw [same, List.map_append, List.map_append]
    exact ⟨before.map foldAscii, tail.map foldAscii, (List.append_assoc ..)⟩
  · rintro ⟨before, after, whole⟩
    rw [List.append_assoc] at whole
    obtain ⟨front, back, rfl, -, others⟩ := List.map_eq_append_iff.mp whole.symm
    obtain ⟨first, tail, rfl, same, -⟩ := List.map_eq_append_iff.mp others
    exact ⟨first ++ tail, (List.mem_tails _ _).mpr ⟨front, rfl⟩,
      like_escaped_append.mpr ⟨first, tail, rfl, same.symm, open_end tail⟩⟩

end

/-! ## Quoted phrases -/

/-- The quotation mark of phrases. -/
def quoteMark : Char := '\x22'

/-- The text in quotation marks, its own doubled. -/
def quoted (text : List Char) : List Char :=
  quoteMark :: ((text.flatMap fun char =>
    if char = quoteMark then [quoteMark, char] else [char]) ++ [quoteMark])

/-- Where the reader of a query stands: between phrases, in one, or after a quotation mark in
one, which ends it unless another follows. -/
inductive PhraseScan where
  | between (done : List (List Char))
  | inside (done : List (List Char)) (phrase : List Char)
  | marked (done : List (List Char)) (phrase : List Char)

def PhraseScan.step (char : Char) : PhraseScan → Option PhraseScan
  | .between done =>
      if char = ' ' then some (.between done)
      else if char = quoteMark then some (.inside done [])
      else none
  | .inside done phrase =>
      if char = quoteMark then some (.marked done phrase)
      else some (.inside done (phrase ++ [char]))
  | .marked done phrase =>
      if char = quoteMark then some (.inside done (phrase ++ [char]))
      else if char = ' ' then some (.between (done ++ [phrase]))
      else none

/-- The phrases of a query made of quoted phrases. -/
def readPhrases : List Char → PhraseScan → Option (List (List Char))
  | [], .between done => some done
  | [], .inside _ _ => none
  | [], .marked done phrase => some (done ++ [phrase])
  | char :: query, scan => (scan.step char).bind (readPhrases query)

def phrases (query : List Char) : Option (List (List Char)) := readPhrases query (.between [])

section

variable {done : List (List Char)}

theorem readPhrases_inside (text rest phrase : List Char) :
    readPhrases ((text.flatMap fun char =>
        if char = quoteMark then [quoteMark, char] else [char]) ++ rest) (.inside done phrase) =
      readPhrases rest (.inside done (phrase ++ text)) := by
  induction text generalizing phrase with
  | nil => simp
  | cons char text ih =>
      rw [List.flatMap_cons, List.append_assoc]
      by_cases mark : char = quoteMark
      · simp only [mark, if_true, List.cons_append, List.nil_append, readPhrases, PhraseScan.step,
          Option.bind_some, ih, List.append_assoc]
      · simp only [mark, if_false, List.cons_append, List.nil_append, readPhrases,
          PhraseScan.step, Option.bind_some, ih, List.append_assoc]

variable (done) in
theorem readPhrases_quoted (text rest : List Char) :
    readPhrases (quoted text ++ rest) (.between done) =
      readPhrases rest (.marked done text) := by
  have notSpace : quoteMark ≠ ' ' := by decide
  rw [quoted, List.cons_append, List.append_assoc, readPhrases]
  simp only [PhraseScan.step, notSpace, if_false, if_true, Option.bind_some]
  rw [readPhrases_inside]
  simp [readPhrases, PhraseScan.step]

/-- Quoted texts are read back. -/
theorem readPhrases_intercalate (texts : List (List Char)) :
    readPhrases ([' '].intercalate (texts.map quoted)) (.between done) = some (done ++ texts) := by
  have notMark : ¬ ' ' = quoteMark := by decide
  induction texts generalizing done with
  | nil => simp [readPhrases]
  | cons text texts ih =>
      cases texts with
      | nil =>
          have single := readPhrases_quoted done text []
          rw [List.append_nil] at single
          rw [List.map_singleton, List.intercalate_singleton, single, readPhrases]
      | cons next texts =>
          rw [List.map_cons, List.map_cons, List.intercalate_cons_cons, List.append_assoc,
            readPhrases_quoted]
          simp only [List.cons_append, List.nil_append, readPhrases, PhraseScan.step, notMark,
            if_false, if_true, Option.bind_some]
          rw [← List.map_cons, ih, List.append_assoc, List.singleton_append]

end

theorem phrases_intercalate (texts : List (List Char)) :
    phrases ([' '].intercalate (texts.map quoted)) = some texts :=
  readPhrases_intercalate texts

end Patterns
