import Pangolin.Lib.Cbor
import Pangolin.Lib.Metered

/-!
# CBOR items

The items of the format as a grammar over byte strings: a header, the bytes and the items it
announces, and for items without a length whatever stands before a break.  Definite items
end where they say: of two readings of the same bytes, one of which is definite, the items
are the same.
-/

namespace Cbor

open Reading

variable (codec : StreamCodec)

/-- The bytes of a header, which it is pulled from whatever follows them. -/
structure Head (header : Header) (taken : List UInt8) : Prop where
  nonempty : taken ≠ []
  pulls : ∀ rest, codec.pull (taken ++ rest) = some (header, rest)

variable {codec}

theorem Head.of_pull {bytes rest : List UInt8} {header : Header}
    (pulled : codec.pull bytes = some (header, rest)) :
    ∃ taken, bytes = taken ++ rest ∧ Head codec header taken := by
  obtain ⟨taken, nonempty, rfl, pulls⟩ := codec.pull_takes bytes header rest pulled
  exact ⟨taken, rfl, nonempty, pulls⟩

theorem Head.of_push {header : Header} (definite : header.Definite) :
    Head codec header (codec.push header) where
  nonempty := by
    intro empty
    -- Nothing is pulled without taking a byte.
    have pulled := codec.pull_push header [] definite
    rw [empty] at pulled
    obtain ⟨taken, nonempty, split, -⟩ := codec.pull_takes _ _ _ pulled
    exact nonempty (List.append_eq_nil_iff.mp split.symm).1
  pulls rest := codec.pull_push header rest definite

theorem Head.of_push_map {length : Nat} (small : length < 2 ^ 64) :
    Head codec (.map (some length)) (codec.push (.map (some length))) where
  nonempty := by
    intro empty
    have pulled := codec.pull_push_map length [] small
    rw [empty] at pulled
    obtain ⟨taken, nonempty, split, -⟩ := codec.pull_takes _ _ _ pulled
    exact nonempty (List.append_eq_nil_iff.mp split.symm).1
  pulls rest := codec.pull_push_map length rest small

/-- The bytes at the front of an input hold one header. -/
theorem Head.unique {header header' : Header} {taken taken' rest rest' : List UInt8}
    (head : Head codec header taken) (head' : Head codec header' taken')
    (same : taken ++ rest = taken' ++ rest') : header = header' ∧ taken = taken' ∧ rest = rest' := by
  have pulled := head.pulls rest
  rw [same, head'.pulls rest', Option.some.injEq] at pulled
  obtain ⟨sameHeader, sameRest⟩ := Prod.mk.inj pulled
  subst sameRest
  exact ⟨sameHeader.symm, List.append_cancel_right same, rfl⟩

/-- What a header announces: the bytes and the items that follow it. -/
def Header.body : Header → Option (Nat × Nat)
  | .positive _ | .negative _ | .float _ | .simple _ => some (0, 0)
  | .bytes (some length) | .text (some length) => some (length, 0)
  | .array (some length) => some (0, length)
  | .map (some length) => some (0, 2 * length)
  | .tag _ => some (0, 1)
  | _ => none

/-- The headers whose items run up to a break. -/
def Header.Open : Header → Prop
  | .bytes none | .text none | .array none | .map none => True
  | _ => False

theorem Header.Open.body_eq_none {header : Header} (unending : header.Open) :
    header.body = none := by
  match header, unending with
  | .bytes none, _ | .text none, _ | .array none, _ | .map none, _ => rfl

variable (codec)

/-- A number of items one after another. -/
inductive Items : Nat → List UInt8 → Prop
  | none : Items 0 []
  | definite {header : Header} {head payload rest : List UInt8} {inner count : Nat}
      (headed : Head codec header head) (body : header.body = some (payload.length, inner))
      (more : Items (inner + count) rest) : Items (count + 1) (head ++ (payload ++ rest))
  | upToBreak {header : Header} {head inside stop rest : List UInt8} {inner count : Nat}
      (headed : Head codec header head) (unending : header.Open) (held : Items inner inside)
      (stopped : Head codec .breakCode stop) (more : Items count rest) :
      Items (count + 1) (head ++ (inside ++ (stop ++ rest)))

/-- Items that all have a length. -/
inductive DefiniteItems : Nat → List UInt8 → Prop
  | none : DefiniteItems 0 []
  | item {header : Header} {head payload rest : List UInt8} {inner count : Nat}
      (headed : Head codec header head) (body : header.body = some (payload.length, inner))
      (more : DefiniteItems (inner + count) rest) :
      DefiniteItems (count + 1) (head ++ (payload ++ rest))

/-- A text, in one piece or in several. -/
inductive TextChunks : List UInt8 → List UInt8 → Prop
  | none : TextChunks [] []
  | more {piece pieces head rest : List UInt8}
      (headed : Head codec (.text (some piece.length)) head) (next : TextChunks pieces rest) :
      TextChunks (piece ++ pieces) (head ++ (piece ++ rest))

inductive TextItem (text : List UInt8) : List UInt8 → Prop
  | whole {head : List UInt8} (headed : Head codec (.text (some text.length)) head) :
      TextItem text (head ++ text)
  | chunked {head chunks stop : List UInt8} (headed : Head codec (.text none) head)
      (held : TextChunks codec text chunks) (stopped : Head codec .breakCode stop) :
      TextItem text (head ++ (chunks ++ stop))

variable {codec}

/-- Definite items are found again in whatever begins with them. -/
theorem DefiniteItems.unique {count : Nat} {taken taken' rest rest' : List UInt8}
    (items : DefiniteItems codec count taken) (items' : Items codec count taken')
    (same : taken ++ rest = taken' ++ rest') : taken = taken' := by
  induction items generalizing taken' rest' with
  | none =>
      cases items'
      rfl
  | @item header head payload others inner count headed body more ih =>
      cases items' with
      | @definite header' head' payload' others' inner' _ headed' body' more' =>
          simp only [List.append_assoc] at same
          obtain ⟨rfl, rfl, after⟩ := headed.unique headed' same
          obtain ⟨sized, rfl⟩ := Prod.mk.inj (Option.some.inj (body.symm.trans body'))
          obtain ⟨rfl, later⟩ := List.append_inj after sized
          rw [ih more' later]
      | upToBreak headed' unending _ _ _ =>
          simp only [List.append_assoc] at same
          obtain ⟨rfl, -, -⟩ := headed.unique headed' same
          rw [unending.body_eq_none] at body
          cases body

theorem DefiniteItems.items {count : Nat} {taken : List UInt8}
    (items : DefiniteItems codec count taken) : Items codec count taken := by
  induction items with
  | none => exact .none
  | item headed body _ ih => exact .definite headed body ih

theorem DefiniteItems.append {count count' : Nat} {taken taken' : List UInt8}
    (items : DefiniteItems codec count taken) (items' : DefiniteItems codec count' taken') :
    DefiniteItems codec (count + count') (taken ++ taken') := by
  induction items with
  | none => rwa [Nat.zero_add]
  | @item header head payload others inner count headed body more ih =>
      rw [List.append_assoc, List.append_assoc, Nat.add_right_comm]
      apply DefiniteItems.item headed body
      rwa [← Nat.add_assoc]

/-- A header without items after it, and its bytes, are one item. -/
theorem DefiniteItems.leaf {header : Header} {head payload : List UInt8}
    (headed : Head codec header head) (body : header.body = some (payload.length, 0)) :
    DefiniteItems codec 1 (head ++ payload) := by
  have nothing : DefiniteItems codec (0 + 0) [] := .none
  have item := DefiniteItems.item headed body nothing
  rwa [List.append_nil] at item

/-- A header and the items it announces are one item. -/
theorem DefiniteItems.parent {header : Header} {head others : List UInt8} {inner : Nat}
    (headed : Head codec header head) (body : header.body = some (0, inner))
    (held : DefiniteItems codec inner others) : DefiniteItems codec 1 (head ++ others) := by
  have inside : DefiniteItems codec (inner + 0) others := held
  change DefiniteItems codec (0 + 1) (head ++ ([] ++ others))
  exact .item headed body inside

/-! ## Grammars of items -/

/-- Whatever is spelled is a number of definite items. -/
def Holds (codec : StreamCodec) {α : Type} (count : Nat) (grammar : Grammar α) : Prop :=
  ∀ taken value, grammar.Spells taken value → DefiniteItems codec count taken

namespace Holds

variable {α β σ : Type}

theorem given (known : α → Prop) : Holds codec 0 (Grammar.given known) := by
  rintro taken value ⟨rfl, -⟩
  exact .none

theorem room (capacity size : Nat) : Holds codec 0 (Grammar.room capacity size) := by
  rintro taken value rfl
  exact .none

/-- There is nothing to hold. -/
theorem never (count : Nat) : Holds codec count (Grammar.never : Grammar α) := by
  rintro taken value ⟨-, impossible⟩
  exact impossible.elim

theorem followed {first : Grammar α} {next : α → Grammar β} {count count' : Nat}
    (one : Holds codec count first) (other : ∀ value, Holds codec count' (next value)) :
    Holds codec (count + count') (first.followed next) := by
  rintro taken value ⟨front, middle, back, rfl, spelled, spelledNext⟩
  exact (one _ _ spelled).append (other middle _ _ spelledNext)

theorem chain {item : σ → Grammar σ} {each : Nat} (holds : ∀ state, Holds codec each (item state))
    {count : Nat} {state last : σ} {taken : List UInt8}
    (spelled : Grammar.Chain item count state taken last) :
    DefiniteItems codec (count * each) taken := by
  induction spelled with
  | none => rw [Nat.zero_mul]; exact .none
  | @more count state middle last one others first _ ih =>
      rw [Nat.succ_mul, Nat.add_comm]
      exact (holds state _ _ first).append ih

theorem rounds {item : σ → Grammar σ} {each : Nat} (holds : ∀ state, Holds codec each (item state))
    (count : Nat) (state : σ) : Holds codec (count * each) (.rounds item count state) :=
  fun _ _ spelled => chain holds spelled

theorem listed {item : Grammar α} (holds : Holds codec 1 item) (count : Nat) :
    Holds codec count (.listed item count) := by
  have pushed : ∀ values : List α, Holds codec 1
      (item.followed fun value => Grammar.only (values ++ [value])) :=
    fun values => holds.followed fun value => given _
  have each := rounds pushed count []
  rwa [Nat.mul_one] at each

/-- The item of a chain after a number of items of the format. -/
theorem item_at {item : σ → Grammar σ} {each : Nat} (holds : ∀ state, Holds codec each (item state))
    {count place : Nat} {state last : σ} {taken rest front more : List UInt8}
    (spelled : Grammar.Chain item count state taken last) (inside : place < count)
    (items : Items codec (place * each) front) (same : taken ++ rest = front ++ more) :
    ∃ middle next one others, (item middle).Spells one next ∧ more = one ++ others := by
  obtain ⟨middle, next, before, one, after, rfl, earlier, here⟩ := spelled.split inside
  rw [List.append_assoc, List.append_assoc] at same
  obtain rfl := (chain holds earlier).unique items same
  exact ⟨middle, next, one, after ++ rest, here, (List.append_cancel_left same).symm⟩

end Holds

end Cbor
