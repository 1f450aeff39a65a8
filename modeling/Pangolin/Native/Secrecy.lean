import Pangolin.Native.Relay
import Pangolin.Native.Dispatch

/-!
# What the extension learns

Two desktops whose vaults differ in their passwords, in the clipboard and in the texts of their
errors write the same bytes to the browser, in every order of steps.
-/

namespace Pangolin.Native

open Framing Utf8

variable {S : Type}

/-! ## Vaults that differ in their secrets -/

/-- Two outcomes are the same but for the text of an error. -/
def SameVerdict {α : Type} (first second : Except DesktopError α) : Prop :=
  first.mapError mapDesktopError = second.mapError mapDesktopError

/-- States that are alike look the same to every call but a reveal, and a reveal of both is a text
or is the same failure; the calls leave them alike. -/
structure Hides (engine : Engine S) (alike : S → S → Prop) : Prop where
  isOpen {s s' : S} : alike s s' → engine.isOpen s = engine.isOpen s'
  isActive {s s' : S} : alike s s' → engine.isActive s = engine.isActive s'
  accountSearch {s s' : S} : alike s s' →
    alike (engine.accountSearch s).1 (engine.accountSearch s').1 ∧
      SameVerdict (engine.accountSearch s).2 (engine.accountSearch s').2
  accountGet {s s' : S} (accountId : List UInt8) : alike s s' →
    alike (engine.accountGet s accountId).1 (engine.accountGet s' accountId).1 ∧
      SameVerdict (engine.accountGet s accountId).2 (engine.accountGet s' accountId).2
  reveal {s s' : S} (accountId : List UInt8) : alike s s' →
    alike (engine.revealCurrentPassword s accountId).1
        (engine.revealCurrentPassword s' accountId).1 ∧
      SameVerdict
        ((engine.revealCurrentPassword s accountId).2.map fun bytes => (decode? bytes).isSome)
        ((engine.revealCurrentPassword s' accountId).2.map fun bytes => (decode? bytes).isSome)
  writeText {s s' : S} (text text' : Text) : alike s s' →
    alike (engine.writeText s text).1 (engine.writeText s' text').1 ∧
      SameVerdict (engine.writeText s text).2 (engine.writeText s' text').2

theorem SameVerdict.map {α β : Type} {first second : Except DesktopError α}
    (same : SameVerdict first second) (f : α → β) :
    SameVerdict (first.map f) (second.map f) := by
  unfold SameVerdict at same ⊢
  cases first with
  | error error =>
      cases second with
      | error other =>
          have label : mapDesktopError error = mapDesktopError other := Except.error.inj same
          exact congrArg Except.error label
      | ok value => cases same
  | ok value =>
      cases second with
      | error other => cases same
      | ok other => rw [Except.ok.inj same]

/-- Outcomes of two calls that are alike. -/
structure AlikeCalls {α : Type} (alike : S → S → Prop) (first second : S × Except DesktopError α) :
    Prop where
  state : alike first.1 second.1
  verdict : SameVerdict first.2 second.2

section

variable {engine : Engine S} {alike : S → S → Prop} {s s' : S}

theorem AlikeCalls.failed {α : Type} (same : alike s s') (error : DesktopError) :
    AlikeCalls (α := α) alike (s, .error error) (s', .error error) := ⟨same, rfl⟩

theorem Hides.vaultListAccounts (hides : Hides engine alike) (same : alike s s') :
    AlikeCalls alike (vaultListAccounts engine s) (vaultListAccounts engine s') := by
  unfold Native.vaultListAccounts
  rw [← hides.isOpen same]
  split
  · obtain ⟨after, verdict⟩ := hides.accountSearch same
    exact ⟨after, verdict.map _⟩
  · exact .failed same _

theorem Hides.vaultAccountShow (hides : Hides engine alike) (same : alike s s') (params : Json) :
    AlikeCalls alike (vaultAccountShow engine s params) (vaultAccountShow engine s' params) := by
  unfold Native.vaultAccountShow
  split
  · exact .failed same _
  · next accountId _ =>
      rw [← hides.isOpen same]
      split
      · obtain ⟨after, verdict⟩ := hides.accountGet accountId same
        exact ⟨after, verdict.map _⟩
      · exact .failed same _

theorem Hides.copyPasswordVia (hides : Hides engine alike) (same : alike s s')
    (accountId : List UInt8) :
    AlikeCalls alike (copyPasswordVia engine s accountId)
      (copyPasswordVia engine s' accountId) := by
  unfold Native.copyPasswordVia
  rw [← hides.isOpen same]
  split
  · obtain ⟨after, verdict⟩ := hides.reveal accountId same
    revert after verdict
    cases engine.revealCurrentPassword s accountId with
    | mk t revealed =>
        cases engine.revealCurrentPassword s' accountId with
        | mk t' revealed' =>
            intro after verdict
            cases revealed with
            | error error =>
                cases revealed' with
                | error error' => exact ⟨after, congrArg Except.error (Except.error.inj verdict)⟩
                | ok bytes' => cases verdict
            | ok bytes =>
                cases revealed' with
                | error error' => cases verdict
                | ok bytes' =>
                    have readable : (decode? bytes).isSome = (decode? bytes').isSome :=
                      Except.ok.inj verdict
                    cases read : decode? bytes with
                    | none =>
                        rw [read, Option.isSome_none] at readable
                        simp only [read, Option.isSome_eq_false_iff.mp readable.symm |>
                          Option.isNone_iff_eq_none.mp]
                        exact .failed after _
                    | some text =>
                        rw [read, Option.isSome_some] at readable
                        obtain ⟨text', read'⟩ := Option.isSome_iff_exists.mp readable.symm
                        simp only [read, read']
                        obtain ⟨written, verdict⟩ := hides.writeText text text' after
                        exact ⟨written, verdict⟩
  · exact .failed same _

theorem Hides.vaultCopyPassword (hides : Hides engine alike) (same : alike s s') (params : Json) :
    AlikeCalls alike (vaultCopyPassword engine s params) (vaultCopyPassword engine s' params) := by
  unfold Native.vaultCopyPassword
  split
  · exact .failed same _
  · next accountId _ =>
      obtain ⟨after, verdict⟩ := hides.copyPasswordVia same accountId
      exact ⟨after, verdict.map _⟩

/-- Outcomes that are alike make the same answer. -/
theorem AlikeCalls.respond {first second : S × Except DesktopError Json}
    (calls : AlikeCalls alike first second) (id : Json) :
    alike (respond id first).1 (respond id second).1 ∧
      (respond id first).2 = (respond id second).2 := by
  obtain ⟨t, outcome⟩ := first
  obtain ⟨t', outcome'⟩ := second
  have verdict : outcome.mapError mapDesktopError = outcome'.mapError mapDesktopError :=
    calls.verdict
  refine ⟨?_, ?_⟩
  · cases outcome <;> cases outcome' <;> exact calls.state
  · cases outcome with
    | error error =>
        cases outcome' with
        | error error' =>
            have label : mapDesktopError error = mapDesktopError error' := Except.error.inj verdict
            simp only [Native.respond, label]
        | ok value => cases verdict
    | ok value =>
        cases outcome' with
        | error error' => cases verdict
        | ok value' => exact congrArg (successResponse id) (Except.ok.inj verdict)

/-- The dispatcher answers the same to alike vaults. -/
theorem Hides.dispatch (hides : Hides engine alike) (same : alike s s') (request : Json) :
    alike (dispatch engine s request).1 (dispatch engine s' request).1 ∧
      (dispatch engine s request).2 = (dispatch engine s' request).2 := by
  unfold Native.dispatch
  dsimp only
  split
  · exact ⟨same, rfl⟩
  · split
    · exact ⟨same, rfl⟩
    · split_ifs
      · have status : sessionStatusValue engine s = sessionStatusValue engine s' := by
          rw [sessionStatusValue, sessionStatusValue, hides.isOpen same, hides.isActive same]
        rw [status]
        exact ⟨same, rfl⟩
      · exact (hides.vaultListAccounts same).respond _
      · exact (hides.vaultAccountShow same _).respond _
      · exact (hides.vaultCopyPassword same _).respond _
      · exact ⟨same, rfl⟩

theorem Hides.handleRequestInner (hides : Hides engine alike) (same : alike s s') (serde : Codec)
    (body : List UInt8) :
    alike (handleRequestInner engine serde s body).1 (handleRequestInner engine serde s' body).1 ∧
      (handleRequestInner engine serde s body).2 = (handleRequestInner engine serde s' body).2 := by
  unfold Native.handleRequestInner
  split
  · exact ⟨same, rfl⟩
  · next request _ =>
      obtain ⟨after, response⟩ := hides.dispatch same request
      exact ⟨after, congrArg serde.render response⟩

/-! ## Runs -/

/-- The same step, or two steps of the desktops' users that leave them alike. -/
inductive AlikeOps (alike : S → S → Prop) : Op S → Op S → Prop where
  | acts {s s' : S} : alike s s' → AlikeOps alike (.desktopActs s) (.desktopActs s')
  | same {op : Op S} : (∀ s, op ≠ .desktopActs s) → AlikeOps alike op op

/-- Two connections whose desktops are alike and that are the same otherwise. -/
structure AlikeBridges (alike : S → S → Prop) (bridge bridge' : Bridge S) : Prop where
  desktop : alike bridge.desktop bridge'.desktop
  rest : bridge' = { bridge with desktop := bridge'.desktop }

variable {libraries : Libraries} {source : TokenSource} {bridge bridge' : Bridge S}

theorem fail_desktop (bridge : Bridge S) (desktop : S) (error : HostError) :
    ({ bridge with desktop } : Bridge S).fail libraries error =
      { bridge.fail libraries error with desktop } ∧
    (bridge.fail libraries error).desktop = bridge.desktop := by
  unfold Bridge.fail
  split
  · exact ⟨rfl, rfl⟩
  · exact ⟨rfl, rfl⟩

theorem greet_desktop (bridge : Bridge S) (desktop : S) (connects : Bool) :
    ({ bridge with desktop } : Bridge S).greet libraries source connects =
      { bridge.greet libraries source connects with desktop } ∧
    (bridge.greet libraries source connects).desktop = bridge.desktop := by
  unfold Bridge.greet
  dsimp only
  split
  · exact ⟨rfl, rfl⟩
  · exact fail_desktop { bridge with stdin := _ } desktop _
  · next body stdin _ =>
      split
      · exact fail_desktop { bridge with stdin } desktop _
      · split
        · exact fail_desktop { bridge with stdin } desktop _
        · next response _ _ bytes _ =>
            split
            · exact ⟨rfl, rfl⟩
            · exact fail_desktop (({ bridge with stdin } : Bridge S).print bytes) desktop _

theorem forward_desktop (bridge : Bridge S) (desktop : S) :
    ({ bridge with desktop } : Bridge S).forward = { bridge.forward with desktop } ∧
    bridge.forward.desktop = bridge.desktop := by
  unfold Bridge.forward
  dsimp only
  split
  · exact ⟨rfl, rfl⟩
  · exact ⟨rfl, rfl⟩
  · exact ⟨rfl, rfl⟩
  · split
    · exact ⟨rfl, rfl⟩
    · exact ⟨rfl, rfl⟩

theorem back_desktop (bridge : Bridge S) (desktop : S) :
    ({ bridge with desktop } : Bridge S).back = { bridge.back with desktop } ∧
    bridge.back.desktop = bridge.desktop := by
  unfold Bridge.back
  dsimp only
  split <;> exact ⟨rfl, rfl⟩

/-- The desktop's step keeps two connections alike. -/
theorem AlikeBridges.serve (hides : Hides engine alike) (same : AlikeBridges alike bridge bridge') :
    AlikeBridges alike (bridge.serve (handleRequestInner engine libraries.serde))
      (bridge'.serve (handleRequestInner engine libraries.serde)) := by
  obtain ⟨desktop, rest⟩ := same
  generalize bridge'.desktop = desktop' at desktop rest
  subst rest
  unfold Bridge.serve
  dsimp only
  split
  · exact ⟨desktop, rfl⟩
  · exact ⟨desktop, rfl⟩
  · next body requests _ =>
      obtain ⟨after, response⟩ := hides.handleRequestInner desktop libraries.serde body
      revert after response
      cases handleRequestInner engine libraries.serde bridge.desktop body with
      | mk t bytes =>
          cases handleRequestInner engine libraries.serde desktop' body with
          | mk t' bytes' =>
              intro after response
              obtain rfl : bytes = bytes' := response
              dsimp only
              split
              · exact ⟨after, rfl⟩
              · split
                · exact ⟨after, rfl⟩
                · exact ⟨after, rfl⟩

theorem AlikeBridges.step (hides : Hides engine alike) (same : AlikeBridges alike bridge bridge')
    {op op' : Op S} (ops : AlikeOps alike op op') :
    AlikeBridges alike
      (bridge.step libraries source (handleRequestInner engine libraries.serde) op)
      (bridge'.step libraries source (handleRequestInner engine libraries.serde) op') := by
  have kept {next : Bridge S} {next' : Bridge S}
      (moved : next' = { next with desktop := bridge'.desktop } ∧ next.desktop = bridge.desktop) :
      AlikeBridges alike next next' := by
    obtain ⟨rfl, unmoved⟩ := moved
    exact ⟨unmoved ▸ same.desktop, rfl⟩
  have rest := same.rest
  cases ops with
  | acts after => exact ⟨after, by rw [rest]; rfl⟩
  | same other =>
      cases op with
      | desktopActs s => exact absurd rfl (other s)
      | serve =>
          simp only [Bridge.step]
          have serving : bridge'.serving = bridge.serving := by rw [rest]
          rw [serving]
          split
          · exact same.serve hides
          · exact same
      | write bytes =>
          apply kept
          rw [rest]
          simp only [Bridge.step]
          split <;> exact ⟨rfl, rfl⟩
      | closeStdin =>
          apply kept
          rw [rest]
          exact ⟨rfl, rfl⟩
      | receive =>
          apply kept
          rw [rest]
          simp only [Bridge.step]
          split <;> exact ⟨rfl, rfl⟩
      | handshake connects =>
          apply kept
          rw [rest]
          simp only [Bridge.step]
          split
          · exact greet_desktop bridge _ connects
          · exact ⟨rfl, rfl⟩
      | forward =>
          apply kept
          rw [rest]
          simp only [Bridge.step]
          split
          · exact forward_desktop bridge _
          · exact ⟨rfl, rfl⟩
      | back =>
          apply kept
          rw [rest]
          simp only [Bridge.step]
          split
          · exact back_desktop bridge _
          · exact ⟨rfl, rfl⟩
      | desktopQuits =>
          apply kept
          rw [rest]
          exact ⟨rfl, rfl⟩
      | kill =>
          apply kept
          rw [rest]
          simp only [Bridge.step]
          split <;> exact ⟨rfl, rfl⟩

theorem AlikeBridges.run (hides : Hides engine alike) (same : AlikeBridges alike bridge bridge')
    {ops ops' : List (Op S)} (steps : List.Forall₂ (AlikeOps alike) ops ops') :
    AlikeBridges alike
      (ops.foldl (Bridge.step libraries source (handleRequestInner engine libraries.serde)) bridge)
      (ops'.foldl (Bridge.step libraries source (handleRequestInner engine libraries.serde))
        bridge') := by
  induction steps generalizing bridge bridge' with
  | nil => exact same
  | cons first later ih => exact ih (same.step hides first)

end

namespace Sample

/-- A vault of one password, and the clipboard. -/
abbrev OnePassword : Type := List UInt8 × Text

def summary : AccountSummaryDto := ⟨"00", "a", [], [], [], 1, false, 0⟩

def engine : Engine OnePassword where
  isOpen _ := true
  isActive _ := true
  accountSearch state := (state, .ok [summary])
  accountGet state _ := (state, .ok summary)
  revealCurrentPassword state _ := (state, .ok state.1)
  writeText state text := ((state.1, text), .ok ())

/-- Both passwords are texts. -/
def Readable (state state' : OnePassword) : Prop :=
  (decode? state.1).isSome = (decode? state'.1).isSome

theorem hides : Hides engine Readable where
  isOpen _ := rfl
  isActive _ := rfl
  accountSearch same := ⟨same, rfl⟩
  accountGet _ same := ⟨same, rfl⟩
  reveal _ same := ⟨same, congrArg Except.ok same⟩
  writeText _ _ same := ⟨same, rfl⟩

/-- The token is 32 zeros, a text is its own base64, and every frame is a handshake and a copy. -/
def libraries : Libraries where
  serde :=
    { parse := fun _ => some (.object [("jsonrpc", .string "2.0"), ("id", .number 1),
        ("method", .string "auth.handshake"), ("params", .object [("token", .string "t")])])
      render := fun _ => [7] }
  base64 _ := some (List.replicate 32 0)

def source : TokenSource := ⟨some "t", none⟩

def ops : List (Op OnePassword) :=
  [.write (frame [1] ++ frame [2]), .handshake true, .forward, .serve, .back]

end Sample

end Pangolin.Native
