import Pangolin.Ffi.Pairing
import Pangolin.System

/-!
# What the short code authenticates

The channel between the two devices belongs to an adversary, who may deliver anything in
place of either payload.  The codes agree exactly when the deliveries keep the freshness
nonce and the two pairing keys.  `vault_add_device` acts on the whole payload: the vault
id, the device id and the signer reach it unconfirmed.
-/

namespace Pangolin.Ffi

open Crypto Store

/-! ## Inversion of the calls -/

theorem fixedBytes_eq_ok_iff {size value : Nat} {bytes : HostBytes} {what : String} :
    fixedBytes size bytes what = .ok value ↔ bytes = ⟨size, value⟩ := by
  obtain ⟨length, raw⟩ := bytes
  unfold fixedBytes
  by_cases fits : length = size
  · simp [fits]
  · simp [fits]

/-- Only one record decodes to a payload. -/
theorem toPayload_eq_ok_iff {ffi : FfiPairingPayload} {payload : PairingPayload} :
    ffi.toPayload = .ok payload ↔
      ffi = .fromPayload payload ∧ payload.schemaVersion ≤ 255 := by
  constructor
  · intro decoded
    unfold FfiPairingPayload.toPayload at decoded
    simp only [Fallible.bind_eq_ok_iff, fixedBytes_eq_ok_iff] at decoded
    obtain ⟨vaultId, sameVault, deviceId, sameDevice, pairingPub, samePub, signer, sameSigner,
      nonce, sameNonce, rest⟩ := decoded
    split at rest
    · cases rest
    · next small =>
        obtain rfl := Except.ok.inj rest
        obtain ⟨version, _, _, _, _, _⟩ := ffi
        subst sameVault sameDevice samePub sameSigner sameNonce
        exact ⟨rfl, Nat.le_of_not_lt small⟩
  · rintro ⟨rfl, small⟩
    exact FfiPairingPayload.toPayload_fromPayload small

theorem acceptPayload_eq_ok_iff {ffi : FfiPairingPayload} {payload : PairingPayload} :
    acceptPayload ffi = .ok payload ↔
      ffi.toPayload = .ok payload ∧ payload.schemaVersion = pairingPayloadSchemaVersion := by
  unfold acceptPayload
  rw [Fallible.bind_eq_ok_iff]
  constructor
  · rintro ⟨decoded, isDecoded, rest⟩
    split at rest
    · cases rest
    · next version =>
        obtain rfl := Except.ok.inj rest
        exact ⟨isDecoded, not_not.mp version⟩
  · rintro ⟨isDecoded, version⟩
    refine ⟨payload, isDecoded, ?_⟩
    rw [if_neg (not_not.mpr version)]

theorem pairingDeriveSas_eq_ok_iff {Sas : Type} {hash : SasInput → Sas}
    {payloadA payloadB : FfiPairingPayload} {code : Sas} :
    pairingDeriveSas hash payloadA payloadB = .ok code ↔
      ∃ a b, payloadA.toPayload = .ok a ∧ payloadB.toPayload = .ok b ∧
        a.freshnessNonce = b.freshnessNonce ∧
        deriveSas hash a.x25519PairingPub b.x25519PairingPub a.freshnessNonce = code := by
  unfold pairingDeriveSas
  simp only [Fallible.bind_eq_ok_iff]
  constructor
  · rintro ⟨a, decodedA, b, decodedB, rest⟩
    split at rest
    · cases rest
    · next sameNonce =>
        exact ⟨a, b, decodedA, decodedB, not_not.mp sameNonce, Except.ok.inj rest⟩
  · rintro ⟨a, b, decodedA, decodedB, sameNonce, rfl⟩
    refine ⟨a, decodedA, b, decodedB, ?_⟩
    rw [if_neg (not_not.mpr sameNonce)]

/-- What `vault_add_device` does for a payload it accepts: it stops before the chain, its
transaction does not land, or it seals and records. -/
inductive AddsDevice (vault : Vault) (active : ActiveState) (payload : PairingPayload)
    (outcome : AddDeviceOutcome) : Prop where
  | stopped (error : FfiError) : outcome = ⟨vault, none, .error error⟩ →
      AddsDevice vault active payload outcome
  | refused (nonce : Nat) :
      outcome = ⟨vault, some (addDeviceTx vault active.deviceKey.evmAddress payload nonce),
        .error .chain⟩ → AddsDevice vault active payload outcome
  | added (nonce : Nat) :
      outcome = ⟨recordDeviceDirectoryEntry vault payload.directoryEntry,
        some (addDeviceTx vault active.deviceKey.evmAddress payload nonce),
        .ok (sealVdkToDevice active.vdk payload.x25519PairingPub vault.vaultMeta.vaultId
          payload.deviceId 0)⟩ → AddsDevice vault active payload outcome

theorem vaultAddDevice_adds {vault : Vault} {active : ActiveState} {payload : PairingPayload}
    {ffi : FfiPairingPayload} (session : vault.active = some active)
    (accepted : acceptPayload ffi = .ok payload) (chain : Chain) :
    AddsDevice vault active payload (vaultAddDevice vault chain ffi) := by
  unfold vaultAddDevice
  simp only [accepted, session]
  split
  · split
    · exact .stopped _ rfl
    · next nonce _ =>
        split
        · refine .added nonce ?_
          simp [sealAndRecord, sealVdkForNewDevice, session]
        · exact .refused nonce rfl
  · exact .stopped _ rfl

/-- A payload it does not accept changes and sends nothing. -/
theorem vaultAddDevice_rejects {ffi : FfiPairingPayload} {error : FfiError} (vault : Vault)
    (chain : Chain) (rejected : acceptPayload ffi = .error error) :
    vaultAddDevice vault chain ffi = ⟨vault, none, .error error⟩ := by
  simp [vaultAddDevice, rejected]

/-! ## One exchange -/

/-- An unlocked vault. -/
structure Session where
  vault : Vault
  active : ActiveState
  isActive : isActive vault = true
  holds : vault.active = some active

namespace Session

def deviceKey (session : Session) : DeviceKey := session.active.deviceKey

def pairingPub (session : Session) : X25519Pub := session.deviceKey.pairing.publicKey

/-- The payload the session's device builds under a nonce. -/
def payload (session : Session) (nonce : FreshnessNonce) : PairingPayload :=
  ⟨pairingPayloadSchemaVersion, session.vault.vaultMeta.vaultId, session.deviceKey.deviceId,
    session.pairingPub, session.deviceKey.evmAddress, nonce⟩

theorem localPayload_eq (session : Session) (nonce : FreshnessNonce) :
    localPayload session.vault nonce = .ok (session.payload nonce) := by
  simp [localPayload, session.isActive, session.holds, payload, pairingPub, deviceKey]

theorem toPayload_payload (session : Session) (nonce : FreshnessNonce) :
    (FfiPairingPayload.fromPayload (session.payload nonce)).toPayload =
      .ok (session.payload nonce) :=
  FfiPairingPayload.toPayload_fromPayload (by decide : pairingPayloadSchemaVersion ≤ 255)

end Session

/-- A pairing attempt: two unlocked devices, the nonce the new one draws, and what the
channel delivers to each of them in place of the other's payload. -/
structure Exchange where
  newDevice : Session
  manager : Session
  drawn : FreshnessNonce
  toManager : FfiPairingPayload
  toNewDevice : FfiPairingPayload

namespace Exchange

/-- The payload the new device produced. -/
def produced (exchange : Exchange) : PairingPayload :=
  exchange.newDevice.payload exchange.drawn

section

variable {Sas : Type} (hash : SasInput → Sas) (exchange : Exchange)

/-- The code on the new device, over its own payload and the one it received. -/
def newDeviceSas : Except FfiError Sas := do
  let own ← pairingBeginNewDevice exchange.newDevice.vault exchange.drawn
  pairingDeriveSas hash own exchange.toNewDevice

/-- The code on the manager; its own payload carries the nonce it received. -/
def managerSas : Except FfiError Sas := do
  let own ← pairingLocalPayload exchange.manager.vault exchange.toManager.freshnessNonce
  pairingDeriveSas hash own exchange.toManager

/-- Both devices show the same code. -/
def Confirmed : Prop :=
  ∃ code, exchange.newDeviceSas hash = .ok code ∧ exchange.managerSas hash = .ok code

end

/-- Whatever the chain answers, `vault_add_device` acts on the new device's own payload:
its address is the one authorised, its id and key are what the VDK is sealed to, and its
entry is the one recorded. -/
structure Authentic (exchange : Exchange) : Prop where
  payload : ∀ accepted, acceptPayload exchange.toManager = .ok accepted →
    accepted = exchange.produced
  address : ∀ chain tx,
    (vaultAddDevice exchange.manager.vault chain exchange.toManager).sent = some tx →
      tx.newSigner = exchange.newDevice.deviceKey.evmAddress ∧
        tx.authorization.subject = exchange.newDevice.deviceKey.evmAddress
  envelope : ∀ chain box,
    (vaultAddDevice exchange.manager.vault chain exchange.toManager).result = .ok box →
      box = sealVdkToDevice exchange.manager.active.vdk exchange.newDevice.pairingPub
        exchange.manager.vault.vaultMeta.vaultId exchange.newDevice.deviceKey.deviceId 0
  directory : ∀ chain,
    (vaultAddDevice exchange.manager.vault chain exchange.toManager).vault =
        exchange.manager.vault ∨
      (vaultAddDevice exchange.manager.vault chain exchange.toManager).vault =
        recordDeviceDirectoryEntry exchange.manager.vault
          ⟨exchange.newDevice.deviceKey.evmAddress, exchange.newDevice.deviceKey.deviceId,
            exchange.newDevice.pairingPub⟩

/-- The deliveries keep what the code covers: the nonce, and the two keys as a pair. -/
structure KeepsCode (exchange : Exchange) (toManager toNewDevice : PairingPayload) : Prop where
  nonceToManager : toManager.freshnessNonce = exchange.drawn
  nonceToNewDevice : toNewDevice.freshnessNonce = exchange.drawn
  keys : toManager.x25519PairingPub = exchange.newDevice.pairingPub ∧
      toNewDevice.x25519PairingPub = exchange.manager.pairingPub ∨
    exchange.newDevice.pairingPub = exchange.manager.pairingPub ∧
      toManager.x25519PairingPub = toNewDevice.x25519PairingPub

/-- Deliveries that keep what the code covers also keep, towards the manager, what it
does not cover: the vault id, the device id, the signer, and the new device's key when
the manager has the same one. -/
def Covered (exchange : Exchange) : Prop :=
  ∀ toManager toNewDevice, acceptPayload exchange.toManager = .ok toManager →
    exchange.toNewDevice.toPayload = .ok toNewDevice →
    exchange.KeepsCode toManager toNewDevice →
      toManager.vaultId = exchange.newDevice.vault.vaultMeta.vaultId ∧
        toManager.deviceId = exchange.newDevice.deviceKey.deviceId ∧
        toManager.signer = exchange.newDevice.deviceKey.evmAddress ∧
        toManager.x25519PairingPub = exchange.newDevice.pairingPub

section

variable {Sas : Type} {hash : SasInput → Sas} {exchange : Exchange}

theorem newDeviceSas_eq_ok_iff {code : Sas} :
    exchange.newDeviceSas hash = .ok code ↔
      ∃ received, exchange.toNewDevice.toPayload = .ok received ∧
        received.freshnessNonce = exchange.drawn ∧
        deriveSas hash exchange.newDevice.pairingPub received.x25519PairingPub
          exchange.drawn = code := by
  unfold newDeviceSas pairingBeginNewDevice
  rw [Session.localPayload_eq]
  change pairingDeriveSas hash (.fromPayload (exchange.newDevice.payload exchange.drawn)) _ = _ ↔ _
  rw [pairingDeriveSas_eq_ok_iff]
  constructor
  · rintro ⟨own, received, isOwn, decoded, sameNonce, isCode⟩
    rw [Session.toPayload_payload] at isOwn
    obtain rfl := Except.ok.inj isOwn
    exact ⟨received, decoded, sameNonce.symm, isCode⟩
  · rintro ⟨received, decoded, sameNonce, isCode⟩
    exact ⟨_, received, Session.toPayload_payload _ _, decoded, sameNonce.symm, isCode⟩

theorem managerSas_eq_ok_iff {code : Sas} :
    exchange.managerSas hash = .ok code ↔
      ∃ received, exchange.toManager.toPayload = .ok received ∧
        deriveSas hash exchange.manager.pairingPub received.x25519PairingPub
          received.freshnessNonce = code := by
  unfold managerSas pairingLocalPayload
  simp only [Fallible.bind_eq_ok_iff, fixedBytes_eq_ok_iff, Session.localPayload_eq,
    pairingDeriveSas_eq_ok_iff]
  constructor
  · rintro ⟨own, ⟨nonce, -, built, isBuilt, isOwn⟩, a, received, decodedOwn, decoded, sameNonce,
      isCode⟩
    obtain rfl := Except.ok.inj isBuilt
    obtain rfl := Except.ok.inj isOwn
    rw [Session.toPayload_payload] at decodedOwn
    obtain rfl := Except.ok.inj decodedOwn
    exact ⟨received, decoded, sameNonce ▸ isCode⟩
  · rintro ⟨received, decoded, isCode⟩
    obtain ⟨sameRecord, -⟩ := toPayload_eq_ok_iff.mp decoded
    refine ⟨_, ⟨received.freshnessNonce.raw, ?_, _, rfl, rfl⟩, _, received,
      Session.toPayload_payload _ _, decoded, rfl, isCode⟩
    rw [sameRecord]
    rfl

/-- The codes agree exactly when the deliveries keep the nonce and the keys. -/
theorem confirmed_iff (injective : Function.Injective hash) :
    exchange.Confirmed hash ↔
      ∃ toManager toNewDevice, exchange.toManager.toPayload = .ok toManager ∧
        exchange.toNewDevice.toPayload = .ok toNewDevice ∧
        exchange.KeepsCode toManager toNewDevice := by
  unfold Confirmed
  simp only [newDeviceSas_eq_ok_iff, managerSas_eq_ok_iff]
  constructor
  · rintro ⟨code, ⟨toNewDevice, decodedNew, keptNonce, isCode⟩, toManager, decoded, sameCode⟩
    obtain ⟨sameNonce, keys⟩ := (deriveSas_eq_iff injective _ _ _ _ _ _).mp
      (isCode.trans sameCode.symm)
    refine ⟨toManager, toNewDevice, decoded, decodedNew, sameNonce.symm, keptNonce, ?_⟩
    rcases keys with ⟨shared, received⟩ | ⟨newKept, managerKept⟩
    · exact .inr ⟨shared, received.symm⟩
    · exact .inl ⟨newKept.symm, managerKept⟩
  · rintro ⟨toManager, toNewDevice, decoded, decodedNew, kept⟩
    refine ⟨_, ⟨toNewDevice, decodedNew, kept.nonceToNewDevice, rfl⟩, toManager, decoded, ?_⟩
    refine ((deriveSas_eq_iff injective _ _ _ _ _ _).mpr ⟨kept.nonceToManager.symm, ?_⟩).symm
    rcases kept.keys with ⟨newKept, managerKept⟩ | ⟨shared, received⟩
    · exact .inr ⟨newKept.symm, managerKept⟩
    · exact .inl ⟨shared, received.symm⟩

/-- Acting on the new device's payload is all it takes. -/
theorem authentic_of_payload
    (own : ∀ accepted, acceptPayload exchange.toManager = .ok accepted →
      accepted = exchange.produced) : exchange.Authentic := by
  cases accepted : acceptPayload exchange.toManager with
  | error error =>
      have rejects := fun chain =>
        vaultAddDevice_rejects exchange.manager.vault chain accepted
      constructor
      · exact own
      · intro chain tx sent
        rw [rejects] at sent
        cases sent
      · intro chain box sealedBox
        rw [rejects] at sealedBox
        cases sealedBox
      · intro chain
        rw [rejects]
        exact .inl rfl
  | ok payload =>
      obtain rfl := own payload accepted
      have adds := fun chain => vaultAddDevice_adds exchange.manager.holds accepted chain
      constructor
      · exact own
      · intro chain tx sent
        cases adds chain with
        | stopped error outcome =>
            rw [outcome] at sent
            cases sent
        | refused nonce outcome | added nonce outcome =>
            rw [outcome] at sent
            obtain rfl := Option.some.inj sent
            exact ⟨rfl, rfl⟩
      · intro chain box sealedBox
        cases adds chain with
        | stopped error outcome =>
            rw [outcome] at sealedBox
            cases sealedBox
        | refused nonce outcome =>
            rw [outcome] at sealedBox
            cases sealedBox
        | added nonce outcome =>
            rw [outcome] at sealedBox
            exact (Except.ok.inj sealedBox).symm
      · intro chain
        cases adds chain with
        | stopped error outcome => exact .inl (by rw [outcome])
        | refused nonce outcome => exact .inl (by rw [outcome])
        | added nonce outcome => exact .inr (by rw [outcome]; rfl)

end

end Exchange

/-- For every channel: agreeing codes authenticate the pairing exactly when the channel
changes, of the payload it delivers to the manager, nothing the code leaves out. -/
theorem confirmed_pairing_authentic_iff {Sas : Type} {hash : SasInput → Sas}
    (injective : Function.Injective hash) (exchange : Exchange) :
    (exchange.Confirmed hash → exchange.Authentic) ↔ exchange.Covered := by
  constructor
  · intro authenticates toManager toNewDevice accepted decodedNew kept
    obtain ⟨decoded, -⟩ := acceptPayload_eq_ok_iff.mp accepted
    have confirmed := (Exchange.confirmed_iff injective).mpr
      ⟨toManager, toNewDevice, decoded, decodedNew, kept⟩
    have own := (authenticates confirmed).payload toManager accepted
    subst own
    exact ⟨rfl, rfl, rfl, rfl⟩
  · intro covered confirmed
    apply Exchange.authentic_of_payload
    intro accepted isAccepted
    obtain ⟨toManager, toNewDevice, decoded, decodedNew, kept⟩ :=
      (Exchange.confirmed_iff injective).mp confirmed
    obtain ⟨alsoDecoded, version⟩ := acceptPayload_eq_ok_iff.mp isAccepted
    obtain rfl := Except.ok.inj (decoded.symm.trans alsoDecoded)
    obtain ⟨vaultId, deviceId, signer, key⟩ := covered _ _ isAccepted decodedNew kept
    calc toManager
        = ⟨toManager.schemaVersion, toManager.vaultId, toManager.deviceId,
            toManager.x25519PairingPub, toManager.signer, toManager.freshnessNonce⟩ := rfl
      _ = exchange.produced := by
            rw [version, vaultId, deviceId, signer, key, kept.nonceToManager]
            rfl

/-! ## A run with and without an adversary -/

namespace Sample

/-- The unlocked manager. -/
def manager : Session where
  vault := Pangolin.Sample.run Pangolin.Sample.vault [Pangolin.Sample.unlock ⟨[1]⟩]
  active := ⟨⟨2⟩, ⟨[], 0⟩, [], Pangolin.Sample.device, []⟩
  isActive := by decide
  holds := by decide

def newDeviceKey : DeviceKey := ⟨20, ⟨21⟩, ⟨22⟩, ⟨23⟩, ⟨24⟩⟩

/-- A second device that created and unlocked a vault of its own. -/
def newDevice : Session where
  vault := (unlock (create ⟨[3]⟩ ⟨⟨8⟩, ⟨4⟩, ⟨5⟩, ⟨6⟩, 0⟩) ⟨true, ⟨[3]⟩, newDeviceKey, 0⟩).1
  active := ⟨⟨5⟩, ⟨[], 0⟩, [], newDeviceKey, []⟩
  isActive := by decide
  holds := by decide

/-- The exchange in which the manager receives the given payload and the new device the
manager's own. -/
def exchange (toManager : PairingPayload) : Exchange where
  newDevice := newDevice
  manager := manager
  drawn := ⟨7⟩
  toManager := .fromPayload toManager
  toNewDevice := .fromPayload (manager.payload ⟨7⟩)

/-- The new device's payload with the adversary's address in it. -/
def swappedSigner : PairingPayload :=
  { newDevice.payload ⟨7⟩ with signer := ⟨99⟩ }

end Sample

/-- An honest channel. -/
theorem honest_pairing_authentic :
    (Sample.exchange (Sample.newDevice.payload ⟨7⟩)).Confirmed id ∧
      (Sample.exchange (Sample.newDevice.payload ⟨7⟩)).Authentic := by
  have confirmed : (Sample.exchange (Sample.newDevice.payload ⟨7⟩)).Confirmed id :=
    ⟨_, rfl, rfl⟩
  refine ⟨confirmed, (confirmed_pairing_authentic_iff Function.injective_id _).mpr ?_ confirmed⟩
  intro toManager toNewDevice accepted _ _
  obtain ⟨decoded, -⟩ := acceptPayload_eq_ok_iff.mp accepted
  obtain rfl := Except.ok.inj ((Session.toPayload_payload _ _).symm.trans decoded)
  exact ⟨rfl, rfl, rfl, rfl⟩

/-- The adversary replaces the signer alone: both devices show the same code, and the
manager authorises the adversary's address on chain. -/
theorem swapped_signer_confirmed :
    (Sample.exchange Sample.swappedSigner).Confirmed id ∧
      ¬ (Sample.exchange Sample.swappedSigner).Authentic ∧
      (vaultAddDevice Sample.manager.vault ⟨true, fun _ => some 1, fun _ => true⟩
        (.fromPayload Sample.swappedSigner)).sent =
          some ⟨⟨12⟩, ⟨99⟩, ⟨⟨7⟩, ⟨99⟩, 1, 1⟩⟩ := by
  refine ⟨⟨_, rfl, rfl⟩, ?_, by decide⟩
  intro authentic
  have own := authentic.payload Sample.swappedSigner rfl
  exact absurd (congrArg PairingPayload.signer own) (by decide)

end Pangolin.Ffi
