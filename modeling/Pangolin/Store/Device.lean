import Pangolin.Store.Schema
import Pangolin.Lib.Fallible

/-!
# The local device identity

The first unlock of a file registers a device: a `devices` row and the device seed
sealed under the VDK.  Later unlocks elect the oldest `devices` row and open the
seed under the current VDK, bound to the vault id and to the elected device id.
-/

namespace Pangolin.Store

open Symbolic Crypto

/-- `ORDER BY added_at ASC, device_id ASC`. -/
def DeviceRow.before (first second : DeviceRow) : Bool :=
  decide (first.addedAt < second.addedAt) ||
    (decide (first.addedAt = second.addedAt) &&
      decide (first.deviceId.raw ≤ second.deviceId.raw))

/-- The first row of a table in the registration order. -/
def electDevice : List DeviceRow → Option DeviceRow
  | [] => none
  | row :: rows =>
      match electDevice rows with
      | none => some row
      | some best => if row.before best then some row else some best

def readRegisteredDeviceId (keys : KeyTables) : Option DeviceId :=
  (electDevice keys.devices).map DeviceRow.deviceId

/-- `backfill_evm_address_if_missing`: fill a missing address, refuse a wrong one. -/
def backfillEvmAddress (keys : KeyTables) (key : DeviceKey) (deviceId : DeviceId) :
    Except StoreError KeyTables :=
  match (Table.lookup DeviceRow.deviceId keys.devices deviceId).bind DeviceRow.evmAddress with
  | some cached =>
      if cached = key.evmAddress then
        .ok keys
      else
        .error (.corrupted
          "devices.evm_address (cached) does not match address derived from device key")
  | none =>
      if keys.devices.any fun row => row.deviceId = deviceId then
        .ok { keys with devices := keys.devices.map fun row =>
          if row.deviceId = deviceId then { row with evmAddress := some key.evmAddress }
          else row }
      else
        .error (.corrupted "devices row vanished mid-backfill of evm_address")

/-- `load_device_key_with_id`; `none` when no `device_key` row exists. -/
def loadDeviceKeyWithId (keys : KeyTables) (vaultId : VaultId) (vdk : VdkKey)
    (deviceId : DeviceId) : Except StoreError (Option (DeviceKey × KeyTables)) :=
  match keys.deviceKey with
  | none => .ok none
  | some enc =>
      match enc.open? vdk (vaultId, deviceId) with
      | none => .error .authenticationFailed
      | some key =>
          if key.deviceId ≠ deviceId then
            .error .authenticationFailed
          else do
            let keys ← backfillEvmAddress keys key deviceId
            return some (key, keys)

/-- The sealed form of a device seed. -/
def sealDeviceKey (vaultId : VaultId) (vdk : VdkKey) (key : DeviceKey) : SealedDeviceKey :=
  ⟨vdk, (vaultId, key.deviceId), key⟩

/-- `reseal_device_key_tx`: a no-op on a file no device was registered in. -/
def resealDeviceKey (keys : KeyTables) (vaultId : VaultId) (vdk : VdkKey)
    (key : DeviceKey) : KeyTables :=
  match keys.deviceKey with
  | none => keys
  | some _ => { keys with deviceKey := some (sealDeviceKey vaultId vdk key) }

/-- `register_device`. -/
def registerDevice (keys : KeyTables) (vaultId : VaultId) (vdk : VdkKey) (key : DeviceKey)
    (label : String) (nowMs : Int) : KeyTables :=
  { keys with
    deviceKey := some (sealDeviceKey vaultId vdk key)
    devices := Table.upsert DeviceRow.deviceId keys.devices
      ⟨key.deviceId, label, nowMs, some key.evmAddress, false⟩ }

/-- The device part of an unlock under a VDK: load the elected device's key, or
register the freshly generated one. -/
def loadOrRegisterDevice (keys : KeyTables) (vaultId : VaultId) (vdk : VdkKey)
    (generated : DeviceKey) (nowMs : Int) : Except StoreError (DeviceKey × KeyTables) :=
  match readRegisteredDeviceId keys with
  | some existing => do
      match ← loadDeviceKeyWithId keys vaultId vdk existing with
      | some loaded => .ok loaded
      | none => .error (.corrupted "devices row present but device_key row missing")
  | none =>
      .ok (generated, registerDevice keys vaultId vdk generated "This device" nowMs)

/-- The row of a peer first seen through chain sync: its id is the address, padded. -/
def discoveredRow (signer : EvmAddress) (nowMs : Int) : DeviceRow :=
  ⟨⟨signer.raw⟩, "discovered-via-chain-sync", nowMs, some signer, true⟩

/-- `auto_register_device_from_chain_sync`: insert the peer's row unless its id is there;
returns whether it is new. -/
def autoRegisterDeviceFromChainSync (keys : KeyTables) (signer : EvmAddress)
    (discoveredAtBlock : Nat) (nowMs : Int) : Except StoreError (KeyTables × Bool) :=
  if ¬ fitsI64 discoveredAtBlock then
    .error (.corrupted "auto_register_device_from_chain_sync: discovered_at_block overflow")
  else
    let peer := discoveredRow signer nowMs
    let devices := Table.insertIgnore DeviceRow.deviceId keys.devices peer
    .ok ({ keys with devices }, !keys.devices.any fun row => row.deviceId = peer.deviceId)

/-! ## What a successful load says -/

@[simp] theorem electDevice_eq_none_iff {rows : List DeviceRow} :
    electDevice rows = none ↔ rows = [] := by
  cases rows with
  | nil => simp [electDevice]
  | cons row rows =>
      simp only [electDevice, reduceCtorEq, iff_false]
      split
      · simp
      · split <;> simp

/-- Backfilling touches the address column only. -/
theorem backfillEvmAddress_eq_ok {keys keys' : KeyTables} {key : DeviceKey}
    {deviceId : DeviceId} (filled : backfillEvmAddress keys key deviceId = .ok keys') :
    ∃ devices, keys' = { keys with devices } ∧ devices.length = keys.devices.length := by
  unfold backfillEvmAddress at filled
  split at filled
  · split at filled
    · obtain rfl := Except.ok.inj filled
      exact ⟨keys.devices, rfl, rfl⟩
    · cases filled
  · split at filled
    · obtain rfl := Except.ok.inj filled
      exact ⟨_, rfl, List.length_map _⟩
    · cases filled

/-- A seed loads exactly when it was sealed under the VDK for the vault and its own
device id, and the cached address lets it pass. -/
theorem loadDeviceKeyWithId_eq_ok_iff {keys keys' : KeyTables} {vaultId : VaultId}
    {vdk : VdkKey} {deviceId : DeviceId} {key : DeviceKey} :
    loadDeviceKeyWithId keys vaultId vdk deviceId = .ok (some (key, keys')) ↔
      key.deviceId = deviceId ∧ keys.deviceKey = some (sealDeviceKey vaultId vdk key) ∧
        backfillEvmAddress keys key deviceId = .ok keys' := by
  constructor
  · intro loaded
    unfold loadDeviceKeyWithId at loaded
    split at loaded
    · cases loaded
    · next enc stored =>
        split at loaded
        · cases loaded
        · next seed opened =>
            split at loaded
            · cases loaded
            · next sameId =>
                obtain ⟨filled, backfilled, equal⟩ := Fallible.bind_eq_ok_iff.mp loaded
                obtain ⟨rfl, rfl⟩ := Prod.mk.inj (Option.some.inj (Except.ok.inj equal))
                obtain ⟨sameKey, sameContext, sameMsg⟩ :=
                  (Sealed.open?_eq_some_iff _ _ _ _).mp opened
                refine ⟨not_not.mp sameId, ?_, backfilled⟩
                rw [stored, sealDeviceKey, ← sameKey, not_not.mp sameId, ← sameContext, ← sameMsg]
  · rintro ⟨rfl, stored, backfilled⟩
    simp [loadDeviceKeyWithId, stored, sealDeviceKey, Sealed.open?, backfilled, bind,
      Except.bind, pure, Except.pure]

/-- The device part of an unlock, taken apart: it touches the device tables only, the
seed opens under the VDK, and the seed column changes only on a first registration. -/
theorem loadOrRegisterDevice_eq_ok {keys keys' : KeyTables} {vaultId : VaultId} {vdk : VdkKey}
    {generated key : DeviceKey} {nowMs : Int}
    (loaded : loadOrRegisterDevice keys vaultId vdk generated nowMs = .ok (key, keys')) :
    keys'.vaultMeta = keys.vaultMeta ∧ keys'.vdkChain = keys.vdkChain ∧
      keys'.vdkChainState = keys.vdkChainState ∧
      keys'.deviceKey = some (sealDeviceKey vaultId vdk key) ∧ keys'.devices ≠ [] ∧
      (keys'.deviceKey = keys.deviceKey ∨ keys.devices = []) := by
  unfold loadOrRegisterDevice at loaded
  split at loaded
  · next existing elected =>
      obtain ⟨found, opened, equal⟩ := Fallible.bind_eq_ok_iff.mp loaded
      cases found with
      | none => cases equal
      | some result =>
          obtain rfl := Except.ok.inj equal
          obtain ⟨-, stored, backfilled⟩ := loadDeviceKeyWithId_eq_ok_iff.mp opened
          obtain ⟨devices, rfl, sameLength⟩ := backfillEvmAddress_eq_ok backfilled
          refine ⟨rfl, rfl, rfl, stored, ?_, .inl rfl⟩
          intro empty
          have none : keys.devices = [] := by
            rw [← List.length_eq_zero_iff, ← sameLength, List.length_eq_zero_iff]
            exact empty
          simp [readRegisteredDeviceId, none, electDevice] at elected
  · next elected =>
      obtain ⟨rfl, rfl⟩ := Prod.mk.inj (Except.ok.inj loaded)
      refine ⟨rfl, rfl, rfl, rfl, by simp [registerDevice, Table.upsert], .inr ?_⟩
      simpa [readRegisteredDeviceId] using elected

theorem electDevice_mem {rows : List DeviceRow} {row : DeviceRow}
    (elected : electDevice rows = some row) : row ∈ rows := by
  induction rows generalizing row with
  | nil => cases elected
  | cons head tail ih =>
      simp only [electDevice] at elected
      split at elected
      · exact Option.some.inj elected ▸ List.mem_cons_self
      · next best found =>
          split at elected
          · exact Option.some.inj elected ▸ List.mem_cons_self
          · exact Option.some.inj elected ▸ List.mem_cons_of_mem _ (ih found)

/-! ## The election -/

theorem DeviceRow.before_trans {first second third : DeviceRow}
    (one : first.before second = true) (two : second.before third = true) :
    first.before third = true := by
  simp only [DeviceRow.before, Bool.or_eq_true, Bool.and_eq_true, decide_eq_true_eq] at *
  omega

theorem DeviceRow.before_total (first second : DeviceRow) :
    first.before second = true ∨ second.before first = true := by
  simp only [DeviceRow.before, Bool.or_eq_true, Bool.and_eq_true, decide_eq_true_eq]
  omega

/-- Two rows before each other have the same id. -/
theorem DeviceRow.before_antisymm {first second : DeviceRow}
    (one : first.before second = true) (two : second.before first = true) :
    first.deviceId = second.deviceId := by
  simp only [DeviceRow.before, Bool.or_eq_true, Bool.and_eq_true, decide_eq_true_eq] at *
  have same : first.deviceId.raw = second.deviceId.raw := by omega
  cases one : first.deviceId
  cases two : second.deviceId
  rw [one, two] at same
  exact congrArg _ same

/-- The elected row comes before every row. -/
theorem electDevice_before {rows : List DeviceRow} {row other : DeviceRow}
    (elected : electDevice rows = some row) (member : other ∈ rows) :
    row.before other = true := by
  induction rows generalizing row with
  | nil => cases member
  | cons head tail ih =>
      simp only [electDevice] at elected
      split at elected
      · next alone =>
          obtain rfl := Option.some.inj elected
          rw [electDevice_eq_none_iff.mp alone] at member
          obtain rfl := List.mem_singleton.mp member
          exact (DeviceRow.before_total other other).elim id id
      · next best found =>
          split at elected
          · next first =>
              obtain rfl := Option.some.inj elected
              rcases List.mem_cons.mp member with rfl | later
              · exact (DeviceRow.before_total other other).elim id id
              · exact DeviceRow.before_trans first (ih found later)
          · next notFirst =>
              obtain rfl := Option.some.inj elected
              rcases List.mem_cons.mp member with rfl | later
              · exact (DeviceRow.before_total best other).resolve_right notFirst
              · exact ih found later

/-- With unique ids, the row before every other is elected. -/
theorem electDevice_eq_some {rows : List DeviceRow} {row : DeviceRow}
    (unique : (rows.map DeviceRow.deviceId).Nodup) (member : row ∈ rows)
    (first : ∀ other ∈ rows, row.before other = true) : electDevice rows = some row := by
  cases elected : electDevice rows with
  | none =>
      rw [electDevice_eq_none_iff.mp elected] at member
      cases member
  | some best =>
      have listed := electDevice_mem elected
      have same := DeviceRow.before_antisymm (electDevice_before elected member)
        (first best listed)
      have one := Table.lookup_eq_some_of_mem DeviceRow.deviceId unique listed
      have two := Table.lookup_eq_some_of_mem DeviceRow.deviceId unique member
      rw [same, two] at one
      exact one.symm

/-- No device is registered, or the elected one's seed is sealed under the VDK and its
cached address, if there is one, is the seed's. -/
def SeedOpens (keys : KeyTables) (vaultId : VaultId) (vdk : VdkKey) : Prop :=
  keys.devices = [] ∨
    ∃ row key, electDevice keys.devices = some row ∧ key.deviceId = row.deviceId ∧
      keys.deviceKey = some (sealDeviceKey vaultId vdk key) ∧
      ∀ cached, (Table.lookup DeviceRow.deviceId keys.devices row.deviceId).bind
        DeviceRow.evmAddress = some cached → cached = key.evmAddress

/-- That is exactly when the device part of an unlock succeeds. -/
theorem loadOrRegisterDevice_succeeds_iff (keys : KeyTables) (vaultId : VaultId)
    (vdk : VdkKey) (generated : DeviceKey) (nowMs : Int) :
    (∃ loaded, loadOrRegisterDevice keys vaultId vdk generated nowMs = .ok loaded) ↔
      SeedOpens keys vaultId vdk := by
  unfold loadOrRegisterDevice readRegisteredDeviceId SeedOpens
  cases elected : electDevice keys.devices with
  | none =>
      have empty := electDevice_eq_none_iff.mp elected
      simp [empty]
  | some row =>
      have registered : keys.devices ≠ [] := by
        intro empty
        rw [electDevice_eq_none_iff.mpr empty] at elected
        cases elected
      have listed := electDevice_mem elected
      simp only [Option.map_some, registered, false_or, Option.some.injEq, exists_and_left,
        exists_eq_left', Fallible.bind_eq_ok_iff]
      constructor
      · rintro ⟨loaded, found, opened, equal⟩
        cases found with
        | none => cases equal
        | some result =>
            obtain ⟨key, keys'⟩ := result
            obtain ⟨sameId, stored, backfilled⟩ := loadDeviceKeyWithId_eq_ok_iff.mp opened
            refine ⟨key, sameId, stored, ?_⟩
            intro cached found
            unfold backfillEvmAddress at backfilled
            rw [found] at backfilled
            by_contra different
            simp [different] at backfilled
      · rintro ⟨key, sameId, stored, matching⟩
        have backfilled : ∃ keys', backfillEvmAddress keys key row.deviceId = .ok keys' := by
          unfold backfillEvmAddress
          split
          · next cached found => exact ⟨keys, by rw [if_pos (matching cached found)]⟩
          · refine ⟨_, if_pos ?_⟩
            exact List.any_eq_true.mpr ⟨row, listed, by simp⟩
        obtain ⟨keys', filled⟩ := backfilled
        exact ⟨(key, keys'), some (key, keys'),
          loadDeviceKeyWithId_eq_ok_iff.mpr ⟨sameId, stored, filled⟩, rfl⟩

/-! ## The registered device -/

/-- The state of the device tables on a file that registers devices only through
`unlock`: nothing yet, or one device whose seed is sealed under `vdk`. -/
inductive DeviceTables (keys : KeyTables) (vaultId : VaultId) (vdk : VdkKey) : Prop where
  | unregistered : keys.devices = [] → keys.deviceKey = none → DeviceTables keys vaultId vdk
  | registered (key : DeviceKey) (row : DeviceRow) :
      keys.devices = [row] → row.deviceId = key.deviceId →
      row.evmAddress = some key.evmAddress →
      keys.deviceKey = some (sealDeviceKey vaultId vdk key) → DeviceTables keys vaultId vdk

theorem loadDeviceKeyWithId_registered {keys : KeyTables} {vaultId : VaultId} {vdk : VdkKey}
    {key : DeviceKey} {row : DeviceRow} (devices : keys.devices = [row])
    (sameId : row.deviceId = key.deviceId) (address : row.evmAddress = some key.evmAddress)
    (deviceKey : keys.deviceKey = some (sealDeviceKey vaultId vdk key)) :
    loadDeviceKeyWithId keys vaultId vdk row.deviceId = .ok (some (key, keys)) := by
  apply loadDeviceKeyWithId_eq_ok_iff.mpr
  refine ⟨sameId.symm, deviceKey, ?_⟩
  simp [backfillEvmAddress, Table.lookup, devices, address]

/-- On such a file the device part of an unlock succeeds, keeps the tables in shape
and changes nothing else. -/
theorem loadOrRegisterDevice_ok {keys : KeyTables} {vaultId : VaultId} {vdk : VdkKey}
    (tables : DeviceTables keys vaultId vdk) (generated : DeviceKey) (nowMs : Int) :
    ∃ key keys', loadOrRegisterDevice keys vaultId vdk generated nowMs = .ok (key, keys') ∧
      keys'.deviceKey = some (sealDeviceKey vaultId vdk key) ∧
      DeviceTables keys' vaultId vdk ∧ keys'.vaultMeta = keys.vaultMeta ∧
      keys'.vdkChain = keys.vdkChain ∧ keys'.vdkChainState = keys.vdkChainState := by
  cases tables with
  | unregistered devices deviceKey =>
      refine ⟨generated, registerDevice keys vaultId vdk generated "This device" nowMs,
        ?_, rfl, ?_, rfl, rfl, rfl⟩
      · simp [loadOrRegisterDevice, readRegisteredDeviceId, devices, electDevice]
      · refine .registered generated
          ⟨generated.deviceId, "This device", nowMs, some generated.evmAddress, false⟩
          ?_ rfl rfl rfl
        simp [registerDevice, devices, Table.upsert]
  | registered key row devices sameId address deviceKey =>
      refine ⟨key, keys, ?_, deviceKey, .registered key row devices sameId address deviceKey,
        rfl, rfl, rfl⟩
      have loaded := loadDeviceKeyWithId_registered devices sameId address deviceKey
      simp [loadOrRegisterDevice, readRegisteredDeviceId, devices, electDevice, bind,
        Except.bind, loaded]

end Pangolin.Store
