import AsasOs.Block.Requests
import AsasOs.VirtualDisk.Disks

/-!
# Attaching in the place of an earlier disk

A slot is used again after a detach, and its name with it, but the registry keeps the device of
the earlier attach, which `block_device_find` finds first.

## Main result

- `reattach_iff`: an attached disk is found under its name and read as its image if and only if
  the name was not registered before and the data of the image has at most 2^32 bytes.
-/
namespace AsasOs.VirtualDisk

open Block Bytes CString Prog

namespace Disks

/-! ### The cache -/

/-- What the valid entries of the cache hold. -/
def Labelled (P : CacheKey → List UInt8 → Prop) (layer : BlockLayer) : Prop :=
  ∀ a, (layer.cacheEntries a).valid = true → P (layer.cacheEntries a).key (layer.cacheEntries a).data

section Cache

variable {P : CacheKey → List UInt8 → Prop} {layer : BlockLayer} {device : Device} {lba : Nat} {data : List UInt8}

theorem Labelled.find (labelled : Labelled P layer) {a : Fin BLOCK_CACHE_ENTRY_COUNT}
    (found : cacheFind layer device lba = some a) :
    P (device.cacheKey lba) (layer.cacheEntries a).data := by
  obtain ⟨valid, key⟩ := cacheFind_some found
  exact key ▸ labelled a valid

theorem Labelled.filled (labelled : Labelled P layer) {layer' : BlockLayer}
    {a : Fin BLOCK_CACHE_ENTRY_COUNT}
    (allocated : cacheAllocate layer device lba = (layer', some a))
    (holds : P (device.cacheKey lba) data) :
    Labelled P (layer'.setData a data) := by
  unfold cacheAllocate at allocated
  split at allocated
  · cases allocated
  · cases allocated
    intro b valid
    dsimp only [BlockLayer.setData] at valid ⊢
    by_cases same : b = layer.roundRobinSlot
    · simp only [same, Function.update_self]
      exact holds
    · rw [Function.update_of_ne same, Function.update_of_ne same] at valid ⊢
      exact labelled b valid

theorem Labelled.invalidated (labelled : Labelled P layer) {layer' : BlockLayer}
    {a : Fin BLOCK_CACHE_ENTRY_COUNT}
    (allocated : cacheAllocate layer device lba = (layer', some a)) :
    Labelled P (layer'.invalidate a) := by
  unfold cacheAllocate at allocated
  split at allocated
  · cases allocated
  · cases allocated
    intro b valid
    dsimp only [BlockLayer.invalidate] at valid ⊢
    by_cases same : b = layer.roundRobinSlot
    · simp only [same, Function.update_self] at valid
      cases valid
    · rw [Function.update_of_ne same, Function.update_of_ne same] at valid ⊢
      exact labelled b valid

theorem Labelled.store (labelled : Labelled P layer) (holds : P (device.cacheKey lba) data) :
    Labelled P (cacheStore layer device lba data) := by
  unfold cacheStore
  split
  · rename_i a found
    obtain ⟨-, key⟩ := cacheFind_some found
    intro b valid
    dsimp only [BlockLayer.setData] at valid ⊢
    by_cases same : b = a
    · simp only [same, Function.update_self, key]
      exact holds
    · rw [Function.update_of_ne same] at valid ⊢
      exact labelled b valid
  · split
    · rename_i layer' a allocated
      exact labelled.filled allocated holds
    · rename_i layer' refused
      rw [cacheAllocate_none refused]
      exact labelled

end Cache

/-! ### A read -/

/-- What a read does not change. -/
structure Same (s t : Disks) : Prop where
  devices : t.layer.devices = s.layer.devices
  vdisks : t.vdisks = s.vdisks
  contexts : t.contexts = s.contexts
  files : s.files.Same t.files

theorem Same.refl (s : Disks) : Same s s := ⟨rfl, rfl, rfl, rfl⟩

theorem Same.trans {s t u : Disks} (first : Same s t) (second : Same t u) : Same s u :=
  ⟨second.devices.trans first.devices, second.vdisks.trans first.vdisks, second.contexts.trans first.contexts,
    Eq.trans second.files first.files⟩

variable {s : Disks}

theorem Same.layer {layer : BlockLayer} (devices : layer.devices = s.layer.devices) :
    Same s { s with layer := layer } :=
  ⟨devices, rfl, rfl, rfl⟩

/-- A block is the one of the image, at the place where the code looks for it. -/
def Block (s : Disks) (slot : Fin VDISK_MAX_COUNT) (lba : Nat) (data : List UInt8) : Prop :=
  lba * VDISK_SECTOR_SIZE % 2 ^ 64 + VDISK_SECTOR_SIZE ≤ (s.vdisks slot).size ∧
    data = slice (s.files.bytes (s.vdisks slot).path) (lba * VDISK_SECTOR_SIZE % 2 ^ 64) VDISK_SECTOR_SIZE

theorem rawRead_spec (device : Device) (slot : Fin VDISK_MAX_COUNT) (lba : Nat) (s : Disks) :
    (rawRead device slot lba s).1.layer = s.layer ∧ Same s (rawRead device slot lba s).1 ∧
      ∀ data, (rawRead device slot lba s).2 = some data → s.Block slot lba data := by
  have spec : wp Files.handle (withRetry (rawReadBlocks (s.vdisks slot) lba 1) (retryBudget device + 1))
      (Ends s.files.Same fun data files' => s.files.Same files' ∧ s.Block slot lba data) s.files := by
    refine withRetry_spec (fun files same => ?_) _ rfl
    refine wp_mono rawReadBlocks_spec ?_
    rintro (_ | data) files' ⟨same', read⟩
    · exact Eq.trans same' same
    · obtain ⟨within, there⟩ := read data rfl
      rw [same.bytes, Nat.one_mul] at there
      exact ⟨Eq.trans same' same, by rwa [Nat.one_mul] at within, there⟩
  unfold wp at spec
  unfold rawRead
  rcases answer : run Files.handle (withRetry (rawReadBlocks (s.vdisks slot) lba 1) (retryBudget device + 1)).run
    s.files with ⟨_ | data, files⟩
  all_goals rw [answer] at spec
  · exact ⟨rfl, ⟨rfl, rfl, rfl, spec⟩, nofun⟩
  · refine ⟨rfl, ⟨rfl, rfl, rfl, spec.1⟩, fun data' same => ?_⟩
    cases same
    exact spec.2

/-- Blocks that `rawRead` returns have the property, in all states that a read leads to. -/
def Reads (P : CacheKey → List UInt8 → Prop) (s : Disks) (device : Device)
    (slot : Fin VDISK_MAX_COUNT) : Prop :=
  ∀ lba data, s.Block slot lba data → P (device.cacheKey lba) data

section Loop

variable {P : CacheKey → List UInt8 → Prop} {s t : Disks} {device : Device} {slot : Fin VDISK_MAX_COUNT}

theorem Same.block (same : Same s t) (lba : Nat) (data : List UInt8) : t.Block slot lba data ↔
    s.Block slot lba data := by
  unfold Block
  rw [same.vdisks, same.files.bytes]

theorem Reads.same (reads : Reads P s device slot) (same : Same s t) : Reads P t device slot :=
  fun lba data here => reads lba data ((same.block lba data).mp here)

theorem fetchBlock_spec (reads : Reads P s device slot) (labelled : Labelled P s.layer) (lba : Nat) :
    Labelled P (fetchBlock device slot lba s).1.layer ∧ Same s (fetchBlock device slot lba s).1 ∧
      ∀ data, (fetchBlock device slot lba s).2 = some data → P (device.cacheKey lba) data := by
  unfold fetchBlock
  split
  · rename_i a found
    refine ⟨labelled, .refl s, fun data same => ?_⟩
    cases same
    exact labelled.find found
  · obtain ⟨layer, same, block⟩ := rawRead_spec device slot lba s
    split
    · rename_i t failed
      rw [failed] at layer same
      exact ⟨layer ▸ labelled, same, nofun⟩
    · rename_i t data done
      rw [done] at layer same block
      have holds := reads lba data (block data rfl)
      refine ⟨(layer ▸ labelled : Labelled P t.layer).store holds, ?_, fun data' again => ?_⟩
      · exact same.trans (.layer (cacheStore_same t.layer device lba data).devices)
      · cases again
        exact holds

theorem readAhead_spec (reads : Reads P s device slot) (labelled : Labelled P s.layer) (lba : Nat) :
    Labelled P (readAhead device slot lba s).layer ∧ Same s (readAhead device slot lba s) := by
  unfold readAhead
  split
  · split
    · rename_i layer refused
      rw [cacheAllocate_none refused]
      exact ⟨labelled, .refl s⟩
    · rename_i layer a allocated
      have devices := (cacheAllocate_same s.layer device lba).devices
      rw [allocated] at devices
      obtain ⟨kept, same, block⟩ := rawRead_spec device slot lba { s with layer := layer }
      have fromHere : Same s { s with layer := layer } := .layer devices
      split
      · rename_i t data done
        rw [done] at kept same block
        have holds := reads lba data ((fromHere.block lba data).mp (block data rfl))
        refine ⟨?_, (fromHere.trans same).trans (.layer rfl)⟩
        dsimp only at kept ⊢
        rw [kept]
        exact labelled.filled allocated holds
      · rename_i t failed
        rw [failed] at kept same
        refine ⟨?_, (fromHere.trans same).trans (.layer rfl)⟩
        dsimp only at kept ⊢
        rw [kept]
        exact labelled.invalidated allocated
  · exact ⟨labelled, .refl s⟩

theorem readLoop_spec (lba count remaining : Nat) : ∀ {s : Disks}
    (bytes : Buffer), Reads P s device slot →
    Labelled P s.layer → Labelled P (readLoop device slot lba count remaining s bytes).1.layer ∧
      Same s (readLoop device slot lba count remaining s bytes).1 := by
  induction remaining with
  | zero => exact fun _ _ labelled => ⟨labelled, .refl _⟩
  | succ remaining ih =>
    intro s bytes reads labelled
    obtain ⟨fetched, same, -⟩ := fetchBlock_spec reads labelled (lba + (count - (remaining + 1)))
    rw [readLoop]
    dsimp only
    split
    · rename_i t failed
      rw [failed] at fetched same
      exact ⟨fetched, same⟩
    · rename_i t data done
      rw [done] at fetched same
      have reads' := reads.same same
      split
      · obtain ⟨ahead, same'⟩ := readAhead_spec reads' fetched (lba + (count - (remaining + 1)) + 1)
        obtain ⟨rest, same''⟩ := ih _ ((reads'.same same')) ahead
        exact ⟨rest, same.trans (same'.trans same'')⟩
      · obtain ⟨rest, same'⟩ := ih _ reads' fetched
        exact ⟨rest, same.trans same'⟩

theorem readLoop_bytes (lba : Nat) {count : Nat} (sized : ∀ lba data, P (device.cacheKey lba) data →
      data.length = device.logicalBlockSize)
    (small : count * device.logicalBlockSize ≤ 2 ^ 32) (remaining : Nat) (within : remaining ≤ count) :
    ∀ {s : Disks} {bytes : Buffer}, Reads P s device slot → Labelled P s.layer →
    (∀ i < count - remaining,
        P (device.cacheKey (lba + i)) (bytes.block (i * device.logicalBlockSize) device.logicalBlockSize)) →
      ∀ result, (readLoop device slot lba count remaining s bytes).2 = some result →
        ∀ i < count, P (device.cacheKey (lba + i))
          (result.block (i * device.logicalBlockSize) device.logicalBlockSize) := by
  induction remaining with
  | zero =>
    intro s bytes _ _ read result done
    cases done
    exact read
  | succ remaining ih =>
    intro s bytes reads labelled read result done
    obtain ⟨index, here⟩ : ∃ index, count - (remaining + 1) = index := ⟨_, rfl⟩
    obtain ⟨fetched, same, block⟩ := fetchBlock_spec reads labelled (lba + index)
    rw [readLoop] at done
    dsimp only at done
    rw [here] at done read
    split at done
    · cases done
    · rename_i t data found
      rw [found] at fetched same block
      have holds := block data rfl
      have length := sized _ _ holds
      rw [offset_no_wrap (by omega) small] at done
      -- The buffer holds one block more.
      have more : ∀ i < count - remaining, P (device.cacheKey (lba + i))
          ((bytes.put (index * device.logicalBlockSize) data).block (i * device.logicalBlockSize)
            device.logicalBlockSize) := by
        intro i below
        by_cases last : i = index
        · rw [last, ← length, Buffer.put_block]
          exact holds
        · have before : i * device.logicalBlockSize + device.logicalBlockSize ≤ index * device.logicalBlockSize := by
            rw [← Nat.succ_mul]
            exact Nat.mul_le_mul_right _ (by omega)
          rw [Buffer.put_block_before _ data before]
          exact read i (by omega)
      have reads' := reads.same same
      split at done
      · obtain ⟨ahead, same'⟩ := readAhead_spec reads' fetched (lba + index + 1)
        exact ih (by omega) (reads'.same same') ahead more result done
      · exact ih (by omega) reads' fetched more result done

theorem readLoop_beyond (lba count : Nat) (sized : ∀ lba data, P (device.cacheKey lba) data →
      data.length = VDISK_SECTOR_SIZE) (size :
      device.logicalBlockSize = VDISK_SECTOR_SIZE) (remaining : Nat) :
    ∀ {s : Disks} {bytes : Buffer}, Reads P s device slot → Labelled P s.layer →
      ∀ result, (readLoop device slot lba count remaining s bytes).2 = some result →
        ∀ k, 2 ^ 32 ≤ k → result k = bytes k := by
  induction remaining with
  | zero =>
    intro s bytes _ _ result done k _
    cases done
    rfl
  | succ remaining ih =>
    intro s bytes reads labelled result done k beyond
    obtain ⟨fetched, same, block⟩ := fetchBlock_spec reads labelled (lba + (count - (remaining + 1)))
    rw [readLoop] at done
    dsimp only at done
    split at done
    · cases done
    · rename_i t data found
      rw [found] at fetched same block
      have length := sized _ _ (block data rfl)
      have outside : (bytes.put ((count - (remaining + 1)) * device.logicalBlockSize % 2 ^ 32) data) k = bytes k := by
        unfold Buffer.put
        rw [if_neg]
        rw [size, length]
        unfold VDISK_SECTOR_SIZE
        omega
      have reads' := reads.same same
      split at done
      · obtain ⟨ahead, same'⟩ := readAhead_spec reads' fetched (lba + (count - (remaining + 1)) + 1)
        rw [ih (reads'.same same') ahead result done k beyond, outside]
      · rw [ih reads' fetched result done k beyond, outside]

end Loop

/-! ### Disks that are attached -/

/-- The slot holds the device, which has its size. -/
structure Current (s : Disks) (index : Fin VDISK_MAX_COUNT) (id : Nat) (device : Device) : Prop where
  active : (s.vdisks index).active = true
  held : (s.vdisks index).device = some id
  context : s.contexts id = some index
  registered : s.layer.devices[id]? = some device
  number : device.id = id
  blockSize : device.logicalBlockSize = VDISK_SECTOR_SIZE
  blocks : device.blockCount * VDISK_SECTOR_SIZE = (s.vdisks index).size
  positive : device.blockCount ≠ 0

/-- An entry of the cache belongs to a device of the registry. If that is the device of an attached
disk, the entry holds a block of the image. -/
def Holds (s : Disks) (key : CacheKey) (data : List UInt8) : Prop :=
  key.deviceId < s.layer.devices.length ∧
    ∀ index, s.contexts key.deviceId = some index → (s.vdisks index).active = true →
      (s.vdisks index).device = some key.deviceId → s.Block index key.lba data

/-- The invariant of the registry, the slots and the cache. -/
structure DisksInv (s : Disks) : Prop where
  cache : Labelled s.Holds s.layer
  numbers : ∀ id (device : Device), s.layer.devices[id]? = some device → device.id = id
  contexts : ∀ id index, s.contexts id = some index → id < s.layer.devices.length
  current : ∀ index id, (s.vdisks index).active = true → (s.vdisks index).device = some id →
    ∃ device, Current s index id device

variable {index : Fin VDISK_MAX_COUNT}

theorem Current.same {s t : Disks} {id : Nat} {device : Device}
    (current : Current s index id device) (same : Same s t) : Current t index id device := by
  obtain ⟨active, held, context, registered, number, blockSize, blocks, positive⟩ := current
  rw [← same.vdisks] at active held blocks
  rw [← same.contexts] at context
  rw [← same.devices] at registered
  exact ⟨active, held, context, registered, number, blockSize, blocks, positive⟩

theorem Same.holds {s t : Disks} (same : Same s t) : t.Holds = s.Holds := by
  funext key data
  simp only [Holds, same.devices, same.vdisks, same.contexts, same.block]

theorem DisksInv.same {s t : Disks} (inv : DisksInv s) (same : Same s t)
    (cache : Labelled s.Holds t.layer) :
    DisksInv t := by
  refine ⟨same.holds ▸ cache, same.devices ▸ inv.numbers, ?_, ?_⟩
  · rw [same.contexts, same.devices]
    exact inv.contexts
  · intro index id active held
    rw [same.vdisks] at active held
    obtain ⟨device, current⟩ := inv.current index id active held
    exact ⟨device, current.same same⟩

theorem DisksInv.reads (inv : DisksInv s) {id : Nat} {device : Device} {slot : Fin VDISK_MAX_COUNT}
    (registered : s.layer.devices[id]? = some device) (context : s.contexts id = some slot) :
    Reads s.Holds s device slot := by
  intro lba data block
  have number := inv.numbers id device registered
  refine ⟨?_, fun index context' _ _ => ?_⟩
  · exact lt_of_eq_of_lt number (inv.contexts id slot context)
  · dsimp only [Device.cacheKey] at context'
    rw [number, context] at context'
    cases context'
    exact block

theorem DisksInv.read (inv : DisksInv s) (id lba count : Nat) (buffer : Buffer) :
    DisksInv (s.read id lba count buffer).1 ∧ Same s (s.read id lba count buffer).1 := by
  unfold Disks.read
  split
  · rename_i device slot registered context
    split
    · obtain ⟨cache, same⟩ := readLoop_spec lba count count buffer (inv.reads registered context) inv.cache
      exact ⟨inv.same same cache, same⟩
    · exact ⟨inv, .refl s⟩
  · exact ⟨inv, .refl s⟩

theorem Current.holds {id : Nat} {device : Device}
    (current : Current s index id device) {lba : Nat} {data : List UInt8}
    (holds : s.Holds (device.cacheKey lba) data) : s.Block index lba data := by
  refine holds.2 index ?_ current.active ?_
  · exact (congrArg s.contexts current.number).trans current.context
  · exact current.held.trans (congrArg some current.number.symm)

/-! ### Attaching -/

/-- The first slot that is not active. -/
def freeSlot (vdisks : Vdisks) : Option (Fin VDISK_MAX_COUNT) :=
  (List.finRange VDISK_MAX_COUNT).find? fun i => !(vdisks i).active

def slotName (index : Fin VDISK_MAX_COUNT) : CString := "vdisk".toList ++ [Char.ofNat (0x30 + index)]

/-- The device that an attach registers. -/
def diskDevice (id : Nat) (index : Fin VDISK_MAX_COUNT) (flags : UInt32) (dataSize : Nat) : Device where
  id := id
  name := slotName index
  logicalBlockSize := VDISK_SECTOR_SIZE
  physicalBlockSize := VDISK_SECTOR_SIZE
  blockCount := dataSize / VDISK_SECTOR_SIZE
  flags := if flags &&& VDISK_FLAG_READ_ONLY != 0 then BLOCK_DEVICE_FLAG_READ_ONLY else 0
  target := 0
  lun := 0
  startLba := 0
  parent := none
  ops := .driver

/-- What an attach enters in its slot. -/
def diskInfo (id : Nat) (index : Fin VDISK_MAX_COUNT) (path : CString) (flags : UInt32)
    (format : CString)
    (dataSize fileSize : Nat) : VdiskInfo where
  active := true
  readOnly := flags &&& VDISK_FLAG_READ_ONLY != 0
  name := slotName index
  format := copyString format 12
  path := copyString path 256
  size := dataSize
  fileSize := fileSize
  device := some id

/-- How an attach ends: no active slot and no device is touched, or a device is registered for the
first free slot. -/
inductive AttachEnds (s : Attachments) (path : CString) (flags : UInt32) (dataSize fileSize : Nat) :
    Attachments × Option (Nat × Fin VDISK_MAX_COUNT) → Prop
  | refused (vdisks : Vdisks)
      (slots : ∀ i, vdisks i = s.vdisks i ∨ (s.vdisks i).active = false ∧ (vdisks i).active = false) :
      AttachEnds s path flags dataSize fileSize (⟨s.layer, vdisks⟩, none)
  | attached (index : Fin VDISK_MAX_COUNT) (format : CString) (free : freeSlot s.vdisks = some index)
      (sizes : dataSize ≠ 0 ∧ dataSize % VDISK_SECTOR_SIZE = 0 ∧ fileSize ≠ 0) :
      AttachEnds s path flags dataSize fileSize
        (⟨{ s.layer with devices := s.layer.devices ++ [diskDevice s.layer.devices.length index flags dataSize] },
          Function.update s.vdisks index
            (diskInfo s.layer.devices.length index path flags format dataSize fileSize)⟩,
          some (s.layer.devices.length, index))

theorem slotName_copied (index : Fin VDISK_MAX_COUNT) : copyName (slotName index) = slotName index :=
  copyString_of_fits (by simp [slotName])

theorem blockDeviceRegister_disk (layer : BlockLayer) (index : Fin VDISK_MAX_COUNT)
    (flags : UInt32) (dataSize : Nat) :
    blockDeviceRegister layer (diskDevice 0 index flags dataSize) =
      if layer.devices.length < BLOCK_DEVICE_MAX_COUNT then
        ({ layer with devices := layer.devices ++ [diskDevice layer.devices.length index flags dataSize] },
          some layer.devices.length)
      else (layer, none) := by
  have valid : descriptionValid (diskDevice 0 index flags dataSize) = true := by
    simp [descriptionValid, diskDevice, isPowerOfTwo, VDISK_SECTOR_SIZE]
  have optical : (diskDevice 0 index flags dataSize).hasFlag BLOCK_DEVICE_FLAG_OPTICAL = false := by
    have either : ∀ readOnly : Bool,
        ((if readOnly then BLOCK_DEVICE_FLAG_READ_ONLY else 0) &&& BLOCK_DEVICE_FLAG_OPTICAL != 0) = false := by decide
    exact either _
  unfold blockDeviceRegister
  rw [valid, Bool.true_and, optical]
  by_cases room : layer.devices.length < BLOCK_DEVICE_MAX_COUNT
  · rw [if_pos (decide_eq_true room), if_pos room]
    have name : copyName (diskDevice 0 index flags dataSize).name = slotName index := slotName_copied index
    dsimp only
    rw [name]
    rfl
  · rw [if_neg (by simpa using room), if_neg room]

theorem attachVirtualDisk_ends (s : Attachments) (path : CString) (flags : UInt32) (format : CString)
    (dataSize fileSize : Nat) :
    AttachEnds s path flags dataSize fileSize (attachVirtualDisk s path flags format dataSize fileSize) := by
  unfold attachVirtualDisk
  split
  · exact .refused s.vdisks fun _ => .inl rfl
  · rename_i sizes
    split
    · exact .refused s.vdisks fun _ => .inl rfl
    · split
      · exact .refused s.vdisks fun _ => .inl rfl
      · rename_i index free
        have made := blockDeviceRegister_disk s.layer index flags dataSize
        unfold diskDevice slotName at made
        dsimp only
        by_cases room : s.layer.devices.length < BLOCK_DEVICE_MAX_COUNT
        · rw [if_pos room] at made
          rw [made]
          exact .attached index format free (by omega)
        · rw [if_neg room] at made
          rw [made]
          refine .refused _ fun i => ?_
          by_cases same : i = index
          · have inactive := List.find?_some free
            rw [same, Function.update_self]
            exact .inr ⟨by simpa using inactive, rfl⟩
          · exact .inl (Function.update_of_ne same _ _)

/-- The size of the data of an image, as it is attached: all of the file, or all but a footer. -/
def dataSize (kind : AttachKind) (image : List UInt8) : Nat :=
  match kind with
  | .raw => image.length
  | .fixedVhd => image.length - VDISK_SECTOR_SIZE
  | .auto =>
    if image.length > VDISK_SECTOR_SIZE ∧
        validateFixedVhdFooter (footerOf image image.length) image.length ≠ none then
      image.length - VDISK_SECTOR_SIZE
    else image.length

theorem dataSize_le (kind : AttachKind) (image : List UInt8) : dataSize kind image ≤ image.length := by
  unfold dataSize
  split
  · exact le_rfl
  · exact Nat.sub_le _ _
  · split
    · exact Nat.sub_le _ _
    · exact le_rfl

section Attaching

variable (s : Attachments) (path : CString) (flags : UInt32) (files : Files)

theorem attachRaw_ends : files.Same (run Files.handle (virtualDiskAttachRaw s path flags) files).2 ∧
      AttachEnds s path flags (files.bytes path).length (files.bytes path).length
        (run Files.handle (virtualDiskAttachRaw s path flags) files).1 := by
  simp only [virtualDiskAttachRaw]
  split
  · exact ⟨rfl, .refused s.vdisks fun _ => .inl rfl⟩
  · obtain ⟨size, files₁, answer, same, measured⟩ := run_vfsFileSize files path
    rw [run_bind, answer]
    refine ⟨same, ?_⟩
    rcases measured with zero | whole
    · have refused := attachVirtualDisk_ends s path flags "raw".toList size size
      rw [zero] at refused ⊢
      generalize attachVirtualDisk s path flags "raw".toList 0 0 = result at refused
      cases refused with
      | refused vdisks slots => exact .refused vdisks slots
      | attached index format free sizes => exact absurd rfl sizes.1
    · rw [← whole]
      exact attachVirtualDisk_ends s path flags "raw".toList size size

theorem attachFixedVhd_ends :
    files.Same (run Files.handle (virtualDiskAttachFixedVhd s path flags) files).2 ∧
      AttachEnds s path flags ((files.bytes path).length - VDISK_SECTOR_SIZE) (files.bytes path).length
        (run Files.handle (virtualDiskAttachFixedVhd s path flags) files).1 := by
  simp only [virtualDiskAttachFixedVhd]
  split
  · exact ⟨rfl, .refused s.vdisks fun _ => .inl rfl⟩
  · have sizes := @fixedVhdSizes_spec files path
    unfold wp at sizes
    rw [run_bind]
    rcases answer : run Files.handle (fixedVhdSizes path).run files with ⟨_ | ⟨dataSize, fileSize⟩, files₁⟩
    all_goals rw [answer] at sizes
    · exact ⟨sizes.1, .refused s.vdisks fun _ => .inl rfl⟩
    · obtain ⟨same, sizes⟩ := sizes
      obtain ⟨whole, data⟩ := sizes dataSize fileSize rfl
      have shorter : fileSize - VDISK_SECTOR_SIZE = dataSize := by omega
      rw [← whole, shorter]
      exact ⟨same, attachVirtualDisk_ends s path flags "vhd-fixed".toList dataSize fileSize⟩

theorem virtualDiskAttach_ends (kind : AttachKind) :
    files.Same (run Files.handle (virtualDiskAttach kind s path flags) files).2 ∧
      AttachEnds s path flags (dataSize kind (files.bytes path)) (files.bytes path).length
        (run Files.handle (virtualDiskAttach kind s path flags) files).1 := by
  cases kind with
  | raw => exact attachRaw_ends s path flags files
  | fixedVhd => exact attachFixedVhd_ends s path flags files
  | auto =>
    simp only [virtualDiskAttach, virtualDiskAttachAuto]
    split
    · exact ⟨rfl, .refused s.vdisks fun _ => .inl rfl⟩
    · obtain ⟨size, files₁, answer, same₁, -⟩ := run_vfsFileSize files path
      rw [run_bind, answer]
      dsimp only
      split
      · exact ⟨same₁, .refused s.vdisks fun _ => .inl rfl⟩
      · have whole := @imageReadAll_spec files₁ path
        unfold wp at whole
        rw [run_bind]
        rcases loaded : run Files.handle (imageReadAll path).run files₁ with ⟨_ | ⟨image, imageSize⟩, files₂⟩
        all_goals rw [loaded] at whole
        · exact ⟨Eq.trans whole.1 same₁, .refused s.vdisks fun _ => .inl rfl⟩
        · have same : files.Same files₂ := Eq.trans whole.1 same₁
          obtain ⟨here, length⟩ := whole.2 image imageSize rfl
          rw [same₁.bytes] at here
          subst here length
          dsimp only [dataSize]
          split
          · have ends := attachFixedVhd_ends s path flags files₂
            rw [same.bytes] at ends
            exact ⟨Eq.trans ends.1 same, ends.2⟩
          · split
            · exact ⟨same, .refused s.vdisks fun _ => .inl rfl⟩
            · split
              · exact ⟨same, .refused s.vdisks fun _ => .inl rfl⟩
              · have ends := attachRaw_ends s path flags files₂
                rw [same.bytes] at ends
                exact ⟨Eq.trans ends.1 same, ends.2⟩

end Attaching

/-! ### Steps -/

/-- What a step does to the registry and to the slots: a slot holds the disk it held before, or a
new one. -/
structure Carries (s t : Disks) : Prop where
  names : s.layer.devices.map (·.name) <+: t.layer.devices.map (·.name)
  numbers : ∀ id (device : Device), t.layer.devices[id]? = some device → device.id = id
  contexts : ∀ id < s.layer.devices.length, t.contexts id = s.contexts id
  bounded : ∀ id index, t.contexts id = some index → id < t.layer.devices.length
  slots : ∀ index id, (t.vdisks index).active = true → (t.vdisks index).device = some id →
    (s.layer.devices.length ≤ id ∧ ∃ device, Current t index id device) ∨
      (s.vdisks index).active = true ∧ t.vdisks index = s.vdisks index ∧
      t.layer.devices[id]? = s.layer.devices[id]? ∧
      t.files.contents (s.vdisks index).path = s.files.contents (s.vdisks index).path

theorem Carries.registry {s t : Disks} (carries : Carries s t) :
    s.layer.devices.length ≤ t.layer.devices.length := by
  have length := carries.names.length_le
  rwa [List.length_map, List.length_map] at length

theorem Carries.inv {s t : Disks} (carries : Carries s t) (inv : DisksInv s)
    (cache : t.layer.cacheEntries = s.layer.cacheEntries) : DisksInv t := by
  refine ⟨fun a valid => ?_, carries.numbers, carries.bounded, fun index id active held => ?_⟩
  · rw [cache] at valid ⊢
    obtain ⟨bound, block⟩ := inv.cache a valid
    refine ⟨lt_of_lt_of_le bound carries.registry, fun index context active held => ?_⟩
    rcases carries.slots index _ active held with ⟨new, -⟩ | ⟨active', same, -, there⟩
    · omega
    · rw [carries.contexts _ bound] at context
      rw [same] at held
      have old := block index context active' held
      unfold Block Files.bytes at old ⊢
      rw [same, there]
      exact old
  · rcases carries.slots index id active held with ⟨-, current⟩ | ⟨active', same, registered, -⟩
    · exact current
    · rw [same] at held
      obtain ⟨device, current⟩ := inv.current index id active' held
      have bound := inv.contexts id index current.context
      refine ⟨device, active, same ▸ held, ?_, ?_, current.number, current.blockSize, ?_, current.positive⟩
      · rw [carries.contexts id bound, current.context]
      · rw [registered, current.registered]
      · rw [same, current.blocks]

theorem Same.carries {s t : Disks} (same : Same s t) (inv : DisksInv s) : Carries s t := by
  have files : t.files.contents = s.files.contents := same.files
  refine ⟨same.devices ▸ List.prefix_rfl, same.devices ▸ inv.numbers, fun _ _ => congrFun same.contexts _, ?_,
    fun index id active held => .inr ⟨same.vdisks ▸ active, congrFun same.vdisks _, same.devices ▸ rfl, files ▸ rfl⟩⟩
  rw [same.contexts, same.devices]
  exact inv.contexts

theorem numbers_append {devices : List Device}
    (numbers : ∀ id (device : Device), devices[id]? = some device → device.id = id)
    {added : Device} (number : added.id = devices.length) :
    ∀ id (device : Device), (devices ++ [added])[id]? = some device → device.id = id := by
  intro id device here
  rcases Nat.lt_trichotomy id devices.length with old | rfl | beyond
  · rw [List.getElem?_append_left old] at here
    exact numbers id device here
  · rw [List.getElem?_concat_length] at here
    cases here
    exact number
  · rw [List.getElem?_eq_none (by simp; omega)] at here
    cases here

theorem names_modify (devices : List Device) (id : Nat) {change : Device → Device}
    (kept : ∀ device, (change device).name = device.name) :
    (devices.modify id change).map (·.name) = devices.map (·.name) := by
  refine List.ext_getElem? fun n => ?_
  simp only [List.getElem?_map, List.getElem?_modify]
  cases devices[n]? with
  | none => rfl
  | some old => by_cases same : id = n <;> simp [same, kept]

theorem register_carries (inv : DisksInv s) (description : Device) :
    Carries s (s.step (.register description)) := by
  unfold step blockDeviceRegister
  dsimp only
  split
  · refine ⟨?_, numbers_append inv.numbers rfl, fun _ _ => rfl, fun id index context => ?_, fun index id active held => ?_⟩
    · rw [List.map_append]
      exact List.prefix_append _ _
    · have bound := inv.contexts id index context
      simp only [List.length_append]
      omega
    · obtain ⟨device, current⟩ := inv.current index id active held
      exact .inr ⟨active, rfl, List.getElem?_append_left (inv.contexts id index current.context), rfl⟩
  · exact (Same.refl s).carries inv

theorem changeFiles_carries (inv : DisksInv s) (changed : CString → Option File)
    (outcomes : List FileOutcome) : Carries s (s.changeFiles changed outcomes) := by
  refine ⟨List.prefix_rfl, inv.numbers, fun _ _ => rfl, inv.contexts, fun index id active held =>
    .inr ⟨active, rfl, rfl, ?_⟩⟩
  unfold changeFiles
  dsimp only
  rw [if_pos]
  exact List.any_eq_true.mpr ⟨index, List.mem_finRange index, by simpa [changeFiles] using active⟩

theorem detach_carries (inv : DisksInv s) (mounted : Nat → Bool) (name : CString) :
    Carries s (s.step (.detach mounted name)) := by
  have nothing : Carries s s := (Same.refl s).carries inv
  unfold step virtualDiskDetach
  dsimp only
  split
  · exact nothing
  · split
    · exact nothing
    · rename_i index named
      have active := List.find?_some named
      rw [Bool.and_eq_true] at active
      split
      · refine ⟨List.prefix_rfl, inv.numbers, fun _ _ => rfl, inv.contexts, fun index' id active' held => ?_⟩
        dsimp only at active' held ⊢
        by_cases same : index' = index
        · rw [same, Function.update_self] at active'
          cases active'
        · rw [Function.update_of_ne same] at active' held ⊢
          exact .inr ⟨active', rfl, rfl, rfl⟩
      · rename_i id registered
        split
        · exact nothing
        · obtain ⟨device, current⟩ := inv.current index id active.1 registered
          refine ⟨?_, fun id' device' here => ?_, fun _ _ => rfl, fun id' index' context => ?_,
            fun index' id' active' held => ?_⟩
          · rw [names_modify s.layer.devices id]
            all_goals first | exact List.prefix_rfl | exact fun _ => rfl
          · dsimp only at here
            rw [List.getElem?_modify] at here
            obtain ⟨old, there, rfl⟩ := Option.map_eq_some_iff.mp here
            have number := inv.numbers id' old there
            by_cases same : id = id'
            · rw [if_pos same]
              exact number
            · rw [if_neg same]
              exact number
          · dsimp only
            rw [List.length_modify]
            exact inv.contexts id' index' context
          · dsimp only at active' held ⊢
            by_cases same : index' = index
            · rw [same, Function.update_self] at active'
              cases active'
            · -- A device is the context of one slot only.
              rw [Function.update_of_ne same] at active' held ⊢
              obtain ⟨device', current'⟩ := inv.current index' id' active' held
              have other : id ≠ id' := by
                rintro rfl
                exact same (Option.some.inj (current'.context.symm.trans current.context))
              exact .inr ⟨active', rfl, List.getElem?_modify_ne _ _ other, rfl⟩

/-- A disk that is attached is entered in the first free slot, and is current. -/
structure Attaches (s t : Disks) (kind : AttachKind) (path : CString) (flags : UInt32) (id : Nat)
    (index : Fin VDISK_MAX_COUNT) : Prop where
  new : id = s.layer.devices.length
  free : freeSlot s.vdisks = some index
  devices : t.layer.devices = s.layer.devices ++ [diskDevice id index flags (dataSize kind (s.files.bytes path))]
  info : ∃ format, t.vdisks index = diskInfo id index path flags format (dataSize kind (s.files.bytes path))
    (s.files.bytes path).length
  sizes : dataSize kind (s.files.bytes path) ≠ 0 ∧ dataSize kind (s.files.bytes path) % VDISK_SECTOR_SIZE = 0
  context : t.contexts id = some index

theorem attach_ends (s : Disks) (kind : AttachKind) (path : CString) (flags : UInt32) :
    s.files.Same (s.attach kind path flags).1.files ∧
      ((s.attach kind path flags).2 = none ∧ (s.attach kind path flags).1.layer = s.layer ∧
          (s.attach kind path flags).1.contexts = s.contexts ∧
          (∀ i, (s.attach kind path flags).1.vdisks i = s.vdisks i ∨
            (s.vdisks i).active = false ∧ ((s.attach kind path flags).1.vdisks i).active = false) ∨
        ∃ id index, (s.attach kind path flags).2 = some (id, index) ∧
          Attaches s (s.attach kind path flags).1 kind path flags id index ∧
          (s.attach kind path flags).1.layer.cacheEntries = s.layer.cacheEntries ∧
          (∀ i, i ≠ index → (s.attach kind path flags).1.vdisks i = s.vdisks i) ∧
          ∀ i, i ≠ id → (s.attach kind path flags).1.contexts i = s.contexts i) := by
  obtain ⟨same, ends⟩ := virtualDiskAttach_ends s.toAttachments path flags s.files kind
  unfold attach
  generalize run Files.handle (virtualDiskAttach kind s.toAttachments path flags) s.files = out at same ends
  obtain ⟨outcome, files⟩ := out
  dsimp only at ends
  cases ends with
  | refused vdisks slots => exact ⟨same, .inl ⟨rfl, rfl, rfl, slots⟩⟩
  | attached index format free sizes =>
    refine ⟨same, .inr ⟨_, index, rfl, ⟨rfl, free, rfl, ⟨format, ?_⟩, ⟨sizes.1, sizes.2.1⟩, ?_⟩, rfl, ?_, ?_⟩⟩
    · exact Function.update_self index _ _
    · exact Function.update_self _ _ _
    · exact fun i other => Function.update_of_ne other _ _
    · exact fun i other => Function.update_of_ne other _ _

theorem Attaches.current {s t : Disks} {kind : AttachKind} {path : CString} {flags : UInt32} {id : Nat}
    (attaches : Attaches s t kind path flags id index) :
    Current t index id (diskDevice id index flags (dataSize kind (s.files.bytes path))) := by
  obtain ⟨format, info⟩ := attaches.info
  have sizes := attaches.sizes
  refine ⟨?_, ?_, attaches.context, ?_, rfl, rfl, ?_, ?_⟩
  · rw [info]
    rfl
  · rw [info]
    rfl
  · rw [attaches.devices, attaches.new, List.getElem?_concat_length]
  · rw [info]
    dsimp only [diskDevice, diskInfo]
    unfold VDISK_SECTOR_SIZE at sizes ⊢
    omega
  · dsimp only [diskDevice]
    unfold VDISK_SECTOR_SIZE at sizes ⊢
    omega

theorem attach_carries (inv : DisksInv s) (kind : AttachKind) (path : CString) (flags : UInt32) :
    Carries s (s.attach kind path flags).1 ∧
      (s.attach kind path flags).1.layer.cacheEntries = s.layer.cacheEntries := by
  obtain ⟨files, ends⟩ := attach_ends s kind path flags
  generalize s.attach kind path flags = out at files ends
  have contents : out.1.files.contents = s.files.contents := files
  rcases ends with ⟨-, layer, contexts, slots⟩ | ⟨id, index, -, attaches, cache, others, kept⟩
  · refine ⟨⟨layer ▸ List.prefix_rfl, layer ▸ inv.numbers, fun _ _ => congrFun contexts _, ?_,
      fun index id active held => ?_⟩, by rw [layer]⟩
    · rw [contexts, layer]
      exact inv.contexts
    · rcases slots index with same | ⟨-, inactive⟩
      · exact .inr ⟨same ▸ active, same, by rw [layer], by rw [contents]⟩
      · rw [inactive] at active
        cases active
  · refine ⟨⟨?_, ?_, fun i bound => kept i (by rw [attaches.new]; omega), fun i index' context => ?_,
      fun index' id' active held => ?_⟩, cache⟩
    · rw [attaches.devices, List.map_append]
      exact List.prefix_append _ _
    · rw [attaches.devices]
      exact numbers_append inv.numbers attaches.new
    · rw [attaches.devices, List.length_append, List.length_singleton]
      by_cases here : i = id
      · rw [here, attaches.new]
        exact Nat.lt_succ_self _
      · rw [kept i here] at context
        exact Nat.lt_succ_of_lt (inv.contexts i index' context)
    · by_cases same : index' = index
      · have current := attaches.current
        rw [same, current.held] at held
        cases held
        exact .inl ⟨attaches.new.ge, _, same ▸ current⟩
      · rw [others index' same] at active held ⊢
        obtain ⟨device, current⟩ := inv.current index' id' active held
        refine .inr ⟨active, rfl, ?_, by rw [contents]⟩
        rw [attaches.devices, List.getElem?_append_left (inv.contexts id' index' current.context)]

theorem step_carries (inv : DisksInv s) (op : Op) : Carries s (s.step op) ∧ DisksInv (s.step op) := by
  cases op with
  | attach kind path flags =>
    obtain ⟨carries, cache⟩ := attach_carries inv kind path flags
    exact ⟨carries, carries.inv inv cache⟩
  | detach mounted name =>
    have carries := detach_carries inv mounted name
    refine ⟨carries, carries.inv inv ?_⟩
    unfold step virtualDiskDetach
    dsimp only
    split
    · rfl
    · split
      · rfl
      · split
        · rfl
        · split <;> rfl
  | read id lba count buffer =>
    obtain ⟨inv', same⟩ := inv.read id lba count buffer
    exact ⟨same.carries inv, inv'⟩
  | register description =>
    have carries := register_carries inv description
    refine ⟨carries, carries.inv inv ?_⟩
    unfold step blockDeviceRegister
    dsimp only
    split <;> rfl
  | changeFiles changed outcomes =>
    have carries := changeFiles_carries inv changed outcomes
    exact ⟨carries, carries.inv inv rfl⟩

theorem initial_inv (media : Nat → Nat → Buffer) (files : Files) : DisksInv (initial media files) :=
  ⟨nofun, nofun, nofun, nofun⟩

theorem after_inv (inv : DisksInv s) (ops : List Op) : DisksInv (s.after ops) := by
  induction ops generalizing s with
  | nil => exact inv
  | cons op rest ih => exact ih (step_carries inv op).2

/-! ### After an attach -/

/-- The slot still holds the device. -/
def Held (s : Disks) (index : Fin VDISK_MAX_COUNT) (id : Nat) : Prop :=
  (s.vdisks index).active = true ∧ (s.vdisks index).device = some id

/-- The slot, the device and the image are as they were. -/
structure Stays (s t : Disks) (index : Fin VDISK_MAX_COUNT) (id : Nat) : Prop where
  slot : t.vdisks index = s.vdisks index
  device : t.layer.devices[id]? = s.layer.devices[id]?
  image : t.files.contents (s.vdisks index).path = s.files.contents (s.vdisks index).path

theorem after_stays (ops : List Op) : ∀ {s : Disks}, DisksInv s → ∀ {index : Fin VDISK_MAX_COUNT}
    {id : Nat},
    id < s.layer.devices.length → Held (s.after ops) index id → Held s index id ∧
    Stays s (s.after ops) index id := by
  induction ops with
  | nil => exact fun _ _ _ _ held => ⟨held, rfl, rfl, rfl⟩
  | cons op rest ih =>
    intro s inv index id old held
    obtain ⟨carries, inv'⟩ := step_carries inv op
    obtain ⟨held', stays⟩ := ih inv' (lt_of_lt_of_le old carries.registry) held
    rcases carries.slots index id held'.1 held'.2 with ⟨new, -⟩ | ⟨active, slot, device, image⟩
    · omega
    · have path := congrArg VdiskInfo.path slot
      refine ⟨⟨active, slot ▸ held'.2⟩, stays.slot.trans slot, stays.device.trans device, ?_⟩
      exact (path ▸ stays.image).trans image

theorem after_names (ops : List Op) : ∀ {s : Disks}, DisksInv s →
    s.layer.devices.map (·.name) <+: (s.after ops).layer.devices.map (·.name) := by
  induction ops with
  | nil => exact fun _ => List.prefix_rfl
  | cons op rest ih =>
    intro s inv
    obtain ⟨carries, inv'⟩ := step_carries inv op
    exact carries.names.trans (ih inv')

theorem blockDeviceFind_names (devices : List Device) (name : CString) :
    blockDeviceFind devices name = (devices.map (·.name)).findIdx? (fun other => decide (other = name)) := by
  rw [List.findIdx?_map]
  rfl

theorem find_kept {devices devices' : List Device}
    (names : devices.map (·.name) <+: devices'.map (·.name))
    {name : CString} {id : Nat} (found : blockDeviceFind devices name = some id) :
    blockDeviceFind devices' name = some id := by
  rw [blockDeviceFind_names] at found ⊢
  obtain ⟨more, here⟩ := names
  rw [← here, List.findIdx?_append, found]
  rfl

theorem find_last_iff (devices : List Device) (last : Device) :
    blockDeviceFind (devices ++ [last]) last.name = some devices.length ↔
    blockDeviceFind devices last.name = none := by
  unfold blockDeviceFind
  rw [List.findIdx?_append]
  cases found : devices.findIdx? fun device => decide (device.name = last.name) with
  | none => simp
  | some id =>
    have bound := (List.findIdx?_eq_some_iff_getElem.mp found).1
    refine iff_of_false (fun same => ?_) nofun
    have last : id = devices.length := Option.some.inj same
    omega

/-- The disk is found under its name, it has the size and the mode of its attach, and reads return
the blocks of the image. -/
structure Serves (s : Disks) (id : Nat) (name : CString) (image : List UInt8) (size : Nat) (readOnly : Bool) : Prop where
  found : blockDeviceFind s.layer.devices name = some id
  device : ∃ device, s.layer.devices[id]? = some device ∧ device.blockCount * VDISK_SECTOR_SIZE = size ∧
    device.hasFlag BLOCK_DEVICE_FLAG_READ_ONLY = readOnly
  reads : ∀ lba count buffer bytes, (s.read id lba count buffer).2 = some bytes →
    (lba + count) * VDISK_SECTOR_SIZE ≤ size ∧ ∀ i < count,
      bytes.block (i * VDISK_SECTOR_SIZE) VDISK_SECTOR_SIZE =
        slice image ((lba + i) * VDISK_SECTOR_SIZE) VDISK_SECTOR_SIZE

theorem diskDevice_readOnly (id : Nat) (index : Fin VDISK_MAX_COUNT) (flags : UInt32) (size : Nat) :
    (diskDevice id index flags size).hasFlag BLOCK_DEVICE_FLAG_READ_ONLY =
    (flags &&& VDISK_FLAG_READ_ONLY != 0) := by
  have either : ∀ readOnly : Bool,
      ((if readOnly then BLOCK_DEVICE_FLAG_READ_ONLY else 0) &&& BLOCK_DEVICE_FLAG_READ_ONLY != 0) = readOnly := by
    decide
  exact either _

/-- The image of a slot is there, with the data that the slot has. -/
structure Imaged (s : Disks) (index : Fin VDISK_MAX_COUNT) (file : File) : Prop where
  contents : s.files.contents (s.vdisks index).path = some file
  length : file.1.length = (s.vdisks index).fileSize
  within : (s.vdisks index).size ≤ (s.vdisks index).fileSize

section Reads

variable {s : Disks} {index : Fin VDISK_MAX_COUNT} {id : Nat} {device : Device} {file : File}

theorem Imaged.small (imaged : Imaged s index file) : (s.vdisks index).size < 2 ^ 64 :=
  lt_of_le_of_lt (imaged.within.trans imaged.length.ge) file.2

theorem Imaged.block (imaged : Imaged s index file) {lba : Nat} {data : List UInt8}
    (block : s.Block index lba data) :
    data = slice file.1 (lba * VDISK_SECTOR_SIZE % 2 ^ 64) VDISK_SECTOR_SIZE ∧
    data.length = VDISK_SECTOR_SIZE := by
  obtain ⟨inside, rfl⟩ := block
  rw [bytes_of_file imaged.contents]
  refine ⟨rfl, slice_length ?_⟩
  have within := imaged.within
  have length := imaged.length
  omega

theorem read_image (inv : DisksInv s) (current : Current s index id device)
    (imaged : Imaged s index file)
    (small : (s.vdisks index).size ≤ 2 ^ 32) {lba count : Nat} {buffer bytes : Buffer}
    (done : (s.read id lba count buffer).2 = some bytes) :
    (lba + count) * VDISK_SECTOR_SIZE ≤ (s.vdisks index).size ∧ ∀ i < count,
      bytes.block (i * VDISK_SECTOR_SIZE) VDISK_SECTOR_SIZE =
        slice file.1 ((lba + i) * VDISK_SECTOR_SIZE) VDISK_SECTOR_SIZE := by
  have sized : ∀ lba data, s.Holds (device.cacheKey lba) data → data.length = device.logicalBlockSize :=
    fun lba data holds => (imaged.block (current.holds holds)).2.trans current.blockSize.symm
  unfold Disks.read at done
  rw [current.registered, current.context] at done
  dsimp only at done
  split at done
  · rename_i bounds
    have within := requestInBounds_within current.positive bounds
    have inside := Nat.mul_le_mul_right VDISK_SECTOR_SIZE within
    rw [current.blocks] at inside
    have fits : count * device.logicalBlockSize ≤ 2 ^ 32 := by
      rw [current.blockSize]
      exact (Nat.mul_le_mul_right _ (Nat.le_add_left count lba)).trans (inside.trans small)
    have read := readLoop_bytes lba sized fits count le_rfl (inv.reads current.registered current.context) inv.cache
      (fun i below => absurd below (by omega)) bytes done
    refine ⟨inside, fun i below => ?_⟩
    have place := place_no_wrap imaged.small current.blocks (show lba + i + 1 ≤ device.blockCount by omega)
    rw [← place, ← (imaged.block (current.holds (read i below))).1, current.blockSize]
  · cases done

end Reads

/-! ### Reads that do not fail -/

section Calm

theorem handle_calm (op : FileOp) (files : Files) (calm : files.outcomes = []) :
    (Files.handle op files).2.outcomes = [] := by
  have next := nextOutcome_calm calm
  cases op with
  | writeFile path data =>
    simp only [Files.handle, next]
    split
    · rw [if_neg Bool.false_ne_true]
      exact calm
    · exact calm
  | _ => simpa only [Files.handle, next] using calm

variable (device : Device) {s : Disks} {index : Fin VDISK_MAX_COUNT} {file : File}

theorem rawRead_calm (imaged : Imaged s index file) (active : (s.vdisks index).active = true)
    (calm : s.files.outcomes = []) {lba : Nat}
    (inside : lba * VDISK_SECTOR_SIZE % 2 ^ 64 + VDISK_SECTOR_SIZE ≤ (s.vdisks index).size) :
    ∃ t data, rawRead device index lba s = (t, some data) := by
  have some_bytes : file.1.length ≠ 0 := by
    have within := imaged.within
    have length := imaged.length
    unfold VDISK_SECTOR_SIZE at inside
    omega
  have place : requestPlace (s.vdisks index) file.1.length lba 1 =
      some (lba * VDISK_SECTOR_SIZE % 2 ^ 64, 1 * VDISK_SECTOR_SIZE) := by
    unfold requestPlace
    dsimp only
    rw [if_neg]
    have length := imaged.length
    omega
  have answered : wp Files.handle (withRetry (rawReadBlocks (s.vdisks index) lba 1) (retryBudget device + 1))
      (fun result _ => result.isSome = true) s.files := by
    rw [withRetry, wp_orElse, rawReadBlocks, wp_guard, if_pos active, wp_lift,
      vfsFileSize_calm calm imaged.contents, wp_ofOption, place]
    dsimp only
    rw [wp_bind]
    refine wp_mono (readImage_calm calm imaged.contents some_bytes) ?_
    rintro result files' ⟨rfl, rfl⟩
    rfl
  unfold wp at answered
  unfold rawRead
  rcases done : run Files.handle (withRetry (rawReadBlocks (s.vdisks index) lba 1) (retryBudget device + 1)).run s.files
    with ⟨_ | data, files⟩
  · rw [done] at answered
    cases answered
  · exact ⟨_, data, rfl⟩

theorem rawRead_stays_calm (index : Fin VDISK_MAX_COUNT) (calm : s.files.outcomes = []) (lba : Nat) :
    (rawRead device index lba s).1.files.outcomes = [] :=
  run_preserves handle_calm _ s.files calm

theorem fetchBlock_calm (imaged : Imaged s index file) (active : (s.vdisks index).active = true)
    (calm : s.files.outcomes = []) {lba : Nat}
    (inside : lba * VDISK_SECTOR_SIZE % 2 ^ 64 + VDISK_SECTOR_SIZE ≤ (s.vdisks index).size) :
    ∃ t data, fetchBlock device index lba s = (t, some data) ∧ Same s t ∧ t.files.outcomes = [] := by
  unfold fetchBlock
  split
  · exact ⟨s, _, rfl, .refl s, calm⟩
  · obtain ⟨t, data, done⟩ := rawRead_calm device imaged active calm inside
    have calm' := rawRead_stays_calm device index calm lba
    have same := (rawRead_spec device index lba s).2.1
    rw [done] at calm' same
    rw [done]
    exact ⟨_, data, rfl, same.trans (.layer (cacheStore_same t.layer device lba data).devices), calm'⟩

theorem readAhead_calm (index : Fin VDISK_MAX_COUNT) (calm : s.files.outcomes = []) (lba : Nat) :
    Same s (readAhead device index lba s) ∧ (readAhead device index lba s).files.outcomes = [] := by
  have any : Labelled (fun _ _ => True) s.layer := fun _ _ => trivial
  refine ⟨(readAhead_spec (P := fun _ _ => True) (fun _ _ _ => trivial) any lba).2, ?_⟩
  unfold readAhead
  split
  · split
    · exact calm
    · rename_i layer a _
      have calm' := rawRead_stays_calm (s := { s with layer := layer }) device index calm lba
      split
      · rename_i t data done
        rw [done] at calm'
        exact calm'
      · rename_i t failed
        rw [failed] at calm'
        exact calm'
  · exact calm

theorem readLoop_calm {lba count : Nat}
    (inside : ∀ i < count, (lba + i) * VDISK_SECTOR_SIZE % 2 ^ 64 + VDISK_SECTOR_SIZE ≤ (s.vdisks index).size)
    (remaining : Nat) (within : remaining ≤ count) : ∀ {s' : Disks}
    {bytes : Buffer}, s'.vdisks = s.vdisks →
      Imaged s' index file → (s'.vdisks index).active = true → s'.files.outcomes = [] →
      (readLoop device index lba count remaining s' bytes).2.isSome = true := by
  induction remaining with
  | zero => exact fun _ _ _ _ => rfl
  | succ remaining ih =>
    intro s' bytes slots imaged active calm
    have stays : ∀ {t : Disks}, Same s' t → t.vdisks = s.vdisks ∧ Imaged t index file ∧ (t.vdisks index).active = true := by
      intro t same
      have contents : t.files.contents = s'.files.contents := same.files
      exact ⟨same.vdisks.trans slots,
        ⟨by rw [contents, same.vdisks, imaged.contents], by rw [same.vdisks, imaged.length],
          by rw [same.vdisks]; exact imaged.within⟩, by rw [same.vdisks, active]⟩
    have here := inside (count - (remaining + 1)) (by omega)
    rw [← slots] at here
    obtain ⟨t, data, fetched, same, calm'⟩ := fetchBlock_calm device imaged active calm here
    obtain ⟨slots', imaged', active'⟩ := stays same
    rw [readLoop]
    dsimp only
    rw [fetched]
    dsimp only
    split
    · obtain ⟨same', calm''⟩ := readAhead_calm device index calm' (lba + (count - (remaining + 1)) + 1)
      obtain ⟨slots'', imaged'', active''⟩ := stays (same.trans same')
      exact ih (by omega) slots'' imaged'' active'' calm''
    · exact ih (by omega) slots' imaged' active' calm'

end Calm

/-! ### Main result -/

section Main

variable {s t : Disks} {kind : AttachKind} {path : CString} {flags : UInt32} {id : Nat} {index : Fin VDISK_MAX_COUNT}

theorem Attaches.imaged (attaches : Attaches s t kind path flags id index) (same : s.files.Same t.files)
    (fits : path.length < SHELL_PATH_CAPACITY) : ∃ file, Imaged t index file ∧
    file.1 = s.files.bytes path := by
  have data := attaches.sizes.1
  have within := dataSize_le kind (s.files.bytes path)
  obtain ⟨format, info⟩ := attaches.info
  cases there : s.files.contents path with
  | none =>
    have empty : s.files.bytes path = [] := by
      unfold Files.bytes
      rw [there]
    rw [empty] at data within
    exact absurd (Nat.le_zero.mp within) data
  | some file =>
    have contents : t.files.contents = s.files.contents := same
    have bytes := bytes_of_file there
    refine ⟨file, ⟨?_, ?_, ?_⟩, bytes.symm⟩
    · rw [info, contents]
      dsimp only [diskInfo]
      rw [copyString_of_fits (show path.length < 256 from fits), there]
    · rw [info]
      exact congrArg List.length bytes.symm
    · rw [info]
      exact within

theorem Attaches.later (attaches : Attaches s t kind path flags id index) (inv : DisksInv t)
    {file : File}
    (imaged : Imaged t index file) {ops : List Op} (held : Held (t.after ops) index id) :
    Current (t.after ops) index id (diskDevice id index flags (dataSize kind (s.files.bytes path))) ∧
      Imaged (t.after ops) index file ∧ ((t.after ops).vdisks index).size =
      dataSize kind (s.files.bytes path) := by
  have current := attaches.current
  obtain ⟨-, stays⟩ := after_stays ops inv (inv.contexts id index current.context) held
  obtain ⟨device, current'⟩ := (after_inv inv ops).current index id held.1 held.2
  have same : device = diskDevice id index flags (dataSize kind (s.files.bytes path)) := by
    have registered := current'.registered
    rw [stays.device, current.registered] at registered
    exact (Option.some.inj registered).symm
  obtain ⟨format, info⟩ := attaches.info
  refine ⟨same ▸ current', ⟨?_, ?_, ?_⟩, ?_⟩
  · rw [stays.slot, stays.image, imaged.contents]
  · rw [stays.slot, imaged.length]
  · rw [stays.slot]
    exact imaged.within
  · rw [stays.slot, info]
    rfl

theorem Attaches.too_large (attaches : Attaches s t kind path flags id index) (inv : DisksInv t)
    {file : File}
    (imaged : Imaged t index file) (large : ¬dataSize kind (s.files.bytes path) ≤ 2 ^ 32) :
    ∃ later, Held (t.after later) index id ∧ ∃ buffer bytes,
      ((t.after later).read id 0 (2 ^ 23 + 1) buffer).2 = some bytes ∧
        bytes.block (2 ^ 23 * VDISK_SECTOR_SIZE) VDISK_SECTOR_SIZE ≠
          slice file.1 ((0 + 2 ^ 23) * VDISK_SECTOR_SIZE) VDISK_SECTOR_SIZE := by
  have current := attaches.current
  have held : Held (t.after [.changeFiles t.files.contents []]) index id := ⟨current.active, current.held⟩
  obtain ⟨current', imaged', size⟩ := attaches.later inv imaged held
  have inv' := after_inv inv [.changeFiles t.files.contents []]
  have calm : (t.after [.changeFiles t.files.contents []]).files.outcomes = [] := rfl
  have within := dataSize_le kind (s.files.bytes path)
  have whole := attaches.sizes.2
  have last : 2 ^ 32 < file.1.length := by
    have below := imaged'.within.trans imaged'.length.ge
    omega
  refine ⟨[.changeFiles t.files.contents []], held, fun _ => file.1[2 ^ 32] + 1, ?_⟩
  generalize t.after [.changeFiles t.files.contents []] = u at held current' imaged' size inv' calm
  have blocks : 2 ^ 23 + 1 ≤ (diskDevice id index flags (dataSize kind (s.files.bytes path))).blockCount := by
    dsimp only [diskDevice]
    unfold VDISK_SECTOR_SIZE at whole ⊢
    omega
  have bounds : requestInBounds (diskDevice id index flags (dataSize kind (s.files.bytes path))) 0 (2 ^ 23 + 1) = true := by
    unfold requestInBounds maxU64
    rw [if_neg (by omega), if_neg (by omega), if_neg (by omega), if_neg (by omega)]
    exact decide_eq_true (by omega)
  have sized : ∀ lba data, u.Holds ((diskDevice id index flags (dataSize kind (s.files.bytes path))).cacheKey lba) data →
      data.length = VDISK_SECTOR_SIZE := fun lba data holds => (imaged'.block (current'.holds holds)).2
  have inside : ∀ i < 2 ^ 23 + 1, (0 + i) * VDISK_SECTOR_SIZE % 2 ^ 64 + VDISK_SECTOR_SIZE ≤ (u.vdisks index).size := by
    intro i below
    rw [size]
    unfold VDISK_SECTOR_SIZE at whole ⊢
    omega
  have done : (readLoop (diskDevice id index flags (dataSize kind (s.files.bytes path))) index 0 (2 ^ 23 + 1) (2 ^ 23 + 1) u
      fun _ => file.1[2 ^ 32] + 1).2.isSome = true :=
    readLoop_calm _ inside _ le_rfl rfl imaged' current'.active calm
  obtain ⟨bytes, read⟩ := Option.isSome_iff_exists.mp done
  refine ⟨bytes, ?_, fun same => ?_⟩
  · unfold Disks.read
    rw [current'.registered, current'.context]
    dsimp only
    rw [if_pos bounds, read]
  · have kept := readLoop_beyond 0 (2 ^ 23 + 1) sized rfl _ (inv'.reads current'.registered current'.context) inv'.cache
      bytes read (2 ^ 32) le_rfl
    -- The first byte of that block is still the one that the buffer held.
    have place : 2 ^ 23 * VDISK_SECTOR_SIZE = 2 ^ 32 := by norm_num [VDISK_SECTOR_SIZE]
    rw [Nat.zero_add, place] at same
    have first := congrArg (·[0]?) same
    rw [slice, List.getElem?_take_of_lt (by decide), List.getElem?_drop, Nat.add_zero, List.getElem?_eq_getElem last,
      Buffer.block, List.getElem?_map, List.getElem?_range (by decide), Option.map_some, Nat.add_zero, kept] at first
    have changed := Option.some.inj first
    simp at changed

/-- A disk that is attached is found, has the size and the mode of its image and returns its bytes for
as long as it is attached if and only if no device had the name of the slot and the data of the
image have at most 2^32 bytes. -/
theorem reattach_iff (media : Nat → Nat → Buffer) (files : Files) (ops : List Op)
    (kind : AttachKind) (path : CString)
    (flags : UInt32) (fits : path.length < SHELL_PATH_CAPACITY) {s : Disks}
    (reached : s = (initial media files).after ops) {id : Nat} {index : Fin VDISK_MAX_COUNT}
    (attached : (s.attach kind path flags).2 = some (id, index)) :
    (∀ later, Held ((s.attach kind path flags).1.after later) index id →
      Serves ((s.attach kind path flags).1.after later) id ((s.attach kind path flags).1.vdisks index).name
        (s.files.bytes path) (dataSize kind (s.files.bytes path)) (flags &&& VDISK_FLAG_READ_ONLY != 0)) ↔
      (∀ slot, freeSlot s.vdisks = some slot → blockDeviceFind s.layer.devices (slotName slot) = none) ∧
        dataSize kind (s.files.bytes path) ≤ 2 ^ 32 := by
  have inv : DisksInv s := reached ▸ after_inv (initial_inv media files) ops
  have inv' : DisksInv (s.attach kind path flags).1 := (step_carries inv (.attach kind path flags)).2
  obtain ⟨same, ⟨refused, -⟩ | ⟨_, _, made, attaches, -⟩⟩ := attach_ends s kind path flags
  · rw [refused] at attached
    cases attached
  · rw [made] at attached
    cases attached
    generalize (s.attach kind path flags).1 = t at same attaches inv'
    obtain ⟨file, imaged, bytes⟩ := attaches.imaged same fits
    obtain ⟨format, info⟩ := attaches.info
    have name : (t.vdisks index).name = slotName index := by
      rw [info]
      rfl
    have found : blockDeviceFind t.layer.devices (slotName index) = some id ↔
        blockDeviceFind s.layer.devices (slotName index) = none := by
      rw [attaches.devices, attaches.new]
      exact find_last_iff s.layer.devices (diskDevice _ index flags _)
    rw [name]
    constructor
    · intro serves
      refine ⟨fun slot free => ?_, ?_⟩
      · rw [attaches.free] at free
        cases free
        exact found.mp (serves [] ⟨attaches.current.active, attaches.current.held⟩).found
      · by_contra large
        obtain ⟨later, held, buffer, result, read, wrong⟩ := attaches.too_large inv' imaged large
        rw [bytes] at wrong
        exact wrong (((serves later held).reads 0 _ buffer result read).2 _ (Nat.lt_succ_self _))
    · rintro ⟨unused, small⟩ later held
      obtain ⟨current, imaged', size⟩ := attaches.later inv' imaged held
      refine ⟨find_kept (after_names later inv') (found.mpr (unused index attaches.free)), ?_, ?_⟩
      · exact ⟨_, current.registered, current.blocks.trans size, diskDevice_readOnly id index flags _⟩
      · intro lba count buffer result read
        rw [← size] at small
        rw [← size, ← bytes]
        exact read_image (after_inv inv' later) current imaged' small read

end Main

/-! ### Two images -/

def firstPath : CString := "/a.img".toList
def secondPath : CString := "/b.img".toList

/-- An image of one sector and one of two. -/
def imageFiles : Files where
  contents := fun path =>
    if path = firstPath then some ⟨List.replicate 512 1, by rw [List.length_replicate]; norm_num⟩
    else if path = secondPath then some ⟨List.replicate 1024 2, by rw [List.length_replicate]; norm_num⟩
    else none
  outcomes := []

def noDisks : Disks := initial (fun _ _ _ => 0) imageFiles

theorem reattach_iff_first : (noDisks.attach .raw firstPath 1).2 = some (0, ⟨0, by decide⟩) ∧
    ∀ later, Held ((noDisks.attach .raw firstPath 1).1.after later) ⟨0, by decide⟩ 0 →
      Serves ((noDisks.attach .raw firstPath 1).1.after later) 0 ((noDisks.attach .raw firstPath 1).1.vdisks ⟨0, by decide⟩).name
        (noDisks.files.bytes firstPath) (dataSize .raw (noDisks.files.bytes firstPath))
        ((1 : UInt32) &&& VDISK_FLAG_READ_ONLY != 0) := by
  have attached : (noDisks.attach .raw firstPath 1).2 = some (0, ⟨0, by decide⟩) := by decide +kernel
  have start : noDisks = (initial (fun _ _ _ => 0) imageFiles).after [] := rfl
  refine ⟨attached, (reattach_iff _ _ [] .raw firstPath 1 (by decide) start attached).mpr ⟨fun _ _ => rfl, ?_⟩⟩
  decide +kernel

/-- The state in which a slot is free again. -/
def detached : Disks := noDisks.after [.attach .raw firstPath 0, .detach (fun _ => false) (slotName exampleSlot)]

/-- The second image is attached as the device 1, and the name leads to the device 0. -/
theorem reattach_stale : (detached.attach .raw secondPath 0).2 = some (1, ⟨0, by decide⟩) ∧
    ¬∀ later, Held ((detached.attach .raw secondPath 0).1.after later) ⟨0, by decide⟩ 1 →
      Serves ((detached.attach .raw secondPath 0).1.after later) 1
        ((detached.attach .raw secondPath 0).1.vdisks ⟨0, by decide⟩).name (detached.files.bytes secondPath)
        (dataSize .raw (detached.files.bytes secondPath)) ((0 : UInt32) &&& VDISK_FLAG_READ_ONLY != 0) := by
  refine ⟨by decide +kernel, fun serves => ?_⟩
  have held : Held ((detached.attach .raw secondPath 0).1.after []) ⟨0, by decide⟩ 1 :=
    ⟨by decide +kernel, by decide +kernel⟩
  have stale : blockDeviceFind ((detached.attach .raw secondPath 0).1.after []).layer.devices
      ((detached.attach .raw secondPath 0).1.vdisks ⟨0, by decide⟩).name = some 0 := by decide +kernel
  have found := (serves [] held).found
  rw [stale] at found
  cases found

end Disks

end AsasOs.VirtualDisk
