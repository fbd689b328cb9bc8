import AsasOs.Block.CacheRuns

/-!
# The cache after a failed write

A write that fails may have transferred some of its blocks, and leaves the cache as it
is. Reads that come later are answered from the cache, whatever the driver does for them.

## Model

- The driver fails and succeeds in any way, during the write and during the reads.
- The blocks transferred by the attempts of one write are those of the longest attempt, as
  every attempt begins with the first block.

## Main results

- `failedWrite_iff`: when every later read returns what the device holds.
- `stale_after_failure`: a failed write after which a read returns old bytes.
-/
namespace AsasOs.Block

open Slots

variable {s s' : BlockLayer} {device : Device}

/-! ### A failed write -/

/-- The first blocks of a request have been transferred, and nothing else has changed. -/
def Torn (disk size lba count : Nat) (buffer : Buffer) (s s' : BlockLayer) : Prop :=
  ∃ transferred ≤ count, s'.quiet = (s.store disk size lba transferred buffer).quiet

section Torn

variable {disk size lba count : Nat} {buffer : Buffer} {s s' t : BlockLayer}

theorem store_none (s : BlockLayer) : s.store disk size lba 0 buffer = s := by
  have same : transfer (s.media disk) lba 0 size buffer = s.media disk := by
    funext k
    rw [transfer, if_neg (by omega)]
  rw [BlockLayer.store, same, Function.update_eq_self]

theorem store_store (s : BlockLayer) (first second : Nat) :
    (s.store disk size lba first buffer).store disk size lba second buffer =
      s.store disk size lba (max first second) buffer := by
  have same : transfer (transfer (s.media disk) lba first size buffer) lba second size buffer =
      transfer (s.media disk) lba (max first second) size buffer := by
    funext k
    simp only [transfer]
    by_cases late : lba ≤ k ∧ k < lba + second
    · rw [if_pos late, if_pos (by omega)]
    · rw [if_neg late]
      by_cases early : lba ≤ k ∧ k < lba + first
      · rw [if_pos early, if_pos (by omega)]
      · rw [if_neg early, if_neg (by omega)]
  simp only [BlockLayer.store, Function.update_self, Function.update_idem]
  rw [same]

theorem Torn.refl (s : BlockLayer) : Torn disk size lba count buffer s s :=
  ⟨0, Nat.zero_le _, by rw [store_none]⟩

theorem Torn.trans (first : Torn disk size lba count buffer s t)
    (second : Torn disk size lba count buffer t s') : Torn disk size lba count buffer s s' := by
  obtain ⟨early, within, one⟩ := first
  obtain ⟨late, within', other⟩ := second
  refine ⟨max early late, by omega, ?_⟩
  have stored : (t.store disk size lba late buffer).quiet = t.quiet.store disk size lba late buffer := rfl
  rw [other, stored, one, ← store_store]
  rfl

theorem writeWithRetry_torn {write : BlockLayer → BlockLayer × Bool}
    (tries : ∀ s s', write s = (s', false) → Torn disk size lba count buffer s s') :
    ∀ attempts s s', writeWithRetry write attempts s = (s', false) →
      Torn disk size lba count buffer s s' := by
  intro attempts
  induction attempts with
  | zero =>
    intro s s' failed
    cases failed
    exact .refl s
  | succ attempts ih =>
    intro s s' failed
    rw [writeWithRetry] at failed
    split at failed
    · cases failed
    · rename_i t first
      exact (tries _ _ first).trans (ih _ _ failed)

end Torn

theorem driverWrite_torn {lba count : Nat} {buffer : Buffer}
    (failed : driverWrite device lba count buffer s = (s', false)) :
    Torn device.id device.logicalBlockSize lba count buffer s s' := by
  unfold driverWrite BlockLayer.nextOutcome at failed
  cases ahead : s.outcomes with
  | nil =>
    rw [ahead] at failed
    cases failed
  | cons outcome later =>
    rw [ahead] at failed
    cases outcome with
    | succeeds => cases failed
    | failsAfter transferred =>
      cases failed
      exact ⟨min transferred count, by omega, rfl⟩

theorem diskWrite_torn {disk : Device} (isDisk : disk.ops = .driver) {depth lba count : Nat}
    {buffer : Buffer}
    (failed : blockDeviceWrite depth disk lba count buffer s = (s', false)) :
    Torn disk.id disk.logicalBlockSize lba count buffer s s' := by
  cases depth with
  | zero =>
    cases failed
    exact .refl _
  | succ depth =>
    rw [blockDeviceWrite] at failed
    split at failed
    · split at failed
      · rename_i t tried
        cases failed
        simp only [rawWriteWithRetry, isDisk] at tried
        exact writeWithRetry_torn (fun _ _ => driverWrite_torn) _ _ _ tried
      · cases failed
    · cases failed
      exact .refl _

theorem blockDeviceWrite_torn (registry : Registry s.devices) {device : Device}
    (registered : Registered s device) {depth lba count : Nat} {buffer : Buffer}
    (failed : blockDeviceWrite depth device lba count buffer s = (s', false)) :
    Torn (physical device lba).1 device.logicalBlockSize (physical device lba).2 count buffer s s' := by
  cases kind : device.ops with
  | driver =>
    rw [physical, registry.disks _ _ registered kind]
    exact diskWrite_torn kind failed
  | partition =>
    obtain ⟨parent, named, registeredParent, isDisk, sizes⟩ := registry.size_eq registered kind
    rw [physical, named, ← sizes]
    cases depth with
    | zero =>
      cases failed
      exact .refl _
    | succ depth =>
      rw [blockDeviceWrite] at failed
      split at failed
      swap
      · cases failed
        exact .refl _
      split at failed
      swap
      · cases failed
      rename_i t tried
      cases failed
      simp only [rawWriteWithRetry, kind] at tried
      -- The devices are those of `s` in every attempt.
      have attempts : ∀ attempts t t', t.devices = s.devices →
          writeWithRetry (partitionWrite (blockDeviceWrite depth) device lba count buffer) attempts t =
            (t', false) →
          Torn parent.id parent.logicalBlockSize (device.startLba + lba) count buffer t t' := by
        intro attempts
        induction attempts with
        | zero =>
          intro t t' _ failed
          cases failed
          exact .refl _
        | succ attempts ih =>
          intro t t' devices failed
          rw [writeWithRetry] at failed
          split at failed
          · cases failed
          · rename_i u first
            have here : Torn parent.id parent.logicalBlockSize (device.startLba + lba) count buffer t u := by
              have at_parent : device.parent.bind (t.devices[·]?) = some parent := by
                rw [named, devices]
                exact registeredParent
              simp only [partitionWrite, at_parent] at first
              split at first
              · cases first
                exact .refl _
              · exact diskWrite_torn isDisk first
            have unchanged : u.devices = t.devices := by
              obtain ⟨transferred, _, same⟩ := here
              have field := quiet_devices same
              exact field
            exact here.trans (ih u t' (unchanged.trans devices) failed)
      exact attempts _ _ _ rfl tried

/-! ### Reads after the write -/

/-- A call of `block_device_read` on the device of a number. -/
structure ReadRequest where
  device : Nat
  lba : UInt64
  count : UInt32
  buffer : Buffer

/-- Every one of the reads that succeeds returns what the device holds. A request of more than 4 GiB
wraps its offsets whatever the cache contains, and ends the sequence here. -/
def ReadsAgree (s : BlockLayer) : List ReadRequest → Prop
  | [] => True
  | request :: later =>
    ∀ device, s.devices[request.device]? = some device →
      request.count.toNat * device.logicalBlockSize ≤ 2 ^ 32 →
        (∀ bytes, (readResult s device request.lba request.count request.buffer).2 = some bytes →
          ∀ i < request.count.toNat, bytes.block (i * device.logicalBlockSize) device.logicalBlockSize =
              content s (device.cacheKey (request.lba.toNat + i))) ∧
        ReadsAgree (readResult s device request.lba request.count request.buffer).1 later

/-- The cache agrees with the devices, and caches blocks that they have. -/
structure Agreeing (s : BlockLayer) : Prop where
  inv : CacheInv ∅ s.quiet
  within : ∀ slot, (s.cacheEntries slot).valid = true → (s.cacheEntries slot).key.lba < 2 ^ 64 ∧
    ∀ device, s.devices[(s.cacheEntries slot).key.deviceId]? = some device →
      requestInBounds device (s.cacheEntries slot).key.lba 1 = true

theorem readsAgree_of_inv (requests : List ReadRequest) :
    ∀ {s : BlockLayer}, CacheInv ∅ s.quiet → ReadsAgree s requests := by
  induction requests with
  | nil => exact fun _ => trivial
  | cons request later ih =>
    intro s inv device there small
    have id := inv.registry.ids _ _ there
    have registered : Registered s device := by
      unfold Registered
      rw [id]
      exact there
    obtain ⟨inv', _, right⟩ := blockDeviceRead_faulty inv registered (device.id + 1)
      request.lba.toNat request.count.toNat request.buffer small
    exact ⟨right, ih inv'⟩

theorem read_cached {s : BlockLayer} {slot : Fin BLOCK_CACHE_ENTRY_COUNT} {lba : Nat} {buffer : Buffer}
    (found : cacheFind s device lba = some slot)
    (inside : requestInBounds device lba 1 = true)
    (length : (s.cacheEntries slot).data.length = device.logicalBlockSize) (depth : Nat) :
    ∃ bytes, (blockDeviceRead (depth + 1) device lba 1 s buffer).2 = some bytes ∧
      bytes.block 0 device.logicalBlockSize = (s.cacheEntries slot).data := by
  have fetched : fetchBlock (rawReadWithRetry (blockDeviceRead depth) device) device (lba + (1 - (0 + 1))) s =
      (s, some (s.cacheEntries slot).data) := by
    unfold fetchBlock
    rw [show lba + (1 - (0 + 1)) = lba from rfl, found]
  rw [blockDeviceRead, if_pos inside, readLoop]
  dsimp only
  rw [fetched]
  dsimp only
  have offset : (1 - (0 + 1)) * device.logicalBlockSize % 2 ^ 32 = 0 := by simp
  have block := Buffer.put_block buffer 0 (s.cacheEntries slot).data
  rw [length] at block
  rw [offset]
  split
  · exact ⟨_, rfl, block⟩
  · exact ⟨_, rfl, block⟩

/-- The blocks that are in the cache and were transferred, under whatever device, are cached with
their new bytes. -/
def Refreshed (s : BlockLayer) (device : Device) (lba transferred : Nat) (buffer : Buffer) : Prop :=
  ∀ slot, (s.cacheEntries slot).valid = true →
    ∀ holder, s.devices[(s.cacheEntries slot).key.deviceId]? = some holder →
      ∀ i < transferred, physical holder (s.cacheEntries slot).key.lba = physical device (lba + i) →
        (s.cacheEntries slot).data = buffer.block (i * device.logicalBlockSize) device.logicalBlockSize

section FailedWrite

variable {s s' : BlockLayer} {device : Device} {lba transferred : Nat} {buffer : Buffer}

theorem content_transferred (registry : Registry s.devices) (registered : Registered s device)
    {holder : Device} {key : CacheKey} (there : s.devices[key.deviceId]? = some holder)
    (size : key.blockSize = holder.logicalBlockSize) {i : Nat} (below : i < transferred)
    (same : physical holder key.lba = physical device (lba + i)) :
    content (s.store (physical device lba).1 device.logicalBlockSize (physical device lba).2 transferred
      buffer) key = buffer.block (i * device.logicalBlockSize) device.logicalBlockSize := by
  have id := registry.ids _ _ there
  have registeredHolder : Registered s holder := by
    unfold Registered
    rw [id]
    exact there
  have disks : (physical holder key.lba).1 = (physical device (lba + i)).1 := by rw [same]
  have sizes := registry.same_size registeredHolder registered disks
  have devices : (s.store (physical device lba).1 device.logicalBlockSize (physical device lba).2
    transferred buffer).devices = s.devices := rfl
  simp only [content, devices, there]
  rw [same, physical_add, size, sizes]
  exact store_media_inside below _

theorem inv_of_refreshed (inv : CacheInv ∅ s.quiet) (registered : Registered s device)
    (torn : s'.quiet = (s.store (physical device lba).1 device.logicalBlockSize (physical device lba).2
      transferred buffer).quiet) (refreshed : Refreshed s device lba transferred buffer) :
    CacheInv ∅ s'.quiet := by
  rw [torn]
  refine ⟨inv.registry, rfl, inv.unique, inv.labelled, ?_⟩
  intro slot valid outside
  obtain ⟨holder, at_id, size, _⟩ := inv.labelled slot valid
  by_cases inside : ∃ i < transferred, physical holder (s.cacheEntries slot).key.lba =
      physical device (lba + i)
  · obtain ⟨i, below, same⟩ := inside
    have new : content (s.store _ _ _ transferred buffer) _ = _ := content_transferred inv.registry registered at_id size below same
    exact (refreshed slot valid holder at_id i below same).trans new.symm
  · have old := inv.coherent slot valid outside
    refine old.trans (content_store_other at_id ?_).symm
    intro i below same
    exact inside ⟨i, below, by rw [physical_add]; exact same⟩

theorem cached_agrees (agreeing : Agreeing s) (entries : s'.cacheEntries = s.cacheEntries)
    (devices : s'.devices = s.devices) (every : ∀ requests, ReadsAgree s' requests)
    {slot : Fin BLOCK_CACHE_ENTRY_COUNT} (valid : (s.cacheEntries slot).valid = true) :
    (s.cacheEntries slot).data = content s' (s.cacheEntries slot).key := by
  have inv := agreeing.inv
  obtain ⟨holder, there, size, cached⟩ := inv.labelled slot valid
  obtain ⟨small, inside⟩ := agreeing.within slot valid
  have id := inv.registry.ids _ _ there
  have registered : Registered s.quiet holder := by
    unfold Registered
    rw [id]
    exact there
  have key : (s.cacheEntries slot).key = holder.cacheKey (s.cacheEntries slot).key.lba := by
    rw [Device.cacheKey, ← size, id]
    rfl
  have found : cacheFind s' holder (s.cacheEntries slot).key.lba = some slot := by
    have same : cacheFind s' holder (s.cacheEntries slot).key.lba =
        cacheFind s.quiet holder (s.cacheEntries slot).key.lba := by
      unfold cacheFind
      rw [entries]
      rfl
    rw [same]
    cases search : cacheFind s.quiet holder (s.cacheEntries slot).key.lba with
    | none => exact absurd key (cacheFind_none inv registered search slot valid)
    | some other =>
      obtain ⟨valid', key'⟩ := cacheFind_some search
      rw [inv.unique other slot valid' valid (key'.trans key.symm)]
  have length : (s.cacheEntries slot).data.length = holder.logicalBlockSize := by
    have old := inv.coherent slot valid (Set.notMem_empty _)
    rw [show s.quiet.cacheEntries = s.cacheEntries from rfl, key] at old
    rw [old]
    exact content_length registered _
  have bounded := inv.registry.sizes _ _ there
  have asked := every [⟨holder.id, .ofNat (s.cacheEntries slot).key.lba, 1, fun _ => 0⟩] holder
    (by rw [devices]; exact registered) (by change 1 * _ ≤ _; omega)
  have lba : (UInt64.ofNat (s.cacheEntries slot).key.lba).toNat = (s.cacheEntries slot).key.lba :=
    UInt64.toNat_ofNat_of_lt small
  obtain ⟨bytes, returned, block⟩ := @read_cached _ _ _ _ (fun _ => 0) found (inside holder there)
    (by rw [entries]; exact length) holder.id
  have right := asked.1 bytes
    (by rw [readResult, lba]; exact returned) 0 (show 0 < 1 by decide)
  rw [Nat.zero_mul, block, entries, lba, Nat.add_zero, ← key] at right
  exact right

/-- After a failed write every later read returns what the device holds, exactly when the transferred
blocks are cached, if at all, with their new bytes. -/
theorem failedWrite_iff {lba : UInt64} {count : UInt32} (agreeing : Agreeing s)
    (there : s.devices[device.id]? = some device)
    (failed : writeResult s device lba count buffer = (s', false)) :
    ∃ transferred ≤ count.toNat, s'.media = (s.store (physical device lba.toNat).1 device.logicalBlockSize
        (physical device lba.toNat).2 transferred buffer).media ∧
      ((∀ requests, ReadsAgree s' requests) ↔ Refreshed s device lba.toNat transferred buffer) := by
  have inv := agreeing.inv
  have registry : Registry s.devices := inv.registry
  obtain ⟨transferred, within, torn⟩ := blockDeviceWrite_torn registry there failed
  refine ⟨transferred, within, quiet_media torn, ?_⟩
  constructor
  · intro every slot valid holder at_id i below same
    obtain ⟨labelled, at_id', size, _⟩ := inv.labelled slot valid
    have held : labelled = holder := Option.some.inj (at_id'.symm.trans at_id)
    have entries := quiet_entries torn
    have devices := quiet_devices torn
    rw [cached_agrees agreeing entries devices every valid,
      ← content_transferred registry there at_id (held ▸ size) below same]
    have contents : content s'.quiet = content (s.store (physical device lba.toNat).1
        device.logicalBlockSize (physical device lba.toNat).2 transferred buffer).quiet := by rw [torn]
    exact congrFun contents _
  · intro refreshed requests
    exact readsAgree_of_inv requests (inv_of_refreshed inv there torn refreshed)

end FailedWrite

/-! ### A disk that fails after one block -/

def cachingCalls : List Call := registrations ++ [.read 0 8 1 fun _ => 0]

/-- The disk and its partition, with block 8 of the disk in the cache. -/
def cachedLayer : BlockLayer := (cachingCalls.foldl step (initialRun fun _ _ _ => 0)).layer

/-- The same layer when every attempt of the next write fails after its first block. -/
def failingLayer : BlockLayer :=
  { cachedLayer with outcomes := [.failsAfter 1, .failsAfter 1, .failsAfter 1] }

def failedLayer : BlockLayer := (writeResult failingLayer exampleDisk 8 2 sevens).1

theorem failingLayer_disk : failingLayer.devices[exampleDisk.id]? = some exampleDisk := by decide

theorem failingLayer_fails : writeResult failingLayer exampleDisk 8 2 sevens = (failedLayer, false) := by
  have failed : (writeResult failingLayer exampleDisk 8 2 sevens).2 = false := by decide
  rw [← failed]
  rfl

theorem failingLayer_agreeing : Agreeing failingLayer := by
  have initial := RunInv.initial fun _ _ _ => 0
  have disk : RunInv _ (step _ (.registerDisk exampleDisk)) := step_inv initial trivial
  have partition : RunInv _ (step _ (.registerPartition 0 8 32 ['p', '1'] 0)) := step_inv disk trivial
  have inv : RunInv _ (step _ (.read 0 8 1 fun _ => 0)) := step_inv partition (by
    intro device there _
    have size : device.logicalBlockSize = 512 := field_of_some (by decide) there
    rw [size]
    decide)
  constructor
  · exact { inv.cache with faultless := rfl }
  · decide

theorem failedWrite_iff_cached : ∃ transferred ≤ (2 : UInt32).toNat,
      failedLayer.media = (failingLayer.store (physical exampleDisk (8 : UInt64).toNat).1
        exampleDisk.logicalBlockSize (physical exampleDisk (8 : UInt64).toNat).2 transferred sevens).media ∧
      ((∀ requests, ReadsAgree failedLayer requests) ↔
        Refreshed failingLayer exampleDisk (8 : UInt64).toNat transferred sevens) :=
  failedWrite_iff failingLayer_agreeing failingLayer_disk failingLayer_fails

/-- A block that was transferred is read from the cache as it was before. -/
theorem stale_after_failure :
    ¬ ∀ (s s' : BlockLayer) (device : Device) (lba : UInt64) (count : UInt32) (buffer : Buffer),
      Agreeing s → s.devices[device.id]? = some device →
        writeResult s device lba count buffer = (s', false) → ∀ requests, ReadsAgree s' requests := by
  intro every
  have agrees := every _ _ _ 8 2 _ failingLayer_agreeing failingLayer_disk failingLayer_fails
    [⟨0, 8, 1, fun _ => 0⟩] exampleDisk (by decide +kernel) (by decide)
  have seen : ((readResult failedLayer exampleDisk 8 1 fun _ => 0).2.map fun bytes =>
      bytes.block (0 * exampleDisk.logicalBlockSize) exampleDisk.logicalBlockSize ==
        content failedLayer (exampleDisk.cacheKey (8 + 0))) = some false := by decide +kernel
  obtain ⟨bytes, done, differ⟩ := Option.map_eq_some_iff.mp seen
  exact ne_of_beq_false differ (agrees.1 bytes done 0 (by decide))

end AsasOs.Block
