import AsasOs.Block.Requests

/-!
# Runs of the block layer

Any sequence of registrations, reads, writes and flush barriers, from the empty
layer. Next to the layer a run records the successful writes, from which
`lastWritten` computes what a read of a physical block should return.
-/
namespace AsasOs.Block

open Slots

/-- A call of the block layer. Partitions are registered by the scan of a disk,
which refuses a device that has a parent itself. -/
inductive Call where
  | registerDisk (description : Device)
  | registerPartition (disk : Nat) (startLba blockCount : UInt64) (name : CString) (flags : UInt32)
  | read (device : Nat) (lba : UInt64) (count : UInt32) (buffer : Buffer)
  | write (device : Nat) (lba : UInt64) (count : UInt32) (buffer : Buffer)
  | flushBarrier (device : Nat)

/-- A successful `block_device_write`. -/
structure WriteEvent where
  device : Device
  lba : Nat
  count : Nat
  buffer : Buffer

/-- The layer and the successful writes, the latest first. -/
structure Run where
  layer : BlockLayer
  written : List WriteEvent

/-- The block of the request of a write that is the physical block `block`. -/
def WriteEvent.indexOf (event : WriteEvent) (block : Nat × Nat) : Option Nat :=
  (List.range event.count).find? fun i => physical event.device (event.lba + i) = block

/-- The bytes most recently written to a physical block, through whatever device. -/
def lastWritten (media : Nat → Nat → Buffer) (size : Nat) (block : Nat × Nat) : List WriteEvent →
    List UInt8
  | [] => (media block.1 block.2).block 0 size
  | event :: older =>
    match event.indexOf block with
    | some i => event.buffer.block (i * size) size
    | none => lastWritten media size block older

def registerDisk (s : BlockLayer) (description : Device) : BlockLayer :=
  (blockDeviceRegister s { description with parent := none, ops := .driver }).1

def registerPartition (s : BlockLayer) (disk startLba blockCount : Nat) (name : CString)
    (flags : UInt32) : BlockLayer :=
  match s.devices[disk]? with
  | none => s
  | some device =>
    if device.parent = none then
      (blockDeviceRegisterPartition s disk startLba blockCount name flags).1
    else s

/-- The call on a device of the registry, or no call at all. -/
def onDevice {α : Type} (s : BlockLayer) (id : Nat) (unchanged : α) (call : Device → α) : α :=
  match s.devices[id]? with
  | none => unchanged
  | some device => call device

/-- What a read call returns. -/
def readResult (s : BlockLayer) (device : Device) (lba : UInt64) (count : UInt32)
    (buffer : Buffer) : BlockLayer × Option Buffer :=
  blockDeviceRead (device.id + 1) device lba.toNat count.toNat s buffer

def writeResult (s : BlockLayer) (device : Device) (lba : UInt64) (count : UInt32)
    (buffer : Buffer) : BlockLayer × Bool :=
  blockDeviceWrite (device.id + 1) device lba.toNat count.toNat buffer s

def step (run : Run) : Call → Run
  | .registerDisk description => { run with layer := registerDisk run.layer description }
  | .registerPartition disk startLba blockCount name flags =>
    { run with layer :=
        registerPartition run.layer disk startLba.toNat blockCount.toNat name flags }
  | .read id lba count buffer =>
    onDevice run.layer id run fun device =>
      { run with layer := (readResult run.layer device lba count buffer).1 }
  | .write id lba count buffer =>
    onDevice run.layer id run fun device =>
      match writeResult run.layer device lba count buffer with
      | (layer, true) => ⟨layer, ⟨device, lba.toNat, count.toNat, buffer⟩ :: run.written⟩
      | (layer, false) => { run with layer := layer }
  | .flushBarrier id =>
    onDevice run.layer id run fun device =>
      { run with layer := blockDeviceFlushBarrier run.layer device }

/-- The empty layer over the given media. -/
def initialRun (media : Nat → Nat → Buffer) : Run := ⟨blockDeviceInitialize media, []⟩

/-- A call returns, if it is a read and succeeds, the bytes last written to each of
its blocks. -/
def DeliversLastWritten (media : Nat → Nat → Buffer) (run : Run) : Call → Prop
  | .read id lba count buffer =>
    ∀ device, run.layer.devices[id]? = some device →
      ∀ bytes, (readResult run.layer device lba count buffer).2 = some bytes → ∀ i < count.toNat,
          bytes.block (i * device.logicalBlockSize) device.logicalBlockSize =
            lastWritten media device.logicalBlockSize (physical device (lba.toNat + i))
              run.written
  | _ => True

/-- A call that stays clear of the two ways in which the cache goes stale: a request
of more than 4 GiB, and a write to a block that a device outside its parent chain
has in the cache. -/
def KeepsClear (run : Run) : Call → Prop
  | .read id lba count _ =>
    ∀ device, run.layer.devices[id]? = some device →
    requestInBounds device lba.toNat count.toNat = true →
        count.toNat * device.logicalBlockSize ≤ 2 ^ 32
  | .write id lba count _ =>
    ∀ device, run.layer.devices[id]? = some device →
    requestInBounds device lba.toNat count.toNat = true →
      device.hasFlag BLOCK_DEVICE_FLAG_READ_ONLY = false → NoWrap device count.toNat ∧
        (∀ parent, device.parent.bind (run.layer.devices[·]?) = some parent → NoWrap parent count.toNat) ∧
        ForeignFree run.layer device lba.toNat count.toNat
  | _ => True

def AllKeepClear (run : Run) : List Call → Prop
  | [] => True
  | call :: rest => KeepsClear run call ∧ AllKeepClear (step run call) rest

/-- Every read of a run that succeeds returns the bytes last written. -/
def AllDeliver (media : Nat → Nat → Buffer) (run : Run) : List Call → Prop
  | [] => True
  | call :: rest => DeliversLastWritten media run call ∧ AllDeliver media (step run call) rest

/-! ### Flush barriers -/

variable {s : BlockLayer}

theorem cacheInvalidateDevice_inv {stale : Set CacheKey} (inv : CacheInv stale s) (device : Device) :
    CacheInv stale (cacheInvalidateDevice s device) where
  registry := inv.registry
  faultless := inv.faultless
  unique := inv.unique.evict _
  labelled := by
    intro i valid
    obtain ⟨kept, _⟩ := evict_valid valid
    simp only [cacheInvalidateDevice] at valid ⊢
    rw [kept] at valid ⊢
    exact inv.labelled i valid
  coherent := inv.coherent.evict _

theorem flushBarrier_inv {stale : Set CacheKey} (inv : CacheInv stale s) (device : Device) :
    CacheInv stale (blockDeviceFlushBarrier s device) ∧
    SameMedia s (blockDeviceFlushBarrier s device) := by
  have own := cacheInvalidateDevice_inv inv device
  unfold blockDeviceFlushBarrier
  dsimp only
  split
  · exact ⟨own, rfl, rfl, rfl⟩
  · exact ⟨cacheInvalidateDevice_inv own _, rfl, rfl, rfl⟩

/-! ### Registration -/

structure Grown (s s' : BlockLayer) : Prop where
  kept : ∀ (i : Nat) (d : Device), s.devices[i]? = some d → s'.devices[i]? = some d
  media : s'.media = s.media

theorem Grown.refl (s : BlockLayer) : Grown s s := ⟨fun _ _ there => there, rfl⟩

theorem Grown.of_eq {s s' : BlockLayer} (devices : s'.devices = s.devices)
    (media : s'.media = s.media) : Grown s s' :=
  ⟨fun i d there => by rw [devices]; exact there, media⟩

theorem getElem?_concat_some {α : Type} {xs : List α} {x y : α} {i : Nat}
    (there : (xs ++ [x])[i]? = some y) : xs[i]? = some y ∨ i = xs.length ∧ y = x := by
  rw [List.getElem?_append] at there
  split at there
  · exact Or.inl there
  · right
    have zero : i - xs.length = 0 := by
      by_contra positive
      rw [List.getElem?_eq_none (by simp; omega)] at there
      cases there
    rw [zero] at there
    exact ⟨by omega, by simpa using there.symm⟩

theorem blockDeviceRegister_registry (registry : Registry s.devices)
    {description : Device} (disk : description.ops = .driver → description.parent = none)
    (partition : description.ops = .partition →
      ∃ p parent, description.parent = some p ∧ s.devices[p]? = some parent ∧
        parent.ops = .driver ∧ parent.logicalBlockSize = description.logicalBlockSize) :
    Registry (blockDeviceRegister s description).1.devices ∧
      Grown s (blockDeviceRegister s description).1 := by
  unfold blockDeviceRegister
  split
  · rename_i accepted
    dsimp only
    generalize kind : ({ description with flags := _, id := _, name := _ } : Device) = device
    have grown : Grown s { s with devices := s.devices ++ [device] } := by
      refine ⟨fun i d there => ?_, rfl⟩
      rw [List.getElem?_append_left (List.getElem?_eq_some_iff.mp there).1]
      exact there
    refine ⟨⟨?_, ?_, ?_, ?_⟩, grown⟩
    · intro i d there
      rcases getElem?_concat_some there with old | ⟨last, rfl⟩
      · exact registry.ids i d old
      · subst kind
        exact last.symm
    · intro i d there isDisk
      rcases getElem?_concat_some there with old | ⟨_, rfl⟩
      · exact registry.disks i d old isDisk
      · subst kind
        exact disk isDisk
    · intro i d there isPartition
      rcases getElem?_concat_some there with old | ⟨_, rfl⟩
      · obtain ⟨p, parent, named, at_p, rest⟩ := registry.partitions i d old isPartition
        exact ⟨p, parent, named, grown.kept p parent at_p, rest⟩
      · subst kind
        obtain ⟨p, parent, named, at_p, rest⟩ := partition isPartition
        exact ⟨p, parent, named, grown.kept p parent at_p, rest⟩
    · intro i d there
      rcases getElem?_concat_some there with old | ⟨_, rfl⟩
      · exact registry.sizes i d old
      · subst kind
        simp only [descriptionValid, Bool.and_eq_true, Bool.not_eq_true', decide_eq_false_iff_not]
          at accepted
        dsimp only
        omega
  · exact ⟨registry, Grown.refl s⟩

theorem blockDeviceRegister_inv (inv : CacheInv ∅ s) {description : Device}
    (disk : description.ops = .driver → description.parent = none)
    (partition : description.ops = .partition →
      ∃ p parent, description.parent = some p ∧ s.devices[p]? = some parent ∧
        parent.ops = .driver ∧ parent.logicalBlockSize = description.logicalBlockSize) :
    CacheInv ∅ (blockDeviceRegister s description).1 ∧
    Grown s (blockDeviceRegister s description).1 := by
  obtain ⟨registry, grown⟩ := blockDeviceRegister_registry inv.registry disk partition
  have outcomes : (blockDeviceRegister s description).1.outcomes = s.outcomes := by
    unfold blockDeviceRegister
    split <;> rfl
  have entries : (blockDeviceRegister s description).1.cacheEntries = s.cacheEntries := by
    unfold blockDeviceRegister
    split <;> rfl
  refine ⟨⟨registry, outcomes.trans inv.faultless, ?_, ?_, ?_⟩, grown⟩
  · rw [entries]
    exact inv.unique
  · rw [entries]
    intro i valid
    obtain ⟨d, at_id, rest⟩ := inv.labelled i valid
    exact ⟨d, grown.kept _ d at_id, rest⟩
  · -- the labels in the cache belong to devices that were there before
    rw [entries]
    intro i valid fresh
    obtain ⟨d, at_id, _⟩ := inv.labelled i valid
    rw [inv.coherent i valid fresh]
    simp only [content, at_id, grown.kept _ d at_id, grown.media]

theorem registerDisk_inv (inv : CacheInv ∅ s) (description : Device) :
    CacheInv ∅ (registerDisk s description) ∧ Grown s (registerDisk s description) :=
  blockDeviceRegister_inv inv (fun _ => rfl) (fun impossible => by cases impossible)

theorem registerPartition_cases (s : BlockLayer) (disk startLba blockCount : Nat) (name : CString)
    (flags : UInt32) :
    registerPartition s disk startLba blockCount name flags = s ∨
    ∃ (description device : Device), registerPartition s disk startLba blockCount name flags =
        (blockDeviceRegister s description).1 ∧
      s.devices[disk]? = some device ∧ device.parent = none ∧ description.ops = .partition ∧
      description.parent = some disk ∧
      description.logicalBlockSize = device.logicalBlockSize ∧ description.blockCount ≠ 0 := by
  unfold registerPartition
  split
  · exact Or.inl rfl
  · rename_i device there
    split
    · rename_i root
      simp only [blockDeviceRegisterPartition, there]
      split
      · exact Or.inl rfl
      · rename_i accepted
        exact Or.inr ⟨_, device, rfl, rfl, root, rfl, rfl, rfl, fun empty => accepted (.inl empty)⟩
    · exact Or.inl rfl

theorem Registry.ops_of_root {devices : List Device} (registry : Registry devices) {i : Nat}
    {device : Device} (there : devices[i]? = some device) (root : device.parent = none) :
    device.ops = .driver := by
  cases kind : device.ops with
  | driver => rfl
  | partition =>
    obtain ⟨p, _, named, _⟩ := registry.partitions i device there kind
    rw [root] at named
    cases named

theorem registerPartition_inv (inv : CacheInv ∅ s)
    (disk startLba blockCount : Nat) (name : CString) (flags : UInt32) :
    CacheInv ∅ (registerPartition s disk startLba blockCount name flags) ∧
      Grown s (registerPartition s disk startLba blockCount name flags) := by
  rcases registerPartition_cases s disk startLba blockCount name flags with
    same | ⟨description, device, made, there, root, isPartition, named, size, _⟩
  · rw [same]
    exact ⟨inv, Grown.refl s⟩
  · rw [made]
    apply blockDeviceRegister_inv inv
    · intro impossible
      rw [isPartition] at impossible
      cases impossible
    · intro _
      exact ⟨disk, device, named, there, inv.registry.ops_of_root there root, size.symm⟩

/-! ### The last written bytes -/

theorem indexOf_some {event : WriteEvent} {block : Nat × Nat} {i : Nat}
    (found : event.indexOf block = some i) :
    i < event.count ∧ physical event.device (event.lba + i) = block := by
  constructor
  · exact List.mem_range.mp (List.mem_of_find?_eq_some found)
  · simpa using List.find?_some found

theorem indexOf_none {event : WriteEvent} {block : Nat × Nat} (missing : event.indexOf block = none) :
    ∀ i < event.count, physical event.device (event.lba + i) ≠ block := by
  simpa [WriteEvent.indexOf] using missing

theorem Registry.same_size (registry : Registry s.devices) {left right : Device}
    (registeredLeft : Registered s left) (registeredRight : Registered s right) {lba lba' : Nat}
    (same : (physical left lba).1 = (physical right lba').1) :
    left.logicalBlockSize = right.logicalBlockSize := by
  -- the disk under a device, and its block size
  have root : ∀ {device : Device}, Registered s device → ∀ lba, ∃ disk,
      s.devices[(physical device lba).1]? = some disk ∧
        disk.logicalBlockSize = device.logicalBlockSize := by
    intro device registered lba
    cases kind : device.ops with
    | driver =>
      refine ⟨device, ?_, rfl⟩
      simp only [physical, registry.disks _ _ registered kind]
      exact registered
    | partition =>
      obtain ⟨p, parent, named, at_p, _, size⟩ := registry.partitions _ _ registered kind
      refine ⟨parent, ?_, size⟩
      simp only [physical, named]
      exact at_p
  obtain ⟨disk, at_disk, size⟩ := root registeredLeft lba
  obtain ⟨disk', at_disk', size'⟩ := root registeredRight lba'
  rw [same, at_disk'] at at_disk
  cases at_disk
  rw [← size, ← size']

/-- What holds between the calls of a run. -/
structure RunInv (media : Nat → Nat → Buffer) (run : Run) : Prop where
  cache : CacheInv ∅ run.layer
  events : ∀ event ∈ run.written, Registered run.layer event.device
  current : ∀ (block : Nat × Nat) (size : Nat),
    (∀ event ∈ run.written, (physical event.device 0).1 = block.1 → event.device.logicalBlockSize = size) →
    (run.layer.media block.1 block.2).block 0 size = lastWritten media size block run.written

theorem RunInv.initial (media : Nat → Nat → Buffer) : RunInv media (initialRun media) where
  cache := by
    refine ⟨⟨?_, ?_, ?_, ?_⟩, rfl, ?_, ?_, ?_⟩
    all_goals simp [initialRun, blockDeviceInitialize, Slots.Unique, CoherentOff]
  events := by simp [initialRun]
  current := fun _ _ _ => rfl

variable {media : Nat → Nat → Buffer}

theorem RunInv.grow {run : Run} (inv : RunInv media run)
    {layer : BlockLayer} (cache : CacheInv ∅ layer) (grown : Grown run.layer layer) :
    RunInv media { run with layer := layer } where
  cache := cache
  events := fun event member => grown.kept _ _ (inv.events event member)
  current := by
    rw [grown.media]
    exact inv.current

theorem physical_disk (device : Device) (lba lba' : Nat) :
    (physical device lba).1 = (physical device lba').1 := by
  unfold physical
  split <;> rfl

theorem RunInv.write {run : Run} (inv : RunInv media run)
    {device : Device} (registered : Registered run.layer device) {lba count : Nat}
    {buffer : Buffer} {layer : BlockLayer} (cache : CacheInv ∅ layer)
    (devices : layer.devices = run.layer.devices)
    (stored : layer.media = (run.layer.store (physical device lba).1 device.logicalBlockSize
      (physical device lba).2 count buffer).media) :
    RunInv media ⟨layer, ⟨device, lba, count, buffer⟩ :: run.written⟩ where
  cache := cache
  events := by
    intro event member
    unfold Registered
    dsimp only
    rw [devices]
    rcases List.mem_cons.mp member with rfl | older
    · exact registered
    · exact inv.events event older
  current := by
    intro block size sizes
    simp only [lastWritten]
    split
    · rename_i i found
      obtain ⟨below, there⟩ := indexOf_some found
      dsimp only at below there
      have size_eq : device.logicalBlockSize = size := by
        apply sizes _ (List.mem_cons_self ..)
        rw [← there]
        exact physical_disk ..
      rw [physical_add] at there
      subst there
      dsimp only
      rw [stored, store_media_inside below, size_eq]
    · rename_i missing
      have outside := indexOf_none missing
      dsimp only at outside
      rw [stored, store_media_other]
      · exact inv.current block size fun event member => sizes event (List.mem_cons_of_mem _ member)
      · intro i below same
        apply outside i below
        rw [same, physical_add]

/-! ### Runs -/

theorem onDevice_elim {α : Type} {id : Nat} {unchanged : α} {call : Device → α} {P : α → Prop}
    (refused : P unchanged)
    (called : ∀ device, s.devices[id]? = some device → P (call device)) :
    P (onDevice s id unchanged call) := by
  unfold onDevice
  split
  · exact refused
  · rename_i device there
    exact called device there

theorem read_refused {device : Device} {depth lba count : Nat} {buffer : Buffer}
    (refused : requestInBounds device lba count ≠ true) :
    blockDeviceRead depth device lba count s buffer = (s, none) := by
  cases depth with
  | zero => rfl
  | succ depth => rw [blockDeviceRead, if_neg refused]

theorem write_refused {device : Device} {depth lba count : Nat} {buffer : Buffer}
    (refused : ¬(requestInBounds device lba count = true ∧
      device.hasFlag BLOCK_DEVICE_FLAG_READ_ONLY = false)) :
    blockDeviceWrite depth device lba count buffer s = (s, false) := by
  cases depth with
  | zero => rfl
  | succ depth =>
    rw [blockDeviceWrite, if_neg]
    simpa using refused

theorem read_keepsClear {run : Run} (inv : RunInv media run)
    {device : Device} (registered : Registered run.layer device) {lba : UInt64} {count : UInt32}
    {buffer : Buffer}
    (clear : requestInBounds device lba.toNat count.toNat = true →
      count.toNat * device.logicalBlockSize ≤ 2 ^ 32) :
    ReadOutcome ∅ run.layer device lba.toNat count.toNat (readResult run.layer device lba count buffer) := by
  by_cases bounds : requestInBounds device lba.toNat count.toNat = true
  · exact blockDeviceRead_spec inv.cache registered _ _ _ buffer (clear bounds)
  · rw [readResult, read_refused bounds]
    exact ⟨inv.cache, SameMedia.refl _, by intro bytes none; cases none⟩

theorem step_inv {run : Run} (inv : RunInv media run) {call : Call}
    (clear : KeepsClear run call) : RunInv media (step run call) := by
  cases call with
  | registerDisk description =>
    obtain ⟨cache, grown⟩ := registerDisk_inv inv.cache description
    exact inv.grow cache grown
  | registerPartition disk startLba blockCount name flags =>
    obtain ⟨cache, grown⟩ :=
      registerPartition_inv inv.cache disk startLba.toNat blockCount.toNat name flags
    exact inv.grow cache grown
  | read id lba count buffer =>
    apply onDevice_elim inv
    intro device there
    have registered : Registered run.layer device := by
      unfold Registered
      rw [inv.cache.registry.ids id device there]
      exact there
    obtain ⟨cache, same, _⟩ := read_keepsClear inv registered (clear device there)
    exact inv.grow cache (.of_eq same.devices same.media)
  | write id lba count buffer =>
    apply onDevice_elim inv
    intro device there
    have registered : Registered run.layer device := by
      unfold Registered
      rw [inv.cache.registry.ids id device there]
      exact there
    by_cases accepted : requestInBounds device lba.toNat count.toNat = true ∧
        device.hasFlag BLOCK_DEVICE_FLAG_READ_ONLY = false
    · obtain ⟨noWrap, noWrapParent, foreignFree⟩ := clear device there accepted.1 accepted.2
      split
      · rename_i layer success
        obtain ⟨cache, devices, stored⟩ := by
          simpa using blockDeviceWrite_spec inv.cache registered noWrap noWrapParent foreignFree
            success
        exact inv.write registered cache devices stored
      · rename_i layer failure
        have unchanged : layer = run.layer := by
          simpa using blockDeviceWrite_spec inv.cache registered noWrap noWrapParent foreignFree
            failure
        rw [unchanged]
        exact inv
    · rw [writeResult, write_refused accepted]
      exact inv
  | flushBarrier id =>
    apply onDevice_elim inv
    intro device there
    obtain ⟨cache, same⟩ := flushBarrier_inv inv.cache device
    exact inv.grow cache (.of_eq same.devices same.media)

theorem step_delivers {run : Run} (inv : RunInv media run)
    {call : Call} (clear : KeepsClear run call) : DeliversLastWritten media run call := by
  cases call with
  | read id lba count buffer =>
    intro device there bytes done i below
    have registered : Registered run.layer device := by
      unfold Registered
      rw [inv.cache.registry.ids id device there]
      exact there
    obtain ⟨_, _, right⟩ := read_keepsClear inv registered (clear device there)
    rw [right bytes done i below]
    calc content run.layer (device.cacheKey (lba.toNat + i))
        = (run.layer.media (physical device (lba.toNat + i)).1
            (physical device (lba.toNat + i)).2).block 0 device.logicalBlockSize := by
          unfold Registered at registered
          simp [content, Device.cacheKey, registered]
      _ = lastWritten media device.logicalBlockSize (physical device (lba.toNat + i))
            run.written := by
          apply inv.current
          intro event member same
          exact inv.cache.registry.same_size (inv.events event member) registered same
  | _ => trivial

theorem run_delivers (calls : List Call) :
    ∀ run, RunInv media run → AllKeepClear run calls → AllDeliver media run calls := by
  induction calls with
  | nil =>
    intro run _ _
    trivial
  | cons call rest ih =>
    intro run inv clear
    obtain ⟨here, later⟩ := clear
    exact ⟨step_delivers inv here, ih (step run call) (step_inv inv here) later⟩

/-- In a run whose calls all keep clear, every successful read returns the bytes
most recently written to each of its physical blocks, through whatever device. -/
theorem reads_return_lastWritten (media : Nat → Nat → Buffer) (calls : List Call)
    (clear : AllKeepClear (initialRun media) calls) :
    AllDeliver media (initialRun media) calls :=
  run_delivers calls (initialRun media) (RunInv.initial media) clear

/-! A disk of 64 blocks with a partition on its blocks 8 to 39. -/

def exampleDisk : Device where
  id := 0
  name := ['d', 'i', 's', 'k', '0']
  logicalBlockSize := 512
  physicalBlockSize := 512
  blockCount := 64
  flags := 0
  target := 0
  lun := 0
  startLba := 0
  parent := none
  ops := .driver

def sevens : Buffer := fun _ => 7

def registrations : List Call :=
  [.registerDisk exampleDisk, .registerPartition 0 8 32 ['p', '1'] 0]

theorem field_of_some {α β : Type} {found : Option α} {value : α} {field : α → β} {result : β}
    (known : found.map field = some result) (there : found = some value) :
    field value = result := by
  rw [there] at known
  exact Option.some.inj known

/-- A write through the disk, then a read through the partition. -/
theorem reads_return_lastWritten_example : AllDeliver (fun _ _ _ => 0) (initialRun fun _ _ _ => 0)
      (registrations ++ [.write 0 8 1 sevens, .read 1 0 1 fun _ => 0]) := by
  apply reads_return_lastWritten
  refine ⟨trivial, trivial, ?_, ?_, trivial⟩
  · intro device there _ _
    have size : device.logicalBlockSize = 512 := field_of_some (by decide +kernel) there
    have root : device.parent = none := field_of_some (by decide +kernel) there
    refine ⟨Or.inr (by rw [size]; decide), by simp [root], ?_⟩
    intro slot valid
    refine absurd valid ?_
    clear valid
    revert slot
    decide +kernel
  · intro device there _
    have size : device.logicalBlockSize = 512 := field_of_some (by decide +kernel) there
    rw [size]
    decide

/-- The partition has its block 0 in the cache when block 8 of the disk is written,
and reads the old bytes afterwards. -/
theorem reads_return_stale_bytes : ¬ ∀ (media : Nat → Nat → Buffer) (calls : List Call),
      AllDeliver media (initialRun media) calls := by
  intro every
  obtain ⟨_, _, _, _, wrong, _⟩ := every (fun _ _ _ => 0)
    (registrations ++ [.read 1 0 1 fun _ => 0, .write 0 8 1 sevens, .read 1 0 1 fun _ => 0])
  generalize same : step _ (.write 0 8 1 sevens) = run at wrong
  have seen : (run.layer.devices[1]?.bind fun device =>
      (readResult run.layer device 0 1 fun _ => 0).2.map fun bytes =>
        decide (bytes.block (0 * device.logicalBlockSize) device.logicalBlockSize =
          lastWritten (fun _ _ _ => 0) device.logicalBlockSize (physical device (0 + 0))
            run.written)) = some false := by
    rw [← same]
    decide +kernel
  simp only [Option.bind_eq_some_iff, Option.map_eq_some_iff] at seen
  obtain ⟨device, there, bytes, done, differ⟩ := seen
  exact of_decide_eq_false differ (wrong device there bytes done 0 (by decide))

end AsasOs.Block
