import AsasOs.VirtualDisk.Images
import Mathlib.Tactic.IntervalCases

/-!
# What a virtual disk stores

The block layer passes a request on when it lies inside the device, and the device is as
large as the data of the image. So the product of the block number does not wrap, a read
takes the blocks out of the file that the writes have put there, and nothing moves the end
of the file or the footer behind the data. The checksum that a flush computes is the one
that the footer has.
-/
namespace AsasOs.VirtualDisk

open Block Bytes CString Prog

/-! ### Calls of the file system -/

section Calls

variable {α : Type} {files : Files} {path : CString}

def Files.Same (files files' : Files) : Prop := files'.contents = files.contents

theorem Files.Same.bytes {files' : Files} (same : files.Same files') (path : CString) :
    files'.bytes path = files.bytes path := by
  rw [Files.bytes, Files.bytes, same]

theorem nextOutcome_same (files : Files) : files.Same files.nextOutcome.2 := by
  unfold Files.nextOutcome
  split
  · rfl
  · rfl

theorem run_vfsFileSize (files : Files) (path : CString) :
    ∃ size files', run Files.handle (vfsFileSize path) files = (size, files') ∧
      files.Same files' ∧ (size = 0 ∨ size = (files.bytes path).length) := by
  have same := nextOutcome_same files
  have answer : (run Files.handle (vfsFileSize path) files).1 =
      if files.nextOutcome.1.fails then 0 else (files.nextOutcome.2.bytes path).length := rfl
  refine ⟨_, _, rfl, same, ?_⟩
  change (run Files.handle (vfsFileSize path) files).1 = 0 ∨ (run Files.handle (vfsFileSize path) files).1 = _
  rw [answer, same.bytes]
  split
  · exact .inl rfl
  · exact .inr rfl

variable {post : Option α → Files → Prop}

theorem wp_vfsFileSize {f : Nat → FileCode α}
    (rest : ∀ size files', files.Same files' → (size = 0 ∨ size = (files.bytes path).length) →
      wp Files.handle (f size) post files') :
    wp Files.handle (liftM (vfsFileSize path) >>= f) post files := by
  obtain ⟨size, files', answer, same, measured⟩ := run_vfsFileSize files path
  rw [wp_lift, answer]
  exact rest size files' same measured

theorem wp_kmalloc {size : Nat} {f : Bool → FileCode α}
    (rest : ∀ ok files', files.Same files' → wp Files.handle (f ok) post files') :
    wp Files.handle (liftM (kmalloc size) >>= f) post files := by
  rw [wp_lift]
  exact rest _ _ (nextOutcome_same files)

theorem wp_vfsOpen {f : CString → FileCode α} (failed : ∀ files', files.Same files' → post none files')
    (opened : ∀ files', files.Same files' → wp Files.handle (f path) post files') :
    wp Files.handle (vfsOpen path >>= f) post files := by
  rw [wp_bind]
  have same := nextOutcome_same files
  have answer : (run Files.handle (vfsOpen path).run files).1 =
      if files.nextOutcome.1.fails || (files.nextOutcome.2.contents path).isNone then none
      else some path := rfl
  cases refused : files.nextOutcome.1.fails || (files.nextOutcome.2.contents path).isNone with
  | true =>
    rw [wp, answer, refused, if_pos rfl]
    exact failed _ same
  | false =>
    rw [wp, answer, refused, if_neg Bool.false_ne_true]
    exact opened _ same

theorem wp_vfsRead {size : Nat} {f : List UInt8 → FileCode α}
    (rest : ∀ count ≤ size, ∀ files', files.Same files' →
      wp Files.handle (f ((files.bytes path).take count)) post files') :
    wp Files.handle (liftM (vfsRead path size) >>= f) post files := by
  rw [wp_lift]
  have same := nextOutcome_same files
  have answer : (run Files.handle (vfsRead path size) files).1 =
      (files.nextOutcome.2.bytes path).take (if files.nextOutcome.1.fails then
        min files.nextOutcome.1.transferred size else size) := rfl
  rw [answer, same.bytes]
  split
  · exact rest _ (Nat.min_le_right _ _) _ same
  · exact rest _ (Nat.le_refl _) _ same

theorem wp_vfsClose {f : Unit → FileCode α} (rest : wp Files.handle (f ()) post files) :
    wp Files.handle (liftM (vfsClose path) >>= f) post files := by
  rw [wp_lift]
  exact rest

theorem wp_vfsWriteFile {data : List UInt8} {f : Bool → FileCode α}
    (failed : ∀ files', files.Same files' → wp Files.handle (f false) post files')
    (stored : ∀ files', (∀ other, files'.bytes other = if other = path then data else files.bytes other) →
      wp Files.handle (f true) post files') :
    wp Files.handle (liftM (vfsWriteFile path data) >>= f) post files := by
  rw [wp_lift]
  have same := nextOutcome_same files
  obtain ⟨result, next⟩ : ∃ result, run Files.handle (vfsWriteFile path data) files = result :=
    ⟨_, rfl⟩
  have given : result = if fits : data.length < 2 ^ 64 then
      if files.nextOutcome.1.fails then (false, files.nextOutcome.2)
      else (true, files.nextOutcome.2.store path ⟨data, fits⟩)
    else (false, files.nextOutcome.2) := next.symm
  rw [next, given]
  split
  · split
    · exact failed _ same
    · refine stored _ fun other => ?_
      rw [Files.bytes, Files.store]
      dsimp only
      by_cases here : other = path
      · rw [here, Function.update_self, if_pos rfl]
      · rw [Function.update_of_ne here, if_neg here, same]
        rfl
  · exact failed _ same

/-- How a call ends that may fail: what holds then, and what holds of a result. -/
def Ends (failed : Files → Prop) (done : α → Files → Prop) : Option α → Files → Prop
  | none => failed
  | some value => done value

theorem readImage_spec (imageSize : Nat) : wp Files.handle (readImage path imageSize)
      (fun result files' => files.Same files' ∧ ∀ image, result = some image →
        image = (files.bytes path).take imageSize ∧ imageSize ≤ (files.bytes path).length)
      files := by
  rw [readImage]
  apply wp_kmalloc
  intro allocated files₁ same₁
  rw [wp_guard]
  split
  · apply wp_vfsOpen
    · exact fun files₂ same₂ => ⟨same₂.trans same₁, nofun⟩
    · intro files₂ same₂
      apply wp_vfsRead
      intro count limit files₃ same₃
      have same : files.Same files₃ := same₃.trans (same₂.trans same₁)
      apply wp_vfsClose
      rw [wp_guard]
      split
      · rename_i whole
        refine ⟨same, fun image returned => ?_⟩
        cases returned
        have bytes : files₂.bytes path = files.bytes path :=
          Files.Same.bytes (same₂.trans same₁) path
        rw [bytes, List.length_take] at whole
        have full : count = imageSize := by omega
        rw [bytes, full]
        exact ⟨rfl, by omega⟩
      · exact ⟨same, nofun⟩
  · exact ⟨same₁, nofun⟩

end Calls

/-! ### The footer -/

theorem footerSum_cleared {footer : List UInt8} (whole : footer.length = VDISK_SECTOR_SIZE) :
    footerSum (fun _ => true) (put footer 64 [0, 0, 0, 0]) =
      footerSum (fun index => !(index ≥ 64 && index < 68)) footer := by
  have cleared (index : Nat) : (byteAt (put footer 64 [0, 0, 0, 0]) index).toNat =
      if index ≥ 64 ∧ index < 68 then 0 else (byteAt footer index).toNat := by
    rw [byteAt_put (by rw [whole, VDISK_SECTOR_SIZE]; omega)]
    by_cases inside : index ≥ 64 ∧ index < 68
    · rw [if_pos inside, if_pos (by simpa using inside)]
      have offset : index - 64 < 4 := by omega
      interval_cases index - 64
      all_goals rfl
    · rw [if_neg inside, if_neg (by simpa using inside)]
  unfold footerSum
  -- the sums agree over any number of bytes, and are below 2^32
  have both : ∀ count : Nat,
      (List.range count).foldl (fun sum index => if (fun _ => true) index then
        (sum + (byteAt (put footer 64 [0, 0, 0, 0]) index).toNat) % 2 ^ 32 else sum) 0 =
      (List.range count).foldl (fun sum index => if !(index ≥ 64 && index < 68) then
        (sum + (byteAt footer index).toNat) % 2 ^ 32 else sum) 0 ∧
      (List.range count).foldl (fun sum index => if !(index ≥ 64 && index < 68) then
        (sum + (byteAt footer index).toNat) % 2 ^ 32 else sum) 0 < 2 ^ 32 := by
    intro count
    induction count with
    | zero => exact ⟨rfl, Nat.two_pow_pos 32⟩
    | succ count ih =>
      obtain ⟨same, small⟩ := ih
      rw [List.range_succ, List.foldl_append, List.foldl_append, same]
      dsimp only [List.foldl]
      rw [cleared, if_pos rfl]
      by_cases inside : count ≥ 64 ∧ count < 68
      · rw [if_pos inside, if_neg (by simpa using inside), Nat.add_zero, Nat.mod_eq_of_lt small]
        exact ⟨rfl, small⟩
      · have counted : (!(count ≥ 64 && count < 68)) = true := by
          simp only [Bool.not_eq_true', Bool.and_eq_false_iff, decide_eq_false_iff_not]
          omega
        rw [if_neg inside, if_pos counted]
        exact ⟨rfl, Nat.mod_lt _ (Nat.two_pow_pos 32)⟩
  exact (both VDISK_SECTOR_SIZE).1

theorem rewrittenFooter_eq {footer : List UInt8} {fileSize : Nat}
    (whole : footer.length = VDISK_SECTOR_SIZE)
    (valid : validateFixedVhdFooter footer fileSize ≠ none) : rewrittenFooter footer = footer := by
  have checksum : 2 ^ 32 - 1 - footerSum (fun index => !(index ≥ 64 && index < 68)) footer =
      getBE footer 64 4 := by
    unfold validateFixedVhdFooter at valid
    split_ifs at valid with small cookie features checksum
    all_goals first | exact absurd rfl valid | exact not_not.mp checksum
  have room : 64 + 4 ≤ footer.length := by
    rw [whole, VDISK_SECTOR_SIZE]
    omega
  rw [rewrittenFooter, footerSum_cleared whole, checksum, putBE, put_put (by simpa using room) (by simp)]
  exact putBE_getBE room

/-! ### The operations of the device -/

section Operations

variable {files : Files} {slot : VdiskInfo} {lba count : Nat}

theorem requestPlace_some {imageSize offset length : Nat}
    (place : requestPlace slot imageSize lba count = some (offset, length)) :
    imageSize ≠ 0 ∧ imageSize = slot.fileSize ∧ offset = lba * VDISK_SECTOR_SIZE % 2 ^ 64 ∧
      length = count * VDISK_SECTOR_SIZE ∧ offset + length ≤ slot.size := by
  unfold requestPlace at place
  dsimp only at place
  split at place
  · cases place
  · rename_i inside
    obtain ⟨rfl, rfl⟩ := Prod.mk.inj (Option.some.inj place)
    omega

theorem rawReadBlocks_spec : wp Files.handle (rawReadBlocks slot lba count)
      (fun result files' => files.Same files' ∧ ∀ data, result = some data →
        lba * VDISK_SECTOR_SIZE % 2 ^ 64 + count * VDISK_SECTOR_SIZE ≤ slot.size ∧
        data = slice (files.bytes slot.path) (lba * VDISK_SECTOR_SIZE % 2 ^ 64)
          (count * VDISK_SECTOR_SIZE)) files := by
  rw [rawReadBlocks, wp_guard]
  split
  · apply wp_vfsFileSize
    intro imageSize files₁ same₁ measured
    rw [wp_ofOption]
    cases place : requestPlace slot imageSize lba count with
    | none => exact ⟨same₁, nofun⟩
    | some found =>
      obtain ⟨offset, length⟩ := found
      obtain ⟨some_size, -, rfl, rfl, inside⟩ := requestPlace_some place
      have size : imageSize = (files.bytes slot.path).length := measured.resolve_left some_size
      dsimp only
      rw [wp_bind]
      apply wp_mono (readImage_spec imageSize)
      rintro (_ | image) files₂ ⟨same₂, read⟩
      · exact ⟨same₂.trans same₁, nofun⟩
      · refine ⟨same₂.trans same₁, fun data returned => ?_⟩
        cases returned
        obtain ⟨rfl, -⟩ := read image rfl
        rw [same₁.bytes, size, List.take_length]
        exact ⟨inside, rfl⟩
  · exact ⟨rfl, nofun⟩

theorem rawWriteBlocks_spec {buffer : Buffer} : wp Files.handle (rawWriteBlocks slot lba count buffer)
      (Ends files.Same fun _ files' => (files.bytes slot.path).length = slot.fileSize ∧
        lba * VDISK_SECTOR_SIZE % 2 ^ 64 + count * VDISK_SECTOR_SIZE ≤ slot.size ∧
        ∀ path, files'.bytes path = if path = slot.path then
          put (files.bytes slot.path) (lba * VDISK_SECTOR_SIZE % 2 ^ 64)
            (buffer.block 0 (count * VDISK_SECTOR_SIZE))
          else files.bytes path) files := by
  rw [rawWriteBlocks, wp_guard]
  split
  · apply wp_vfsFileSize
    intro imageSize files₁ same₁ measured
    rw [wp_ofOption]
    cases place : requestPlace slot imageSize lba count with
    | none => exact same₁
    | some found =>
      obtain ⟨offset, length⟩ := found
      obtain ⟨some_size, whole, rfl, rfl, inside⟩ := requestPlace_some place
      have size : imageSize = (files.bytes slot.path).length := measured.resolve_left some_size
      dsimp only
      rw [wp_bind]
      apply wp_mono (readImage_spec imageSize)
      rintro (_ | image) files₂ ⟨same₂, read⟩
      · exact same₂.trans same₁
      · obtain ⟨rfl, -⟩ := read image rfl
        dsimp only
        apply wp_vfsWriteFile
        · intro files₃ same₃
          rw [wp_guard_last]
          exact same₃.trans (same₂.trans same₁)
        · intro files₃ stored
          rw [wp_guard_last, if_pos rfl]
          refine ⟨size ▸ whole, inside, fun path => ?_⟩
          rw [stored, same₁.bytes, size, List.take_length, Files.Same.bytes (same₂.trans same₁)]
  · exact rfl

theorem rewriteFixedVhdFooter_spec {path : CString} : wp Files.handle (rewriteFixedVhdFooter path)
      (fun _ files' => ∀ other, files'.bytes other = files.bytes other) files := by
  rw [rewriteFixedVhdFooter, imageReadAll, wp_bind]
  apply wp_vfsFileSize
  intro imageSize files₁ same₁ measured
  rw [wp_guard]
  split
  · rename_i some_size
    have size : imageSize = (files.bytes path).length := measured.resolve_left some_size
    rw [wp_bind]
    apply wp_mono (readImage_spec imageSize)
    rintro (_ | image) files₂ ⟨same₂, read⟩
    · exact Files.Same.bytes (same₂.trans same₁)
    · obtain ⟨rfl, -⟩ := read image rfl
      have same : files.Same files₂ := same₂.trans same₁
      have image : (files₁.bytes path).take imageSize = files.bytes path := by
        rw [same₁.bytes, size, List.take_length]
      dsimp only
      rw [wp_pure]
      dsimp only
      rw [wp_guard]
      split
      · rename_i valid
        have large : VDISK_SECTOR_SIZE < imageSize := by
          by_contra small
          unfold validateFixedVhdFooter at valid
          rw [if_pos (Nat.le_of_not_lt small)] at valid
          exact valid rfl
        have room : imageSize - VDISK_SECTOR_SIZE + VDISK_SECTOR_SIZE ≤ (files.bytes path).length := by
          omega
        rw [image, footerOf] at valid ⊢
        rw [rewrittenFooter_eq (slice_length room) valid, put_slice room]
        apply wp_vfsWriteFile
        · intro files₃ same₃
          rw [wp_guard_last]
          exact Files.Same.bytes (same₃.trans same)
        · intro files₃ stored
          rw [wp_guard_last, if_pos rfl]
          intro other
          rw [stored, same.bytes]
          split
          · rename_i here
            rw [here]
          · rfl
      · exact same.bytes
  · exact same₁.bytes

theorem rawFlush_spec : wp Files.handle (rawFlush slot)
      (fun _ files' => ∀ path, files'.bytes path = files.bytes path) files := by
  rw [rawFlush, wp_guard]
  split
  · split
    · exact rewriteFixedVhdFooter_spec
    · exact fun path => rfl
  · exact fun path => rfl

end Operations

/-! ### Attached disks -/

structure Attached (files : Files) (path : CString) (device : Device) (slot : VdiskInfo) : Prop where
  fileSize : slot.fileSize = (files.bytes path).length
  named : slot.path = copyString path 256
  blocks : device.blockCount * VDISK_SECTOR_SIZE = slot.size
  positive : device.blockCount ≠ 0
  within : slot.size ≤ slot.fileSize
  footer : slot.format = "vhd-fixed".toList → slot.size + VDISK_SECTOR_SIZE = slot.fileSize

theorem Files.bytes_lt (files : Files) (path : CString) : (files.bytes path).length < 2 ^ 64 := by
  unfold Files.bytes
  split
  · exact Nat.two_pow_pos 64
  · rename_i file _
    exact file.2

theorem attachVirtualDisk_some {s s' : Attachments} {path format : CString} {flags : UInt32}
    {dataSize fileSize id : Nat} {index : Fin VDISK_MAX_COUNT}
    (attached : attachVirtualDisk s path flags format dataSize fileSize = (s', some (id, index))) :
    ∃ device, s'.layer.devices[id]? = some device ∧
      device.blockCount * VDISK_SECTOR_SIZE = dataSize ∧ device.blockCount ≠ 0 ∧
      (s'.vdisks index).path = copyString path 256 ∧
      (s'.vdisks index).format = copyString format 12 ∧
      (s'.vdisks index).size = dataSize ∧ (s'.vdisks index).fileSize = fileSize := by
  unfold attachVirtualDisk at attached
  split at attached
  · cases attached
  · rename_i sized
    split at attached
    · cases attached
    · split at attached
      · cases attached
      · rename_i free _
        obtain ⟨description, given⟩ : ∃ description : Device, description =
          { id := 0
            name := "vdisk".toList ++ [Char.ofNat (0x30 + free)]
            logicalBlockSize := VDISK_SECTOR_SIZE
            physicalBlockSize := VDISK_SECTOR_SIZE
            blockCount := dataSize / VDISK_SECTOR_SIZE
            flags := if flags &&& VDISK_FLAG_READ_ONLY != 0 then BLOCK_DEVICE_FLAG_READ_ONLY else 0
            target := 0
            lun := 0
            startLba := 0
            parent := none
            ops := .driver } := ⟨_, rfl⟩
        simp only [← given] at attached
        split at attached
        · rename_i layer registered made
          obtain ⟨rfl, same⟩ := Prod.mk.inj attached
          obtain ⟨rfl, rfl⟩ := Prod.mk.inj (Option.some.inj same)
          have whole : dataSize / VDISK_SECTOR_SIZE * VDISK_SECTOR_SIZE = dataSize := by
            unfold VDISK_SECTOR_SIZE at *
            omega
          have blocks : dataSize / VDISK_SECTOR_SIZE ≠ 0 := by
            unfold VDISK_SECTOR_SIZE at *
            omega
          unfold blockDeviceRegister at made
          split at made
          · obtain ⟨rfl, same⟩ := Prod.mk.inj made
            cases same
            refine ⟨_, List.getElem?_concat_length, ?_, ?_, ?_⟩
            · rw [given]
              exact whole
            · rw [given]
              exact blocks
            · dsimp only
              rw [Function.update_self]
              exact ⟨rfl, rfl, rfl, rfl⟩
          · cases made
        · cases attached

theorem validateFixedVhdFooter_some {footer : List UInt8} {fileSize dataSize : Nat}
    (small : fileSize < 2 ^ 64) (valid : validateFixedVhdFooter footer fileSize = some dataSize) :
    dataSize + VDISK_SECTOR_SIZE = fileSize := by
  unfold validateFixedVhdFooter at valid
  split_ifs at valid with large cookie features checksum
  dsimp only at valid
  split_ifs at valid with sizes
  have found : getBE footer 48 8 = dataSize := Option.some.inj valid
  have bound := value_lt (slice footer 48 8).reverse
  have width : (slice footer 48 8).reverse.length ≤ 8 := by
    rw [List.length_reverse, slice, List.length_take]
    omega
  have limit : getBE footer 48 8 < 2 ^ 64 :=
    lt_of_lt_of_le bound (Nat.pow_le_pow_right (by decide) width)
  unfold VDISK_SECTOR_SIZE at *
  rw [found] at sizes limit
  omega

theorem fixedVhdSizes_spec {files : Files} {path : CString} : wp Files.handle (fixedVhdSizes path)
      (fun result files' => files.Same files' ∧ ∀ dataSize fileSize,
        result = some (dataSize, fileSize) → fileSize = (files.bytes path).length ∧
          dataSize + VDISK_SECTOR_SIZE = fileSize) files := by
  rw [fixedVhdSizes]
  apply wp_vfsFileSize
  intro fileSize files₁ same₁ measured
  rw [wp_guard]
  split
  · rename_i large
    have size : fileSize = (files.bytes path).length := by
      refine measured.resolve_left fun zero => large ?_
      rw [zero]
      exact Nat.zero_le _
    rw [wp_bind]
    apply wp_mono (readImage_spec fileSize)
    rintro (_ | image) files₂ ⟨same₂, -⟩
    · exact ⟨same₂.trans same₁, nofun⟩
    · dsimp only
      rw [wp_ofOption]
      cases valid : validateFixedVhdFooter (footerOf image fileSize) fileSize with
      | none => exact ⟨same₂.trans same₁, nofun⟩
      | some dataSize =>
        refine ⟨same₂.trans same₁, fun dataSize' fileSize' returned => ?_⟩
        obtain ⟨rfl, rfl⟩ := Prod.mk.inj (Option.some.inj returned)
        exact ⟨size, validateFixedVhdFooter_some (size ▸ files.bytes_lt path) valid⟩
  · exact ⟨same₁, nofun⟩

/-- The outcome of an attach: no file is changed, and a disk that is attached fits its image. -/
structure AttachOutcome (files : Files) (path : CString)
    (out : (Attachments × Option (Nat × Fin VDISK_MAX_COUNT)) × Files) : Prop where
  same : files.Same out.2
  attached : ∀ id index, out.1.2 = some (id, index) → ∃ device, out.1.1.layer.devices[id]? = some device ∧
      Attached files path device (out.1.1.vdisks index)

theorem AttachOutcome.of_same {files files' : Files} {path : CString}
    {out : (Attachments × Option (Nat × Fin VDISK_MAX_COUNT)) × Files}
    (outcome : AttachOutcome files' path out) (same : files.Same files') :
    AttachOutcome files path out := by
  refine ⟨outcome.same.trans same, fun id index made => ?_⟩
  obtain ⟨device, registered, size, named, blocks, positive, within, footer⟩ :=
    outcome.attached id index made
  rw [same.bytes] at size
  exact ⟨device, registered, size, named, blocks, positive, within, footer⟩

theorem attachRaw_spec (s : Attachments) (path : CString) (flags : UInt32) (files : Files) :
    AttachOutcome files path (run Files.handle (virtualDiskAttachRaw s path flags) files) := by
  simp only [virtualDiskAttachRaw]
  split
  · exact ⟨rfl, nofun⟩
  · obtain ⟨size, files₁, answer, same, measured⟩ := run_vfsFileSize files path
    rw [run_bind, answer]
    refine ⟨same, fun id index made => ?_⟩
    obtain ⟨device, registered, blocks, positive, named, format, data, file⟩ :=
      attachVirtualDisk_some (Prod.ext rfl made)
    refine ⟨device, registered, file.trans ?_, named, blocks.trans data.symm, positive,
      (data.trans file.symm).le, fun vhd => ?_⟩
    · refine measured.resolve_left fun zero => positive ?_
      unfold VDISK_SECTOR_SIZE at blocks
      omega
    · exact absurd (format.symm.trans vhd) (by decide)

theorem attachFixedVhd_spec (s : Attachments) (path : CString) (flags : UInt32) (files : Files) :
    AttachOutcome files path (run Files.handle (virtualDiskAttachFixedVhd s path flags) files) := by
  simp only [virtualDiskAttachFixedVhd]
  split
  · exact ⟨rfl, nofun⟩
  · have sizes := @fixedVhdSizes_spec files path
    unfold wp at sizes
    rw [run_bind]
    obtain ⟨answer, files₁, measured⟩ : ∃ answer files₁,
      run Files.handle (fixedVhdSizes path).run files = (answer, files₁) := ⟨_, _, rfl⟩
    rw [measured] at sizes ⊢
    obtain ⟨same, sizes⟩ := sizes
    cases answer with
    | none => exact ⟨same, nofun⟩
    | some found =>
      obtain ⟨dataSize, fileSize⟩ := found
      obtain ⟨size, whole⟩ := sizes dataSize fileSize rfl
      refine ⟨same, fun id index made => ?_⟩
      obtain ⟨device, registered, blocks, positive, named, format, data, file⟩ :=
        attachVirtualDisk_some (Prod.ext rfl made)
      have within : dataSize ≤ fileSize := by omega
      refine ⟨device, registered, file.trans size, named, blocks.trans data.symm, positive,
        data.le.trans (within.trans file.ge), fun _ => ?_⟩
      exact (congrArg (· + VDISK_SECTOR_SIZE) data).trans (whole.trans file.symm)

theorem imageReadAll_spec {files : Files} {path : CString} :
    wp Files.handle (imageReadAll path) (fun result files' => files.Same files' ∧ ∀ image imageSize,
      result = some (image, imageSize) → image = files.bytes path ∧ imageSize = image.length) files := by
  rw [imageReadAll]
  apply wp_vfsFileSize
  intro imageSize files₁ same₁ measured
  rw [wp_guard]
  split
  · rename_i some_size
    have size : imageSize = (files.bytes path).length := measured.resolve_left some_size
    rw [wp_bind]
    apply wp_mono (readImage_spec imageSize)
    rintro (_ | image) files₂ ⟨same₂, read⟩
    · exact ⟨same₂.trans same₁, nofun⟩
    · refine ⟨same₂.trans same₁, fun image' imageSize' returned => ?_⟩
      obtain ⟨rfl, rfl⟩ := Prod.mk.inj (Option.some.inj returned)
      obtain ⟨whole, -⟩ := read image rfl
      rw [same₁.bytes, size, List.take_length] at whole
      exact ⟨whole, whole ▸ size⟩
  · exact ⟨same₁, nofun⟩

theorem virtualDiskAttach_spec (kind : AttachKind) (s : Attachments) (path : CString)
    (flags : UInt32) (files : Files) :
    AttachOutcome files path (run Files.handle (virtualDiskAttach kind s path flags) files) := by
  cases kind with
  | raw => exact attachRaw_spec s path flags files
  | fixedVhd => exact attachFixedVhd_spec s path flags files
  | auto =>
    simp only [virtualDiskAttach, virtualDiskAttachAuto]
    split
    · exact ⟨rfl, nofun⟩
    · simp only [run_bind]
      have same₁ := nextOutcome_same files
      obtain ⟨size, files₁, measured⟩ : ∃ size files₁,
        run Files.handle (vfsFileSize path) files = (size, files₁) := ⟨_, _, rfl⟩
      have first : files.Same files₁ := by
        have given : files.nextOutcome.2 = files₁ := congrArg Prod.snd measured
        rwa [given] at same₁
      rw [measured]
      dsimp only
      split
      · exact ⟨first, nofun⟩
      · have whole := @imageReadAll_spec files₁ path
        unfold wp at whole
        rw [run_bind]
        obtain ⟨image, files₂, loaded⟩ : ∃ image files₂,
          run Files.handle (imageReadAll path).run files₁ = (image, files₂) := ⟨_, _, rfl⟩
        rw [loaded] at whole ⊢
        have second : files.Same files₂ := Eq.trans whole.1 first
        cases image with
        | none => exact ⟨second, nofun⟩
        | some image =>
          dsimp only
          split
          · exact (attachFixedVhd_spec s path flags files₂).of_same second
          · split
            · exact ⟨second, nofun⟩
            · split
              · exact ⟨second, nofun⟩
              · exact (attachRaw_spec s path flags files₂).of_same second

/-! ### Requests -/

section Requests

variable {files : Files} {slot : VdiskInfo} {device : Device} {lba count : Nat}

theorem withRetry_spec {α : Type} {call : FileCode α} {failed : Files → Prop} {done : α → Files → Prop}
    (attempt : ∀ files, failed files → wp Files.handle call (Ends failed done) files)
    (attempts : Nat) (start : failed files) :
    wp Files.handle (withRetry call attempts) (Ends failed done) files := by
  induction attempts generalizing files with
  | zero => exact start
  | succ attempts ih =>
    rw [withRetry, wp_orElse]
    apply wp_mono (attempt files start)
    rintro (_ | value) files' after
    · exact ih after
    · exact after

theorem requestInBounds_within (positive : device.blockCount ≠ 0)
    (bounds : requestInBounds device lba count = true) : lba + count ≤ device.blockCount := by
  unfold requestInBounds at bounds
  split at bounds
  · cases bounds
  split at bounds
  · cases bounds
  split at bounds
  · cases bounds
  · have fits := of_decide_eq_true bounds
    omega

theorem place_no_wrap (small : slot.size < 2 ^ 64)
    (blocks : device.blockCount * VDISK_SECTOR_SIZE = slot.size)
    (within : lba + count ≤ device.blockCount) :
    lba * VDISK_SECTOR_SIZE % 2 ^ 64 = lba * VDISK_SECTOR_SIZE := by
  have inside := Nat.mul_le_mul_right VDISK_SECTOR_SIZE within
  rw [blocks, Nat.add_mul] at inside
  exact Nat.mod_eq_of_lt (lt_of_le_of_lt (Nat.le_of_add_right_le inside) small)

theorem requestRead_spec (positive : device.blockCount ≠ 0) (small : slot.size < 2 ^ 64)
    (blocks : device.blockCount * VDISK_SECTOR_SIZE = slot.size) :
    wp Files.handle (requestRead device slot lba count)
      (Ends files.Same fun data files' => files.Same files' ∧ lba + count ≤ device.blockCount ∧
        data = slice (files.bytes slot.path) (lba * VDISK_SECTOR_SIZE)
          (count * VDISK_SECTOR_SIZE)) files := by
  rw [requestRead, wp_guard]
  split
  · rename_i bounds
    have within := requestInBounds_within positive bounds
    have place := place_no_wrap small blocks within
    refine withRetry_spec (fun files₁ same₁ => ?_) _ rfl
    apply wp_mono rawReadBlocks_spec
    rintro (_ | data) files₂ ⟨same₂, read⟩
    · exact same₂.trans same₁
    · obtain ⟨-, there⟩ := read data rfl
      rw [place, Files.Same.bytes same₁] at there
      exact ⟨same₂.trans same₁, within, there⟩
  · exact rfl

theorem requestRead_same (positive : device.blockCount ≠ 0) (small : slot.size < 2 ^ 64)
    (blocks : device.blockCount * VDISK_SECTOR_SIZE = slot.size) :
    wp Files.handle (requestRead device slot lba count) (fun _ files' => files.Same files') files := by
  apply wp_mono (requestRead_spec positive small blocks)
  rintro (_ | data) files' after
  · exact after
  · exact after.1

theorem requestWrite_spec {buffer : Buffer} (positive : device.blockCount ≠ 0)
    (small : slot.size < 2 ^ 64) (blocks : device.blockCount * VDISK_SECTOR_SIZE = slot.size) :
    wp Files.handle (requestWrite device slot lba count buffer) (Ends files.Same fun _ files' =>
        lba + count ≤ device.blockCount ∧ (files.bytes slot.path).length = slot.fileSize ∧
        files'.bytes slot.path = put (files.bytes slot.path) (lba * VDISK_SECTOR_SIZE)
          (buffer.block 0 (count * VDISK_SECTOR_SIZE))) files := by
  rw [requestWrite, wp_guard]
  split
  · rename_i allowed
    have within := requestInBounds_within positive allowed.1
    have place := place_no_wrap small blocks within
    refine withRetry_spec (fun files₁ same₁ => ?_) _ rfl
    apply wp_mono rawWriteBlocks_spec
    rintro (_ | done) files₂ after
    · exact Eq.trans after same₁
    · obtain ⟨whole, -, stored⟩ := after
      have here := stored slot.path
      rw [if_pos rfl, place, Files.Same.bytes same₁] at here
      rw [Files.Same.bytes same₁] at whole
      exact ⟨within, whole, here⟩
  · exact rfl

end Requests

/-! ### A disk on which nothing fails -/

section Calm

variable {files : Files} {path : CString} {file : File}

theorem nextOutcome_calm (calm : files.outcomes = []) : files.nextOutcome = (⟨false, 0⟩, files) := by
  unfold Files.nextOutcome
  rw [calm]

theorem bytes_of_file (there : files.contents path = some file) : files.bytes path = file.1 := by
  unfold Files.bytes
  rw [there]

theorem vfsFileSize_calm (calm : files.outcomes = []) (there : files.contents path = some file) :
    run Files.handle (vfsFileSize path) files = (file.1.length, files) := by
  have answer : run Files.handle (vfsFileSize path) files =
      (if files.nextOutcome.1.fails then 0 else (files.nextOutcome.2.bytes path).length,
        files.nextOutcome.2) := rfl
  rw [answer, nextOutcome_calm calm, bytes_of_file there]
  rfl

theorem readImage_calm (calm : files.outcomes = []) (there : files.contents path = some file)
    (some_bytes : file.1.length ≠ 0) :
    wp Files.handle (readImage path file.1.length)
      (fun result files' => result = some file.1 ∧ files' = files) files := by
  have next := nextOutcome_calm calm
  have bytes := bytes_of_file there
  have allocated : run Files.handle (kmalloc file.1.length) files = (true, files) := by
    have answer : run Files.handle (kmalloc file.1.length) files =
        (file.1.length != 0 && !files.nextOutcome.1.fails, files.nextOutcome.2) := rfl
    rw [answer, next, Bool.not_false, Bool.and_true]
    exact Prod.ext (bne_iff_ne.mpr some_bytes) rfl
  have opened : run Files.handle (vfsOpen path).run files = (some path, files) := by
    have answer : run Files.handle (vfsOpen path).run files =
        (if files.nextOutcome.1.fails || (files.nextOutcome.2.contents path).isNone then none
          else some path, files.nextOutcome.2) := rfl
    rw [answer, next, there]
    rfl
  have read : run Files.handle (vfsRead path file.1.length) files = (file.1, files) := by
    have answer : run Files.handle (vfsRead path file.1.length) files =
        ((files.nextOutcome.2.bytes path).take (if files.nextOutcome.1.fails then
          min files.nextOutcome.1.transferred file.1.length else file.1.length),
          files.nextOutcome.2) := rfl
    rw [answer, next, bytes, if_neg Bool.false_ne_true, List.take_length]
  rw [readImage, wp_lift, allocated, wp_guard, if_pos rfl, wp_bind, wp, opened]
  dsimp only
  rw [wp_lift, read]
  apply wp_vfsClose
  rw [wp_guard, if_pos (Nat.lt_irrefl _)]
  exact ⟨rfl, rfl⟩

theorem fixedVhdSizes_calm (calm : files.outcomes = []) (there : files.contents path = some file)
    {dataSize : Nat} (valid : validateFixedVhdFooter (footerOf file.1 file.1.length) file.1.length =
      some dataSize) :
    run Files.handle (fixedVhdSizes path).run files = (some (dataSize, file.1.length), files) := by
  have large : ¬file.1.length ≤ VDISK_SECTOR_SIZE := by
    intro small
    rw [validateFixedVhdFooter, if_pos small] at valid
    cases valid
  have found : wp Files.handle (fixedVhdSizes path)
      (fun result files' => result = some (dataSize, file.1.length) ∧ files' = files) files := by
    rw [fixedVhdSizes, wp_lift, vfsFileSize_calm calm there, wp_guard, if_pos large, wp_bind]
    apply wp_mono (readImage_calm calm there (by omega))
    rintro result files' ⟨rfl, rfl⟩
    dsimp only
    rw [wp_ofOption, valid]
    exact ⟨rfl, rfl⟩
  exact Prod.ext found.1 found.2

end Calm

/-! ### Runs -/

inductive Request where
  | read (lba : UInt64) (count : UInt32)
  | write (lba : UInt64) (count : UInt32) (buffer : Buffer)
  | flush

/-- A request, with the outcomes of the calls that are made for it. -/
structure Access where
  request : Request
  outcomes : List FileOutcome

structure DiskWrite where
  lba : Nat
  count : Nat
  buffer : Buffer

/-- The files, and the writes so far, the last one first. -/
structure DiskRun where
  files : Files
  written : List DiskWrite

/-- A call on files as they are, with the outcomes of the calls that it makes. -/
def answer {α : Type} (code : FileCode α) (outcomes : List FileOutcome) (files : Files) :
    Option α × Files :=
  run Files.handle code.run { files with outcomes := outcomes }

def DiskRun.step (device : Device) (slot : VdiskInfo) (run : DiskRun) (access : Access) : DiskRun :=
  match access.request with
  | .read lba count =>
    { run with files :=
        (answer (requestRead device slot lba.toNat count.toNat) access.outcomes run.files).2 }
  | .write lba count buffer =>
    match answer (requestWrite device slot lba.toNat count.toNat buffer) access.outcomes run.files with
    | (some _, files) => ⟨files, ⟨lba.toNat, count.toNat, buffer⟩ :: run.written⟩
    | (none, files) => { run with files := files }
  | .flush => { run with files := (answer (rawFlush slot) access.outcomes run.files).2 }

/-- The data that was written last to a block, or what the image had there. -/
def lastData (original : List UInt8) (lba : Nat) : List DiskWrite → List UInt8
  | [] => slice original (lba * VDISK_SECTOR_SIZE) VDISK_SECTOR_SIZE
  | write :: older =>
    if write.lba ≤ lba ∧ lba < write.lba + write.count then
      write.buffer.block ((lba - write.lba) * VDISK_SECTOR_SIZE) VDISK_SECTOR_SIZE
    else lastData original lba older

/-- What holds of an image in every state of a run. -/
structure Stored (device : Device) (slot : VdiskInfo) (original : List UInt8) (run : DiskRun) :
    Prop where
  length : (run.files.bytes slot.path).length = original.length
  blocks : ∀ lba < device.blockCount,
    slice (run.files.bytes slot.path) (lba * VDISK_SECTOR_SIZE) VDISK_SECTOR_SIZE =
      lastData original lba run.written
  behind : (run.files.bytes slot.path).drop slot.size = original.drop slot.size

theorem slice_put_within {bytes data : List UInt8} {offset start width : Nat}
    (inside : offset + data.length ≤ bytes.length) (within : start + width ≤ data.length) :
    slice (put bytes offset data) (offset + start) width = slice data start width := by
  have whole : slice (put bytes offset data) offset data.length = data := slice_put inside
  have part : slice (slice (put bytes offset data) offset data.length) start width = _ :=
    slice_slice within
  rw [whole] at part
  exact part.symm

theorem drop_put {bytes data : List UInt8} {offset limit : Nat}
    (inside : offset + data.length ≤ limit) (room : limit ≤ bytes.length) :
    (put bytes offset data).drop limit = bytes.drop limit := by
  apply List.ext_getElem?
  intro i
  rw [List.getElem?_drop, List.getElem?_drop, put_getElem? (by omega), if_neg (by omega)]

section Run

variable {device : Device} {slot : VdiskInfo} {original : List UInt8} {run : DiskRun}

theorem Stored.same {files : Files} (stored : Stored device slot original run)
    (same : files.bytes slot.path = run.files.bytes slot.path) :
    Stored device slot original { run with files := files } := by
  obtain ⟨length, blocks, behind⟩ := stored
  constructor
  · rwa [same]
  · intro lba below
    rw [same]
    exact blocks lba below
  · rwa [same]

theorem Stored.write {files : Files} {lba count : Nat} {buffer : Buffer}
    (stored : Stored device slot original run)
    (blocks : device.blockCount * VDISK_SECTOR_SIZE = slot.size)
    (room : slot.size ≤ original.length) (within : lba + count ≤ device.blockCount)
    (here : files.bytes slot.path = put (run.files.bytes slot.path) (lba * VDISK_SECTOR_SIZE)
      (buffer.block 0 (count * VDISK_SECTOR_SIZE))) :
    Stored device slot original ⟨files, ⟨lba, count, buffer⟩ :: run.written⟩ := by
  have length := stored.length
  have inside := Nat.mul_le_mul_right VDISK_SECTOR_SIZE within
  rw [blocks, Nat.add_mul] at inside
  have data : (buffer.block 0 (count * VDISK_SECTOR_SIZE)).length = count * VDISK_SECTOR_SIZE := by
    rw [Buffer.block, List.length_map, List.length_range]
  constructor
  · rw [here, put_length (by omega), length]
  · intro other below
    rw [here, lastData]
    dsimp only
    split
    · rename_i among
      obtain ⟨k, place⟩ := Nat.exists_eq_add_of_le among.1
      have part : k * VDISK_SECTOR_SIZE + VDISK_SECTOR_SIZE ≤ count * VDISK_SECTOR_SIZE := by
        rw [← Nat.succ_mul]
        exact Nat.mul_le_mul_right _ (by omega)
      rw [place, Nat.add_mul, slice_put_within (by omega) (by omega), Nat.add_sub_cancel_left]
      exact (slice_window part).trans (by rw [Nat.zero_add]; rfl)
    · rename_i elsewhere
      rw [← stored.blocks other below]
      apply slice_put_other (by omega)
      rcases Nat.lt_or_ge other lba with before | behind
      · left
        rw [← Nat.succ_mul]
        exact Nat.mul_le_mul_right _ before
      · right
        rw [data, ← Nat.add_mul]
        exact Nat.mul_le_mul_right _ (by omega)
  · rw [here, drop_put (by omega) (by omega)]
    exact stored.behind

theorem Stored.step (stored : Stored device slot original run)
    (positive : device.blockCount ≠ 0) (small : slot.size < 2 ^ 64)
    (blocks : device.blockCount * VDISK_SECTOR_SIZE = slot.size)
    (room : slot.size ≤ original.length) (access : Access) :
    Stored device slot original (run.step device slot access) := by
  unfold DiskRun.step
  cases access.request with
  | read lba count =>
    have done : wp Files.handle (requestRead device slot lba.toNat count.toNat) _
      { run.files with outcomes := access.outcomes } := requestRead_same positive small blocks
    exact stored.same (Files.Same.bytes done slot.path)
  | write lba count buffer =>
    have done : wp Files.handle (requestWrite device slot lba.toNat count.toNat buffer) _
      { run.files with outcomes := access.outcomes } := requestWrite_spec positive small blocks
    unfold wp at done
    obtain ⟨result, files, made⟩ : ∃ result files,
      answer (requestWrite device slot lba.toNat count.toNat buffer) access.outcomes run.files =
        (result, files) := ⟨_, _, rfl⟩
    have given : Prog.run Files.handle (requestWrite device slot lba.toNat count.toNat buffer).run
      { run.files with outcomes := access.outcomes } = (result, files) := made
    rw [given] at done
    dsimp only
    rw [made]
    cases result with
    | none => exact stored.same (Files.Same.bytes done slot.path)
    | some _ =>
      obtain ⟨within, -, here⟩ := done
      exact stored.write blocks room within here
  | flush =>
    have done : wp Files.handle (rawFlush slot) _
      { run.files with outcomes := access.outcomes } := rawFlush_spec
    exact stored.same (done slot.path)

theorem Stored.driver (stored : Stored device slot original run)
    (room : slot.size ≤ original.length) (lba count : Nat) (buffer : Buffer)
    (outcomes : List FileOutcome) :
    let after := (answer (rawWriteBlocks slot lba count buffer) outcomes run.files).2
    (after.bytes slot.path).length = original.length ∧
      (after.bytes slot.path).drop slot.size = original.drop slot.size := by
  have done : wp Files.handle (rawWriteBlocks slot lba count buffer) _
    { run.files with outcomes := outcomes } := rawWriteBlocks_spec
  unfold wp at done
  obtain ⟨result, files, made⟩ : ∃ result files, Prog.run Files.handle
    (rawWriteBlocks slot lba count buffer).run { run.files with outcomes := outcomes } =
      (result, files) := ⟨_, _, rfl⟩
  rw [made] at done
  rw [answer, made]
  dsimp only
  have length := stored.length
  have behind := stored.behind
  cases result with
  | none =>
    have same : files.bytes slot.path = run.files.bytes slot.path := Files.Same.bytes done slot.path
    rw [same]
    exact ⟨length, behind⟩
  | some _ =>
    obtain ⟨-, inside, written⟩ := done
    have here : files.bytes slot.path = put (run.files.bytes slot.path)
        (lba * VDISK_SECTOR_SIZE % 2 ^ 64) (buffer.block 0 (count * VDISK_SECTOR_SIZE)) := by
      rw [written slot.path, if_pos rfl]
      rfl
    have data : (buffer.block 0 (count * VDISK_SECTOR_SIZE)).length =
        count * VDISK_SECTOR_SIZE := by
      rw [Buffer.block, List.length_map, List.length_range]
    rw [here, put_length (by omega), drop_put (by omega) (by omega)]
    exact ⟨length, behind⟩

end Run

/-- **The virtual disk store.** A disk that has been attached delivers, behind every sequence
of requests and whatever calls fail, the data that was written last to a block or what the
image had there. The image keeps its size, and a fixed VHD keeps its footer, also from calls
of the driver that no check of the block layer precedes. The callers hold paths in buffers
that are no longer than the path of a slot. -/
theorem virtual_disk_store (kind : AttachKind) (s : Attachments) (path : CString) (flags : UInt32)
    (fits : path.length < SHELL_PATH_CAPACITY) (files : Files) (id : Nat)
    (index : Fin VDISK_MAX_COUNT)
    (attached : (run Files.handle (virtualDiskAttach kind s path flags) files).1.2 = some (id, index)) :
    let out := run Files.handle (virtualDiskAttach kind s path flags) files
    let slot := out.1.1.vdisks index
    let original := files.bytes path
    ∃ device, out.1.1.layer.devices[id]? = some device ∧ ∀ accesses : List Access,
      let run := accesses.foldl (DiskRun.step device slot) ⟨out.2, []⟩
      (∀ (lba : UInt64) (count : UInt32) (outcomes : List FileOutcome) (data : List UInt8),
        (answer (requestRead device slot lba.toNat count.toNat) outcomes run.files).1 = some data →
        data.length = count.toNat * VDISK_SECTOR_SIZE ∧ ∀ i < count.toNat,
          slice data (i * VDISK_SECTOR_SIZE) VDISK_SECTOR_SIZE =
            lastData original (lba.toNat + i) run.written) ∧
      ((run.files.bytes path).length = original.length ∧ (slot.format = "vhd-fixed".toList →
          footerOf (run.files.bytes path) original.length = footerOf original original.length)) ∧
      ∀ (lba : UInt64) (count : UInt32) (buffer : Buffer) (outcomes : List FileOutcome),
        let after := (answer (rawWriteBlocks slot lba.toNat count.toNat buffer) outcomes
          run.files).2
        (after.bytes path).length = original.length ∧ (slot.format = "vhd-fixed".toList →
            footerOf (after.bytes path) original.length = footerOf original original.length) := by
  have outcome := virtualDiskAttach_spec kind s path flags files
  obtain ⟨device, registered, size, named, blocks, positive, within, footer⟩ :=
    outcome.attached id index attached
  intro out slot original
  refine ⟨device, registered, fun accesses => ?_⟩
  have here : slot.path = path := by
    rw [named]
    exact copyString_of_fits fits
  have room : slot.size ≤ original.length := size ▸ within
  have small : slot.size < 2 ^ 64 := lt_of_le_of_lt room (files.bytes_lt path)
  have start : Stored device slot original ⟨out.2, []⟩ := by
    have same : out.2.bytes slot.path = original := by
      rw [here]
      exact outcome.same.bytes path
    exact ⟨by rw [same], fun lba _ => by rw [same]; rfl, by rw [same]⟩
  have all : Stored device slot original (accesses.foldl (DiskRun.step device slot) ⟨out.2, []⟩) := by
    generalize (⟨out.2, []⟩ : DiskRun) = run at start
    induction accesses generalizing run with
    | nil => exact start
    | cons access rest ih => exact ih _ (start.step positive small blocks room access)
  -- the footer is what is behind the data
  have kept {image : List UInt8} (vhd : slot.format = "vhd-fixed".toList)
      (behind : image.drop slot.size = original.drop slot.size) :
      footerOf image original.length = footerOf original original.length := by
    have whole := footer vhd
    have place : original.length - VDISK_SECTOR_SIZE = slot.size := by
      rw [size] at whole
      exact Nat.sub_eq_of_eq_add whole.symm
    rw [footerOf, footerOf, slice, slice, place, behind]
  intro run
  refine ⟨fun lba count outcomes data returned => ?_, ⟨?_, fun vhd => ?_⟩,
    fun lba count buffer outcomes => ?_⟩
  · have done : wp Files.handle (requestRead device slot lba.toNat count.toNat) _
      { run.files with outcomes := outcomes } := requestRead_spec positive small blocks
    have returned : (Prog.run Files.handle (requestRead device slot lba.toNat count.toNat).run
      { run.files with outcomes := outcomes }).1 = some data := returned
    unfold wp at done
    rw [returned] at done
    obtain ⟨-, inside, there⟩ := done
    have bound := Nat.mul_le_mul_right VDISK_SECTOR_SIZE inside
    rw [blocks, Nat.add_mul] at bound
    have last : lba.toNat * VDISK_SECTOR_SIZE + count.toNat * VDISK_SECTOR_SIZE ≤ slot.size := bound
    have length : (run.files.bytes slot.path).length = original.length := all.length
    have there : data = slice (run.files.bytes slot.path) (lba.toNat * VDISK_SECTOR_SIZE)
      (count.toNat * VDISK_SECTOR_SIZE) := there
    refine ⟨by rw [there]; exact slice_length (by omega), fun i below => ?_⟩
    have part : i * VDISK_SECTOR_SIZE + VDISK_SECTOR_SIZE ≤ count.toNat * VDISK_SECTOR_SIZE := by
      rw [← Nat.succ_mul]
      exact Nat.mul_le_mul_right _ below
    rw [there, slice_slice part, ← Nat.add_mul]
    exact all.blocks _ (by omega)
  · rw [← here]
    exact all.length
  · rw [← here]
    exact kept vhd all.behind
  · have after := all.driver room lba.toNat count.toNat buffer outcomes
    rw [here] at after
    exact ⟨after.1, fun vhd => kept vhd after.2⟩

/-- The head of the footer of a fixed VHD of one block; the rest of it is zero. -/
def exampleHead : List UInt8 :=
  vhdCookie ++ List.replicate 40 0 ++ [0, 0, 0, 0, 0, 0, 2, 0] ++ List.replicate 4 0 ++
    [0, 0, 0, 2] ++ [0xFF, 0xFF, 0xFC, 0x9E]

theorem footerSum_zeros {counts : Nat → Bool} {head : List UInt8} (room : head.length ≤ 512) :
    footerSum counts (head ++ List.replicate (512 - head.length) 0) = (List.range head.length).foldl
        (fun sum index => if counts index then (sum + (byteAt head index).toNat) % 2 ^ 32 else sum)
        0 := by
  have sum : ∀ count ≤ 512, (List.range count).foldl (fun sum index =>
      if counts index then
        (sum + (byteAt (head ++ List.replicate (512 - head.length) 0) index).toNat) % 2 ^ 32
      else sum) 0 = (List.range (min count head.length)).foldl (fun sum index =>
        if counts index then (sum + (byteAt head index).toNat) % 2 ^ 32 else sum) 0 ∧
      (List.range (min count head.length)).foldl (fun sum index =>
        if counts index then (sum + (byteAt head index).toNat) % 2 ^ 32 else sum) 0 < 2 ^ 32 := by
    intro count below
    induction count with
    | zero => exact ⟨by rw [Nat.zero_min]; rfl, by rw [Nat.zero_min]; exact Nat.two_pow_pos 32⟩
    | succ count ih =>
      obtain ⟨same, small⟩ := ih (by omega)
      rw [List.range_succ, List.foldl_append, same]
      dsimp only [List.foldl]
      rcases Nat.lt_or_ge count head.length with front | behind
      · rw [Nat.min_eq_left (by omega)] at small ⊢
        rw [Nat.min_eq_left (by omega), List.range_succ, List.foldl_append]
        dsimp only [List.foldl]
        rw [byteAt_append_left front]
        refine ⟨rfl, ?_⟩
        split
        · exact Nat.mod_lt _ (Nat.two_pow_pos 32)
        · exact small
      · obtain ⟨k, place⟩ := Nat.exists_eq_add_of_le behind
        have zero : byteAt (head ++ List.replicate (512 - head.length) 0) count = 0 := by
          rw [place, byteAt_append_right, byteAt, List.getD_eq_getElem?_getD,
            List.getElem?_replicate_of_lt (by omega)]
          rfl
        have limit : min (count + 1) head.length = min count head.length := by omega
        rw [limit, zero, UInt8.toNat_zero, Nat.add_zero, Nat.mod_eq_of_lt small, ite_self]
        exact ⟨rfl, small⟩
  have whole := (sum 512 (Nat.le_refl _)).1
  rw [Nat.min_eq_right room] at whole
  exact whole

theorem exampleHead_length : exampleHead.length = 68 := by decide

def exampleFooter : List UInt8 := exampleHead ++ List.replicate (512 - exampleHead.length) 0

theorem exampleFooter_valid : validateFixedVhdFooter exampleFooter 1024 = some 512 := by
  have head {offset width : Nat} (inside : offset + width ≤ 68) :
      slice exampleFooter offset width = slice exampleHead offset width :=
    slice_append_left (by rw [exampleHead_length]; exact inside)
  have sum : footerSum (fun index => !(index ≥ 64 && index < 68)) exampleFooter = 865 := by
    rw [exampleFooter, footerSum_zeros (by rw [exampleHead_length]; decide)]
    decide +kernel
  unfold validateFixedVhdFooter getBE
  rw [head (by decide), head (by decide), head (by decide), head (by decide), sum]
  decide

def exampleImage : File :=
  ⟨List.replicate 512 0 ++ exampleFooter, by
    rw [List.length_append, List.length_replicate, exampleFooter, List.length_append,
      List.length_replicate, exampleHead_length]
    omega⟩

theorem exampleImage_length : exampleImage.1.length = 1024 := by
  rw [exampleImage, List.length_append, List.length_replicate, exampleFooter, List.length_append,
    List.length_replicate, exampleHead_length]

def exampleSlot : Fin VDISK_MAX_COUNT := ⟨0, by decide⟩

def examplePath : CString := "/disk.vhd".toList

def exampleFiles : Files :=
  ⟨fun path => if path = examplePath then some exampleImage else none, []⟩

def exampleState : Attachments :=
  ⟨blockDeviceInitialize fun _ _ _ => 0, fun _ => ⟨false, false, [], [], [], 0, 0, none⟩⟩

/-- What attaching the image gives. -/
def exampleAttached : (Attachments × Option (Nat × Fin VDISK_MAX_COUNT)) × Files :=
  run Files.handle (virtualDiskAttach .fixedVhd exampleState examplePath 0) exampleFiles

theorem exampleAttach : exampleAttached =
    (attachVirtualDisk exampleState examplePath 0 "vhd-fixed".toList 512 1024, exampleFiles) := by
  have footer : footerOf exampleImage.1 exampleImage.1.length = exampleFooter := by
    have whole : exampleFooter.length = 512 := by
      rw [exampleFooter, List.length_append, List.length_replicate, exampleHead_length]
    rw [footerOf, exampleImage_length, exampleImage]
    have behind : slice (List.replicate 512 0 ++ exampleFooter) ((List.replicate 512 (0 : UInt8)).length + 0)
        512 = slice exampleFooter 0 512 := slice_append_right
    rw [List.length_replicate] at behind
    exact behind.trans (by rw [← whole, slice_whole])
  have sizes := @fixedVhdSizes_calm exampleFiles examplePath exampleImage rfl rfl 512
    (by rw [footer, exampleImage_length]; exact exampleFooter_valid)
  change run Files.handle (virtualDiskAttachFixedVhd exampleState examplePath 0) exampleFiles = _
  rw [virtualDiskAttachFixedVhd, if_neg (by decide), run_bind, sizes, exampleImage_length]
  rfl

/-- The disk behind a write of sevens to its block and a flush that fails. -/
def exampleWritten (device : Device) : DiskRun :=
  [⟨.write 0 1 fun _ => 7, []⟩, ⟨.flush, [⟨true, 0⟩]⟩].foldl
    (DiskRun.step device (exampleAttached.1.1.vdisks exampleSlot)) ⟨exampleAttached.2, []⟩

theorem exampleRead : (exampleAttached.1.1.layer.devices[0]?.bind fun device =>
    (answer (requestRead device (exampleAttached.1.1.vdisks exampleSlot) 0 1) []
      (exampleWritten device).files).1).isSome = true := by
  unfold exampleWritten
  rw [exampleAttach]
  decide +kernel

/-- The block is read back, and the footer is there, also behind a write of the driver to the
block of the footer. -/
theorem virtual_disk_store_example : ∃ device,
    exampleAttached.1.1.layer.devices[0]? = some device ∧
      let slot := exampleAttached.1.1.vdisks exampleSlot
      let run := exampleWritten device
      (∃ data, (answer (requestRead device slot 0 1) [] run.files).1 = some data ∧
        slice data 0 VDISK_SECTOR_SIZE = lastData exampleImage.1 0 run.written) ∧
      ((run.files.bytes examplePath).length = exampleImage.1.length ∧
        footerOf (run.files.bytes examplePath) exampleImage.1.length =
          footerOf exampleImage.1 exampleImage.1.length) ∧
      let after := (answer (rawWriteBlocks slot 1 1 fun _ => 7) [] run.files).2
      footerOf (after.bytes examplePath) exampleImage.1.length =
        footerOf exampleImage.1 exampleImage.1.length := by
  have vhd : (exampleAttached.1.1.vdisks exampleSlot).format = "vhd-fixed".toList := by
    rw [exampleAttach]
    decide +kernel
  have attached : exampleAttached.1.2 = some (0, exampleSlot) := by
    rw [exampleAttach]
    decide +kernel
  have store := virtual_disk_store .fixedVhd exampleState examplePath 0 (by decide) exampleFiles 0
    exampleSlot
  rw [← exampleAttached] at store
  obtain ⟨device, registered, all⟩ := store attached
  obtain ⟨reads, ⟨length, footer⟩, raw⟩ := all [⟨.write 0 1 fun _ => 7, []⟩, ⟨.flush, [⟨true, 0⟩]⟩]
  have delivered := exampleRead
  rw [registered] at delivered
  obtain ⟨data, got⟩ := Option.isSome_iff_exists.mp delivered
  exact ⟨device, registered, ⟨data, got, (reads 0 1 [] data got).2 0 (by decide)⟩,
    ⟨length, footer vhd⟩, (raw 1 1 _ []).2 vhd⟩

end AsasOs.VirtualDisk
