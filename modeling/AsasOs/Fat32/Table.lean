import AsasOs.Fat32.Upkeep
import AsasOs.Lib.Chains
import Mathlib.Order.Interval.Finset.Nat

/-!
# FAT32: the allocation table

What the functions on the allocation table do on a device that does not fail. The table of
a volume is the number that its first copy has for each cluster. `setEntry` and
`clearCluster` are the two ways in which a volume changes; the rest is said in terms of
them and of the chains that the table describes.
-/
namespace AsasOs.Fat32

open Block Bytes Prog Chains

/-- A FAT32 volume: it has a table, the table has an entry for each of its clusters, and
the numbers of the clusters are below those that mean something else. -/
structure Context.WellFormed (context : Context) : Prop extends context.Sized where
  blocks : context.sectorSize % 512 = 0
  tables : 0 < context.bpb.fatCount
  some_ : 2 < context.maxCluster
  room : context.maxCluster * 4 ≤ context.bpb.sectorsPerFat * context.sectorSize
  numbers : context.maxCluster ≤ FAT32_RESERVED_START

/-- The entry of a cluster, in the first copy of the table. -/
def entryOf (context : Context) (medium : Nat → List UInt8) (cluster : Nat) : Nat :=
  getLE (medium (context.fatStart + fatSectorOf context cluster)) (fatOffsetOf context cluster) 4 % 2 ^ 28

/-- The sectors of the table have the size of a sector. -/
def TableSized (context : Context) (medium : Nat → List UInt8) : Prop :=
  ∀ lba, context.fatStart ≤ lba → lba < context.dataStart → (medium lba).length = context.sectorSize

section Entries

variable {context : Context} {cluster other : Nat}

/-! ### Where entries are -/

namespace Context.WellFormed

theorem sector_pos (wf : context.WellFormed) : 0 < context.sectorSize := by
  have sector := wf.sector
  omega

theorem place (wf : context.WellFormed) (valid : context.dataClusterValid cluster = true) :
    fatSectorOf context cluster = cluster * 4 / context.sectorSize ∧
      fatOffsetOf context cluster = cluster * 4 % context.sectorSize := by
  obtain ⟨-, below⟩ := Context.dataClusterValid_iff.mp valid
  have numbers := wf.numbers
  have small : cluster * 4 % 2 ^ 32 = cluster * 4 := by
    unfold FAT32_RESERVED_START at numbers
    omega
  rw [fatSectorOf, fatOffsetOf, small]
  exact ⟨rfl, rfl⟩

theorem sector_lt (wf : context.WellFormed) (valid : context.dataClusterValid cluster = true) :
    fatSectorOf context cluster < context.bpb.sectorsPerFat := by
  obtain ⟨-, below⟩ := Context.dataClusterValid_iff.mp valid
  rw [(wf.place valid).1, Nat.div_lt_iff_lt_mul wf.sector_pos]
  have room := wf.room
  omega

theorem offset_le (wf : context.WellFormed) (valid : context.dataClusterValid cluster = true) :
    fatOffsetOf context cluster + 4 ≤ context.sectorSize := by
  have below := Nat.mod_lt (cluster * 4) wf.sector_pos
  have blocks := wf.blocks
  rw [(wf.place valid).2]
  have whole := Nat.div_add_mod context.sectorSize 512
  have split := Nat.mod_mod_of_dvd (cluster * 4) (Dvd.intro_left (context.sectorSize / 512 * 128)
    (show context.sectorSize / 512 * 128 * 4 = context.sectorSize by omega))
  omega

theorem apart (wf : context.WellFormed) (valid : context.dataClusterValid cluster = true)
    (valid' : context.dataClusterValid other = true) (distinct : other ≠ cluster)
    (same : fatSectorOf context other = fatSectorOf context cluster) :
    fatOffsetOf context other + 4 ≤ fatOffsetOf context cluster ∨
      fatOffsetOf context cluster + 4 ≤ fatOffsetOf context other := by
  rw [(wf.place valid).1, (wf.place valid').1] at same
  rw [(wf.place valid).2, (wf.place valid').2]
  have first := Nat.div_add_mod (cluster * 4) context.sectorSize
  have second := Nat.div_add_mod (other * 4) context.sectorSize
  rw [same] at second
  omega

theorem fat_inside (wf : context.WellFormed) (valid : context.dataClusterValid cluster = true)
    {copy : Nat} (below : copy < context.bpb.fatCount) :
    context.fatStart + copy * context.bpb.sectorsPerFat + fatSectorOf context cluster <
      context.dataStart := by
  have entry := wf.sector_lt valid
  have copies : (copy + 1) * context.bpb.sectorsPerFat ≤ context.bpb.fatCount * context.bpb.sectorsPerFat :=
    Nat.mul_le_mul_right _ below
  rw [Nat.succ_mul] at copies
  rw [wf.dataStart_eq]
  omega

theorem fat_inBounds (wf : context.WellFormed) (valid : context.dataClusterValid cluster = true)
    {copy : Nat} (below : copy < context.bpb.fatCount) :
    inBounds context.device
      (context.fatStart + copy * context.bpb.sectorsPerFat + fatSectorOf context cluster) = true :=
  wf.inBounds_of_lt ((wf.fat_inside valid below).trans (Sized.dataStart_lt wf.some_))

theorem copy_ne (wf : context.WellFormed) (valid' : context.dataClusterValid other = true)
    {copy : Nat} (later : 0 < copy) :
    context.fatStart + fatSectorOf context other ≠
      context.fatStart + copy * context.bpb.sectorsPerFat + fatSectorOf context cluster := by
  have entry := wf.sector_lt valid'
  have copies : 1 * context.bpb.sectorsPerFat ≤ copy * context.bpb.sectorsPerFat :=
    Nat.mul_le_mul_right _ later
  omega

end Context.WellFormed

/-! ### An entry that is stored -/

theorem storeEntry_length {sec : List UInt8} {offset : Nat} (inside : offset + 4 ≤ sec.length)
    (value : Nat) : (storeEntry sec offset value).length = sec.length :=
  put_length inside

theorem getLE_storeEntry_other {sec : List UInt8} {offset start : Nat} (inside : offset + 4 ≤ sec.length)
    (apart : start + 4 ≤ offset ∨ offset + 4 ≤ start) (value : Nat) :
    getLE (storeEntry sec offset value) start 4 = getLE sec start 4 :=
  getLE_put_other (by omega) apart

theorem getLE_storeEntry {sec : List UInt8} {offset : Nat} (inside : offset + 4 ≤ sec.length)
    (value : Nat) : getLE (storeEntry sec offset value) offset 4 % 2 ^ 28 = value % 2 ^ 28 := by
  have stored : slice (storeEntry sec offset value) offset 4 =
      [UInt8.ofNat value, UInt8.ofNat (value >>> 8), UInt8.ofNat (value >>> 16),
        (byteAt sec (offset + 3) &&& (0xF0 : UInt8)) ||| (UInt8.ofNat (value >>> 24) &&& (0x0F : UInt8))] :=
    slice_put inside
  -- the upper half of the last byte is kept, and not part of the entry
  have last : ((byteAt sec (offset + 3) &&& (0xF0 : UInt8)) |||
      (UInt8.ofNat (value >>> 24) &&& (0x0F : UInt8))).toNat % 2 ^ 4 = value / 2 ^ 24 % 2 ^ 4 := by
    rw [UInt8.toNat_or, UInt8.toNat_and, UInt8.toNat_and, Nat.or_mod_two_pow, Nat.and_mod_two_pow,
      Nat.and_mod_two_pow]
    have high : (0xF0 : UInt8).toNat % 2 ^ 4 = 0 := by decide
    have low : (0x0F : UInt8).toNat % 2 ^ 4 = 2 ^ 4 - 1 := by decide
    rw [high, low, Nat.and_zero, Nat.zero_or, Nat.and_two_pow_sub_one_eq_mod, UInt8.toNat_ofNat',
      Nat.shiftRight_eq_div_pow]
    omega
  rw [getLE, stored]
  generalize (byteAt sec (offset + 3) &&& (0xF0 : UInt8)) |||
    (UInt8.ofNat (value >>> 24) &&& (0x0F : UInt8)) = top at last ⊢
  simp only [Bytes.value, UInt8.toNat_ofNat', Nat.shiftRight_eq_div_pow]
  omega

end Entries

/-! ### Changing an entry -/

namespace Volume

def setCopy (context : Context) (cluster value : Nat) (v : Volume) (copy : Nat) : Volume :=
  let lba := context.fatStart + copy * context.bpb.sectorsPerFat + fatSectorOf context cluster
  v.write lba (storeEntry (v.medium lba) (fatOffsetOf context cluster) value)

/-- The entry of a cluster set, in all copies. -/
def setEntry (context : Context) (v : Volume) (cluster value : Nat) : Volume :=
  (List.range context.bpb.fatCount).foldl (setCopy context cluster value) v

section SetCopies

variable {context : Context} {v : Volume} {cluster other value : Nat}

theorem write_other {lba lba' : Nat} (apart : lba' ≠ lba) (sector : List UInt8) :
    (v.write lba sector).medium lba' = v.medium lba' := Function.update_of_ne apart _ _

@[simp] theorem write_self (v : Volume) (lba : Nat) (sector : List UInt8) :
    (v.write lba sector).medium lba = sector := Function.update_self ..

theorem setCopies_info (v : Volume) (copies : List Nat) :
    (copies.foldl (setCopy context cluster value) v).info = v.info := by
  induction copies generalizing v with
  | nil => rfl
  | cons copy rest ih => exact ih _

theorem setCopies_other {copies : List Nat} {lba : Nat}
    (apart : ∀ copy ∈ copies, lba ≠ context.fatStart + copy * context.bpb.sectorsPerFat +
      fatSectorOf context cluster) :
    (copies.foldl (setCopy context cluster value) v).medium lba = v.medium lba := by
  induction copies generalizing v with
  | nil => rfl
  | cons copy rest ih =>
    rw [List.foldl_cons, ih fun other member => apart other (List.mem_cons_of_mem _ member)]
    exact write_other (apart copy List.mem_cons_self) _

theorem setCopies_sized {copies : List Nat} (wf : context.WellFormed)
    (valid : context.dataClusterValid cluster = true)
    (below : ∀ copy ∈ copies, copy < context.bpb.fatCount) (sized : TableSized context v.medium) :
    TableSized context (copies.foldl (setCopy context cluster value) v).medium := by
  induction copies generalizing v with
  | nil => exact sized
  | cons copy rest ih =>
    refine ih (fun other member => below other (List.mem_cons_of_mem _ member)) fun lba low high => ?_
    by_cases here : lba = context.fatStart + copy * context.bpb.sectorsPerFat + fatSectorOf context cluster
    · rw [here, setCopy, write_self, storeEntry_length, ← here, sized lba low high]
      rw [← here, sized lba low high]
      exact wf.offset_le valid
    · rw [setCopy, write_other here, sized lba low high]

@[simp] theorem setEntry_info : (v.setEntry context cluster value).info = v.info := setCopies_info v _

theorem setEntry_sized (wf : context.WellFormed) (valid : context.dataClusterValid cluster = true)
    (sized : TableSized context v.medium) :
    TableSized context (v.setEntry context cluster value).medium :=
  setCopies_sized wf valid (fun _ member => List.mem_range.mp member) sized

theorem entryOf_setEntry (wf : context.WellFormed) (valid : context.dataClusterValid cluster = true)
    (valid' : context.dataClusterValid other = true) (sized : TableSized context v.medium) :
    entryOf context (v.setEntry context cluster value).medium other =
      if other = cluster then value % 2 ^ 28 else entryOf context v.medium other := by
  obtain ⟨mirrors, count⟩ := Nat.exists_eq_succ_of_ne_zero wf.tables.ne'
  have first : (v.setEntry context cluster value).medium
        (context.fatStart + fatSectorOf context other) =
      (setCopy context cluster value v 0).medium (context.fatStart + fatSectorOf context other) := by
    rw [setEntry, count, List.range_succ_eq_map, List.foldl_cons]
    refine setCopies_other fun copy member => ?_
    obtain ⟨mirror, -, rfl⟩ := List.mem_map.mp member
    exact wf.copy_ne valid' (Nat.succ_pos mirror)
  have inside := wf.fat_inside valid wf.tables
  have length : (v.medium (context.fatStart + fatSectorOf context cluster)).length =
      context.sectorSize := sized _ (Nat.le_add_right _ _) (by omega)
  have room := wf.offset_le valid
  rw [entryOf, first, setCopy]
  simp only [Nat.zero_mul, Nat.add_zero]
  by_cases same : fatSectorOf context other = fatSectorOf context cluster
  · rw [same, write_self]
    by_cases here : other = cluster
    · rw [if_pos here, here, getLE_storeEntry (by omega)]
    · rw [if_neg here, getLE_storeEntry_other (by omega) (wf.apart valid valid' here same), entryOf, same]
  · have here : other ≠ cluster := fun here => same (by rw [here])
    rw [write_other (by omega), if_neg here, entryOf]

end SetCopies

end Volume

section SetCluster

variable {context : Context} {v : Volume} {cluster value : Nat}

theorem setCopies_run (wf : context.WellFormed) (valid : context.dataClusterValid cluster = true)
    (writes : writable context.device = true) {copies : List Nat}
    (below : ∀ copy ∈ copies, copy < context.bpb.fatCount) :
    runCode context.device (setCopies context cluster value copies) v =
      (some (), copies.foldl (Volume.setCopy context cluster value) v) := by
  induction copies generalizing v with
  | nil => rfl
  | cons copy rest ih =>
    have here := below copy List.mem_cons_self
    have inside := wf.fat_inBounds valid here
    rw [setCopies]
    simp only [wf.fat_lba here.le]
    rw [runCode_bind_some (runCode_read _ |>.trans (by rw [Volume.reads, if_pos inside])),
      runCode_bind_some (runCode_write _ _ |>.trans (if_pos (by rw [inside, writes]; rfl)))]
    exact ih fun other member => below other (List.mem_cons_of_mem _ member)

theorem setCluster_run (wf : context.WellFormed) (valid : context.dataClusterValid cluster = true)
    (writes : writable context.device = true) (v : Volume) (value : Nat) :
    runCode context.device (fat32SetCluster context cluster value) v =
      (some (), v.setEntry context cluster value) :=
  setCopies_run wf valid writes fun _ member => List.mem_range.mp member

theorem setCluster_refused (wf : context.WellFormed) (valid : context.dataClusterValid cluster = true)
    (refuses : writable context.device = false) :
    runCode context.device (fat32SetCluster context cluster value) v = (none, v) := by
  obtain ⟨mirrors, count⟩ := Nat.exists_eq_succ_of_ne_zero wf.tables.ne'
  have inside := wf.fat_inBounds valid wf.tables
  rw [fat32SetCluster, count, List.range_succ_eq_map, setCopies]
  simp only [wf.fat_lba wf.tables.le]
  rw [runCode_bind_some (runCode_read _ |>.trans (by rw [Volume.reads, if_pos inside]))]
  exact runCode_bind_none (runCode_write _ _ |>.trans (if_neg (by rw [inside, refuses]; simp)))

end SetCluster

/-! ### Following links -/

/-- Where a cluster leads in a table. -/
def linkAt (context : Context) (entry : Nat → Nat) (cluster : Nat) : Option (Option Nat) :=
  if context.dataClusterValid cluster = false then none
  else if entry cluster ≥ FAT32_EOC then some none
  else if context.dataClusterValid (entry cluster) then some (some (entry cluster)) else none

abbrev Volume.link (context : Context) (v : Volume) : Nat → Option (Option Nat) :=
  linkAt context (entryOf context v.medium)

section Links

variable {context : Context} {v : Volume} {cluster : Nat} {cells : List Nat} {entry entry' : Nat → Nat}

theorem linkAt_valid (linked : linkAt context entry cluster ≠ none) :
    context.dataClusterValid cluster = true ∧ entry cluster ≠ 0 := by
  unfold linkAt at linked
  split_ifs at linked with invalid ends valid
  · exact absurd rfl linked
  · refine ⟨Bool.not_eq_false _ |>.mp invalid, ?_⟩
    unfold FAT32_EOC at ends
    omega
  · refine ⟨Bool.not_eq_false _ |>.mp invalid, fun free => ?_⟩
    rw [free] at valid
    cases valid
  · exact absurd rfl linked

theorem linkAt_congr (same : entry' cluster = entry cluster) :
    linkAt context entry' cluster = linkAt context entry cluster := by
  rw [linkAt, linkAt, same]

theorem chain_valid (chain : Chain (linkAt context entry) cluster cells) {other : Nat}
    (member : other ∈ cells) : context.dataClusterValid other = true ∧ entry other ≠ 0 :=
  linkAt_valid (chain.linked_of_mem member)

theorem chain_congr (chain : Chain (linkAt context entry) cluster cells)
    (same : ∀ other ∈ cells, entry' other = entry other) :
    Chain (linkAt context entry') cluster cells :=
  chain.congr fun other member => linkAt_congr (same other member)

theorem chain_length (chain : Chain (linkAt context entry) cluster cells) :
    cells.length ≤ context.maxCluster - 2 := by
  have inside : ∀ cell, linkAt context entry cell ≠ none → cell ∈ Finset.Ico 2 context.maxCluster :=
    fun cell linked => Finset.mem_Ico.mpr (Context.dataClusterValid_iff.mp (linkAt_valid linked).1)
  have short := chain.length_le inside
  rwa [Nat.card_Ico] at short

variable (wf : context.WellFormed)

include wf

theorem nextCluster_run (valid : context.dataClusterValid cluster = true) :
    run (serve context.device) (fat32NextCluster context cluster) v =
      (entryOf context v.medium cluster, v) := by
  have here := wf.fat_inBounds valid wf.tables
  have place := wf.fat_lba wf.tables.le cluster
  rw [Nat.zero_mul, Nat.add_zero] at here place
  rw [fat32NextCluster, place, Prog.run_bind]
  simp only [run_perform, serve, Volume.reads, here, if_true]
  rfl

theorem chainAdvance_run (v : Volume) (cluster : Nat) :
    runCode context.device (fat32ChainAdvance context cluster) v =
    ((v.link context cluster).map fun next => next.getD FAT32_EOC, v) := by
  rw [fat32ChainAdvance, runCode_guard]
  by_cases valid : context.dataClusterValid cluster = true
  · have invalid : ¬context.dataClusterValid cluster = false := by rw [valid]; exact nofun
    rw [if_pos valid, runCode_lift, nextCluster_run wf valid, Volume.link, linkAt, if_neg invalid]
    simp only
    by_cases ends : entryOf context v.medium cluster ≥ FAT32_EOC
    · rw [if_pos ends, if_pos ends]
      rfl
    · rw [if_neg ends, if_neg ends, runCode_guard]
      have numbers := wf.numbers
      by_cases next : context.dataClusterValid (entryOf context v.medium cluster) = true
      · obtain ⟨low, high⟩ := Context.dataClusterValid_iff.mp next
        rw [if_pos next, if_pos]
        · rfl
        · unfold FAT32_BAD_CLUSTER FAT32_RESERVED_START at *
          rintro (none_ | bad | reserved | outside)
          · omega
          · omega
          · omega
          · exact outside next
      · rw [if_neg next, if_neg fun fine => fine (.inr (.inr (.inr next)))]
        rfl
  · rw [if_neg valid, Volume.link, linkAt, if_pos (Bool.not_eq_true _ |>.mp valid)]
    rfl

theorem link_lt {next : Nat} (linked : linkAt context entry cluster = some (some next)) :
    next < FAT32_EOC := by
  have numbers := wf.numbers
  unfold linkAt at linked
  split_ifs at linked with invalid ends valid
  · cases linked
  · cases linked
    omega

theorem chainValidLoop_run (hops : Nat) :
    runCode context.device (chainValidLoop context hops cluster) v =
    (if follow (v.link context) hops cluster then some () else none, v) := by
  induction hops generalizing cluster with
  | zero => rfl
  | succ hops ih =>
    have step := chainAdvance_run wf v cluster
    rw [chainValidLoop, follow]
    obtain here | ⟨here, linked⟩ := Option.eq_none_or_eq_some (v.link context cluster)
    · rw [here] at step ⊢
      exact runCode_bind_none step
    · rw [linked] at step ⊢
      refine (runCode_bind_some step).trans ?_
      cases here with
      | none => rfl
      | some next =>
        have small := link_lt wf linked
        rw [if_neg (by simpa using small)]
        exact ih

theorem chainValid_run : runCode context.device (fat32ChainValid context cluster) v =
    (if follow (v.link context) (context.maxCluster - 2) cluster then some () else none, v) := by
  rw [fat32ChainValid, runCode_guard]
  by_cases valid : context.dataClusterValid cluster = true
  · rw [if_pos valid, chainValidLoop_run wf]
  · have some_ := wf.some_
    obtain ⟨hops, count⟩ := Nat.exists_eq_succ_of_ne_zero (show context.maxCluster - 2 ≠ 0 by omega)
    rw [if_neg valid, count, follow, Volume.link, linkAt, if_pos (Bool.not_eq_true _ |>.mp valid)]
    rfl

omit wf in
theorem follow_chain : follow (linkAt context entry) (context.maxCluster - 2) cluster = true ↔
    ∃ cells, Chain (linkAt context entry) cluster cells :=
  follow_iff.trans ⟨fun ⟨cells, chain, _⟩ => ⟨cells, chain⟩,
    fun ⟨cells, chain⟩ => ⟨cells, chain, chain_length chain⟩⟩

end Links

/-! ### Releasing a chain -/

def Volume.clearEntries (context : Context) (v : Volume) (cells : List Nat) : Volume :=
  cells.foldl (fun v cluster => v.setEntry context cluster 0) v

def Volume.withInfo (v : Volume) (info : Info) : Volume := { v with info := info }

section Release

variable {context : Context} {v : Volume} {cluster : Nat} {cells : List Nat}

@[simp] theorem clearEntries_info : (v.clearEntries context cells).info = v.info := by
  induction cells generalizing v with
  | nil => rfl
  | cons first rest ih => exact (ih (v := v.setEntry context first 0)).trans Volume.setEntry_info

variable (wf : context.WellFormed)

include wf

theorem clearEntries_sized (valid : ∀ cell ∈ cells, context.dataClusterValid cell = true)
    (sized : TableSized context v.medium) :
    TableSized context (v.clearEntries context cells).medium := by
  induction cells generalizing v with
  | nil => exact sized
  | cons first rest ih =>
    exact ih (v := v.setEntry context first 0)
      (fun cell member => valid cell (List.mem_cons_of_mem _ member))
      (Volume.setEntry_sized wf (valid first List.mem_cons_self) sized)

theorem entryOf_clearEntries (valid : ∀ cell ∈ cells, context.dataClusterValid cell = true)
    (sized : TableSized context v.medium) {other : Nat}
    (valid' : context.dataClusterValid other = true) :
    entryOf context (v.clearEntries context cells).medium other =
      if other ∈ cells then 0 else entryOf context v.medium other := by
  induction cells generalizing v with
  | nil => rw [if_neg List.not_mem_nil]; rfl
  | cons first rest ih =>
    have here := valid first List.mem_cons_self
    have step := ih (v := v.setEntry context first 0)
      (fun cell member => valid cell (List.mem_cons_of_mem _ member)) (Volume.setEntry_sized wf here sized)
    rw [Volume.clearEntries, List.foldl_cons, ← Volume.clearEntries, step,
      Volume.entryOf_setEntry wf here valid' sized]
    by_cases later : other ∈ rest
    · rw [if_pos later, if_pos (List.mem_cons_of_mem _ later)]
    · rw [if_neg later]
      by_cases same : other = first
      · rw [if_pos same, if_pos (same ▸ List.mem_cons_self), Nat.zero_mod]
      · rw [if_neg same, if_neg (List.not_mem_cons_of_ne_of_not_mem same later)]

theorem freeLoop_run (writes : writable context.device = true) (sized : TableSized context v.medium)
    (chain : Chain (v.link context) cluster cells) {rounds : Nat} (enough : cells.length ≤ rounds)
    (released : Nat) :
    runCode context.device (freeLoop context rounds cluster released) v =
      (some (released + cells.length), v.clearEntries context cells) := by
  induction rounds generalizing v cluster cells released with
  | zero => exact absurd (List.eq_nil_of_length_eq_zero (Nat.le_zero.mp enough)) chain.ne_nil
  | succ rounds ih =>
    have valid := (chain_valid chain chain.head_mem).1
    have step := chainAdvance_run wf v cluster
    have set := setCluster_run wf valid writes v 0
    rw [freeLoop]
    have fresh := chain.nodup
    cases chain with
    | last ends =>
      rw [ends] at step
      rw [runCode_bind_some step, runCode_bind_some set]
      rfl
    | @next _ next rest linked tail =>
      have small := link_lt wf linked
      rw [linked] at step
      rw [runCode_bind_some step, runCode_bind_some set]
      have cleared : Chain ((v.setEntry context cluster 0).link context) next rest := by
        refine chain_congr tail fun other member => ?_
        rw [Volume.entryOf_setEntry wf valid (chain_valid tail member).1 sized, if_neg]
        rintro rfl
        exact (List.nodup_cons.mp fresh).1 member
      simp only [Option.getD_some, Nat.not_le.mpr small, if_false]
      refine (ih (Volume.setEntry_sized wf valid sized) cleared (Nat.le_of_succ_le_succ enough)
        (released + 1)).trans ?_
      rw [List.length_cons, Nat.add_assoc, Nat.add_comm 1]
      rfl

theorem freeChain_run (writes : writable context.device = true) (sized : TableSized context v.medium)
    (chain : Chain (v.link context) cluster cells) :
    runCode context.device (fat32FreeChain context cluster) v =
      (some (), (v.clearEntries context cells).withInfo
        (v.info.release context.maxCluster cluster cells.length)) := by
  have accepted : runCode context.device (fat32ChainValid context cluster) v = (some (), v) := by
    rw [chainValid_run wf, if_pos (follow_chain.mpr ⟨cells, chain⟩)]
  have short := chain_length chain
  have freed := freeLoop_run wf writes sized chain (show cells.length ≤ context.maxCluster - 1 by omega) 0
  rw [fat32FreeChain, runCode_bind_some accepted, runCode_bind_some freed, Nat.zero_add]
  have info : (v.clearEntries context cells).info = v.info := clearEntries_info
  rw [← info]
  rfl

theorem freeChain_refused (none_ : ¬∃ cells, Chain (v.link context) cluster cells) :
    runCode context.device (fat32FreeChain context cluster) v = (none, v) := by
  refine runCode_bind_none ?_
  rw [chainValid_run wf, if_neg fun accepted => none_ (follow_chain.mp accepted)]

theorem freeChain_readOnly (refuses : writable context.device = false) :
    runCode context.device (fat32FreeChain context cluster) v = (none, v) := by
  by_cases chained : ∃ cells, Chain (v.link context) cluster cells
  · obtain ⟨cells, chain⟩ := chained
    have accepted : runCode context.device (fat32ChainValid context cluster) v = (some (), v) := by
      rw [chainValid_run wf, if_pos (follow_chain.mpr ⟨cells, chain⟩)]
    have some_ := wf.some_
    obtain ⟨rounds, count⟩ := Nat.exists_eq_succ_of_ne_zero (show context.maxCluster - 1 ≠ 0 by omega)
    have valid := (chain_valid chain chain.head_mem).1
    have step := chainAdvance_run wf v cluster
    obtain ⟨next, linked⟩ := Option.ne_none_iff_exists'.mp (chain.linked_of_mem chain.head_mem)
    rw [linked] at step
    rw [fat32FreeChain, runCode_bind_some accepted, count, freeLoop]
    refine runCode_bind_none ((runCode_bind_some step).trans ?_)
    exact runCode_bind_none (setCluster_refused wf valid refuses)
  · exact freeChain_refused wf chained

end Release

/-! ### Taking a cluster -/

def Volume.clearCluster (context : Context) (v : Volume) (cluster : Nat) : Volume :=
  (List.range context.bpb.sectorsPerCluster).foldl
    (fun v s => v.write (context.clusterSector cluster s) (List.replicate context.sectorSize 0)) v

/-- A cluster taken: it is the end of a chain, and its sectors are cleared. -/
def Volume.take (context : Context) (v : Volume) (cluster : Nat) : Volume :=
  ((v.setEntry context cluster FAT32_EOC_MARK).clearCluster context cluster).withInfo
    (v.info.take context.maxCluster cluster)

section Take

variable {context : Context} {v : Volume} {cluster : Nat}

/-- The cluster that `fat32_allocate_cluster` looks at after another one. -/
def scanned (context : Context) (start k : Nat) : Nat := 2 + (start - 2 + k) % (context.maxCluster - 2)

theorem clearSectors_info (v : Volume) (sectors : List Nat) :
    (sectors.foldl (fun v s => v.write (context.clusterSector cluster s)
      (List.replicate context.sectorSize 0)) v).info = v.info := by
  induction sectors generalizing v with
  | nil => rfl
  | cons s rest ih => exact ih _

theorem clearSectors_medium (v : Volume) (sectors : List Nat) (lba : Nat) :
    (sectors.foldl (fun v s => v.write (context.clusterSector cluster s)
      (List.replicate context.sectorSize 0)) v).medium lba =
        if ∃ s ∈ sectors, lba = context.clusterSector cluster s
        then List.replicate context.sectorSize 0 else v.medium lba := by
  induction sectors generalizing v with
  | nil => simp
  | cons s rest ih =>
    rw [List.foldl_cons, ih]
    by_cases later : ∃ s ∈ rest, lba = context.clusterSector cluster s
    · obtain ⟨s', member, same⟩ := later
      rw [if_pos ⟨s', member, same⟩, if_pos ⟨s', List.mem_cons_of_mem _ member, same⟩]
    · rw [if_neg later]
      by_cases here : lba = context.clusterSector cluster s
      · rw [if_pos ⟨s, List.mem_cons_self, here⟩, here, Volume.write_self]
      · rw [Volume.write_other here, if_neg]
        rintro ⟨s', member, same⟩
        rcases List.mem_cons.mp member with rfl | tail
        · exact here same
        · exact later ⟨s', tail, same⟩

theorem clearCluster_medium (v : Volume) (lba : Nat) : (v.clearCluster context cluster).medium lba =
    if ∃ s ∈ List.range context.bpb.sectorsPerCluster, lba = context.clusterSector cluster s
    then List.replicate context.sectorSize 0 else v.medium lba := clearSectors_medium v _ lba

theorem entryOf_congr {medium medium' : Nat → List UInt8} (wf : context.WellFormed) {other : Nat}
    (valid : context.dataClusterValid other = true)
    (same : ∀ lba, context.fatStart ≤ lba → lba < context.dataStart → medium' lba = medium lba) :
    entryOf context medium' other = entryOf context medium other := by
  have inside := wf.fat_inside valid wf.tables
  rw [entryOf, entryOf, same _ (Nat.le_add_right _ _) (by omega)]

variable (wf : context.WellFormed)

include wf

theorem clusterSector_inBounds (valid : context.dataClusterValid cluster = true) {s : Nat}
    (below : s < context.bpb.sectorsPerCluster) :
    inBounds context.device (context.clusterSector cluster s) = true := by
  refine wf.inBounds_of_lt ?_
  have inside := Context.cluster_end wf.cluster valid
  rw [wf.clusterSector_eq valid below]
  omega

theorem clearCluster_below (valid : context.dataClusterValid cluster = true) (v : Volume) {lba : Nat}
    (below : lba < context.dataStart) : (v.clearCluster context cluster).medium lba = v.medium lba := by
  rw [clearCluster_medium, if_neg]
  rintro ⟨s, member, rfl⟩
  have data := wf.clusterSector_data valid (List.mem_range.mp member)
  omega

theorem clearSectors_run (valid : context.dataClusterValid cluster = true)
    (writes : writable context.device = true) {sectors : List Nat}
    (inside : ∀ s ∈ sectors, s < context.bpb.sectorsPerCluster) :
    runCode context.device (clearSectors context cluster sectors) v =
      (some (), sectors.foldl (fun v s => v.write (context.clusterSector cluster s)
        (List.replicate context.sectorSize 0)) v) := by
  induction sectors generalizing v with
  | nil => rfl
  | cons s rest ih =>
    have here := clusterSector_inBounds wf valid (inside s List.mem_cons_self)
    rw [clearSectors, runCode_bind_some (runCode_write _ _ |>.trans (if_pos (by rw [here, writes]; rfl)))]
    exact ih fun other member => inside other (List.mem_cons_of_mem _ member)

theorem takeCluster_run (valid : context.dataClusterValid cluster = true)
    (writes : writable context.device = true) :
    runCode context.device (takeCluster context cluster) v = (some cluster, v.take context cluster) := by
  have set := setCluster_run wf valid writes v FAT32_EOC_MARK
  have cleared := clearSectors_run (v := v.setEntry context cluster FAT32_EOC_MARK) wf valid writes
    fun _ member => List.mem_range.mp member
  have info : ((v.setEntry context cluster FAT32_EOC_MARK).clearCluster context cluster).info = v.info :=
    (clearSectors_info _ _).trans Volume.setEntry_info
  rw [takeCluster, runCode_bind_some set, runCode_observe, cleared, Volume.take, ← info]
  rfl

theorem takeCluster_refused (valid : context.dataClusterValid cluster = true)
    (refuses : writable context.device = false) :
    runCode context.device (takeCluster context cluster) v = (none, v) :=
  runCode_bind_none (setCluster_refused wf valid refuses)

theorem allocateLoop_run (attempts : Nat) (valid : context.dataClusterValid cluster = true) :
    (∃ free, context.dataClusterValid free = true ∧ entryOf context v.medium free = 0 ∧
        runCode context.device (allocateLoop context attempts cluster) v =
          runCode context.device (takeCluster context free) v) ∨
      ((∀ k < attempts, entryOf context v.medium (scanned context cluster k) ≠ 0) ∧
        runCode context.device (allocateLoop context attempts cluster) v =
          (none, v.withInfo v.info.exhaust)) := by
  induction attempts generalizing cluster with
  | zero => exact .inr ⟨nofun, rfl⟩
  | succ attempts ih =>
    obtain ⟨low, high⟩ := Context.dataClusterValid_iff.mp valid
    rw [allocateLoop, runCode_lift, nextCluster_run wf valid]
    by_cases free : entryOf context v.medium cluster = 0
    · exact .inl ⟨cluster, valid, free, by rw [if_pos free]⟩
    · have next : context.dataClusterValid
          (if cluster + 1 ≥ context.maxCluster then 2 else cluster + 1) = true := by
        rw [Context.dataClusterValid_iff]
        split_ifs <;> omega
      simp only [if_neg free]
      refine (ih next).imp_right fun none_ => ⟨fun k below => ?_, none_.2⟩
      cases k with
      | zero =>
        rw [scanned, Nat.add_zero, Nat.mod_eq_of_lt (by omega), Nat.add_sub_cancel' low]
        exact free
      | succ k =>
        have later := none_.1 k (Nat.lt_of_succ_lt_succ below)
        have same : scanned context cluster (k + 1) = scanned context
            (if cluster + 1 ≥ context.maxCluster then 2 else cluster + 1) k := by
          unfold scanned
          split_ifs with wraps
          · have round : cluster - 2 + (k + 1) = k + (context.maxCluster - 2) := by omega
            rw [round, Nat.add_mod_right, Nat.sub_self, Nat.zero_add]
          · congr 2
            omega
        rwa [same]

theorem allocateCluster_run :
    (∃ free, context.dataClusterValid free = true ∧ entryOf context v.medium free = 0 ∧
        runCode context.device (fat32AllocateCluster context) v =
          runCode context.device (takeCluster context free) v) ∨
      ((∀ cell, context.dataClusterValid cell = true → entryOf context v.medium cell ≠ 0) ∧
        runCode context.device (fat32AllocateCluster context) v =
        (none, v.withInfo v.info.exhaust)) := by
  have some_ := wf.some_
  have start : context.dataClusterValid (if v.info.nextFreeCluster < 2 ∨
      v.info.nextFreeCluster ≥ context.maxCluster then 2 else v.info.nextFreeCluster) = true := by
    rw [Context.dataClusterValid_iff]
    split_ifs <;> omega
  have ran : runCode context.device (fat32AllocateCluster context) v =
      runCode context.device (allocateLoop context (context.maxCluster - 2)
        (if v.info.nextFreeCluster < 2 ∨ v.info.nextFreeCluster ≥ context.maxCluster then 2
          else v.info.nextFreeCluster)) v := by
    refine (runCode_lift getInfo _).trans ((runCode_guard _ _).trans (if_pos (by omega)))
  rw [ran]
  refine (allocateLoop_run wf _ start).imp_right fun none_ => ⟨fun cell valid => ?_, none_.2⟩
  obtain ⟨low, high⟩ := Context.dataClusterValid_iff.mp start
  obtain ⟨low', high'⟩ := Context.dataClusterValid_iff.mp valid
  generalize (if v.info.nextFreeCluster < 2 ∨ v.info.nextFreeCluster ≥ context.maxCluster then 2
    else v.info.nextFreeCluster) = first at none_ low high
  by_cases behind : first ≤ cell
  · have here := none_.1 (cell - first) (by omega)
    rwa [scanned, Nat.mod_eq_of_lt (by omega), show 2 + (first - 2 + (cell - first)) = cell by omega] at here
  · have here := none_.1 (cell + (context.maxCluster - 2) - first) (by omega)
    have round : first - 2 + (cell + (context.maxCluster - 2) - first) =
        (cell - 2) + (context.maxCluster - 2) := by omega
    rwa [scanned, round, Nat.add_mod_right, Nat.mod_eq_of_lt (by omega), Nat.add_sub_cancel' low'] at here

theorem entryOf_take (valid : context.dataClusterValid cluster = true)
    (sized : TableSized context v.medium)
    {other : Nat} (valid' : context.dataClusterValid other = true) :
    entryOf context (v.take context cluster).medium other =
      if other = cluster then FAT32_EOC_MARK else entryOf context v.medium other := by
  have below : entryOf context (v.take context cluster).medium other =
      entryOf context (v.setEntry context cluster FAT32_EOC_MARK).medium other :=
    entryOf_congr wf valid' fun lba _ high => clearCluster_below wf valid _ high
  rw [below, Volume.entryOf_setEntry wf valid valid' sized]
  rfl

theorem take_sized (valid : context.dataClusterValid cluster = true)
    (sized : TableSized context v.medium) :
    TableSized context (v.take context cluster).medium := by
  have marked : TableSized context (v.setEntry context cluster FAT32_EOC_MARK).medium :=
    Volume.setEntry_sized wf valid sized
  exact fun lba low high =>
    (congrArg List.length (clearCluster_below wf valid _ high)).trans (marked lba low high)

theorem allocateCluster_cases :
    (∃ free, context.dataClusterValid free = true ∧ entryOf context v.medium free = 0 ∧
        writable context.device = true ∧
        runCode context.device (fat32AllocateCluster context) v = (some free, v.take context free)) ∨
      runCode context.device (fat32AllocateCluster context) v = (none, v) ∨
      ((∀ cell, context.dataClusterValid cell = true → entryOf context v.medium cell ≠ 0) ∧
        runCode context.device (fat32AllocateCluster context) v =
        (none, v.withInfo v.info.exhaust)) := by
  rcases allocateCluster_run (v := v) wf with ⟨free, valid, empty, ran⟩ | full
  · cases writes : writable context.device with
    | true => exact .inl ⟨free, valid, empty, rfl, ran.trans (takeCluster_run wf valid writes)⟩
    | false => exact .inr (.inl (ran.trans (takeCluster_refused wf valid writes)))
  · exact .inr (.inr full)

end Take

end AsasOs.Fat32
