import AsasOs.ExFat.Image

/-!
# exFAT: what code does to the image of a volume

When no read and no allocation fails, code that looks something up has a result that the
image determines (`Sees`), and code that makes changes leads from one image to another
whenever it succeeds (`Does`). Both come with a rule for each way in which code is put
together; the last part has the effect of the code that touches single sectors.
-/
namespace AsasOs.ExFat

open Block Bytes Prog

variable {size : Nat} {context : Context} {α β : Type}

/-! ### Runs in which reads are answered -/

/-- The disk of the volume, with whole sectors on it. -/
structure Sectored (context : Context) (s : ExfatState size) : Prop where
  fits : size = context.sectorSize
  whole : s.disk.WholeBlocks

/-- The call is answered as on a disk on which nothing fails, if it is a read or an
allocation. -/
def AnsweredCall (device : Device) (op : ExfatOp) (s : ExfatState size) : Prop :=
  Looks 0 op → (handle device op s).1 = answer device s.disk.medium op

/-- No read and no allocation that the code asks for fails. -/
def Answered (context : Context) (p : ExfatProg α) (s : ExfatState size) : Prop :=
  Along (handle context.device) (AnsweredCall context.device) p s

variable {device : Device}

theorem journalSector_whole {lba : Nat} {s : ExfatState size}
    (whole : s.disk.WholeBlocks) : (journalSector device lba s).2.disk.WholeBlocks := by
  have afterKmalloc : (s.disk.kmalloc device.logicalBlockSize).2.WholeBlocks :=
    Disk.handle_wholeBlocks device (.kmalloc device.logicalBlockSize) s.disk whole
  unfold journalSector
  split
  · exact whole
  · split
    · exact whole
    · split
      · rename_i disk failed
        rw [failed] at afterKmalloc
        exact afterKmalloc
      · rename_i disk succeeded
        rw [succeeded] at afterKmalloc
        have afterRead : (disk.read device lba 1).2.WholeBlocks :=
          Disk.handle_wholeBlocks device (.read lba 1) disk afterKmalloc
        split
        · rename_i disk' unread
          rw [unread] at afterRead
          exact afterRead
        · rename_i before disk' found
          rw [found] at afterRead
          exact afterRead

theorem handle_whole (op : ExfatOp) {s : ExfatState size}
    (whole : s.disk.WholeBlocks) : (handle device op s).2.disk.WholeBlocks := by
  cases op with
  | read lba => exact Disk.handle_wholeBlocks device (.read lba 1) s.disk whole
  | writeDirect lba sector => exact Disk.handle_wholeBlocks device (.write lba 1 sector) s.disk whole
  | flush => exact Disk.handle_wholeBlocks device .flush s.disk whole
  | kmalloc bytes => exact Disk.handle_wholeBlocks device (.kmalloc bytes) s.disk whole
  | write lba sector =>
    have journaled : (journalSector device lba s).2.disk.WholeBlocks := journalSector_whole whole
    change (journaledWrite device lba sector s).2.disk.WholeBlocks
    unfold journaledWrite
    split
    · rename_i t refused
      rw [refused] at journaled
      exact journaled
    · rename_i t ready
      rw [ready] at journaled
      exact Disk.handle_wholeBlocks device (.write lba 1 sector) t.disk journaled

theorem run_whole (p : ExfatProg α) {s : ExfatState size}
    (whole : s.disk.WholeBlocks) : (run (handle device) p s).2.disk.WholeBlocks := by
  have step : ∀ op (t : ExfatState size), t.disk.WholeBlocks →
      (handle device op t).2.disk.WholeBlocks := fun op _ => handle_whole op
  exact run_preserves step p s whole

theorem Sectored.runCode {code : ExfatCode α} {s : ExfatState size} (sectored : Sectored context s) :
    Sectored context (runCode context code s).2 :=
  ⟨sectored.fits, run_whole code.run sectored.whole⟩

theorem run_answered {low : Nat} {p : ExfatProg α} (looks : Uses (Looks low) p) {s : ExfatState size}
    (answered : Answered context p s) :
    (run (handle context.device) p s).1 = eval (answer context.device s.disk.medium) p := by
  induction p generalizing s with
  | pure value => rfl
  | call op next ih =>
    have looked : Looked s (handle context.device op s).2 := handle_looked op s looks.1
    have anywhere : Looks 0 op := by
      cases op with
      | read lba => exact Nat.zero_le lba
      | kmalloc bytes => trivial
      | _ => exact looks.1.elim
    have here : (handle context.device op s).1 = answer context.device s.disk.medium op :=
      answered.1 anywhere
    have rest := ih (handle context.device op s).1 (looks.2 _) answered.2
    rw [looked.disk.medium] at rest
    change (run (handle context.device) (next (handle context.device op s).1) _).1 = _
    rw [rest, here]
    rfl

theorem handle_healthy (op : ExfatOp) {s : ExfatState size} (healthy : s.disk.Healthy) :
    (handle device op s).2.disk.Healthy ∧
      (Looks 0 op → (handle device op s).1 = answer device s.disk.medium op) := by
  cases op with
  | read lba =>
    have reads := healthy.read device lba 1
    refine ⟨reads.2, fun _ => reads.1.trans ?_⟩
    rw [answer, Disk.blocksAt_one]
  | writeDirect lba sector => exact ⟨(healthy.write device lba 1 sector).2, False.elim⟩
  | flush => exact ⟨healthy.flush.2, False.elim⟩
  | kmalloc bytes => exact ⟨(healthy.kmalloc bytes).2, fun _ => (healthy.kmalloc bytes).1⟩
  | write lba sector =>
    refine ⟨?_, False.elim⟩
    have journaled : (journalSector device lba s).2.disk.Healthy := by
      have granted := (healthy.kmalloc device.logicalBlockSize).2
      unfold journalSector
      split_ifs
      · exact healthy
      · exact healthy
      · split
        · rename_i disk failed
          rw [failed] at granted
          exact granted
        · rename_i disk succeeded
          rw [succeeded] at granted
          have reads := (granted.read device lba 1).2
          split
          · rename_i disk' unread
            rw [unread] at reads
            exact reads
          · rename_i before disk' found
            rw [found] at reads
            exact reads
    change (journaledWrite device lba sector s).2.disk.Healthy
    unfold journaledWrite
    split
    · rename_i t refused
      rw [refused] at journaled
      exact journaled
    · rename_i t ready
      rw [ready] at journaled
      exact (journaled.write device lba 1 sector).2

theorem answered_of_healthy (p : ExfatProg α) {s : ExfatState size}
    (healthy : s.disk.Healthy) : Answered context p s := by
  induction p generalizing s with
  | pure value => trivial
  | call op next ih =>
    obtain ⟨stays, answered⟩ := handle_healthy op healthy
    exact ⟨answered, ih _ stays⟩

/-! ### Looking something up -/

/-- Code that has this result on every medium with the image. -/
def Sees (context : Context) (p : ExfatProg α) (I : Image) (result : α) : Prop :=
  ∀ medium, Pictured context medium I → eval (answer context.device medium) p = result

section Sees

variable {I : Image} {value : β} {result : α} {outcome : Option α}

theorem sees_pure : Sees context (Pure.pure result) I result := fun _ _ => rfl

theorem sees_bind {p : ExfatProg β} {f : β → ExfatProg α} (first : Sees context p I value)
    (rest : Sees context (f value) I result) : Sees context (p >>= f) I result := by
  intro medium pictured
  rw [eval_bind, first medium pictured]
  exact rest medium pictured

theorem sees_some : Sees context (Pure.pure result : ExfatCode α).run I (some result) :=
  fun _ _ => rfl

theorem sees_failure : Sees context (failure : ExfatCode α).run I none := fun _ _ => rfl

variable {f : β → ExfatCode α}

theorem sees_then {x : ExfatCode β}
    (first : Sees context x.run I (some value)) (rest : Sees context (f value).run I outcome) :
    Sees context (x >>= f).run I outcome := by
  intro medium pictured
  rw [eval_fallible_bind, first medium pictured]
  exact rest medium pictured

theorem sees_fails {x : ExfatCode β} (first : Sees context x.run I none) :
    Sees context (x >>= f).run I none := by
  intro medium pictured
  rw [eval_fallible_bind, first medium pictured]
  rfl

theorem sees_guard {p : Prop} [Decidable p] {f : Unit → ExfatCode α} (holds : p)
    (rest : Sees context (f ()).run I outcome) : Sees context (guard p >>= f).run I outcome := by
  simp only [guard, if_pos holds]
  exact rest

theorem sees_guard_fails {p : Prop} [Decidable p] {f : Unit → ExfatCode α} (fails : ¬p) :
    Sees context (guard p >>= f).run I none := by
  simp only [guard, if_neg fails]
  exact fun _ _ => rfl

theorem sees_lift {p : ExfatProg β} (first : Sees context p I value)
    (rest : Sees context (f value).run I outcome) :
    Sees context ((liftM p : ExfatCode β) >>= f).run I outcome := by
  have lifted : Sees context (liftM p : ExfatCode β).run I (some value) :=
    sees_bind first sees_pure
  exact sees_then lifted rest

theorem sees_observe {x : ExfatCode β} {f : Option β → ExfatCode α} {found : Option β}
    (first : Sees context x.run I found) (rest : Sees context (f found).run I outcome) :
    Sees context (observe x >>= f).run I outcome := by
  have observed : Sees context (observe x).run I (some found) := sees_bind first sees_pure
  exact sees_then observed rest

end Sees

/-! ### Making changes -/

/-- Code that, started on this medium, leads whenever it succeeds to an image for which
the result is right. -/
def DoesAt (context : Context) (x : ExfatCode α) (medium : Nat → List UInt8)
    (post : α → Image → Prop) : Prop :=
  ∀ ⦃size : Nat⦄ (s : ExfatState size), Sectored context s → Answered context x.run s →
    s.disk.medium = medium → ∀ value, (runCode context x s).1 = some value →
      ∃ I', Pictured context (runCode context x s).2.disk.medium I' ∧ post value I'

/-- The same on every medium with the image. -/
def Does (context : Context) (x : ExfatCode α) (I : Image) (post : α → Image → Prop) : Prop :=
  ∀ medium, Pictured context medium I → DoesAt context x medium post

section Does

variable {I : Image} {post : α → Image → Prop}

theorem runCode_bind (x : ExfatCode β) (f : β → ExfatCode α) (s : ExfatState size) :
    runCode context (x >>= f) s = match (runCode context x s).1 with
      | none => (none, (runCode context x s).2)
      | some value => runCode context (f value) (runCode context x s).2 := by
  simp only [runCode, OptionT.run_bind, Option.elimM, run_bind]
  cases (run (handle context.device) x.run s).1 <;> rfl

theorem does_pure {value : α} (holds : post value I) : Does context (Pure.pure value) I post := by
  intro medium pictured size s sectored answered here result same
  cases same
  rw [← here] at pictured
  exact ⟨I, pictured, holds⟩

theorem does_failure : Does context (failure : ExfatCode α) I post := by
  intro medium pictured size s sectored answered here result same
  cases same

theorem does_mono {post' : α → Image → Prop} {x : ExfatCode α} (does : Does context x I post')
    (weaker : ∀ value I', post' value I' → post value I') : Does context x I post := by
  intro medium pictured size s sectored answered here value success
  obtain ⟨I', pictured', holds⟩ := does medium pictured s sectored answered here value success
  exact ⟨I', pictured', weaker value I' holds⟩

variable {f : β → ExfatCode α}

theorem doesAt_bind {medium : Nat → List UInt8} {P : β → Image → Prop} {x : ExfatCode β}
    (first : DoesAt context x medium P)
    (rest : ∀ value I', P value I' → Does context (f value) I' post) :
    DoesAt context (x >>= f) medium post := by
  intro size s sectored answered here result success
  obtain ⟨answered₁, answered₂⟩ := along_fallible_bind answered
  rw [runCode_bind] at success ⊢
  cases found : (runCode context x s).1 with
  | none =>
    rw [found] at success
    cases success
  | some value =>
    rw [found] at success
    obtain ⟨I', pictured', holds⟩ := first s sectored answered₁ here value found
    exact rest value I' holds _ pictured' _ sectored.runCode (answered₂ value found) rfl result success

theorem does_bind {P : β → Image → Prop} {x : ExfatCode β}
    (first : Does context x I P) (rest : ∀ value I', P value I' → Does context (f value) I' post) :
    Does context (x >>= f) I post :=
  fun medium pictured => doesAt_bind (first medium pictured) rest

theorem does_guard {p : Prop} [Decidable p] {f : Unit → ExfatCode α}
    (rest : p → Does context (f ()) I post) : Does context (guard p >>= f) I post := by
  by_cases holds : p
  · simp only [guard, if_pos holds]
    exact rest holds
  · simp only [guard, if_neg holds]
    exact does_failure

theorem does_looks {low : Nat} {x : ExfatCode α} (looks : Uses (Looks low) x.run) :
    Does context x I fun value I' =>
      I' = I ∧ ∀ outcome, Sees context x.run I outcome → outcome = some value := by
  intro medium pictured size s sectored answered here value success
  have looked : Looked s (runCode context x s).2 := run_looked context.device looks s
  rw [← here] at pictured
  refine ⟨I, ?_, rfl, ?_⟩
  · rw [looked.disk.medium]
    exact pictured
  · intro outcome sees
    have found : (run (handle context.device) x.run s).1 =
        eval (answer context.device s.disk.medium) x.run := run_answered looks answered
    rw [sees s.disk.medium pictured] at found
    rw [← found]
    exact success

theorem does_look {low : Nat} {x : ExfatCode β} {outcome : Option β}
    (looks : Uses (Looks low) x.run) (sees : Sees context x.run I outcome)
    (rest : ∀ value, outcome = some value → Does context (f value) I post) :
    Does context (x >>= f) I post := by
  refine does_bind (does_looks looks) fun value I' found => ?_
  rw [found.1]
  exact rest value (found.2 outcome sees)

theorem does_lift {low : Nat} {p : ExfatProg β} {value : β}
    (looks : Uses (Looks low) p) (sees : Sees context p I value)
    (rest : Does context (f value) I post) :
    Does context ((liftM p : ExfatCode β) >>= f) I post := by
  have lifted : Sees context (liftM p : ExfatCode β).run I (some value) :=
    sees_bind sees sees_pure
  refine does_look (uses_lift looks) lifted fun other same => ?_
  cases same
  exact rest

end Does

/-! ### Single sectors -/

section Sectors

variable {I : Image} {cluster : Nat}

theorem inBounds_of_volume {lba : Nat} (inside : lba < context.volumeLength) :
    requestInBounds context.device lba 1 = true := by
  have accepted := context.accepted
  simp only [Geometry.accepted, Bool.and_eq_true, Bool.not_eq_true', Bool.and_eq_false_iff,
    bne_eq_false_iff_eq, decide_eq_false_iff_not] at accepted
  have blocks := accepted.2
  simp only [requestInBounds, Nat.one_ne_zero, if_false, Nat.sub_self, Nat.not_lt_zero, gt_iff_lt]
  split
  · rfl
  · rename_i some
    split
    · omega
    · exact decide_eq_true (by omega)

theorem eval_readSector {lba : Nat} (inside : lba < context.volumeLength) (medium : Nat → List UInt8) :
    eval (answer context.device medium) (readSector context lba).run = some (medium lba) := by
  unfold readSector
  rw [eval_fallible_bind, eval_guard, if_pos inside, Option.bind_some, eval_blockDeviceRead,
    if_pos (inBounds_of_volume inside)]

theorem sees_kmalloc {bytes : Nat} (positive : 0 < bytes) :
    Sees context (kmalloc bytes).run I (some ()) := by
  have granted : Sees context (allocated bytes) I true := fun _ _ => bne_iff_ne.mpr (by omega)
  refine sees_lift granted ?_
  intro medium pictured
  rw [eval_guard, if_pos rfl]

/-- What follows a link of the allocation table: nothing after a bad one. -/
def linkTo (context : Context) (next : Nat) : Option Nat :=
  if next = EXFAT_BAD_CLUSTER ∨ (next < EXFAT_EOC ∧ ¬context.validCluster next) then none
  else some next

theorem sees_readFat (regular : context.Regular) (valid : context.validCluster cluster = true) :
    Sees context (readFat context cluster).run I (linkTo context (I.fat cluster)) := by
  intro medium pictured
  have inside := regular.fat_inside valid
  have low := regular.fat_lba valid
  have heap := regular.heap
  simp only [readFat, eval_fallible_bind, eval_guard, valid, true_and]
  rw [if_pos (by omega), Option.bind_some, eval_readSector (by omega), Option.bind_some]
  rw [pictured.fat valid, linkTo, ite_not]
  split
  · rfl
  · rfl

variable {medium : Nat → List UInt8}

theorem doesAt_readSector {lba : Nat} {f : List UInt8 → ExfatCode α} {post : α → Image → Prop}
    (inside : lba < context.volumeLength)
    (rest : DoesAt context (f (medium lba)) medium post) :
    DoesAt context (readSector context lba >>= f) medium post := by
  intro size s sectored answered here result success
  obtain ⟨answered₁, answered₂⟩ := along_fallible_bind answered
  have looks : Uses (Looks 0) (readSector context lba).run := readSector_looks (Nat.zero_le lba)
  have looked : Looked s (runCode context (readSector context lba) s).2 :=
    run_looked context.device looks s
  have found : (runCode context (readSector context lba) s).1 = some (medium lba) := by
    have known : (run (handle context.device) (readSector context lba).run s).1 =
        eval (answer context.device s.disk.medium) (readSector context lba).run :=
      run_answered looks answered₁
    rw [eval_readSector inside, here] at known
    exact known
  rw [runCode_bind, found] at success ⊢
  exact rest _ sectored.runCode (answered₂ _ found) (looked.disk.medium.trans here) result success

/-- An operation that succeeds only when it has stored the sector. -/
theorem doesAt_stored {α : Type} {code : ExfatCode α} {lba : Nat} {sector : List UInt8} {I' : Image}
    (wrote : Pictured context (Function.update medium lba sector) I')
    (ended : ∀ {size : Nat} (s : ExfatState size) (value : α),
      Disk.chunk size sector 0 = sector → wp (handle context.device) code
        (fun result s' => result = some value →
          s'.disk.medium = Function.update s.disk.medium lba sector) s) :
    DoesAt context code medium fun _ J => J = I' := by
  intro size s sectored answered here value success
  have whole : sector.length = context.sectorSize := by
    have sized := wrote.sized lba
    rwa [Function.update_self] at sized
  rw [show (runCode context code s).2.disk.medium = Function.update s.disk.medium lba sector from
    ended s value (Disk.chunk_self (whole.trans sectored.fits.symm)) success, here]
  exact ⟨I', wrote, rfl⟩

theorem doesAt_writeSector {lba : Nat} {sector : List UInt8} {I' : Image}
    (wrote : Pictured context (Function.update medium lba sector) I') :
    DoesAt context (writeSector context lba sector) medium fun _ J => J = I' := by
  refine doesAt_stored wrote fun s value self => ?_
  rw [wp_writeSector]
  split
  · intro succeeded
    split at succeeded
    · rename_i stored
      rw [journaledWrite_stored stored, self]
    · cases succeeded
  · intro impossible
    cases impossible

theorem doesAt_blockDeviceWrite {lba : Nat} {sector : List UInt8} {I' : Image}
    (wrote : Pictured context (Function.update medium lba sector) I') :
    DoesAt context (blockDeviceWrite lba sector) medium fun _ J => J = I' := by
  refine doesAt_stored wrote fun s value self => ?_
  unfold blockDeviceWrite attempt
  rw [wp_lift, wp_guard_last]
  obtain ⟨block, written, stored⟩ := Disk.write_one context.device lba sector s.disk
  split
  · rename_i succeeded
    intro _
    change (s.disk.write context.device lba 1 sector).2.medium = _
    rw [written, stored succeeded, self]
  · intro impossible
    cases impossible

theorem does_writeFat (regular : context.Regular) (valid : context.validCluster cluster = true)
    (value : Nat) :
    Does context (writeFat context cluster value) I fun _ I' => I' = I.setFat cluster (value % 2 ^ 32) := by
  have low := regular.fat_lba valid
  have heap := regular.heap
  unfold writeFat
  refine does_guard fun _ => ?_
  intro medium pictured
  refine doesAt_readSector (by omega) ?_
  exact doesAt_writeSector (pictured.setFat regular valid value)

end Sectors

end AsasOs.ExFat
