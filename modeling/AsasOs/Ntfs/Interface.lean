import AsasOs.Lib.Transcript
import AsasOs.Ntfs.Nodes

/-!
# NTFS: what the index code calls

The code that changes a directory index works on records in memory. It reads and writes
index records through the run list of a stream, reads and writes the MFT record of the
directory, and lets other code find clusters. These calls are the operations of the
programs here; a program about which something is said for every handler is right
whatever the calls answer.
-/
namespace AsasOs.Ntfs

open Bytes Packed Prog

structure NtfsRun where
  lcn : Nat
  len : Nat
  sparse : Bool
  deriving DecidableEq

/-- `NTFS_STREAM`, as far as the index code uses it. -/
structure NtfsStream where
  runs : List NtfsRun
  dataSize : Nat
  allocatedSize : Nat
  deriving DecidableEq

/-- The calls of the code on a directory index. -/
inductive IndexOp where
  /-- `kmalloc` -/
  | kmalloc (size : Nat)
  /-- `read_from_runs`: the bytes that could be read -/
  | readFromRuns (stream : NtfsStream) (offset size : Nat)
  /-- `ntfs_grow_index_allocation`: the VCN of the new record, and the stream that was read again -/
  | growIndexAllocation (parentRecord : Nat) (stream : NtfsStream) (newRecordIndex : Nat)
  /-- `write_to_runs_at` -/
  | writeToRunsAt (stream : NtfsStream) (offset : Nat) (data : List UInt8)
  /-- `ntfs_root_insert_separator` -/
  | rootInsertSeparator (parentRecord : Nat) (median : IndexEntry) (oldVcn newVcn : Nat)
  /-- `ntfs_transaction_barrier` -/
  | transactionBarrier
  /-- `read_mft_record`: what `mft_buf` contains afterwards -/
  | readMftRecord (record : Nat)
  /-- `write_mft_record` -/
  | writeMftRecord (record : Nat) (bytes : List UInt8)
  /-- `collect_attribute_stream` of `ATTR_INDEX_ALLOCATION`, and whether the stream is resident -/
  | collectIndexAllocation (record : Nat)
  /-- `load_index_bitmap` -/
  | loadIndexBitmap (record : Nat)

abbrev IndexOp.Response : IndexOp → Type
  | .kmalloc _ => Bool
  | .readFromRuns _ _ _ => List UInt8
  | .growIndexAllocation _ _ _ => Option (Nat × NtfsStream)
  | .writeToRunsAt _ _ _ => Bool
  | .rootInsertSeparator _ _ _ _ => Bool
  | .transactionBarrier => Bool
  | .readMftRecord _ => Option (List UInt8)
  | .writeMftRecord _ _ => Bool
  | .collectIndexAllocation _ => Option (NtfsStream × Bool)
  | .loadIndexBitmap _ => Option (List UInt8)

abbrev IndexCode := Fallible IndexOp IndexOp.Response

def ask (op : IndexOp) : IndexCode op.Response := liftM (perform op : Prog IndexOp IndexOp.Response _)

/-- Entries that are being collected: the buffer, and where they lie in it. -/
structure Collected where
  entries : Memory
  offsets : Nat → Nat
  count : Nat
  bytes : Nat

/-- The collected entries, in the order of the array. -/
def shown (c : Collected) : List IndexEntry :=
  (List.range c.count).map fun index => entryAt c.entries (c.offsets index)

end AsasOs.Ntfs
