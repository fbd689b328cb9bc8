import AsasOs.Lib.Slots
import AsasOs.Block.Device
import AsasOs.Block.Coherence
import AsasOs.Block.Requests
import AsasOs.Block.CacheRuns
import AsasOs.Lib.Bytes
import AsasOs.Lib.Medium
import AsasOs.Lib.Prog
import AsasOs.Block.Faults
import AsasOs.Partition.Gpt
import AsasOs.Partition.GptCrash
import AsasOs.Vfs.Filesystem
import AsasOs.Vfs.Volumes
import AsasOs.Vfs.Tables
import AsasOs.Vfs.HandleIdentity
import AsasOs.ExFat.Directory
import AsasOs.ExFat.Mount
import AsasOs.ExFat.Calls
import AsasOs.ExFat.Machine
import AsasOs.Lib.Trace
import AsasOs.Vfs.MountTables
import AsasOs.Vfs.Overlap
import AsasOs.Vfs.RootRouting
import AsasOs.Vfs.MountPoints
import AsasOs.Partition.Scan
import AsasOs.Process.PeLoader
import AsasOs.Partition.ScanSafety
import AsasOs.Partition.Tables
import AsasOs.Partition.Rescan
import AsasOs.Block.Isolation
import AsasOs.ExFat.Image
import AsasOs.ExFat.Effects
import AsasOs.ExFat.Streams
import AsasOs.ExFat.Allocator
import AsasOs.Lib.Records
import AsasOs.Partition.GptRollback
import AsasOs.Partition.GptEdits
import AsasOs.Partition.GptAgreement
import AsasOs.Lib.Naming
import AsasOs.ExFat.EntrySets
import AsasOs.ExFat.Folders
import AsasOs.ExFat.FolderEdits
import AsasOs.ExFat.Trees
import AsasOs.ExFat.Extension
import AsasOs.ExFat.Paths
import AsasOs.Ipc.Queue
import AsasOs.Ipc.Conservation
import AsasOs.Ipc.Order
import AsasOs.Heap.Blocks
import AsasOs.Heap.Histories
import AsasOs.Partition.GptFrame
import AsasOs.Partition.Candidates
import AsasOs.Partition.ScanOutcome
import AsasOs.Partition.MbrRefinement
import AsasOs.Partition.DeviceNames
import AsasOs.Partition.DiskManagement
import AsasOs.VirtualDisk.Images
import AsasOs.VirtualDisk.Store
import AsasOs.Fat32.Names
import AsasOs.Memory.Frames
import AsasOs.Lib.Footprint
import AsasOs.Process.FileCalls
import AsasOs.Process.Syscall
import AsasOs.Fat32.LongNames
import AsasOs.Fat32.Directory
import AsasOs.Fat32.Operations
import AsasOs.Fat32.Walks
import AsasOs.Fat32.Association
import AsasOs.Fat32.Lookups
import AsasOs.Fat32.Machine
import AsasOs.Fat32.Upkeep
import AsasOs.Fat32.Fsinfo
import AsasOs.Fat32.Persistence
import AsasOs.Fat32.Table
import AsasOs.Fat32.Calls
import AsasOs.Fat32.Accounting
import AsasOs.Fat32.Geometry
import AsasOs.ExFat.RoundTrip
import AsasOs.ExFat.Reservation
import AsasOs.ExFat.Listing
import AsasOs.Lib.Packed
import AsasOs.Ntfs.Records
import AsasOs.Lib.Transcript
import AsasOs.Ntfs.Nodes
import AsasOs.Lib.Sorted
import AsasOs.Ntfs.Interface
import AsasOs.Ntfs.LeafSplit
import AsasOs.Ntfs.Attributes
import AsasOs.Block.FailedWrites
import AsasOs.Lib.Checked
import AsasOs.Lib.Lz77
import AsasOs.Ntfs.RunLists
import AsasOs.Ntfs.Compression
import AsasOs.Ntfs.FileRecords
import AsasOs.Ntfs.TornWrites
import AsasOs.Lib.Extents
import AsasOs.Lib.Attempts
import AsasOs.Ntfs.Device
import AsasOs.Ntfs.Streams
import AsasOs.Ntfs.FileReads
import AsasOs.Ntfs.Mount
import AsasOs.Ntfs.MountSafety
import AsasOs.Ntfs.RecordReads
import AsasOs.Ntfs.Verification
import AsasOs.Ntfs.PathNames
import AsasOs.Ntfs.Resolution
import AsasOs.Ntfs.Agreement
import AsasOs.Lib.RadixTree
import AsasOs.Process.Scheduler
import AsasOs.Memory.Paging
import AsasOs.Memory.Teardown
import AsasOs.Ipc.Residue
import AsasOs.Process.Table
import AsasOs.Vfs.MountCounts
import AsasOs.Vfs.RemountFailures
import AsasOs.VirtualDisk.Disks
import AsasOs.VirtualDisk.Reattachment
import AsasOs.Ext2.Volume
import AsasOs.Lib.Outcomes
import AsasOs.Lib.Filling
import AsasOs.Ext2.Directories
import AsasOs.Ext2.Layout
import AsasOs.Ext2.Contents
import AsasOs.Ext2.Mapping
import AsasOs.Ext2.Entries
import AsasOs.Ext2.Paths
import AsasOs.Ext2.ReaderSafety
import AsasOs.Ext2.ListedNames
import AsasOs.Lib.OnesComplement
import AsasOs.Net.Driver
import AsasOs.Net.Packets
import AsasOs.Net.RoundTrip
import AsasOs.Net.ReceiveStream
import AsasOs.Lib.Termination
import AsasOs.Fat16.Volume
import AsasOs.Fat16.Walks
import AsasOs.Fat16.Slots
import AsasOs.Fat16.Creation
import AsasOs.Fat16.Removal
import AsasOs.Optical.Names
import AsasOs.Iso9660.Volume
import AsasOs.Iso9660.Records
import AsasOs.Iso9660.Directories
import AsasOs.Iso9660.Lookup
import AsasOs.Iso9660.ReaderSafety
import AsasOs.Ntfs.Fixups
import AsasOs.Lib.FreeRunning
import AsasOs.Net.ReceiveQueue
import AsasOs.Net.FrameSafety
import AsasOs.Fat32.Mirrors
import AsasOs.Ntfs.RecordEdits
import AsasOs.Fat32.SlotRuns
import AsasOs.Ntfs.RunWrites
import AsasOs.Iso9660.Listing
