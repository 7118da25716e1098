import Compcache.Library.PagedMemory
import Compcache.Library.Tiling
import Compcache.Library.LinkedList
import Compcache.Library.Bitmap
import Compcache.Library.Runs
import Compcache.Library.Ownership
import Compcache.Library.Parties
import Compcache.Library.PerCpu
import Compcache.Kernel
import Compcache.Lzo
import Compcache.Zram
import Compcache.ZramSysfs
import Compcache.ZramScale
import Compcache.Xvmalloc
import Compcache.Proofs.XvmallocFields
import Compcache.Proofs.XvmallocFreeLists
import Compcache.Proofs.XvmallocSearch
import Compcache.Proofs.XvmallocLayout
import Compcache.Proofs.XvmallocMalloc
import Compcache.Proofs.XvmallocFree
import Compcache.Proofs.XvmallocRuns
import Compcache.Proofs.XvmallocConcurrent
import Compcache.Proofs.Backing
import Compcache.Proofs.ZramPages
import Compcache.Proofs.ZramRuns
import Compcache.Proofs.ZramDevice
import Compcache.Proofs.ZramConcurrent
import Compcache.Proofs.ZramInit
import Compcache.Proofs.ZramLife
import Compcache.Proofs.Slots
import Compcache.Proofs.ZramScalePages
import Compcache.Proofs.ZramScaleRuns
import Compcache.Proofs.ZramScaleDevice
import Compcache.Proofs.ZramScaleStats
import Compcache.Library.Visits
import Compcache.Proofs.ZramTouched
import Compcache.Proofs.ZramScaleTouched
import Compcache.Proofs.ZramScaleSingles
import Compcache.Proofs.ZramRequests
import Compcache.Proofs.ZramResets
import Compcache.ZramSteps
import Compcache.Proofs.ZramReaders
import Compcache.Proofs.ZcachePools
import Compcache.ZcachePools
import Compcache.Library.SortedMap
import Compcache.Library.Sharing
import Compcache.Zcache
import Compcache.Proofs.ZcacheTasks
import Compcache.Proofs.ZcacheNodes
import Compcache.Proofs.ZcacheEmpties
import Compcache.Proofs.XvmallocInverse
import Compcache.Proofs.ZcacheStores
import Compcache.CpsTest
import Compcache.Library.Chains
import Compcache.Hashtable
import Compcache.Proofs.Hashtable
import Compcache.Proofs.CpsTest
import Compcache.Proofs.ZramScalePacking
import Compcache.Library.Blocks
import Compcache.ZramMemory
import Compcache.Proofs.HashtableRuns
import Compcache.SwapReplay
import Compcache.Proofs.SwapReplay
import Compcache.Proofs.SimParse
import Compcache.SimParse
import Compcache.Randgen
import Compcache.Proofs.ZcacheSweeps
import Compcache.Proofs.ZramMemory
import Compcache.Proofs.StatReaders
import Compcache.Proofs.ZcachePointers
import Compcache.StatReaders
import Compcache.Proofs.ZramModule
import Compcache.ZramModule
import Compcache.Proofs.ZcacheOperations
import Compcache.ZcacheSessions
import Compcache.ZcacheContents
import Compcache.Proofs.ZcacheSessions
import Compcache.Library.Carving
import Compcache.Zsmalloc
import Compcache.Library.Slab
import Compcache.Proofs.ZsmallocFields
import Compcache.Proofs.ZsmallocZspages
import Compcache.Proofs.ZsmallocObjects
import Compcache.Proofs.ZsmallocInit
import Compcache.Proofs.ZsmallocGrow
import Compcache.ZsmallocRuns
import Compcache.Proofs.ZsmallocHeap
import Compcache.Proofs.ZsmallocRuns
import Compcache.Proofs.ZsmallocMapping
import Compcache.Proofs.ZsmallocMachine
import Compcache.Proofs.ZsmallocPool
