import Tcmalloc.Absl.Duration
import Tcmalloc.Parameters.OnceAtomic
import Tcmalloc.Parameters.Lazy
import Tcmalloc.Parameters.Config
import Tcmalloc.Parameters.Settings
import Tcmalloc.Schedule
import Tcmalloc.Parameters.OnceThreads
import Tcmalloc.Parameters.UpdateLock
import Tcmalloc.CentralFreeList.Model
import Tcmalloc.CentralFreeList.Invariant
import Tcmalloc.CentralFreeList.Batches
import Tcmalloc.CentralFreeList.Fuzz
import Tcmalloc.TransferCache.Model
import Tcmalloc.TransferCache.Fuzz
