import Suspend.CommandLine
import Suspend.ImageChecksum
import Suspend.ImageRoundTrip
import Suspend.KeyFile
import Suspend.LastTable
import Suspend.PageCount
import Suspend.PoolSuffices
import Suspend.ReadBounds
import Suspend.Resume
import Suspend.Retry
import Suspend.SaveLayout
import Suspend.SaveThreads
import Suspend.SharedConfig
import Suspend.ShortImage
import Suspend.SignatureCycle
import Suspend.SlotAccess
import Suspend.SmbiosTable
import Suspend.StartThreads
import Suspend.Surroundings
import Suspend.SwapAccounts
import Suspend.SwapNeeded
import Suspend.SwapOffset
import Suspend.TestMode
import Suspend.ThreadObjects
import Suspend.ThreadedImage
