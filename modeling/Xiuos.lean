import Xiuos.Arch.PmpCalls
import Xiuos.Arch.PmpLoad64
import Xiuos.Framework.AtOrder
import Xiuos.Framework.Entm
import Xiuos.Framework.LoraNet
import Xiuos.Fs.MountTable
import Xiuos.Fs.Poll
import Xiuos.Kernel.CircularArea
import Xiuos.Kernel.DataQueueLaws
import Xiuos.Kernel.DelayList
import Xiuos.Kernel.HeapFit
import Xiuos.Kernel.HeapPools
import Xiuos.Kernel.IdMap
import Xiuos.Kernel.KtaskPrio
import Xiuos.Kernel.MsgQueueLimits
import Xiuos.Kernel.MutexOwner
import Xiuos.Kernel.PendOrder
import Xiuos.Kernel.Refinement
import Xiuos.Kernel.SmpTables
import Xiuos.Kernel.SofttimerTick
import Xiuos.Kernel.Timeout
import Xiuos.Kernel.TimerWork
import Xiuos.Kernel.WorkSubmit
import Xiuos.Resources.Serial
import Xiuos.Sm4.Block
import Xiuos.Sm4.Padding
import Xiuos.Sm9.Canonical
import Xiuos.Sm9.Ecc
import Xiuos.Sm9.Kdf
import Xiuos.Sm9.MultMod
import Xiuos.Sm9.Reverse
