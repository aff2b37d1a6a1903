import Pmud.Foundation.ActorSystem
import Pmud.Foundation.Machine
import Pmud.Net.InputFilters
import Pmud.Net.ConnectionRuns
import Pmud.Controllers.CommandActor
import Pmud.Controllers.LoginCompletion
import Pmud.Controllers.PasswordConfirmation
import Pmud.Controllers.PasswordPrivacy
import Pmud.System.ActiveController
import Pmud.System.OutputRelay
import Pmud.System.ShutdownRuns
import Pmud.System.StartRuns
import Pmud.Graphs.BFS
import Pmud.Storage.YamlSwitch
import Pmud.Storage.YamlStale
import Pmud.Storage.RedisLoading
import Pmud.Storage.ExactLoading
import Pmud.Storage.RecordLoss
import Pmud.Storage.StorageDouble
import Pmud.Graphs.Transpose
import Pmud.Graphs.Cycles
import Pmud.Graphs.PrintPath
import Pmud.Net.HangUp
import Pmud.Net.Emissions
import Pmud.Event.EventRecords
import Pmud.Storage.WriteReports
import Pmud.Life.Screen
import Pmud.Life.BoardFiles
import Pmud.Graphs.Complete
import Pmud.Graphs.PrintTraversal
import Pmud.Common.PmudString
import Pmud.Util.RedisStreamOut
import Pmud.Graphs.PrintDot
import Pmud.HashLibrary.Hmac
import Pmud.HashLibrary.CRC32
import Pmud.HashLibrary.Keccak
import Pmud.HashLibrary.Digest
import Pmud.Event.EventPipeline
import Pmud.Util.RedisStreamIn
import Pmud.Common.Credentials
import Pmud.Util.RedisKeydump
