import Albatross.LittleEndian
import Albatross.Assoc
import Albatross.Runs
import Albatross.Separated
import Albatross.FirstFree
import Albatross.Decimal
import Albatross.Utf16
import Albatross.Dialogues
import Albatross.Worlds
import Albatross.Cycles
import Albatross.Places
import Albatross.ReentrantLock
import Albatross.Python
import Albatross.PyText
import Albatross.PyLines
import Albatross.Wire
import Albatross.Framing
import Albatross.Marshal
import Albatross.StringFields
import Albatross.Signatures
import Albatross.BroadcastSignatures
import Albatross.PayloadBounds
import Albatross.ApiTable
import Albatross.Subscribe
import Albatross.SubscribeRun
import Albatross.Replies
import Albatross.Broadcasts
import Albatross.Calls
import Albatross.Matching
import Albatross.Returns
import Albatross.Session
import Albatross.SessionRuns
import Albatross.Reconnects
import Albatross.Timeouts
import Albatross.Monitor
import Albatross.Disconnects
import Albatross.DestroyDevice
import Albatross.Registry
import Albatross.MethodHooks
import Albatross.Interception
import Albatross.Launches
import Albatross.LaunchRaces
import Albatross.LaunchBudgets
import Albatross.LaunchProtocol
import Albatross.LaunchPromises
import Albatross.LaunchesApart
import Albatross.LaunchCallbacks
import Albatross.AttachCallbacks
import Albatross.AppStart
import Albatross.AppCallbacks
import Albatross.Plugins
import Albatross.PluginTables
import Albatross.PluginConfig
import Albatross.PluginKeys
import Albatross.PluginAppends
import Albatross.PluginInit
import Albatross.PluginFailures
import Albatross.RollingLogger
import Albatross.LogLines
import Albatross.LogClose
import Albatross.LogFiles
import Albatross.LogRecovery
import Albatross.LogRollOver
import Albatross.LogRefinement
import Albatross.LogCleanup
import Albatross.LogRedirect
import Albatross.MessageQueue
import Albatross.PrintStreams
import Albatross.SubclassProperty
import Albatross.CachedProperty
import Albatross.CachedValues
import Albatross.PluginRegistry
import Albatross.PluginHandles
import Albatross.PluginWatch
import Albatross.PushFile
import Albatross.AdbShell
import Albatross.Devices
import Albatross.ForwardPorts
import Albatross.ServerUpdates
import Albatross.StaleServers
import Albatross.PackageVersions
import Albatross.ShellResults
import Albatross.AppInfo
import Albatross.StackIds
import Albatross.ExceptionDesc
