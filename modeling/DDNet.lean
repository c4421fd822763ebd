import DDNet.Base.Utf8
import DDNet.Base.Str
import DDNet.Base.StrParse
import DDNet.Shared.Packer
import DDNet.Server.Input
import DDNet.Shared.Huffman
import DDNet.Lib.CodeTree
import DDNet.Lib.LinkedList
import DDNet.Lib.LinkedQueue
import DDNet.Base.NetAddr
import DDNet.Shared.BanPool
import DDNet.Shared.NetBan
import DDNet.Shared.BanList
import DDNet.Shared.Console
import DDNet.Shared.ConsoleLine
import DDNet.Shared.ConsoleSplit
import DDNet.Shared.ConsoleArgs
import DDNet.Shared.ConsoleRender
import DDNet.Shared.HuffmanTree
import DDNet.Shared.HuffmanCodec
import DDNet.Shared.HuffmanRoundTrip
import DDNet.Shared.Network
import DDNet.Shared.PacketWire
import DDNet.Shared.RingBuffer
import DDNet.Shared.Connection
import DDNet.Shared.ConnectionBuffer
import DDNet.Shared.ConnView
import DDNet.Shared.HandOver
import DDNet.Server.Authed
import DDNet.Server.RconCommands
import DDNet.Server.Auth
import DDNet.Lib.SlotTable
import DDNet.Lib.Words
import DDNet.Lib.Groups
import DDNet.Lib.Transition
import DDNet.Server.NetServer
import DDNet.Server.NetServerSlots
import DDNet.Server.NetServerToken
import DDNet.Server.ConnectionPool
import DDNet.Server.Mqtt
import DDNet.Server.MqttLogin
import DDNet.Server.TeeRecords
import DDNet.Server.TeeHistorian
import DDNet.Server.TeeReplay
import DDNet.Server.TeeFile
import DDNet.Shared.Datafile
import DDNet.Shared.DatafileSafe
import DDNet.Shared.DatafileWriter
import DDNet.Shared.DatafileTables
import DDNet.Shared.DatafileFinish
import DDNet.Shared.DatafileWritten
import DDNet.Shared.DatafileRoundTrip
import DDNet.Server.MapDownload
import DDNet.Shared.JobPool
import DDNet.Shared.JobPoolPlaces
import DDNet.Shared.JobPoolStates
import DDNet.Shared.JobPoolRuns
import DDNet.Client.Ghost
import DDNet.Client.GhostChunks
import DDNet.Client.GhostRecorder
import DDNet.Client.GhostLoader
import DDNet.Lib.InverseIndex
import DDNet.Mastersrv.Servers
import DDNet.Mastersrv.Registry
import DDNet.Mastersrv.RegistryRuns
import DDNet.Shared.Snapshot
import DDNet.Server.SnapParts
import DDNet.Server.GameWorld
import DDNet.Server.GameWorldLists
import DDNet.Lib.MapOfList
import DDNet.Mastersrv.DumpRoundTrip
import DDNet.Shared.VariableIntSafe
import DDNet.Shared.PackerMemory
import DDNet.Lib.StableInsert
import DDNet.Shared.HuffmanDefault
import DDNet.Shared.HuffmanWalk
import DDNet.Shared.RingBufferMemory
import DDNet.Shared.RingBufferRefines
import DDNet.Shared.RingBufferRuns
import DDNet.Shared.RingBufferFifo
import DDNet.Lib.SwapRemove
import DDNet.Client.Favorites
import DDNet.Base.Truncation
import DDNet.Shared.ConfigVariable
import DDNet.Lib.Json
import DDNet.Shared.JsonWriter
import DDNet.Server.ServerInfo
import DDNet.Server.Register
import DDNet.Shared.SnapshotStorage
import DDNet.Shared.BanPoolRuns
import DDNet.Lib.TimeWindow
import DDNet.Server.Connlimit
import DDNet.Lib.SinglyLinked
import DDNet.Shared.ConsoleCommands
import DDNet.Server.NetServerSteps
import DDNet.Shared.ConnectionSteps
import DDNet.Server.NetServerPerIp
import DDNet.Server.NetServerSend
import DDNet.Shared.ConsoleStore
import DDNet.Base.Confusables
import DDNet.Server.ClientNames
import DDNet.Shared.SnapshotFind
import DDNet.Shared.SnapshotCapacity
import DDNet.Server.DistinctClients
import DDNet.Lib.FirstOccurrence
import DDNet.Lib.Lines
import DDNet.Shared.LineReader
import DDNet.Server.SnapIdPool
import DDNet.Shared.JsonOutput
import DDNet.Shared.EscapeJson
import DDNet.Server.VoteCount
import DDNet.Server.CallVote
import DDNet.Server.Censor
import DDNet.Server.Whisper
import DDNet.Lib.Selection
import DDNet.Server.PlayerMaps
import DDNet.Shared.ConsoleInteger
import DDNet.Shared.GameSettings
import DDNet.Base.Encode
import DDNet.Lib.Framing
import DDNet.Shared.NetworkConsole
import DDNet.Client.Binds
import DDNet.Base.Memory
import DDNet.Base.Utf8Memory
import DDNet.Base.StrBuffer
import DDNet.Lib.LooseOrder
import DDNet.Base.CompFilenames
import DDNet.Lib.EditDistance
import DDNet.Base.Dist
import DDNet.Base.Base64
import DDNet.Shared.Stun
import DDNet.Lib.Ipv6Text
import DDNet.Base.NetAddrText
import DDNet.Base.NetAddrGrammar
import DDNet.Base.NetAddrRoundTrip
import DDNet.Client.ServerBrowser
import DDNet.Shared.ServerInfo2
import DDNet.Client.LineInput
import DDNet.Shared.SnapshotDelta
import DDNet.Server.SnapProtocol
import DDNet.Shared.ChunkStream
import DDNet.Shared.ReliableLink
import DDNet.Shared.ChunkRoundTrip
