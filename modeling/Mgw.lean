import Mgw.TransitionRuns
import Mgw.StreamBuff
import Mgw.StreamBuffPut
import Mgw.StreamBuffWriter
import Mgw.StreamBuffReader
import Mgw.StableQueue
import Mgw.StreamSort
import Mgw.StreamSortLists
import Mgw.StreamSortPut
import Mgw.StreamSortRuns
import Mgw.StreamSortOrder
import Mgw.RingLayout
import Mgw.StreamSortLayout
import Mgw.SrtOutput
import Mgw.SrtOutputChunks
import Mgw.Reconnect
import Mgw.ReconnectBudget
import Mgw.UserStop
import Mgw.AnnexB
import Mgw.AvcPacket
import Mgw.AvcScan
import Mgw.AvcConversion
import Mgw.StreamBuffDelivery
import Mgw.StreamBuffKeepingUp
import Mgw.StreamBuffView
import Mgw.StreamBuffCounters
import Mgw.StreamSortWindow
import Mgw.BigEndian
import Mgw.FlvTag
import Mgw.FlvMux
import Mgw.AacHeader
import Mgw.RtmpSend
import Mgw.RtmpTimeline
import Mgw.IntrusiveList
import Mgw.DoublyLinked
import Mgw.HeapMemory
import Mgw.StreamOutputs
import Mgw.StreamOutputsLinked
import Mgw.StreamInOrder
import Mgw.StreamAdding
import Mgw.OutputLifecycle
import Mgw.OutputWaits
import Mgw.OutputSteps
import Mgw.OutputNeverBlocks
import Mgw.StreamReachable
import Mgw.StreamAddRelease
import Mgw.Device
import Mgw.DeviceAdding
import Mgw.AppRequests
import Mgw.WsMessage
import Mgw.WsClientSend
import Mgw.WsSendToken
import Mgw.KeyedHistory
import Mgw.WsRepeated
import Mgw.WsRepeatedHistory
import Mgw.WsReceive
import Mgw.WsReceiveBounds
import Mgw.ResetAll
import Mgw.AvcHeader
import Mgw.HeapMemoryRegistry
import Mgw.HeapMemoryNames
import Mgw.HeapMemoryCounts
import Mgw.HeapMemoryCalls
import Mgw.HeapMemoryLifecycle
import Mgw.AvcStartCode
import Mgw.StreamBuffIndices
import Mgw.StreamBuffFirstKey
import Mgw.StreamBuffNoCopy
import Mgw.MpegTs
import Mgw.StreamBuffAddresses
import Mgw.BlockHeap
import Mgw.SourceHeaders
import Mgw.SourceHeadersOwned
import Mgw.SourceHeadersRuns
import Mgw.DataItems
import Mgw.PackedItem
import Mgw.PackedItemLayout
import Mgw.DataValues
import Mgw.DataLayers
import Mgw.DataCounts
import Mgw.DataCountsBalance
import Mgw.RefCounts
import Mgw.DataJson
import Mgw.DataJsonRoundTrip
import Mgw.AvcKeyframe
import Mgw.AvcKeyUnit
import Mgw.BitFields
import Mgw.Adts
import Mgw.AdtsStrip
import Mgw.AudioConfig
import Mgw.PacketConversion
import Mgw.SrtOutputWrites
import Mgw.SrtOutputEnds
import Mgw.SrtOutputAccounts
import Mgw.SrtOutputErrors
import Mgw.StreamSortLate
import Mgw.DeviceStreamNames
import Mgw.ProcTable
import Mgw.StreamSortShrink
import Mgw.CircularList
import Mgw.AddressRing
import Mgw.Attempt
import Mgw.LinkedCells
import Mgw.DataNodes
import Mgw.DataNodesLists
import Mgw.DataNodesLinks
import Mgw.DataNodesCursors
import Mgw.DataNodesCounts
import Mgw.DataNodesCalls
import Mgw.DataNodesTrees
import Mgw.DataNodesCopies
import Mgw.DataNodesApply
import Mgw.DataNodesRuns
import Mgw.RtmpPacket
import Mgw.RtmpHeaders
import Mgw.RtmpChunks
import Mgw.RtmpMessages
import Mgw.RtmpSessions
import Mgw.Amf
import Mgw.AmfFormat
import Mgw.RtmpWrite
import Mgw.FlvMetaData
import Mgw.RtmpOutput
import Mgw.G726
import Mgw.G726Bounds
import Mgw.G726Stream
import Mgw.RtmpClient
import Mgw.RtmpAttempts
import Mgw.RtmpAttemptRuns
import Mgw.RtmpPublishing
import Mgw.BlockStream
import Mgw.ListArea
import Mgw.Md5
import Mgw.Md5Digest
import Mgw.Dialogue
import Mgw.RtmpHandshake
