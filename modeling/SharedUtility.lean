import SharedUtility.UwsClient.Fragmentation
import SharedUtility.SocketIo.Fifo
import SharedUtility.SocketIo.Progress
import SharedUtility.UwsClient.OpenComplete
import SharedUtility.UwsClient.FrameErrors
import SharedUtility.UwsClient.UpgradeFirst
import SharedUtility.UwsClient.StreamAccounting
import SharedUtility.UwsClient.Reopen
import SharedUtility.UwsClient.CloseReports
import SharedUtility.Map.Filter
import SharedUtility.ConnectionStringParser.RoundTrip
import SharedUtility.HttpApiCompact.Response
import SharedUtility.OptionHandler.Ownership
import SharedUtility.Wsio.OpenDiscipline
import SharedUtility.TlsIoOpenssl.Engine
import SharedUtility.TlsIoOpenssl.ReadFailures
import SharedUtility.Utf8.Validation
import SharedUtility.HttpApiEx.RetriedRequest
import SharedUtility.HttpApiCompact.Receives
import SharedUtility.HttpProxyIo.Tunnel
import SharedUtility.DoublyLinkedList
import SharedUtility.SinglyLinkedList
import SharedUtility.Base32.RoundTrip
import SharedUtility.Base32.Acceptance
import SharedUtility.Base64.Coverage
import SharedUtility.StringTokenizer
import SharedUtility.SasToken.FieldOrder
import SharedUtility.UwsFrameEncoder.Encode
import SharedUtility.StringToken.AllOrNothing
import SharedUtility.StatusLine
import SharedUtility.RequestText.Connect
import SharedUtility.TlsIoOpenssl.CrlMap
import SharedUtility.UrlEncode.RoundTrip
import SharedUtility.CrtAbstractions.FloatText
import SharedUtility.CVector.Refinement
import SharedUtility.Map.ToJson
import SharedUtility.HttpHeaders.Refinement
import SharedUtility.HttpApiEx.SavedOptions
import SharedUtility.Gballoc.Accounts
import SharedUtility.SocketIoWin32.Progress
import SharedUtility.CrtAbstractions.IntToString
import SharedUtility.Uuid
import SharedUtility.LogBinary
import SharedUtility.SocketIo.Refusals
import SharedUtility.Options.Openssl
import SharedUtility.TlsIoSchannel.Drain
import SharedUtility.TlsIoAppleios.SendQueue
import SharedUtility.ConstBuffer
import SharedUtility.CrtAbstractions.BoundedStrings
import SharedUtility.HttpApiCurl
import SharedUtility.HttpApiExSas
