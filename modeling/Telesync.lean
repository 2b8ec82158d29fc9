import Telesync.Core.Value
import Telesync.Core.Dump
import Telesync.Core.Marshal
import Telesync.Core.DataFactory
import Telesync.Core.Ref
import Telesync.Core.Page
import Telesync.Core.Buffers
import Telesync.Core.Shared
import Telesync.Protocol.Run
import Telesync.Protocol.Shared
import Telesync.Config
import Telesync.Protocol.Save
import Telesync.Core.Unmarshal
import Telesync.Core.RoundTrip
import Telesync.Core.JsonGrammar
import Telesync.Core.Packed
import Telesync.Protocol.Process
import Telesync.Protocol.Client
