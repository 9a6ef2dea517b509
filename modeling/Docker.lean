import Docker.Reasoning.Reach
import Docker.Reasoning.AListCount
import Docker.Reasoning.BigEndian
import Docker.Reasoning.ChunkReader
import Docker.Reasoning.LexPath
import Docker.Reasoning.Base64
import Docker.Reasoning.Fields
import Docker.Reasoning.Handoff
import Docker.Reasoning.Outbox
import Docker.Layer.Store
import Docker.Layer.Invariant
import Docker.Layer.Cleanup
import Docker.Stdcopy.StdCopy
import Docker.Stdcopy.RoundTrip
import Docker.Ioutils.FixedBuffer
import Docker.Ioutils.BytesPipe
import Docker.Ioutils.PipeInvariant
import Docker.Ioutils.MultiReader
import Docker.Truncindex.TruncIndex
import Docker.Truncindex.Lookup
import Docker.Archive.Unpack
import Docker.Archive.Breakout
import Docker.Volume.Ceph
import Docker.Volume.CephMounts
import Docker.Volume.Store
import Docker.Volume.Named
import Docker.Events.Events
import Docker.Events.Replay
import Docker.Registrar.Registrar
import Docker.Names.Rename
import Docker.Volume.MountSpec
import Docker.Dockerfile.Parser
import Docker.Dockerfile.LineParsers
import Docker.Dockerfile.Shell
import Docker.Xfer.Transfer
import Docker.Authorization.Response
import Docker.Authorization.Middleware
import Docker.Parsers.UintList
import Docker.Reasoning.Blocks
import Docker.Idtools.IDMap
import Docker.Container.EndpointOptions
import Docker.Reasoning.Regex
import Docker.Reference.Reference
import Docker.Symlink.FS
import Docker.Reasoning.NestedMap
import Docker.Reference.Store
import Docker.Reasoning.RegexSyntax
import Docker.Reasoning.Glob
import Docker.Fileutils.Fileutils
import Docker.Reasoning.GoSort
import Docker.Reasoning.Hex
import Docker.Tarsum.TarSum
import Docker.Layer.ChainID
import Docker.Runconfig.VolumeSplit
import Docker.Reasoning.BitmapAlloc
import Docker.Devmapper.DeviceID
import Docker.Reasoning.Lines
import Docker.Tailfile.TailFile
import Docker.Container.CopyEscapable
import Docker.Reasoning.ChildIndex
import Docker.Image.Store
import Docker.Httputils.ResumableRequestReader
import Docker.Reasoning.GoNet
import Docker.Opts.Hosts
import Docker.Cluster.Ptypes
import Docker.Cluster.Types
import Docker.Cluster.Convert
import Docker.Reasoning.PathOrder
import Docker.Archive.Changes
import Docker.Archive.ChangesSpec
import Docker.Reasoning.Utf8
import Docker.Reasoning.JsonString
import Docker.Jsonlog.Marshal
import Docker.Reasoning.JsonValue
import Docker.Jsonlog.Decode
