import Tanpopo.AppUpdate.Extract
import Tanpopo.AppUpdate.HandOff
import Tanpopo.AppUpdate.Preserve
import Tanpopo.AppUpdate.Swap
import Tanpopo.Bundle.Snapshot
import Tanpopo.Chat.Reasoning
import Tanpopo.Cluster.Agreement
import Tanpopo.Cluster.Discovery
import Tanpopo.Config.Store
import Tanpopo.Distributed.LockStep
import Tanpopo.Distributed.Sharding
import Tanpopo.Download.Containment
import Tanpopo.Download.DFlash
import Tanpopo.Download.JobSafety
import Tanpopo.Download.SafeJoin
import Tanpopo.FastGGUF.Publication
import Tanpopo.FastGGUF.RoundTrip
import Tanpopo.GGUF.BlockAgreement
import Tanpopo.GGUF.Quantizing
import Tanpopo.GGUF.Repacking
import Tanpopo.GGUF.Equivalence
import Tanpopo.GGUF.HeadGroups
import Tanpopo.GGUF.Restoring
import Tanpopo.GGUF.TokenIDs
import Tanpopo.GGUF.Traps
import Tanpopo.Llamacpp.GGUF
import Tanpopo.Models.CacheDeletion
import Tanpopo.Models.CommandSafety
import Tanpopo.Models.MemoryEstimate
import Tanpopo.Models.MemoryProtection
import Tanpopo.Models.RemovalSafety
import Tanpopo.NetPass.AccessReload
import Tanpopo.NetPass.Safety
import Tanpopo.Server.Admission
import Tanpopo.Server.ChatCompletion
import Tanpopo.Server.Pipeline
import Tanpopo.Server.Wildcard
import Tanpopo.Session.Safety
import Tanpopo.Standalone.Agreement
import Tanpopo.UpdateCheck.Versions
import Tanpopo.Chat.Framing
import Tanpopo.Models.BatchArguments
import Tanpopo.Images.BoundedDownload
import Tanpopo.GGUF.Packing
import Tanpopo.GGUF.KernelOffsets
import Tanpopo.GGUF.TokenizerAgreement
import Tanpopo.GGUF.ConfigurationTraps
import Tanpopo.GGUF.WeightNames
import Tanpopo.Models.RuntimeOutput
import Tanpopo.GGUF.UniqueTokens
import Tanpopo.Distributed.ZeroBuffers
import Tanpopo.Download.TransferProgress
import Tanpopo.Models.CommandRestart
import Tanpopo.Server.Enforcement
