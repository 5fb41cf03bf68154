import ByteHub.Conf.Balance
import ByteHub.Conf.Conversion
import ByteHub.Conf.LegacyPorts
import ByteHub.Conf.Precedence
import ByteHub.Conf.Routes
import ByteHub.Core.EndpointAffinity
import ByteHub.Core.EndpointBudget
import ByteHub.Core.EndpointInterleaving
import ByteHub.Core.EndpointOvertaking
import ByteHub.Core.FailoverGiveUp
import ByteHub.Core.FailoverIpHash
import ByteHub.Core.FailoverRoundRobin
import ByteHub.Core.FallbackCandidate
import ByteHub.Core.Hook
import ByteHub.Core.HookWaiting
import ByteHub.Core.PlainRelay
import ByteHub.Core.Probe
import ByteHub.Core.ProxyAborts
import ByteHub.Core.ProxySegments
import ByteHub.Core.RelayVerdict
import ByteHub.Core.Serving
import ByteHub.Core.SocketFallback
import ByteHub.Core.WarmupDials
import ByteHub.Io.BidiCompletion
import ByteHub.Io.FlushDiscipline
import ByteHub.Io.HeaderCorruption
import ByteHub.Io.HeaderCount
import ByteHub.Io.HeaderDrawing
import ByteHub.Io.PeekTermination
import ByteHub.Io.PeekTransparency
import ByteHub.Io.TunnelCompletion
import ByteHub.Lb.ChashOverflow
import ByteHub.Lb.DownstreamHealth
import ByteHub.Lb.ExclusionWindow
import ByteHub.Lb.IpHashArcs
import ByteHub.Lb.IpHashDeadlines
import ByteHub.Lb.IpHashProbing
import ByteHub.Lb.RoundRobinConservation
import ByteHub.Lb.RoundRobinFairness
import ByteHub.Lb.RoundRobinHealth
import ByteHub.Lb.RoundRobinRecovery
import ByteHub.Lb.TrackerAgreement
import ByteHub.Udp.AddressFamilies
import ByteHub.Udp.Association
import ByteHub.Udp.ClientOrder
import ByteHub.Udp.ExchangeReaders
import ByteHub.Udp.Partition
import ByteHub.Udp.Payload
import ByteHub.Udp.Sendmmsg
