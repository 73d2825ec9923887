import Gcad.StepSystem
import Gcad.Common
import Gcad.Observation
import Gcad.Telemetry
import Gcad.PipelineShutdown
import Gcad.KeyedMap
import Gcad.Correlation
import Gcad.CorrelationRun
import Gcad.EdgeTrigger
import Gcad.CandidatePipeline
import Gcad.CorrelationOrder
import Gcad.ByteView
import Gcad.Intervals
import Gcad.PeAuthenticode
import Gcad.PeHashCoverage
import Gcad.PeSigning
import Gcad.Asn1
import Gcad.X509
import Gcad.Pkcs7
import Gcad.CertificateChain
import Gcad.Authenticode
import Gcad.TrustedVerdict
import Gcad.FileStore
import Gcad.DelimitedText
import Gcad.LedgerText
import Gcad.QuarantineVault
import Gcad.QuarantineRun
import Gcad.CandidateApproval
import Gcad.RemediationSafety
import Gcad.CandidateEviction
import Gcad.CheckedLoop
import Gcad.Digits
import Gcad.Bignum
import Gcad.BignumLimbs
import Gcad.BignumArithmetic
import Gcad.BignumReduction
import Gcad.BignumBytes
import Gcad.RsaPkcs1
import Gcad.CertificateCycle
import Gcad.CheckedLogic
import Gcad.DerSafety
import Gcad.DerTiling
import Gcad.DerGrammar
import Gcad.DerRegions
import Gcad.OidAliases
import Gcad.LexicalPath
import Gcad.ProtectedPath
import Gcad.ResolvedVault
import Gcad.LedgerPersistence
import Gcad.QuarantineHonesty
import Gcad.Sha2
import Gcad.ShaStream
import Gcad.ShaRefinement
import Gcad.PolicyStore
import Gcad.CorrelationKey
import Gcad.SkipSearch
import Gcad.YaraSearch
import Gcad.YaraScan
import Gcad.Threat
import Gcad.ServiceIpc
import Gcad.Json
import Gcad.JsonRender
import Gcad.Webhook
import Gcad.Report
import Gcad.ReportMarkup
import Gcad.WebhookRun
import Gcad.WorkerPool
import Gcad.DeepScan
import Gcad.StableSort
import Gcad.Firewall
import Gcad.FileDigest
import Gcad.RansomwareRollback
import Gcad.AmsiGuard
import Gcad.DatabaseUpdate
import Gcad.FileIntegrity
import Gcad.ShadowRing
import Gcad.SlidingWindow
import Gcad.FloodWindow
import Gcad.Md5
import Gcad.PeStaticAnalysis
import Gcad.PeSafety
import Gcad.ThreatIntel
import Gcad.IocDatabase
import Gcad.OidEncoding
import Gcad.DerHeaders
import Gcad.LedgerTrust
import Gcad.YaraRules
import Gcad.ProgressSnapshot
import Gcad.SignatureDb
import Gcad.FirewallRules
import Gcad.Ipv4Text
import Gcad.ShadowIntegrity
import Gcad.ReflectivePe
import Gcad.PeSectionArithmetic
import Gcad.DnsQuery
import Gcad.DnsMonitor
import Gcad.Insertions
import Gcad.CommandLine
import Gcad.Base64
import Gcad.TextSearch
import Gcad.EncodedCommand
import Gcad.AclBytes
import Gcad.Replacement
import Gcad.FilelessAst
import Gcad.ConcatGroups
import Gcad.SineTable
import Gcad.Rfc1321
import Gcad.Md5Refinement
import Gcad.ProtectionAcl
import Gcad.BoundedLog
import Gcad.ForensicTimeline
import Gcad.CausalLinks
import Gcad.CausalChains
import Gcad.MemoryWalk
import Gcad.PoolAccounts
import Gcad.MultiStage
import Gcad.NetworkDpi
import Gcad.TopSelection
import Gcad.BeaconRanking
import Gcad.ArhsWatch
import Gcad.BurstPatterns
import Gcad.CredentialGuard
import Gcad.IocImport
import Gcad.ManifestText
import Gcad.UpdateHistory
import Gcad.VulnVersion
import Gcad.VulnScan
import Gcad.SandboxQueue
import Gcad.RegistryDiff
import Gcad.DeviceControl
import Gcad.ThreatTotals
import Gcad.ProcessPoll
import Gcad.ForensicGraph
import Gcad.Unicode
import Gcad.DecodedNames
import Gcad.ShellcodeScan
import Gcad.HexPattern
import Gcad.AlertManager
import Gcad.ServiceBroadcast
import Gcad.BroadcastDelivery
import Gcad.BroadcastEvents
import Gcad.CandidateEvidence
import Gcad.LegacyAdapter
import Gcad.PacketCapture
import Gcad.PacketRuns
import Gcad.FloodShutout
import Gcad.CurrentThreat
import Gcad.EtwProcessStream
import Gcad.EtwParentOrder
import Gcad.FileEnumeration
import Gcad.ProcessSandbox
import Gcad.RunLength
import Gcad.HeuristicRules
import Gcad.CommandRules
import Gcad.ScriptRules
import Gcad.ArtifactTrust
import Gcad.ScanVerdict
import Gcad.ScanRun
