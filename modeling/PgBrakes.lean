import PgBrakes.Verified.Effect
import PgBrakes.Verified.SelfDelimiting
import PgBrakes.Verified.Sha256
import PgBrakes.Verified.TopologicalOrder
import PgBrakes.Verified.History
import PgBrakes.Verified.KeyedTable
import PgBrakes.Verified.SqlLexer
import PgBrakes.Verified.TreeSweep
import PgBrakes.Verified.HashChain
import PgBrakes.Verified.Readback
import PgBrakes.Verified.Ratchet
import PgBrakes.Verified.FileTree
import PgBrakes.Verified.JsonValue
import PgBrakes.Verified.TumblingWindow
import PgBrakes.Verified.QuotedText
import PgBrakes.Verified.KeyValueText
import PgBrakes.Verified.Base64
import PgBrakes.Verified.Nested
import PgBrakes.Verified.LineRpc
import PgBrakes.Verified.MachineWord
import PgBrakes.Ports.KeyChecksum
import PgBrakes.Ports.KeyPreimage
import PgBrakes.Ports.TypedInverse
import PgBrakes.Ports.BlastRecord
import PgBrakes.Ports.GuardedApply
import PgBrakes.Ports.GuardedApplyRun
import PgBrakes.Ports.GuardedApplyAtomicity
import PgBrakes.Ports.Revert
import PgBrakes.Ports.RevertRouting
import PgBrakes.Ports.RevertHonesty
import PgBrakes.Ports.InverseShape
import PgBrakes.Ports.InverseAgreement
import PgBrakes.Ports.InverseCoverage
import PgBrakes.Ports.CommitGuards
import PgBrakes.Ports.InverseOrder
import PgBrakes.Ports.SqlAst
import PgBrakes.Ports.Predicate
import PgBrakes.Ports.ExprWalk
import PgBrakes.Ports.PredicateMeaning
import PgBrakes.Ports.SelfDetermined
import PgBrakes.Ports.PredicateVolatility
import PgBrakes.Ports.ReadAst
import PgBrakes.Ports.ReadGate
import PgBrakes.Ports.ReadGateSoundness
import PgBrakes.Ports.WireBuf
import PgBrakes.Ports.WireFrontend
import PgBrakes.Ports.WireBackend
import PgBrakes.Ports.ExplainGate
import PgBrakes.Ports.ProxyBudget
import PgBrakes.Ports.WindowBound
import PgBrakes.Ports.ProxySession
import PgBrakes.Ports.ProxyPreflight
import PgBrakes.Ports.ProxyRelay
import PgBrakes.Ports.ProxyGating
import PgBrakes.Ports.ProxyLink
import PgBrakes.Ports.PgSession
import PgBrakes.Ports.PlanLine
import PgBrakes.Ports.SetColumns
import PgBrakes.Ports.ConnStrings
import PgBrakes.Ports.Scram
import PgBrakes.Ports.ProxyLockstep
import PgBrakes.Ports.ProxyAttribution
import PgBrakes.Ports.ProxyTransparency
import PgBrakes.Ports.Grant
import PgBrakes.Ports.GrantedApply
import PgBrakes.Ports.GrantSingleUse
import PgBrakes.Ports.DryRun
import PgBrakes.Ports.RecordConsistency
import PgBrakes.Ports.Approval
import PgBrakes.Ports.ApplyService
import PgBrakes.Ports.ServiceRun
import PgBrakes.Ports.ServiceLifecycle
import PgBrakes.Ports.RefusalEvidence
import PgBrakes.Ports.ServiceEnforcement
import PgBrakes.Ports.PgRehearsal
import PgBrakes.Ports.DaemonGate
import PgBrakes.Ports.PgTable
import PgBrakes.Ports.PgConn
import PgBrakes.Ports.PgApplyRun
import PgBrakes.Ports.PgRevertRun
import PgBrakes.Ports.RoundTrip
import PgBrakes.Ports.StatementText
import PgBrakes.Ports.ReturningCapture
import PgBrakes.Ports.AuditRecord
import PgBrakes.Ports.AuditChain
import PgBrakes.Ports.AuditWriters
import PgBrakes.Ports.AuditAnchor
import PgBrakes.Ports.AuditJson
import PgBrakes.Ports.StoredChain
import PgBrakes.Ports.AuditBoot
import PgBrakes.Ports.AuditRestart
import PgBrakes.Ports.WireCodec
import PgBrakes.Ports.WireRoundTrip
import PgBrakes.Ports.WireCanonical
import PgBrakes.Ports.ProxyVerbatim
import PgBrakes.Ports.ProxyConnection
import PgBrakes.Ports.ProxyHandshake
import PgBrakes.Ports.ProxyOpening
import PgBrakes.Ports.ProxyServe
import PgBrakes.Ports.ProxyAdmission
import PgBrakes.Ports.ProxyPeek
import PgBrakes.Ports.SessionTrust
import PgBrakes.Ports.ResidentClient
import PgBrakes.Ports.ApplyHygiene
import PgBrakes.Ports.Expiry
import PgBrakes.Ports.AuditedFlow
import PgBrakes.Ports.Warden
import PgBrakes.Ports.WardenAudit
import PgBrakes.Ports.WardenKiller
import PgBrakes.Ports.McpClient
import PgBrakes.Ports.ApplydWire
import PgBrakes.Ports.McpSession
import PgBrakes.Ports.McpProxy
import PgBrakes.Ports.McpServer
import PgBrakes.Ports.AuditSinks
import PgBrakes.Ports.CloneLedger
import PgBrakes.Ports.OrphanReaper
import PgBrakes.Ports.CloneTeardown
import PgBrakes.Ports.ReaperRace
