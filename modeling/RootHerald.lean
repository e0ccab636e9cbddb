import RootHerald.Lib.Bytes
import RootHerald.Lib.Checked
import RootHerald.Lib.Fields
import RootHerald.Lib.OrdMap
import RootHerald.Lib.PrefixCode
import RootHerald.Lib.Base64
import RootHerald.Lib.Utf8
import RootHerald.Lib.Json
import RootHerald.Lib.JsonText
import RootHerald.Lib.Folds
import RootHerald.Lib.Triple
import RootHerald.Lib.Ledger
import RootHerald.Lib.Loops
import RootHerald.Lib.Locators
import RootHerald.Lib.LenientJson
import RootHerald.Lib.LenientStrict
import RootHerald.Lib.Buffers
import RootHerald.Lib.Guid
import RootHerald.Lib.CStrings
import RootHerald.Lib.Format
import RootHerald.Lib.Projection
import RootHerald.Lib.Frames
import RootHerald.Lib.MarkedText
import RootHerald.Boot.EventLogParser
import RootHerald.Boot.EventRecord
import RootHerald.Boot.SecureBootValidator
import RootHerald.Boot.EventLogBounds
import RootHerald.Boot.EventLogRun
import RootHerald.Boot.EventLogDecoding
import RootHerald.Boot.SecureBootConclusion
import RootHerald.Boot.ReportConsistency
import RootHerald.Boot.EventCounts
import RootHerald.Boot.HeaderSkip
import RootHerald.Boot.VariableData
import RootHerald.Boot.SecureBootState
import RootHerald.Boot.VariableNames
import RootHerald.Boot.SignatureListBounds
import RootHerald.Boot.SignatureListDecoding
import RootHerald.Boot.VendorVariables
import RootHerald.Boot.RevocationCount
import RootHerald.Boot.BootAppPath
import RootHerald.Boot.CertificateNames
import RootHerald.Linux.Nonce
import RootHerald.Linux.AttestationKey
import RootHerald.Windows.DeviceId
import RootHerald.Windows.Enrollment
import RootHerald.Windows.PersistentKey
import RootHerald.Windows.EmittedJson
import RootHerald.Windows.HandleLedger
import RootHerald.Windows.KeyRotation
import RootHerald.Windows.ClientFacade
import RootHerald.Windows.ClientHandles
import RootHerald.Windows.EvidenceValues
import RootHerald.EnrollmentStatus
import RootHerald.EnrollActivation
import RootHerald.Linux.AttestedLog
import RootHerald.Linux.ResponseFrames
import RootHerald.Linux.FlushedResources
import RootHerald.Windows.CertificateChain
import RootHerald.PcrMeasurements
import RootHerald.Linux.EkCertificate
import RootHerald.Windows.NvCertificates
import RootHerald.Windows.WireBounds
import RootHerald.Windows.WireResponses
import RootHerald.Windows.QuoteCommand
import RootHerald.TruncatedResponses
import RootHerald.ExtractedValues
import RootHerald.Linux.ResponseBuffer
import RootHerald.Linux.PemText
import RootHerald.Linux.JsonOffsets
import RootHerald.Windows.DeviceIdText
import RootHerald.Windows.EkModulus
import RootHerald.Windows.StoreBlobs
import RootHerald.Windows.PostureDetail
import RootHerald.Windows.ByteTransport
import RootHerald.Windows.WireSimulation
import RootHerald.Windows.EnrollmentCompletes
import RootHerald.Linux.FreedBlocks
import RootHerald.Linux.EnrollExchange
import RootHerald.Linux.EnrollRegistrar
import RootHerald.Linux.AttestVerifier
import RootHerald.Linux.HostSession
import RootHerald.MacOS.HostSession
