import UltraLocked.Library.Effects
import UltraLocked.Library.TwoRuns
import UltraLocked.Library.Checks
import UltraLocked.Library.CanonicalEquivalence
import UltraLocked.Library.Plans
import UltraLocked.Library.History
import UltraLocked.Library.LittleEndian
import UltraLocked.Library.Windows
import UltraLocked.Library.BlockStream
import UltraLocked.Library.Rings
import UltraLocked.Library.CountedLoops
import UltraLocked.Library.Numerals
import UltraLocked.Library.Heaps
import UltraLocked.CArgon2.Core
import UltraLocked.CArgon2.Hash
import UltraLocked.CArgon2.Blake2b
import UltraLocked.CArgon2.Blake2bStream
import UltraLocked.CArgon2.Blake2bLong
import UltraLocked.CArgon2.InitialHash
import UltraLocked.CArgon2.Block
import UltraLocked.CArgon2.Addressing
import UltraLocked.CArgon2.FillSegment
import UltraLocked.CArgon2.FillMemory
import UltraLocked.CArgon2.LaneHistory
import UltraLocked.CArgon2.SegmentHistory
import UltraLocked.CArgon2.SegmentTurn
import UltraLocked.CArgon2.FillRun
import UltraLocked.CArgon2.Tag
import UltraLocked.CArgon2.AccessPattern
import UltraLocked.CArgon2.Threads
import UltraLocked.CArgon2.ThreadsInvariant
import UltraLocked.CArgon2.ThreadsControl
import UltraLocked.CArgon2.ThreadsSafety
import UltraLocked.CArgon2.ThreadsProgress
import UltraLocked.CArgon2.ThreadsResults
import UltraLocked.CArgon2.HashRuns
import UltraLocked.CArgon2.Base64
import UltraLocked.CArgon2.Decimal
import UltraLocked.CArgon2.Encoding
import UltraLocked.CArgon2.EncodedForm
import UltraLocked.CArgon2.EncodedRoundTrip
import UltraLocked.CArgon2.Verify
import UltraLocked.CArgon2.Regions
import UltraLocked.CArgon2.ThreadRegions
import UltraLocked.CArgon2.HashRegions
import UltraLocked.CArgon2.VerifyRegions
import UltraLocked.Format.Foundation
import UltraLocked.Format.BundleLimits
import UltraLocked.Format.BundleHeader
import UltraLocked.Format.HeaderCodec
import UltraLocked.Format.Platform
import UltraLocked.Format.Crypto
import UltraLocked.Format.Argon2id
import UltraLocked.Format.Manifest
import UltraLocked.Format.ItemRecord
import UltraLocked.Format.BundleBuilder
import UltraLocked.Format.BundleParser
import UltraLocked.Format.SamplePlatform
import UltraLocked.Format.ManifestCodec
import UltraLocked.Format.BundleFile
import UltraLocked.Format.Session
import UltraLocked.Format.CallLimits
import UltraLocked.Format.ItemWindows
import UltraLocked.Format.ItemLengths
import UltraLocked.Format.FailClosed
import UltraLocked.Format.Staging
import UltraLocked.Format.Assembly
import UltraLocked.Format.BuildSuccess
import UltraLocked.Format.Isolation
import UltraLocked.Format.Reopening
import UltraLocked.Format.RoundTrip
import UltraLocked.Format.TamperEvidence
import UltraLocked.Format.NonceUse
import UltraLocked.Format.HeaderErrors
import UltraLocked.Format.KDFLimits
import UltraLocked.Format.DerivedKey
import UltraLocked.Format.Passphrase
import UltraLocked.Format.Portability
