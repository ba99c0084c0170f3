import VehicleOta.Can.CanProtocol
import VehicleOta.Can.FlowControl
import VehicleOta.Can.IsoTp
import VehicleOta.Can.Loss
import VehicleOta.Can.Reassembly
import VehicleOta.Can.ResponseLoop
import VehicleOta.Can.RoundTrip
import VehicleOta.Common.CanonicalJson
import VehicleOta.Common.EnvFile
import VehicleOta.Common.Json
import VehicleOta.Common.JsonReads
import VehicleOta.Common.JsonRoundTrip
import VehicleOta.Common.JsonText
import VehicleOta.Common.Version
import VehicleOta.Common.VersionOrder
import VehicleOta.Common.VersionText
import VehicleOta.Crash.Invariant
import VehicleOta.Crash.Persist
import VehicleOta.Crash.TrialBoot
import VehicleOta.Data.Blocks
import VehicleOta.Doip.BlockLength
import VehicleOta.Doip.ClientHandler
import VehicleOta.Doip.Gateway
import VehicleOta.Doip.MalformedHeader
import VehicleOta.Doip.Packet
import VehicleOta.Doip.ZonePolicy
import VehicleOta.Ecu.ConfirmedImage
import VehicleOta.Ecu.FlashCalls
import VehicleOta.Ecu.FlashMemory
import VehicleOta.Ecu.FlashPhase
import VehicleOta.Ecu.FlashRuns
import VehicleOta.Ecu.FlashSpec
import VehicleOta.Ecu.ImageIntegrity
import VehicleOta.Ecu.InstallSpec
import VehicleOta.Ecu.Installer
import VehicleOta.Ecu.LifeCycle
import VehicleOta.Ecu.ManagerCalls
import VehicleOta.Ecu.Moves
import VehicleOta.Ecu.Operations
import VehicleOta.Ecu.OverlapRuns
import VehicleOta.Ecu.OverlappedReboot
import VehicleOta.Ecu.PowerLoss
import VehicleOta.Ecu.RebootManager
import VehicleOta.Ecu.RecordSpec
import VehicleOta.Ecu.RejectedSlot
import VehicleOta.Ecu.RuntimeControl
import VehicleOta.Ecu.SlotManager
import VehicleOta.Ecu.Store
import VehicleOta.Ecu.TornRecords
import VehicleOta.Ecu.VersionManager
import VehicleOta.Firmware.ImageFormat
import VehicleOta.Firmware.ImageHeader
import VehicleOta.Firmware.RoundTrip
import VehicleOta.Flash.NorMemory
import VehicleOta.Graph.Acyclic
import VehicleOta.Graph.DepthFirst
import VehicleOta.Graph.Kahn
import VehicleOta.Graph.Pruning
import VehicleOta.Graph.Readiness
import VehicleOta.Hash.Sha256
import VehicleOta.Mqtt.JobNotification
import VehicleOta.Mqtt.JobState
import VehicleOta.Mqtt.MqttSecurity
import VehicleOta.Python.Basics
import VehicleOta.Python.Files
import VehicleOta.Python.Hex
import VehicleOta.Python.Lines
import VehicleOta.Python.Utf8
import VehicleOta.Scripts.RefreshAccepted
import VehicleOta.Scripts.RenewedRoles
import VehicleOta.Scripts.TrustMetadata
import VehicleOta.Tcu.CampaignEnd
import VehicleOta.Tcu.CampaignLoading
import VehicleOta.Tcu.CampaignResult
import VehicleOta.Tcu.CampaignVersion
import VehicleOta.Tcu.CloudClient
import VehicleOta.Tcu.CompatibilityValidator
import VehicleOta.Tcu.DependencyManager
import VehicleOta.Tcu.DiscoverySpec
import VehicleOta.Tcu.DynamicUpdatePlanner
import VehicleOta.Tcu.EcuDiscovery
import VehicleOta.Tcu.FirmwareCompatibility
import VehicleOta.Tcu.JobRuns
import VehicleOta.Tcu.MetadataHistory
import VehicleOta.Tcu.Models
import VehicleOta.Tcu.OrderIndependence
import VehicleOta.Tcu.OtaGuarantees
import VehicleOta.Tcu.OtaRun
import VehicleOta.Tcu.OtaStages
import VehicleOta.Tcu.PlanSpec
import VehicleOta.Tcu.PlanningCycles
import VehicleOta.Tcu.PostInstallValidator
import VehicleOta.Tcu.RootOfTrust
import VehicleOta.Tcu.ScenarioRunner
import VehicleOta.Tcu.ScenarioSpec
import VehicleOta.Tcu.SchedulerSpec
import VehicleOta.Tcu.SetOrders
import VehicleOta.Tcu.SignatureThreshold
import VehicleOta.Tcu.SignedRelease
import VehicleOta.Tcu.SkippedTargets
import VehicleOta.Tcu.StoredVersions
import VehicleOta.Tcu.SuccessfulRuns
import VehicleOta.Tcu.Summaries
import VehicleOta.Tcu.TopologicalOrder
import VehicleOta.Tcu.TrustedImages
import VehicleOta.Tcu.UpdateScheduler
import VehicleOta.Tcu.UptaneVerifier
import VehicleOta.Tcu.ValidatorSpec
import VehicleOta.Tcu.ZoneAvailabilityGuard
import VehicleOta.Tcu.ZoneDiscovery
import VehicleOta.Trace.Calls
import VehicleOta.Trace.HighWater
import VehicleOta.Trace.Ledger
import VehicleOta.Trace.Limiter
import VehicleOta.Trace.Presence
import VehicleOta.Trace.Since
import VehicleOta.Trace.Threads
import VehicleOta.Uds.Activation
import VehicleOta.Uds.Agreement
import VehicleOta.Uds.Answers
import VehicleOta.Uds.Bookkeeping
import VehicleOta.Uds.BootConfirmation
import VehicleOta.Uds.CanProgrammer
import VehicleOta.Uds.CanSafety
import VehicleOta.Uds.Codec
import VehicleOta.Uds.DoipSafety
import VehicleOta.Uds.DoipServer
import VehicleOta.Uds.DoipServices
import VehicleOta.Uds.Download
import VehicleOta.Uds.DownloadServer
import VehicleOta.Uds.Flags
import VehicleOta.Uds.FlashManager
import VehicleOta.Uds.FlashSession
import VehicleOta.Uds.FlashedEcu
import VehicleOta.Uds.ForwardedAnswers
import VehicleOta.Uds.Frame
import VehicleOta.Uds.Grants
import VehicleOta.Uds.History
import VehicleOta.Uds.Installations
import VehicleOta.Uds.LegacyFrames
import VehicleOta.Uds.LibraryClient
import VehicleOta.Uds.Programming
import VehicleOta.Uds.Retries
import VehicleOta.Uds.SecurityLimit
import VehicleOta.Uds.SeedFreshness
import VehicleOta.Uds.SessionCalls
import VehicleOta.Uds.SessionServer
import VehicleOta.Uds.SessionStages
import VehicleOta.Uds.StaleResponses
import VehicleOta.Uds.TaggedSession
import VehicleOta.Uds.TesterSession
import VehicleOta.Uds.Testers
import VehicleOta.Uds.Transfer
import VehicleOta.Uds.VersionReadback
import VehicleOta.Vehicle.CycleDetectors
import VehicleOta.Vehicle.TopologyLoader
import VehicleOta.Vehicle.TopologyRoutes
import VehicleOta.Vehicle.TopologySpec
import VehicleOta.Vehicle.ValidTopology
import VehicleOta.Zones.Heartbeats
import VehicleOta.Zones.RemoteZones
import VehicleOta.Zones.ZoneController
import VehicleOta.Zones.ZoneInventory
import VehicleOta.Zones.ZoneProtocol
import VehicleOta.Zones.ZoneService
