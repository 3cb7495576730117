import Ost.Lib.OrdMap
import Ost.Lib.Json
import Ost.Lib.Emit
import Ost.Lib.Numerals
import Ost.Qt
import Ost.Element
import Ost.Property
import Ost.Dump
import Ost.Front.Datastore
import Ost.GridReplica
import Ost.ValueReplica
import Ost.ElementReplica
import Ost.Basemodule
import Ost.Profile
import Ost.Controller
import Ost.Dispatch
import Ost.Lib.JsonText
import Ost.Lib.JsonTree
import Ost.Lib.JsonWeight
import Ost.Grants
import Ost.Confidentiality
import Ost.Observers
import Ost.SwitchRule
import Ost.Front.Subscriptions
import Ost.Guider
import Ost.Planner
import Ost.SequencerChart
import Ost.SequencerWaits
import Ost.GuidedExposure
import Ost.DitherCadence
import Ost.ShotLedger
import Ost.ShotCount
import Ost.Isolation
import Ost.Datastore
import Ost.Loading
import Ost.FocusedFilter
import Ost.Protection
import Ost.UnsavedChanges
import Ost.Indi
import Ost.Parkmanager
import Ost.RoofInterlock
import Ost.RoofClosing
import Ost.IndiPanel
import Ost.Monitor
import Ost.LovReplica
import Ost.Fidelity
import Ost.GainCalibration
import Ost.GuidePulses
import Ost.Calibration
import Ost.LineUpdates
import Ost.Inspector
import Ost.Allsky
import Ost.LogReplica
import Ost.ManagedLists
import Ost.Descriptions
import Ost.FactoryLines
import Ost.Rebuilt
import Ost.Carried
import Ost.RoundTrip
import Ost.Centering
import Ost.GridColumns
import Ost.FileWatch
import Ost.LineRoundTrip
import Ost.NumericBounds
import Ost.Lib.PlaceMarkers
import Ost.Placeholders
import Ost.BlindGuide
import Ost.FocusSweep
import Ost.FocusZones
import Ost.Lib.JsonStrings
import Ost.Lib.SqlText
import Ost.ProfileText
import Ost.Lib.Attempts
import Ost.Lib.Groups
import Ost.SaveConf
import Ost.Lib.Least
import Ost.Lib.Plane
import Ost.StarTracker
import Ost.StarRecovery
import Ost.StarShift
import Ost.Lib.Decimal
import Ost.Lib.LinFit
import Ost.Lib.TextLines
import Ost.Lib.Utf8
import Ost.LogAnalyzer
import Ost.LogDrift
import Ost.Lib.Words
import Ost.LogSafety
import Ost.GuideLog
import Ost.GuideHeader
import Ost.GuideLogRead
import Ost.Lib.Significant
import Ost.GridRows
import Ost.Lib.KeyTexts
import Ost.LovFactory
import Ost.IndiSwitches
import Ost.Lib.Transaction
import Ost.CatalogImport
import Ost.Lib.Root
import Ost.Lib.Rotation
import Ost.PolarAlign
import Ost.Front.Quaternion
import Ost.Front.SkyProjection
import Ost.Front.Trackball
import Ost.Lib.Checked
import Ost.Lib.Moments
import Ost.Solver
import Ost.ZoneSmoothing
import Ost.Lib.Substitution
import Ost.MessageArguments
import Ost.PecMeter
import Ost.Lib.Batches
import Ost.MonitorSampling
import Ost.AllskyParms
import Ost.Front.EditDialog
import Ost.FocusMeans
import Ost.LogFit
import Ost.Lib.Errands
import Ost.NavigatorRun
import Ost.PlannerSlaves
import Ost.Lib.Chart
import Ost.FocusChart
import Ost.FocusRuns
import Ost.FocusMoves
import Ost.PolarChart
import Ost.DriftLine
import Ost.BlindPecChart
import Ost.BlindPecPulses
import Ost.Lib.Journal
import Ost.IndiDrivers
import Ost.Lib.Midtones
import Ost.Lib.Strides
import Ost.Stretch
import Ost.Lib.News
import Ost.Translations
