import WindowTally.Json.Records
import WindowTally.Pipeline.VirtualTime
import WindowTally.Proofs.ExactCounts
import WindowTally.Proofs.StuckWord
import WindowTally.Settings.Layers
import WindowTally.Source.Lines
import WindowTally.Proofs.ArrivalOrder
import WindowTally.Proofs.Reading
import WindowTally.Proofs.Attempts
import WindowTally.Proofs.Outcome
import WindowTally.Proofs.Budgets
import WindowTally.Proofs.Progress
import WindowTally.Proofs.Undisturbed
import WindowTally.Proofs.Workload
import WindowTally.Proofs.StepByStep
import WindowTally.Proofs.Backpressure
import WindowTally.Proofs.Stopping
import WindowTally.Proofs.JsonLines
import WindowTally.Proofs.FrontierCalls
import WindowTally.Proofs.Statistics
import WindowTally.Proofs.Unstopped
import WindowTally.Proofs.LineRuns
import WindowTally.Proofs.Tiles
import WindowTally.Proofs.DeliveryTime
import WindowTally.Proofs.CountsByWindow
import WindowTally.Proofs.SharedTable
import WindowTally.Proofs.Layering
import WindowTally.Proofs.OnTime
import WindowTally.Proofs.Splitting
import WindowTally.Proofs.Flushes
import WindowTally.Proofs.Grace
import WindowTally.Proofs.WordRuns
import WindowTally.Proofs.StableWords
import WindowTally.Proofs.RetryLoop
import WindowTally.Proofs.TornLines
import WindowTally.Proofs.WindowNumbers
import WindowTally.Proofs.JsonSettings
import WindowTally.Proofs.LogLevels
import WindowTally.Proofs.SettingsTimes
import WindowTally.Proofs.AttemptCounter
import WindowTally.Proofs.WindowTexts
