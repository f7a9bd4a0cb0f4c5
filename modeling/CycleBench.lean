import CycleBench.Document.Trap
import CycleBench.Host.FileStore
import CycleBench.Main
import CycleBench.Model.Wrapped
import CycleBench.Proofs.CoreRun
import CycleBench.Proofs.FileSystem
import CycleBench.Proofs.Settings
import CycleBench.Proofs.RunCommand
import CycleBench.Proofs.SuiteCommand
import CycleBench.Proofs.ConfigDocument
import CycleBench.Proofs.CoreReuse
import CycleBench.Proofs.ManifestDocument
import CycleBench.Proofs.PolarityChange
import CycleBench.Proofs.Agreement
import CycleBench.Proofs.Arguments
import CycleBench.Proofs.FirstSample
import CycleBench.Proofs.HostTime
import CycleBench.Proofs.Looks
import CycleBench.Proofs.LouderLines
import CycleBench.Proofs.MiswiredCore
import CycleBench.Proofs.Sampling
import CycleBench.Proofs.ReportText
import CycleBench.Proofs.RunLog
import CycleBench.Proofs.Tracing
import CycleBench.Proofs.ExactNumbers
import CycleBench.Proofs.Groups
import CycleBench.Proofs.MergedSettings
import CycleBench.Proofs.Slices
import CycleBench.Proofs.Enclosures
import CycleBench.Proofs.WrittenLines
import CycleBench.Proofs.PrintedCommands
