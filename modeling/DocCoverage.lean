import DocCoverage.Main
import DocCoverage.Proofs.Symbol.Tangle
import DocCoverage.Proofs.Coverage.SelfDocumented
import DocCoverage.Proofs.Coverage.Remedy
import DocCoverage.Proofs.Coverage.Form
import DocCoverage.Proofs.Path.Join
import DocCoverage.Proofs.Settings.RootMark
import DocCoverage.Proofs.Settings.Written
import DocCoverage.Proofs.CommandLine.Ending
import DocCoverage.Proofs.Coverage.Texts
import DocCoverage.Proofs.Settings.BuiltIn
import DocCoverage.Proofs.FileTree.Subtree
import DocCoverage.Proofs.Settings.Relocation
import DocCoverage.Proofs.FileTree.Edited
import DocCoverage.Proofs.Settings.Environment
import DocCoverage.Proofs.Settings.Levels
import DocCoverage.Proofs.CommandLine.Log
import DocCoverage.Proofs.Coverage.Division
import DocCoverage.Proofs.Settings.FirstFault
import DocCoverage.Proofs.Symbol.Run
import DocCoverage.Proofs.CommandLine.Frame
import DocCoverage.Proofs.Settings.Literal
import DocCoverage.Proofs.Settings.Unknown
import DocCoverage.Proofs.Settings.TrailForms
import DocCoverage.Proofs.Settings.Twice
import DocCoverage.Proofs.Report.Account
import DocCoverage.Proofs.Trail.Course
import DocCoverage.Proofs.CommandLine.Filter
import DocCoverage.Proofs.Coverage.Difference
import DocCoverage.Proofs.Report.Targets
import DocCoverage.Proofs.Report.Refusal
import DocCoverage.Proofs.Settings.Discovery
