import FlutterMend.Main
import FlutterMend.Proofs.Arguments
import FlutterMend.Proofs.Brackets
import FlutterMend.Proofs.CallSites
import FlutterMend.Proofs.Chains
import FlutterMend.Proofs.Course
import FlutterMend.Proofs.Cuts
import FlutterMend.Proofs.DryRun
import FlutterMend.Proofs.Exchange
import FlutterMend.Proofs.Execution
import FlutterMend.Proofs.Failure
import FlutterMend.Proofs.FileTree.Files
import FlutterMend.Proofs.FileTree.Fixed
import FlutterMend.Proofs.FileTree.Join
import FlutterMend.Proofs.FileTree.Leads
import FlutterMend.Proofs.FileTree.Shape
import FlutterMend.Proofs.FileTree.Write
import FlutterMend.Proofs.Finder
import FlutterMend.Proofs.Halving
import FlutterMend.Proofs.Lexeme
import FlutterMend.Proofs.Orders
import FlutterMend.Proofs.Ownership
import FlutterMend.Proofs.Passes.Calls
import FlutterMend.Proofs.Passes.Moved
import FlutterMend.Proofs.Passes.Promotions
import FlutterMend.Proofs.Passes.Removals
import FlutterMend.Proofs.Pattern
import FlutterMend.Proofs.Reruns
import FlutterMend.Proofs.Restoration
import FlutterMend.Proofs.RevisionScript
import FlutterMend.Proofs.RuleList
import FlutterMend.Proofs.Run
import FlutterMend.Proofs.Scan
import FlutterMend.Proofs.Script
import FlutterMend.Proofs.Selection
import FlutterMend.Proofs.Session
import FlutterMend.Proofs.Walk
import FlutterMend.Proofs.Walk.Eligible
import FlutterMend.Proofs.Walk.FileEdits
import FlutterMend.Proofs.Walk.Open
import FlutterMend.Proofs.Walk.Order
import FlutterMend.Proofs.Walk.Path
import FlutterMend.SampleWidget
import FlutterMend.Workspace
