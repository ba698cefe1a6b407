import CommandShell.Builtins
import CommandShell.Call
import CommandShell.CommandLine
import CommandShell.Config.Basic
import CommandShell.Config.Json
import CommandShell.Config.Load
import CommandShell.Config.Toml
import CommandShell.Console
import CommandShell.Demo
import CommandShell.Edit
import CommandShell.Editor
import CommandShell.Failure
import CommandShell.FileTree.Basic
import CommandShell.FileTree.Lemmas
import CommandShell.Folder
import CommandShell.Handles
import CommandShell.Json
import CommandShell.Lists
import CommandShell.Main
import CommandShell.NameMap
import CommandShell.Output
import CommandShell.Path.Basic
import CommandShell.Path.Lemmas
import CommandShell.Processes
import CommandShell.Proofs.Alphabets
import CommandShell.Proofs.Ancestors
import CommandShell.Proofs.CallEffects
import CommandShell.Proofs.CallRestrictions
import CommandShell.Proofs.Cancellation
import CommandShell.Proofs.CheckedAccess
import CommandShell.Proofs.CommandRuns
import CommandShell.Proofs.Conversations
import CommandShell.Proofs.CurrentDirectory
import CommandShell.Proofs.DirectoryRows
import CommandShell.Proofs.Dispatch
import CommandShell.Proofs.Echoes
import CommandShell.Proofs.FailedOperations
import CommandShell.Proofs.Following
import CommandShell.Proofs.Footprints
import CommandShell.Proofs.FreshTables
import CommandShell.Proofs.Growth
import CommandShell.Proofs.HandleNumbers
import CommandShell.Proofs.HistoryWalks
import CommandShell.Proofs.Independence
import CommandShell.Proofs.InputLines
import CommandShell.Proofs.Invocations
import CommandShell.Proofs.Joins
import CommandShell.Proofs.Layouts
import CommandShell.Proofs.Legibility
import CommandShell.Proofs.LineZipper
import CommandShell.Proofs.Listings
import CommandShell.Proofs.OpenFiles
import CommandShell.Proofs.PathMap
import CommandShell.Proofs.PathMapLaws
import CommandShell.Proofs.Paths
import CommandShell.Proofs.PhysicalWalks
import CommandShell.Proofs.ProcessNumbers
import CommandShell.Proofs.Prompts
import CommandShell.Proofs.Quotations
import CommandShell.Proofs.Readings
import CommandShell.Proofs.RecentSubmissions
import CommandShell.Proofs.Reclamation
import CommandShell.Proofs.Refinement
import CommandShell.Proofs.Refusals
import CommandShell.Proofs.Registrations
import CommandShell.Proofs.Renamings
import CommandShell.Proofs.Representation
import CommandShell.Proofs.Routes
import CommandShell.Proofs.Seeding
import CommandShell.Proofs.Separators
import CommandShell.Proofs.SessionRuns
import CommandShell.Proofs.SessionTrees
import CommandShell.Proofs.SlotNumbers
import CommandShell.Proofs.Submissions
import CommandShell.Proofs.Tables
import CommandShell.Proofs.Targets
import CommandShell.Proofs.Tokens
import CommandShell.Proofs.TreeShape
import CommandShell.Proofs.TypedSessions
import CommandShell.Registry
import CommandShell.Routine
import CommandShell.Script
import CommandShell.Session
import CommandShell.Slots
import CommandShell.Toml.Item
import CommandShell.Toml.Reader
import CommandShell.Toml.Scalar
import CommandShell.Toml.Text
import CommandShell.Workspace
