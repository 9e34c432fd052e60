import HexEditor.CommandLine.Arguments
import HexEditor.CommandLine.Run
import HexEditor.CommandLine.Startup
import HexEditor.History.Device
import HexEditor.History.Log
import HexEditor.History.Record
import HexEditor.Input.Event
import HexEditor.Input.Key
import HexEditor.Input.Toolkit
import HexEditor.Json.Reader
import HexEditor.Json.Value
import HexEditor.Json.Writer
import HexEditor.Layout.Compilation
import HexEditor.Layout.Decoding
import HexEditor.Layout.Definition
import HexEditor.Layout.Tree
import HexEditor.Main
import HexEditor.Number.BinaryFraction
import HexEditor.Number.FloorDivision
import HexEditor.Number.Literal
import HexEditor.Number.Numeral
import HexEditor.Number.Shortest
import HexEditor.Number.Word
import HexEditor.Panel
import HexEditor.Program.Assembly
import HexEditor.Program.Cells
import HexEditor.Program.Instruction
import HexEditor.Program.Machine
import HexEditor.Proofs.Action
import HexEditor.Proofs.History.Content
import HexEditor.Proofs.History.Crash
import HexEditor.Proofs.History.Operations
import HexEditor.Proofs.History.Refinement
import HexEditor.Proofs.Layout.Compilation
import HexEditor.Proofs.Layout.Pieces
import HexEditor.Proofs.Number.Word
import HexEditor.Proofs.Program.Encoding
import HexEditor.Proofs.Program.Stepping
import HexEditor.Proofs.Session.Events
import HexEditor.Proofs.Session.Tracking
import HexEditor.Proofs.Text.Utf8
import HexEditor.Proofs.Window
import HexEditor.Screen.Composition
import HexEditor.Screen.Line
import HexEditor.Screen.Painting
import HexEditor.Screen.Row
import HexEditor.Session.Address
import HexEditor.Session.Basic
import HexEditor.Session.Editing
import HexEditor.Session.Keys
import HexEditor.Settings
import HexEditor.Storage.EditedFile
import HexEditor.Storage.Failure
import HexEditor.Storage.FileTree
import HexEditor.Storage.Path
import HexEditor.Storage.Reader
import HexEditor.Struct
import HexEditor.StructFile
import HexEditor.Table
import HexEditor.Text.Blank
import HexEditor.Text.DecimalDigit
import HexEditor.Text.Quoted
import HexEditor.Text.Uppercase
import HexEditor.Text.Utf8
import HexEditor.Window.Grid
import HexEditor.Window.Moves
import HexEditor.Window.Pointing
import HexEditor.Proofs.Window.Placement
import HexEditor.Proofs.History.Durability
import HexEditor.Proofs.Input.Order
import HexEditor.Proofs.History.Lag
import HexEditor.Proofs.Session.Refusal
import HexEditor.Proofs.Program.Cells
import HexEditor.Proofs.Program.Execution
import HexEditor.Proofs.Program.Endings
import HexEditor.Proofs.Program.Boundaries
import HexEditor.Proofs.Session.Faults
import HexEditor.Proofs.Session.Retrying
import HexEditor.Proofs.Session.Remembering
import HexEditor.Proofs.Panel.Room
import HexEditor.Proofs.Panel.Showing
import HexEditor.Proofs.Panel.Budget
import HexEditor.Proofs.Session.Changes
import HexEditor.Proofs.Session.ReadOnly
import HexEditor.Proofs.Session.Annotations
import HexEditor.Proofs.Session.Placing
import HexEditor.Proofs.Screen.Line
import HexEditor.Proofs.Screen.Row
import HexEditor.Proofs.Screen.VisibleBytes
import HexEditor.Proofs.Screen.Hits
import HexEditor.Proofs.Number.Numeral
import HexEditor.Proofs.Input.Encoding
import HexEditor.Proofs.Screen.InPlace
import HexEditor.Proofs.Screen.Spans
import HexEditor.Proofs.Text.Breaks
import HexEditor.Proofs.Session.Messages
import HexEditor.Proofs.Screen.Printing
import HexEditor.Proofs.Storage.Failures
import HexEditor.Proofs.Panel.Failures
import HexEditor.Proofs.History.Usable
import HexEditor.Proofs.Session.Steady
import HexEditor.Proofs.Session.Reporting
import HexEditor.Proofs.Session.Addresses
import HexEditor.Proofs.Session.Jumping
import HexEditor.Proofs.Table
import HexEditor.Proofs.Outcome
import HexEditor.Proofs.Json.Strings
import HexEditor.Proofs.Json.RoundTrip
import HexEditor.Proofs.Json.Members
import HexEditor.Proofs.Json.Refusals
import HexEditor.Proofs.Storage.Paths
import HexEditor.Proofs.Storage.Trees
import HexEditor.Proofs.Settings.Reading
import HexEditor.Proofs.Settings.Naming
import HexEditor.Proofs.Settings.Document
import HexEditor.Proofs.Settings.Loading
import HexEditor.Proofs.Settings.Reloading
import HexEditor.Proofs.Settings.Assigning
import HexEditor.Proofs.Text.Decoding
import HexEditor.Proofs.Number.Signed
import HexEditor.Proofs.Layout.Integers
import HexEditor.Proofs.History.Opening
import HexEditor.Proofs.History.Leaving
import HexEditor.Proofs.Number.Display
import HexEditor.Proofs.Number.Literal
import HexEditor.Proofs.Panel.Nesting
import HexEditor.Proofs.Program.Labels
import HexEditor.Proofs.Layout.Definition
import HexEditor.Proofs.Layout.Source
import HexEditor.Proofs.Layout.Values
import HexEditor.Proofs.Struct.Loading
import HexEditor.Proofs.Window.Cells
import HexEditor.Proofs.Window.Jumps
import HexEditor.Proofs.Window.Steps
import HexEditor.Proofs.Window.Scrolling
import HexEditor.Proofs.Program.CellMap
import HexEditor.Proofs.Input.Progress
import HexEditor.Proofs.History.Refused
