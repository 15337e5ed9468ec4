import HashTunnel.Text.Basic
import HashTunnel.Text.Blank
import HashTunnel.Text.Utf8
import HashTunnel.Marker
import HashTunnel.Reserved
import HashTunnel.Directive
import HashTunnel.Continuation
import HashTunnel.Wrap
import HashTunnel.Unwrap
import HashTunnel.Host.Program
import HashTunnel.Engine.Basic
import HashTunnel.Engine.Linemarker
import HashTunnel.Engine.Command
import HashTunnel.Tunnel
import HashTunnel.Config.Basic
import HashTunnel.Config.Rc
import HashTunnel.Config.Sample
import HashTunnel.Host.Path
import HashTunnel.CommandLine.Request
import HashTunnel.CommandLine.Parse
import HashTunnel.Host.Tree
import HashTunnel.Session
import HashTunnel.Proofs.Pieces
import HashTunnel.Proofs.LogicalLines
import HashTunnel.Proofs.Directives
import HashTunnel.Proofs.Parts
import HashTunnel.Proofs.Rewriting
import HashTunnel.Proofs.RoundTrip
import HashTunnel.Proofs.Joining
import HashTunnel.Proofs.Consumption
import HashTunnel.Proofs.LineEdits
import HashTunnel.Proofs.OnePass
import HashTunnel.Proofs.WrappedTexts
import HashTunnel.Proofs.Trimming
import HashTunnel.Proofs.Expressible
import HashTunnel.Proofs.Respelling
import HashTunnel.Proofs.Settings
import HashTunnel.Proofs.Configuring
import HashTunnel.Proofs.Trees
import HashTunnel.Proofs.Worlds
import HashTunnel.Proofs.OneSink
import HashTunnel.Proofs.Scanning
import HashTunnel.Proofs.StepOrder
import HashTunnel.Proofs.Undoing
import HashTunnel.Proofs.Examination
import HashTunnel.Proofs.NoiseLines
import HashTunnel.Proofs.Statements
import HashTunnel.Proofs.Announcing
import HashTunnel.Proofs.Utf8
import HashTunnel.Proofs.Outcomes
import HashTunnel.Proofs.IllFormed
import HashTunnel.Proofs.Reporting
import HashTunnel.Tool.Basic
import HashTunnel.Tool.Cat
import HashTunnel.Tool.Echo
import HashTunnel.Tool.Head
import HashTunnel.Tool.Pattern
import HashTunnel.Tool.Sed.Script
import HashTunnel.Tool.Sed.Machine
import HashTunnel.Tool.Shell.Word
import HashTunnel.Tool.Shell.Grammar
import HashTunnel.Tool.Shell.Arithmetic
import HashTunnel.Tool.Shell.Printf
import HashTunnel.Tool.Shell.Test
import HashTunnel.Tool.Shell.Run
import HashTunnel.Tool.Program
import HashTunnel.Host.Enclosure
import HashTunnel.Main
