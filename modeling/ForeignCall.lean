import ForeignCall.Abort
import ForeignCall.Bytecode.Basic
import ForeignCall.Bytecode.Compiler
import ForeignCall.Bytecode.Instruction
import ForeignCall.Bytecode.Tags
import ForeignCall.CType.Basic
import ForeignCall.CType.Completion
import ForeignCall.CType.Document
import ForeignCall.CType.Names
import ForeignCall.CType.Spelling
import ForeignCall.Cache.Directory
import ForeignCall.Cache.Error
import ForeignCall.Cache.Key
import ForeignCall.Constant.Evaluation
import ForeignCall.Constant.Literal
import ForeignCall.Declaration.Basic
import ForeignCall.Declaration.Document
import ForeignCall.Extraction.Basic
import ForeignCall.Extraction.Error
import ForeignCall.Extraction.Options
import ForeignCall.Files.Error
import ForeignCall.Files.Tree
import ForeignCall.Header.Basic
import ForeignCall.Header.Builder
import ForeignCall.Header.Document
import ForeignCall.Header.Namespaces
import ForeignCall.Header.Translation
import ForeignCall.Json.Basic
import ForeignCall.Json.Reader
import ForeignCall.Json.Render
import ForeignCall.Json.Source
import ForeignCall.Layout.Basic
import ForeignCall.Layout.Engine
import ForeignCall.Layout.Error
import ForeignCall.Macro.Basic
import ForeignCall.Namespace
import ForeignCall.Program.Basic
import ForeignCall.Program.Document
import ForeignCall.Program.Literal
import ForeignCall.Program.Scope
import ForeignCall.Registry.Basic
import ForeignCall.Registry.Function
import ForeignCall.Session.Basic
import ForeignCall.Session.Config
import ForeignCall.Session.LogFilter
import ForeignCall.Target.Basic
import ForeignCall.Target.Cast
import ForeignCall.Text.Blank
import ForeignCall.Text.Hidden
import ForeignCall.Text.Numeral
import ForeignCall.Text.Octet
import ForeignCall.Text.Quoted
import ForeignCall.Text.Shortest
import ForeignCall.Text.Utf8
import ForeignCall.Tool.Command
import ForeignCall.Tool.Copy
import ForeignCall.Tool.Diagnostic
import ForeignCall.Tool.Error
import ForeignCall.Tool.Process
import ForeignCall.Tool.Runner
import ForeignCall.Tool.Script.Arithmetic
import ForeignCall.Tool.Script.Basic
import ForeignCall.Tool.Script.Builtin.Aliases
import ForeignCall.Tool.Script.Builtin.Jobs
import ForeignCall.Tool.Script.Builtin.Limits
import ForeignCall.Tool.Script.Builtin.Options
import ForeignCall.Tool.Script.Builtin.Places
import ForeignCall.Tool.Script.Builtin.Signals
import ForeignCall.Tool.Script.Builtin.Texts
import ForeignCall.Tool.Script.Builtin.Variables
import ForeignCall.Tool.Script.Child
import ForeignCall.Tool.Script.Condition
import ForeignCall.Tool.Script.Expansion
import ForeignCall.Tool.Script.Fields
import ForeignCall.Tool.Script.Format
import ForeignCall.Tool.Script.Fraction
import ForeignCall.Tool.Script.Grammar
import ForeignCall.Tool.Script.Launch
import ForeignCall.Tool.Script.Paths
import ForeignCall.Tool.Script.Pattern
import ForeignCall.Tool.Script.Quoting
import ForeignCall.Tool.Script.Redirection
import ForeignCall.Tool.Script.Run
import ForeignCall.Tool.Script.Runner
import ForeignCall.Tool.Script.Source
import ForeignCall.Tool.Script.State
import ForeignCall.Proofs.Bytecode.Tables
import ForeignCall.Proofs.Program.Induction
import ForeignCall.Proofs.Bytecode.Derivation
import ForeignCall.Proofs.Bytecode.Machine
import ForeignCall.Proofs.Bytecode.Simulation
import ForeignCall.Proofs.Bytecode.Depth
import ForeignCall.Proofs.Bytecode.Acceptance
import ForeignCall.Proofs.Namespace
import ForeignCall.Proofs.CType.RoundTrip
import ForeignCall.Proofs.CType.Spelling
import ForeignCall.Proofs.Layout.Steps
import ForeignCall.Proofs.CType.Completion
import ForeignCall.Proofs.CType.Termination
import ForeignCall.Proofs.Layout.Memory
import ForeignCall.Proofs.Layout.Structs
import ForeignCall.Proofs.Layout.Aggregates
import ForeignCall.Proofs.Layout.Elements
import ForeignCall.Proofs.Layout.Members
import ForeignCall.Proofs.Header.Changes
import ForeignCall.Proofs.Declaration.EnumBodies
import ForeignCall.Proofs.Declaration.Mentions
import ForeignCall.Proofs.Header.Sizeofs
import ForeignCall.Proofs.Header.Steps
import ForeignCall.Proofs.Header.Translation
import ForeignCall.Proofs.Header.Coherence
import ForeignCall.Proofs.Header.RoundTrip
import ForeignCall.Proofs.Header.Sizes
import ForeignCall.Proofs.Cache.Entries
import ForeignCall.Proofs.Cache.FileNames
import ForeignCall.Proofs.Cache.History
import ForeignCall.Proofs.Extraction.Runs
import ForeignCall.Proofs.Extraction.Transparency
import ForeignCall.Proofs.Bytecode.Stream
import ForeignCall.Proofs.Registry.Calls
import ForeignCall.Proofs.Registry.Interleaving
import ForeignCall.Proofs.Declaration.Carriers
import ForeignCall.Proofs.Header.Additions
import ForeignCall.Proofs.Header.Contributions
import ForeignCall.Proofs.Header.Survival
import ForeignCall.Proofs.Header.Declared
import ForeignCall.Proofs.Header.Forward
import ForeignCall.Proofs.Bytecode.Resemblance
import ForeignCall.Proofs.Bytecode.Retyping
import ForeignCall.Proofs.Registry.Completed
import ForeignCall.Proofs.CType.Residue
import ForeignCall.Proofs.Constant.Words
import ForeignCall.Proofs.Constant.Exactness
import ForeignCall.Proofs.Header.EnumValues
import ForeignCall.Proofs.Constant.Literals
import ForeignCall.Proofs.Program.LiteralTypes
import ForeignCall.Proofs.Program.Escapes
import ForeignCall.Proofs.Target.Widths
import ForeignCall.Proofs.Bytecode.Runs
import ForeignCall.Proofs.Program.LiteralWidths
import ForeignCall.Proofs.Bytecode.Interning
import ForeignCall.Proofs.Header.Places
import ForeignCall.Proofs.Text.Parts
import ForeignCall.Proofs.Tool.Diagnostic
import ForeignCall.Proofs.Macro.Scanning
import ForeignCall.Proofs.CType.Keywords
import ForeignCall.Proofs.Json.Alike
import ForeignCall.Proofs.CType.Documents
import ForeignCall.Proofs.CType.Normal
import ForeignCall.Proofs.Layout.Shape
import ForeignCall.Proofs.Layout.Packing
import ForeignCall.Proofs.Extraction.Environment
import ForeignCall.Proofs.Bytecode.Promotion
import ForeignCall.Proofs.Bytecode.Emission
import ForeignCall.Proofs.Target.Casts
import ForeignCall.Proofs.Header.Constants
