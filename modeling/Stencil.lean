import Stencil.Cache
import Stencil.Template.Generate
import Stencil.Text.Case
import Stencil.Text.Escape
import Stencil.Text.Inspect
import Stencil.Text.Letter
import Stencil.Decimal.Read
import Stencil.Decimal.Text
import Stencil.Json.Read
import Stencil.Routine.Lexer
import Stencil.Routine.Tree
import Stencil.Routine.Parser
import Stencil.Routine.Convert
import Stencil.Routine.Failure
import Stencil.Routine.Run
import Stencil.Routine.Property
import Stencil.Routine.Operator
import Stencil.Routine.Builtin
import Stencil.Routine.Name
import Stencil.Text.Fill
import Stencil.Routine.TextMethod
import Stencil.Routine.ArrayMethod
import Stencil.Routine.Method
import Stencil.Routine.Evaluate
import Stencil.Text.Scan
import Stencil.Template.Shorthand
import Stencil.Template.Layout
import Stencil.Template.Placeholder
import Stencil.Error
import Stencil.Catalog
import Stencil.Engine.Hooks
import Stencil.Engine.Basic
import Stencil.Engine.Render
import Stencil.Engine.Plugin
import Stencil.Files.Path
import Stencil.Files.Disk
import Stencil.Files.Fragments
import Stencil.Json.Expect
import Stencil.Config.Basic
import Stencil.Config.FromJson
import Stencil.Text.Digit
import Stencil.Yaml.Basic
import Stencil.Yaml.Lexeme
import Stencil.Yaml.Lexer
import Stencil.Yaml.Read
import Stencil.Yaml.ToJson
import Stencil.Config.FromYaml
import Stencil.Config.Load
import Stencil.Files.Input
import Stencil.CommandLine.Arguments
import Stencil.CommandLine.Perform
import Stencil.Main
import Stencil.Proofs.Growth
import Stencil.Proofs.Install
import Stencil.Proofs.Alike
import Stencil.Proofs.History
import Stencil.Proofs.Kept
import Stencil.Proofs.Injection
import Stencil.Proofs.Shape
import Stencil.Proofs.Transparency
import Stencil.Proofs.Spelling
import Stencil.Proofs.Passing
import Stencil.Proofs.Lexing
import Stencil.Proofs.Reading.Direct
import Stencil.Proofs.Reading.Parsing
import Stencil.Proofs.Reading.Render
import Stencil.Proofs.FreeLoops
import Stencil.Proofs.Likeness
import Stencil.Proofs.LikeSteps
import Stencil.Proofs.LikeEvaluation
import Stencil.Proofs.LikeRendering
import Stencil.Proofs.Loosening
import Stencil.Proofs.Watched
import Stencil.Proofs.Guard
import Stencil.Proofs.Surfacing
import Stencil.Proofs.ParserRounds
import Stencil.Proofs.ParserEnds
import Stencil.Proofs.ParserProgress
import Stencil.Proofs.Regions
import Stencil.Proofs.Staying
import Stencil.Proofs.Bundled
import Stencil.Proofs.Unnoticed
import Stencil.Proofs.Termination
import Stencil.Proofs.Steady
import Stencil.Proofs.Reading.Pages
import Stencil.Proofs.Reading.PageProgram
import Stencil.Proofs.Reading.PageRun
import Stencil.Proofs.Reading.Nesting
import Stencil.Proofs.Reading.Splices
import Stencil.Proofs.Reading.Splicing
import Stencil.Proofs.Ending
import Stencil.Proofs.Moving
import Stencil.Proofs.Portable
import Stencil.Proofs.Isolation
import Stencil.Proofs.NestedRender
import Stencil.Proofs.Brackets
import Stencil.Proofs.Printing.Term
import Stencil.Proofs.Printing.Grouping
import Stencil.Proofs.Printing.ReadBack
import Stencil.Proofs.Embedding
import Stencil.Proofs.Reading.Relocation
import Stencil.Proofs.Reading.Elsewhere
import Stencil.Proofs.Reading.Composition
import Stencil.Proofs.Composing
import Stencil.Proofs.Marks
import Stencil.Proofs.Inheritance
import Stencil.Proofs.Pairing
import Stencil.Proofs.Twins
import Stencil.Proofs.Segments
import Stencil.Proofs.Facilities
import Stencil.Proofs.Arrangement
import Stencil.Proofs.DataScope
import Stencil.Proofs.Unmentioned
import Stencil.Proofs.Cutting
import Stencil.Proofs.Queue
import Stencil.Proofs.Targets
import Stencil.Proofs.Calling
import Stencil.Proofs.Reading.Raising
import Stencil.Proofs.LayoutFaults
import Stencil.Proofs.Everywhere
import Stencil.Proofs.Realms
import Stencil.Proofs.QuietSteps
import Stencil.Proofs.Onward
import Stencil.Proofs.Output.Recording
import Stencil.Proofs.Output.Accounts
import Stencil.Proofs.Output.Written
import Stencil.Proofs.Output.Result
import Stencil.Proofs.Output.Rendering
import Stencil.Proofs.Functions.Sites
import Stencil.Proofs.Functions.Origins
import Stencil.Proofs.Functions.Evaluation
import Stencil.Proofs.Functions.Rendering
import Stencil.Proofs.Functions.Reached
import Stencil.Proofs.Functions.Same
import Stencil.Proofs.Assignment
import Stencil.Proofs.Pinned
import Stencil.Proofs.Constants
import Stencil.Proofs.Reading.Solitary
import Stencil.Proofs.Messages
import Stencil.Proofs.Selectors
import Stencil.Proofs.Placeholders
import Stencil.Proofs.Items
import Stencil.Proofs.Fragments
import Stencil.Proofs.Reading.Comments
import Stencil.Proofs.Renumbering
import Stencil.Proofs.Remarks
import Stencil.Proofs.Escaping
import Stencil.Proofs.Splitting
import Stencil.Proofs.Lines
import Stencil.Proofs.Literals
import Stencil.Proofs.Quoted
