import Flame.Text.Blank
import Flame.Text.Hidden
import Flame.Text.Quoted
import Flame.Text.Place
import Flame.Text.Decimal
import Flame.Text.Lines
import Flame.Token.Kind
import Flame.Token.Span
import Flame.Token.Basic
import Flame.Token.Shape
import Flame.Token.Scan
import Flame.Token.Dump
import Flame.Syntax.Tier
import Flame.Syntax.TypeTag
import Flame.Syntax.Basic
import Flame.Syntax.Equality
import Flame.Syntax.Outline
import Flame.Event
import Flame.Parse.Error
import Flame.Parse.Cursor
import Flame.Parse.Reading
import Flame.Parse.Expr
import Flame.Parse.Program
import Flame.Run.Value
import Flame.Run.Error
import Flame.Run.Arithmetic
import Flame.Run.Environment
import Flame.Run.Machine
import Flame.Run.Eval
import Flame.Run.Session
import Flame.Host.Terminal
import Flame.Host.World
import Flame.Shell.Prompt
import Flame.Shell.Folder
import Flame.Shell.Command
import Flame.Main
import Flame.Proofs.Readers
import Flame.Proofs.Grammar
import Flame.Proofs.ParserSound
import Flame.Proofs.ParserComplete
import Flame.Proofs.RunLogic
import Flame.Proofs.Scopes
import Flame.Proofs.ScopeDiscipline
import Flame.Proofs.Sessions
import Flame.Proofs.Lexemes
import Flame.Proofs.RoundTrip
import Flame.Proofs.Shapes
import Flame.Proofs.LongestMatch
import Flame.Proofs.Scanners
import Flame.Proofs.Likeness
import Flame.Proofs.SideBySide
import Flame.Proofs.Hosts
import Flame.Proofs.Coincidence
import Flame.Proofs.Limits
import Flame.Proofs.Moments
import Flame.Proofs.Termination
import Flame.Proofs.Joining
import Flame.Proofs.Units
import Flame.Proofs.Completion
import Flame.Proofs.EarliestError
import Flame.Proofs.SpansAside
import Flame.Proofs.Layout
import Flame.Proofs.Steps
import Flame.Proofs.DistinctNames
import Flame.Proofs.Printing
import Flame.Proofs.Conversations
import Flame.Proofs.Tiling
import Flame.Proofs.Places
import Flame.Proofs.Diagnostics
import Flame.Proofs.Outlines
import Flame.Proofs.TagsAside
import Flame.Proofs.Climbing
import Flame.Proofs.ExactArithmetic
import Flame.Proofs.Reports
import Flame.Proofs.Inlining
import Flame.Proofs.PostOrder
import Flame.Proofs.Seams
import Flame.Proofs.Dumps
import Flame.Proofs.Descent
import Flame.Proofs.CursorMoves
import Flame.Proofs.Offsets
import Flame.Proofs.ScopeLog
import Flame.Proofs.Registrations
