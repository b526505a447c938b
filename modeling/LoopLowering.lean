import LoopLowering.CommandLine.Invocation
import LoopLowering.CommandLine.Perform
import LoopLowering.CommandLine.Source
import LoopLowering.CommandLine.Switch
import LoopLowering.Constant
import LoopLowering.Diagnostic
import LoopLowering.Fault
import LoopLowering.Grammar.Declaration
import LoopLowering.Grammar.Entry
import LoopLowering.Grammar.Expression
import LoopLowering.Grammar.Parser
import LoopLowering.Grammar.Statement
import LoopLowering.Grammar.TypeName
import LoopLowering.Layout.Error
import LoopLowering.Layout.Escape
import LoopLowering.Layout.Expression
import LoopLowering.Layout.Statement
import LoopLowering.Layout.Unit
import LoopLowering.Loops.Body
import LoopLowering.Loops.ForEach
import LoopLowering.Loops.ForLoop
import LoopLowering.Loops.Lowering
import LoopLowering.Machine.Call
import LoopLowering.Machine.Compare
import LoopLowering.Machine.Convert
import LoopLowering.Machine.Evaluation
import LoopLowering.Machine.Evaluator
import LoopLowering.Machine.Expression
import LoopLowering.Machine.ListMethod
import LoopLowering.Machine.ObjectMethod
import LoopLowering.Machine.Operator
import LoopLowering.Machine.Program
import LoopLowering.Machine.Run
import LoopLowering.Machine.Sequence
import LoopLowering.Machine.Signal
import LoopLowering.Machine.State
import LoopLowering.Machine.Statement
import LoopLowering.Machine.StaticMethod
import LoopLowering.Machine.Store
import LoopLowering.Machine.TextMethod
import LoopLowering.Machine.Value
import LoopLowering.Main
import LoopLowering.Number.Binary64
import LoopLowering.Number.Bits
import LoopLowering.Number.FloatStyle
import LoopLowering.Number.Natural
import LoopLowering.Number.Numeral
import LoopLowering.Number.Planar
import LoopLowering.Number.Power
import LoopLowering.Number.Shortest
import LoopLowering.Proofs.CommandLine
import LoopLowering.Proofs.Grammar.Agreeing
import LoopLowering.Proofs.Grammar.Consumption
import LoopLowering.Proofs.Grammar.Deciding
import LoopLowering.Proofs.Grammar.DeclarationAgreeing
import LoopLowering.Proofs.Grammar.DeclarationDeciding
import LoopLowering.Proofs.Grammar.DeclarationTrees
import LoopLowering.Proofs.Grammar.ErrorPlaces
import LoopLowering.Proofs.Grammar.ExpressionAgreeing
import LoopLowering.Proofs.Grammar.ExpressionDeciding
import LoopLowering.Proofs.Grammar.ExpressionReading
import LoopLowering.Proofs.Grammar.ExpressionTrees
import LoopLowering.Proofs.Grammar.Nesting
import LoopLowering.Proofs.Grammar.OperandReading
import LoopLowering.Proofs.Grammar.OperatorReading
import LoopLowering.Proofs.Grammar.Placement
import LoopLowering.Proofs.Grammar.Reads
import LoopLowering.Proofs.Grammar.Rereading
import LoopLowering.Proofs.Grammar.Running
import LoopLowering.Proofs.Grammar.Spacing
import LoopLowering.Proofs.Grammar.StatementAgreeing
import LoopLowering.Proofs.Grammar.StatementDeciding
import LoopLowering.Proofs.Grammar.StatementExpression
import LoopLowering.Proofs.Grammar.StatementReading
import LoopLowering.Proofs.Grammar.StatementTrees
import LoopLowering.Proofs.Grammar.Taking
import LoopLowering.Proofs.Grammar.Totality
import LoopLowering.Proofs.Grammar.TypeDeciding
import LoopLowering.Proofs.Grammar.TypeReading
import LoopLowering.Proofs.Grammar.UnitReading
import LoopLowering.Proofs.Grammar.VariableReading
import LoopLowering.Proofs.Layout.Declarator
import LoopLowering.Proofs.Layout.Expression
import LoopLowering.Proofs.Layout.Fitting
import LoopLowering.Proofs.Layout.Items
import LoopLowering.Proofs.Layout.Lines
import LoopLowering.Proofs.Layout.Stability
import LoopLowering.Proofs.Layout.Statement
import LoopLowering.Proofs.Layout.Unit
import LoopLowering.Proofs.Layout.Written
import LoopLowering.Proofs.Loops.Commute
import LoopLowering.Proofs.Loops.Elimination
import LoopLowering.Proofs.Loops.Identity
import LoopLowering.Proofs.Loops.Landmarks
import LoopLowering.Proofs.Loops.Placement
import LoopLowering.Proofs.Loops.Recursion
import LoopLowering.Proofs.Loops.Resolution
import LoopLowering.Proofs.Loops.Retargeting
import LoopLowering.Proofs.Loops.Structure
import LoopLowering.Proofs.Loops.Syntax
import LoopLowering.Proofs.Loops.Targets
import LoopLowering.Proofs.Machine.Catching
import LoopLowering.Proofs.Machine.Contract
import LoopLowering.Proofs.Machine.Conversion
import LoopLowering.Proofs.Machine.Cyclic
import LoopLowering.Proofs.Machine.Descent
import LoopLowering.Proofs.Machine.Dispatch
import LoopLowering.Proofs.Machine.EachPass
import LoopLowering.Proofs.Machine.ElementLoop
import LoopLowering.Proofs.Machine.Exits
import LoopLowering.Proofs.Machine.Expression
import LoopLowering.Proofs.Machine.ForEach
import LoopLowering.Proofs.Machine.ForLoop
import LoopLowering.Proofs.Machine.ForPass
import LoopLowering.Proofs.Machine.Frames
import LoopLowering.Proofs.Machine.Growth
import LoopLowering.Proofs.Machine.Kind
import LoopLowering.Proofs.Machine.Library
import LoopLowering.Proofs.Machine.Limit
import LoopLowering.Proofs.Machine.ListIndex
import LoopLowering.Proofs.Machine.Lockstep
import LoopLowering.Proofs.Machine.Lowers
import LoopLowering.Proofs.Machine.Mishap
import LoopLowering.Proofs.Machine.Phrase
import LoopLowering.Proofs.Machine.Primitive
import LoopLowering.Proofs.Machine.ProgramPass
import LoopLowering.Proofs.Machine.Renaming
import LoopLowering.Proofs.Machine.Retention
import LoopLowering.Proofs.Machine.Room
import LoopLowering.Proofs.Machine.Scope
import LoopLowering.Proofs.Machine.Simulation
import LoopLowering.Proofs.Machine.Slot
import LoopLowering.Proofs.Machine.Statement
import LoopLowering.Proofs.Machine.Storage
import LoopLowering.Proofs.Machine.Suited
import LoopLowering.Proofs.Machine.Target
import LoopLowering.Proofs.Machine.Termination
import LoopLowering.Proofs.Machine.Truncation
import LoopLowering.Proofs.Machine.Turning
import LoopLowering.Proofs.Machine.Uncaught
import LoopLowering.Proofs.Machine.Upkeep
import LoopLowering.Proofs.Machine.Variadic
import LoopLowering.Proofs.Machine.WholeRun
import LoopLowering.Proofs.RoundTrip.Expression
import LoopLowering.Proofs.RoundTrip.Statement
import LoopLowering.Proofs.RoundTrip.TypeOperator
import LoopLowering.Proofs.RoundTrip.Unit
import LoopLowering.Proofs.Syntax.Expression
import LoopLowering.Proofs.Syntax.Nodes
import LoopLowering.Proofs.Syntax.Statement
import LoopLowering.Proofs.Token.Boundary
import LoopLowering.Proofs.Token.Extent
import LoopLowering.Proofs.Token.Genuine
import LoopLowering.Proofs.Token.Insertion
import LoopLowering.Proofs.Token.Lexeme
import LoopLowering.Proofs.Token.Literals
import LoopLowering.Proofs.Token.Locality
import LoopLowering.Proofs.Token.Numbers
import LoopLowering.Proofs.Token.Quoted
import LoopLowering.Proofs.Token.Spelling
import LoopLowering.Proofs.Token.Tiling
import LoopLowering.Proofs.Tree.Identity
import LoopLowering.Proofs.Tree.Location
import LoopLowering.Proofs.Tree.Nodes
import LoopLowering.Proofs.Tree.Outline
import LoopLowering.Proofs.Tree.Path
import LoopLowering.Proofs.Tree.Placement
import LoopLowering.Proofs.Tree.Shape
import LoopLowering.Proofs.Tree.Substitution
import LoopLowering.Proofs.Tree.Walk
import LoopLowering.Proofs.Workspace.Lowering
import LoopLowering.Proofs.Workspace.Replacing
import LoopLowering.Proofs.Workspace.Staleness
import LoopLowering.Proofs.Workspace.Substitution
import LoopLowering.Text.Blank
import LoopLowering.Text.Case
import LoopLowering.Text.Digit
import LoopLowering.Text.Letter
import LoopLowering.Text.Printable
import LoopLowering.Text.Quoted
import LoopLowering.Text.Ranges
import LoopLowering.Token
import LoopLowering.Token.Escape
import LoopLowering.Token.Lexeme
import LoopLowering.Token.Scan
import LoopLowering.Tree.Location
import LoopLowering.Tree.Node
import LoopLowering.Tree.Operator
import LoopLowering.Tree.Outline
import LoopLowering.Tree.Path
import LoopLowering.Tree.Shape
import LoopLowering.Tree.Word
import LoopLowering.Workspace
import LoopLowering.Workspace.Entries
import LoopLowering.Workspace.Lowering
