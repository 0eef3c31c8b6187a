import NamedSlots.Access.Accessor
import NamedSlots.Access.Factory
import NamedSlots.Access.Permission
import NamedSlots.Access.Reader
import NamedSlots.Access.Writer
import NamedSlots.Assoc
import NamedSlots.Classifier
import NamedSlots.Evaluation.Binding
import NamedSlots.Evaluation.Compilation
import NamedSlots.Evaluation.Evaluator
import NamedSlots.Evaluation.Numeric
import NamedSlots.Evaluation.Semantics
import NamedSlots.Expr.Basic
import NamedSlots.Expr.Element
import NamedSlots.Expr.Leaves
import NamedSlots.Expr.Operator
import NamedSlots.Expr.Substitution
import NamedSlots.Failure
import NamedSlots.Fault
import NamedSlots.Graph.FloatArithmetic
import NamedSlots.Graph.Lowering
import NamedSlots.Graph.Node
import NamedSlots.Graph.Rectangle
import NamedSlots.Graph.Simplification
import NamedSlots.Number.Binary
import NamedSlots.Number.Decimal
import NamedSlots.Number.Element
import NamedSlots.Number.Elementary
import NamedSlots.Number.Loop
import NamedSlots.Number.Plain
import NamedSlots.Number.Summation
import NamedSlots.Proofs.AccessConfinement
import NamedSlots.Proofs.AggregateGraphs
import NamedSlots.Proofs.ArrayAggregates
import NamedSlots.Proofs.ArrayExpansion
import NamedSlots.Proofs.ArrayLowering
import NamedSlots.Proofs.ArrayRun
import NamedSlots.Proofs.ArraySemantics
import NamedSlots.Proofs.ArrayStorage
import NamedSlots.Proofs.AssocLookup
import NamedSlots.Proofs.BackendAgreement
import NamedSlots.Proofs.Binding
import NamedSlots.Proofs.BindingClosure
import NamedSlots.Proofs.BindingDerivation
import NamedSlots.Proofs.BindingRun
import NamedSlots.Proofs.BindingSuccess
import NamedSlots.Proofs.BuiltTables
import NamedSlots.Proofs.CacheInvariants
import NamedSlots.Proofs.CacheTransparency
import NamedSlots.Proofs.CapabilitySafety
import NamedSlots.Proofs.DefinedSymbol
import NamedSlots.Proofs.DefinitionGraph
import NamedSlots.Proofs.ElementwiseAgreement
import NamedSlots.Proofs.Enumeration
import NamedSlots.Proofs.ExactComparison
import NamedSlots.Proofs.ExactLowering
import NamedSlots.Proofs.ExactScalar
import NamedSlots.Proofs.ExactSimplification
import NamedSlots.Proofs.FactoryRun
import NamedSlots.Proofs.FactoryStep
import NamedSlots.Proofs.Fleet
import NamedSlots.Proofs.GetterEvaluator
import NamedSlots.Proofs.GetterUsability
import NamedSlots.Proofs.GridShape
import NamedSlots.Proofs.IndexedNames
import NamedSlots.Proofs.InlinedEvaluation
import NamedSlots.Proofs.Inlining
import NamedSlots.Proofs.KeyEquality
import NamedSlots.Proofs.LayoutAnswer
import NamedSlots.Proofs.LeafCollection
import NamedSlots.Proofs.LeafEntries
import NamedSlots.Proofs.LeafWalk
import NamedSlots.Proofs.ListRun
import NamedSlots.Proofs.NumeralText
import NamedSlots.Proofs.OfferedMethods
import NamedSlots.Proofs.OpaqueLeaves
import NamedSlots.Proofs.OperatorFailure
import NamedSlots.Proofs.PairwiseSum
import NamedSlots.Proofs.Planning
import NamedSlots.Proofs.ReaderEvaluator
import NamedSlots.Proofs.RealFunctions
import NamedSlots.Proofs.RectangleOrder
import NamedSlots.Proofs.RejectedWrite
import NamedSlots.Proofs.RequestSpelling
import NamedSlots.Proofs.Repeats
import NamedSlots.Proofs.ScalarLeaf
import NamedSlots.Proofs.ScalarLowering
import NamedSlots.Proofs.ScalarRun
import NamedSlots.Proofs.ScalarSemantics
import NamedSlots.Proofs.SequenceGetter
import NamedSlots.Proofs.ServedPlan
import NamedSlots.Proofs.ServedTable
import NamedSlots.Proofs.SessionRun
import NamedSlots.Proofs.SessionStep
import NamedSlots.Proofs.SetterBuild
import NamedSlots.Proofs.SettledTable
import NamedSlots.Proofs.SharedLeaves
import NamedSlots.Proofs.SlotAccess
import NamedSlots.Proofs.SlotDependence
import NamedSlots.Proofs.SlotReading
import NamedSlots.Proofs.StateDependencies
import NamedSlots.Proofs.StateEvaluation
import NamedSlots.Proofs.StateSystem
import NamedSlots.Proofs.StorageCells
import NamedSlots.Proofs.StorageLens
import NamedSlots.Proofs.StorageOrder
import NamedSlots.Proofs.StoredAccess
import NamedSlots.Proofs.StoredNumbers
import NamedSlots.Proofs.StoredRequest
import NamedSlots.Proofs.Substitution
import NamedSlots.Proofs.SymbolAgreement
import NamedSlots.Proofs.SymbolReplacement
import NamedSlots.Proofs.SymbolUnion
import NamedSlots.Proofs.SystemAgreement
import NamedSlots.Proofs.TermReading
import NamedSlots.Proofs.TermSupport
import NamedSlots.Proofs.TermSymbols
import NamedSlots.Proofs.TextSymbols
import NamedSlots.Proofs.TracedRun
import NamedSlots.Proofs.UncachedBuild
import NamedSlots.Proofs.ValueFailure
import NamedSlots.Proofs.VersionSafety
import NamedSlots.Proofs.VersionStore
import NamedSlots.Proofs.VersionedAgreement
import NamedSlots.Request
import NamedSlots.Session.Basic
import NamedSlots.Session.Liveness
import NamedSlots.Session.Systems
import NamedSlots.Session.Tools
import NamedSlots.Shape
import NamedSlots.System.Host
import NamedSlots.System.Interface
import NamedSlots.System.Layout
import NamedSlots.System.Object
import NamedSlots.System.Query
import NamedSlots.System.Question
import NamedSlots.System.Resolution
import NamedSlots.System.SlotTable
import NamedSlots.System.State
import NamedSlots.Term.Basic
import NamedSlots.Term.Conversion
import NamedSlots.Term.Text
import NamedSlots.Text.Blank
import NamedSlots.Text.DecimalDigit
import NamedSlots.Text.IndexedName
import NamedSlots.Text.Numeral
import NamedSlots.Text.Printable
import NamedSlots.Text.Quoted
import NamedSlots.Unvisited
import NamedSlots.Value.Basic
import NamedSlots.Value.Conversion
import NamedSlots.Value.Elementwise
import NamedSlots.Value.Functions
import NamedSlots.Value.Grid
import NamedSlots.Value.Item
import NamedSlots.Value.Operation
import NamedSlots.Value.Truth
