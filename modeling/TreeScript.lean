import TreeScript.Main
import TreeScript.Host.Probe
import TreeScript.Interpreter.Session
import TreeScript.ScopeTree
import TreeScript.Syntax.Writing
import TreeScript.Proofs.Comparison
import TreeScript.Proofs.ConstructComparison
import TreeScript.Proofs.GoalComparison
import TreeScript.Proofs.EditAgreement
import TreeScript.Proofs.ActionAgreement
import TreeScript.Proofs.Execution
import TreeScript.Proofs.Parity
import TreeScript.Proofs.Law
import TreeScript.Proofs.Reach
import TreeScript.Proofs.ConstructContract
import TreeScript.Proofs.ControlFlow
import TreeScript.Proofs.Depth
import TreeScript.Proofs.Halting
import TreeScript.Proofs.Bisimilarity
import TreeScript.Proofs.Permanence
import TreeScript.Proofs.LexicalFrame
import TreeScript.Proofs.WindingDown
import TreeScript.Proofs.ReadBack
import TreeScript.Proofs.LimitedRuns
import TreeScript.Proofs.DepthLimits
import TreeScript.Proofs.Observation
import TreeScript.Proofs.Patience
import TreeScript.Proofs.Synchrony
import TreeScript.Proofs.PausedSessions
import TreeScript.Proofs.Releases
import TreeScript.Proofs.IndependentScripts
import TreeScript.Proofs.Firings
import TreeScript.Proofs.Delivery
import TreeScript.Proofs.FatalErrors
import TreeScript.Proofs.Inertness
import TreeScript.Proofs.BlockEvents
import TreeScript.Proofs.QualifiedNames
import TreeScript.Proofs.Lookups
import TreeScript.Proofs.FailedDefinitions
import TreeScript.Proofs.MemberStatements
import TreeScript.Proofs.MemberOrder
import TreeScript.Proofs.MemberAttributes
import TreeScript.Proofs.ErrorLocations
import TreeScript.Proofs.NumericRuns
import TreeScript.Proofs.RelabelledRuns
import TreeScript.Proofs.Destructuring
import TreeScript.Proofs.Projections
import TreeScript.Proofs.CountedLoops
import TreeScript.Proofs.GrowingArrays
import TreeScript.Proofs.Schedule
import TreeScript.Proofs.Renderings
import TreeScript.Proofs.JsonRoundTrips
import TreeScript.Proofs.MetadataAgreement
import TreeScript.Proofs.Visibility
import TreeScript.Proofs.ContainerAccess
import TreeScript.Proofs.TextSequences
import TreeScript.Proofs.LiteralTexts
import TreeScript.Proofs.Listings
import TreeScript.Proofs.RunModes
import TreeScript.Proofs.PastEvents
import TreeScript.Proofs.ScriptsInPieces
import TreeScript.Proofs.FunctionNames
