import LRZero.Session
import LRZero.Main
import LRZero.Proofs.LeastSets
import LRZero.Proofs.StartRules
import LRZero.Proofs.RoundTrip
import LRZero.Proofs.DistinctItems
import LRZero.Proofs.SetsAndStates
import LRZero.Proofs.SessionRuns
import LRZero.Proofs.RuleListing
import LRZero.Proofs.LargerGrammars
import LRZero.Proofs.ReachableRules
import LRZero.Proofs.CheckedGrammars
import LRZero.Proofs.StrictReading
import LRZero.Proofs.LenientReading
import LRZero.Proofs.MissingRules
import LRZero.Proofs.GrammarFiles
import LRZero.Proofs.CommandRuns
import LRZero.Proofs.LeastClosure
import LRZero.Proofs.UnionOfStates
import LRZero.Proofs.FiniteSearch
import LRZero.Proofs.BreadthFirst
import LRZero.Proofs.RunsOfPasses
import LRZero.Proofs.CellsAndEdges
import LRZero.Proofs.TransitionGraph
import LRZero.Proofs.AccessingSymbols
import LRZero.Proofs.OrderedSets
import LRZero.Proofs.EqualItems
import LRZero.Proofs.Spelling
