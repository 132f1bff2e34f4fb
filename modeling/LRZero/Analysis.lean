import LRZero.Follow
import LRZero.Collection

/-!
# The analysis of a grammar

Everything that is derived from a grammar, together with the log of deriving
it: first the passes over the rules, then the search for the states.
-/

namespace LRZero

/-- What is derived from a grammar. -/
structure Analysis where
  first : SetTable
  follow : SetTable
  states : List State
  trace : Trace
deriving DecidableEq

namespace Grammar

/-- The analysis of a grammar with its log. -/
def analyse (g : Grammar) : Analysis × List Event :=
  let collection := g.collection
  (⟨g.first, g.follow, collection.states, collection.trace⟩,
    Event.ofPasses .first g.firstPasses ++ Event.ofPasses .follow g.followPasses ++ collection.log)

/-- The analysis of a grammar. -/
def analysis (g : Grammar) : Analysis := g.analyse.1

end Grammar

end LRZero
