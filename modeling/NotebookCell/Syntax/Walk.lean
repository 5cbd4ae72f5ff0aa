/-!
# Walks with visitors

A walk goes through nodes depth first. The kind of a node tells which visitor is called there, and the
visitor decides what happens: it is a program that may look at the memory which all visitors share and
change it, walk into any node with any state and go on once that walk has ended, well or badly, or
fail. At a node whose kind has no visitor the walk goes on into the children.

`walk` runs such programs. `walkWithPath` also keeps the nodes that are being visited on a stack, which
every visit pushes its node on and pops again however the visit ends, and tells the visitors this
stack.

Nodes, states, memory and failures are arbitrary. Since a visitor may walk into any node, a walk need
not end by itself. It has a limit, as every stack of calls has: a call that would go deeper fails in
the caller.
-/

namespace NotebookCell.Walk

/-- What a visitor does: `call` walks into a node, and `next` is told how that ended, `none` standing
for a good end. -/
inductive Visit (Node State Memory Failure : Type) where
  | done
  | fail (failure : Failure)
  | load (next : Memory → Visit Node State Memory Failure)
  | store (memory : Memory) (next : Visit Node State Memory Failure)
  | call (node : Node) (state : State) (next : Option Failure → Visit Node State Memory Failure)

structure Tree (Node : Type) where
  kind : Node → String
  children : Node → List Node

abbrev Visitors (Visitor : Type) := String → Option Visitor

variable {Node State Memory Failure : Type}

namespace Visit

def ending : Option Failure → Visit Node State Memory Failure
  | none => .done
  | some failure => .fail failure

/-- Walks into each of some nodes with one state, up to the first that fails, and goes on with how that
ended. -/
def each (state : State) (next : Option Failure → Visit Node State Memory Failure) :
    List Node → Visit Node State Memory Failure
  | [] => next none
  | node :: nodes =>
    .call node state fun
      | none => each state next nodes
      | some failure => next (some failure)

end Visit

namespace Tree

/-- What happens at a node without a visitor: the walk goes into every child, with the same state. -/
def baseVisit (tree : Tree Node) (node : Node) (state : State) : Visit Node State Memory Failure :=
  .each state .ending (tree.children node)

def visit (tree : Tree Node) (visitors : Visitors (Node → State → Visit Node State Memory Failure))
    (node : Node) (state : State) : Visit Node State Memory Failure :=
  match visitors (tree.kind node) with
  | some visitor => visitor node state
  | none => tree.baseVisit node state

def visitWithPath (tree : Tree Node)
    (visitors : Visitors (Node → State → List Node → Visit Node State Memory Failure))
    (node : Node) (state : State) (path : List Node) : Visit Node State Memory Failure :=
  match visitors (tree.kind node) with
  | some visitor => visitor node state path
  | none => tree.baseVisit node state

end Tree

def noop (_ : Node) (_ : State) : Visit Node State Memory Failure := .done

/-- What a walk leaves in the memory, and how it ended. -/
structure Result (Memory Failure : Type) where
  memory : Memory
  failure : Option Failure := none

/-- Runs a visitor's program; `walk` walks into a node. -/
def Visit.run (walk : Node → State → Memory → Result Memory Failure) :
    Visit Node State Memory Failure → Memory → Result Memory Failure
  | .done, memory => { memory }
  | .fail failure, memory => { memory, failure := some failure }
  | .load next, memory => (next memory).run walk memory
  | .store memory next, _ => next.run walk memory
  | .call node state next, memory =>
    let inner := walk node state memory
    (next inner.failure).run walk inner.memory

def walk (tree : Tree Node)
    (visitors : Visitors (Node → State → Visit Node State Memory Failure)) (tooDeep : Failure) :
    Nat → Node → State → Memory → Result Memory Failure
  | 0, _, _, memory => { memory, failure := some tooDeep }
  | limit + 1, node, state, memory =>
    (tree.visit visitors node state).run (walk tree visitors tooDeep limit) memory

/-- Runs a visitor's program over a stack that the walks into nodes may change. -/
def Visit.runOnStack
    (walk : Node → State → Memory → List Node → Result Memory Failure × List Node) :
    Visit Node State Memory Failure → Memory → List Node → Result Memory Failure × List Node
  | .done, memory, stack => ({ memory }, stack)
  | .fail failure, memory, stack => ({ memory, failure := some failure }, stack)
  | .load next, memory, stack => (next memory).runOnStack walk memory stack
  | .store memory next, _, stack => next.runOnStack walk memory stack
  | .call node state next, memory, stack =>
    let (inner, stack) := walk node state memory stack
    (next inner.failure).runOnStack walk inner.memory stack

/-- Walks into `node` with the stack of the nodes above it, outermost first. The visitor is told the
stack with its own node on it. -/
def walkOnStack (tree : Tree Node)
    (visitors : Visitors (Node → State → List Node → Visit Node State Memory Failure))
    (tooDeep : Failure) :
    Nat → Node → State → Memory → List Node → Result Memory Failure × List Node
  | 0, _, _, memory, stack => ({ memory, failure := some tooDeep }, stack)
  | limit + 1, node, state, memory, stack =>
    let path := stack ++ [node]
    let (result, stack) :=
      (tree.visitWithPath visitors node state path).runOnStack
        (walkOnStack tree visitors tooDeep limit) memory path
    (result, stack.dropLast)

/-- Walks into `node`, telling every visitor the path to its node. -/
def walkWithPath (tree : Tree Node)
    (visitors : Visitors (Node → State → List Node → Visit Node State Memory Failure))
    (tooDeep : Failure) (limit : Nat) (node : Node) (state : State) (memory : Memory) :
    Result Memory Failure :=
  (walkOnStack tree visitors tooDeep limit node state memory []).1

end NotebookCell.Walk
