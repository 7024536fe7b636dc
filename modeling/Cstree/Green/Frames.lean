import Cstree.Green.Builder

/-!
# The nested-frame builder

What the flat builder stands for: a root list and a stack of open frames, each with its kind and
its own element list. A token goes to the innermost list, `start_node` opens an empty frame,
`start_node_at` moves a suffix of the innermost list into a new frame, and `finish_node` closes
the innermost frame into the cache's node for it, appended to the enclosing list. `toFlat`
concatenates the lists into the flat children vector and records where each frame's list starts.
-/

namespace Cstree

variable {S I : Type}

/-- A root list and the open frames around it, the innermost frame outermost in the term. -/
inductive Frames (S : Type) where
  | root (children : List GreenElement)
  | frame (outer : Frames S) (kind : S) (children : List GreenElement)

namespace Frames

/-- All pending elements: `R ++ L₁ ++ ... ++ Lₙ`. -/
def flatten : Frames S → List GreenElement
  | root cs => cs
  | frame o _ cs => o.flatten ++ cs

/-- The `(kind, first child)` stack these frames give the flat builder:
`[(k₁, |R|), (k₂, |R| + |L₁|), ...]`. -/
def parents : Frames S → List (S × Nat)
  | root _ => []
  | frame o k _ => o.parents ++ [(k, o.flatten.length)]

/-- The innermost list: `Lₙ`, or `R` when no frame is open. -/
def innermost : Frames S → List GreenElement
  | root cs => cs
  | frame _ _ cs => cs

/-- The elements before the innermost list. -/
def outer : Frames S → List GreenElement
  | root _ => []
  | frame o _ _ => o.flatten

/-- The frames with another innermost list. -/
def setInnermost : Frames S → List GreenElement → Frames S
  | root _, cs => root cs
  | frame o k _, cs => frame o k cs

theorem flatten_eq (f : Frames S) : f.flatten = f.outer ++ f.innermost := by
  cases f <;> rfl

@[simp] theorem parents_setInnermost (f : Frames S) (cs : List GreenElement) :
    (f.setInnermost cs).parents = f.parents := by
  cases f <;> rfl

@[simp] theorem outer_setInnermost (f : Frames S) (cs : List GreenElement) :
    (f.setInnermost cs).outer = f.outer := by
  cases f <;> rfl

@[simp] theorem innermost_setInnermost (f : Frames S) (cs : List GreenElement) :
    (f.setInnermost cs).innermost = cs := by
  cases f <;> rfl

@[simp] theorem flatten_setInnermost (f : Frames S) (cs : List GreenElement) :
    (f.setInnermost cs).flatten = f.outer ++ cs := by
  rw [flatten_eq, outer_setInnermost, innermost_setInnermost]

/-- The last parent records where the innermost list starts. -/
theorem getLast?_parents (f : Frames S) :
    f.parents.getLast? = match f with
      | root _ => none
      | frame o k _ => some (k, o.flatten.length) := by
  cases f <;> simp [parents]

end Frames

/-- The nested-frame builder. -/
structure NestedBuilder (S : Type) where
  cacheOwned : Bool
  frames : Frames S
  docLen : TextSize

namespace NestedBuilder

/-- The flat builder state these frames stand for. -/
def toFlat (s : NestedBuilder S) : ThreadedGreenNodeBuilder S :=
  ⟨s.cacheOwned, s.frames.parents, s.frames.flatten, s.docLen⟩

@[simp] theorem parents_toFlat (s : NestedBuilder S) : s.toFlat.parents = s.frames.parents := rfl

@[simp] theorem children_toFlat (s : NestedBuilder S) : s.toFlat.children = s.frames.flatten := rfl

@[simp] theorem docLen_toFlat (s : NestedBuilder S) : s.toFlat.docLen = s.docLen := rfl

/-- Append to the innermost list. -/
def push (s : NestedBuilder S) (e : GreenElement) : NestedBuilder S :=
  { s with frames := s.frames.setInnermost (s.frames.innermost ++ [e]) }

section ops

variable [Syntax S] [Interner I] (cfg : Config)

/-- A token appended to the innermost list, its length added to the document length. -/
def pushToken (s : NestedBuilder S) (token : GreenToken) : Except (Panic S) (NestedBuilder S) :=
  (TextSize.addAssign cfg s.docLen token.data.textLen).map fun docLen =>
    { s.push token.toElement with docLen }

/-- `token`. -/
def token (c : ThreadedNodeCache I) (s : NestedBuilder S) (kind : S) (text : String) :
    Except (Panic S) (ThreadedNodeCache I × NestedBuilder S) := do
  let (c, token) ← c.tokenFor cfg kind text
  let s ← s.pushToken cfg token
  return (c, s)

/-- `static_token`. -/
def staticToken (c : ThreadedNodeCache I) (s : NestedBuilder S) (kind : S) :
    Except (Panic S) (ThreadedNodeCache I × NestedBuilder S) := do
  let (c, token) ← c.staticTokenFor kind
  let s ← s.pushToken cfg token
  return (c, s)

/-- `start_node`: a new empty innermost frame. -/
def startNode (s : NestedBuilder S) (kind : S) : NestedBuilder S :=
  { s with frames := .frame s.frames kind [] }

/-- `finish_node`: the innermost frame becomes the cache's node over its list. -/
def finishNode (c : ThreadedNodeCache I) (s : NestedBuilder S) :
    Except (Panic S) (ThreadedNodeCache I × NestedBuilder S) :=
  match s.frames with
  | .root _ => .error .finishNodeNoParent
  | .frame o kind cs => do
    let (c, node, _) ← c.node cfg kind cs 0
    return (c, { s with frames := o.setInnermost (o.innermost ++ [node.toElement]) })

/-- `start_node_at`: the suffix of the innermost list from flat position `checkpoint` moves into a
new innermost frame. -/
def startNodeAt (s : NestedBuilder S) (checkpoint : Checkpoint) (kind : S) :
    Except (Panic S) (NestedBuilder S) :=
  if checkpoint.pos ≤ s.frames.flatten.length then
    if s.frames.outer.length ≤ checkpoint.pos then
      let k := checkpoint.pos - s.frames.outer.length
      .ok { s with
        frames := .frame (s.frames.setInnermost (s.frames.innermost.take k)) kind
          (s.frames.innermost.drop k) }
    else .error .checkpointUnmatched
  else .error .checkpointFinishedEarly

/-- `pop_last_child`: the last element of the innermost list. -/
def popLastChild (s : NestedBuilder S) : Except (Panic S) (NestedBuilder S × GreenElement) :=
  match s.frames.innermost.getLast? with
  | none => .error .noChildrenToPop
  | some elem =>
    (TextSize.subAssign cfg s.docLen elem.textLen).map fun docLen =>
      ({ s with frames := s.frames.setInnermost s.frames.innermost.dropLast, docLen }, elem)

/-- `finish`, as the nested builder allows it: no open frame and a single node in the root. -/
def finish (c : ThreadedNodeCache I) (s : NestedBuilder S) :
    Option (GreenNode × Option (ThreadedNodeCache I)) :=
  match s.frames with
  | .root [.node id head children] => some (⟨id, head, children⟩, if s.cacheOwned then some c else none)
  | _ => none

/-- One operation. -/
def step (c : ThreadedNodeCache I) (s : NestedBuilder S) :
    BuilderOp S → Except (Panic S) (ThreadedNodeCache I × NestedBuilder S)
  | .token kind text => s.token cfg c kind text
  | .staticToken kind => s.staticToken cfg c kind
  | .startNode kind => .ok (c, s.startNode kind)
  | .finishNode => s.finishNode cfg c
  | .startNodeAt checkpoint kind => (s.startNodeAt checkpoint kind).map (c, ·)
  | .popLastChild => (s.popLastChild cfg).map fun r => (c, r.1)

/-- A run of operations; the first panic ends it. -/
def run (c : ThreadedNodeCache I) (s : NestedBuilder S) :
    List (BuilderOp S) → Except (Panic S) (ThreadedNodeCache I × NestedBuilder S)
  | [] => .ok (c, s)
  | op :: ops => do
    let (c, s) ← s.step cfg c op
    run c s ops

end ops

end NestedBuilder

end Cstree
