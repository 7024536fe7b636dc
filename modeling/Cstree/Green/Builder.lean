import Cstree.Green.Cache

/-!
# The builder

`ThreadedGreenNodeBuilder` (`threaded_builder.rs:273-553`) keeps a stack of open nodes, each with
the index in the flat children vector where its children start, the flat vector itself, and the
document length. The cache is passed beside the builder, since builders may share it, and each
operation returns the new cache and builder or the panic it raises. Rust's `Vec` is a `List`
pushed and popped at its end.
-/

namespace Cstree

variable {S I : Type}

/-- `Checkpoint(usize)`: a length of the children vector. -/
structure Checkpoint where
  pos : Nat
deriving DecidableEq, Repr

/-- `ThreadedGreenNodeBuilder`, its cache apart. -/
structure ThreadedGreenNodeBuilder (S : Type) where
  /-- Whether the builder owns its cache (`new`, `from_cache`) or borrows it (`with_cache`). -/
  cacheOwned : Bool
  parents : List (S × Nat)
  children : List GreenElement
  docLen : TextSize

/-- The operations that change a builder. -/
inductive BuilderOp (S : Type) where
  | token (kind : S) (text : String)
  | staticToken (kind : S)
  | startNode (kind : S)
  | finishNode
  | startNodeAt (checkpoint : Checkpoint) (kind : S)
  | popLastChild

namespace ThreadedNodeCache

variable [Syntax S] [Interner I] (cfg : Config)

/-- The first half of `token`: the shared token for `kind` and `text`, after the static-text
assertion of debug builds. -/
def tokenFor (c : ThreadedNodeCache I) (kind : S) (text : String) :
    Except (Panic S) (ThreadedNodeCache I × GreenToken) :=
  match Syntax.staticText kind with
  | some staticText =>
    if cfg.debugAssertions ∧ staticText ≠ text then
      .error (.staticTextMismatch kind staticText text)
    else .ok (c.token kind none (UInt32.ofNat staticText.utf8ByteSize))
  | none =>
    let len := UInt32.ofNat text.utf8ByteSize
    let r := c.intern text
    .ok (r.1.token kind (some r.2) len)

/-- The first half of `static_token`: the shared token of a kind with static text. -/
def staticTokenFor (c : ThreadedNodeCache I) (kind : S) :
    Except (Panic S) (ThreadedNodeCache I × GreenToken) :=
  match Syntax.staticText kind with
  | none => .error (.missingStaticText kind)
  | some staticText => .ok (c.token kind none (UInt32.ofNat staticText.utf8ByteSize))

end ThreadedNodeCache

namespace ThreadedGreenNodeBuilder

/-- `new` and `from_cache` (`owned`) or `with_cache`: no open node and no children. -/
def create (owned : Bool) : ThreadedGreenNodeBuilder S := ⟨owned, [], [], 0⟩

section ops

variable [Syntax S] [Interner I] (cfg : Config)

/-- The second half of `token` and `static_token`:
`self.children.push(token.into()); self.doc_len += text_len`. -/
def pushToken (b : ThreadedGreenNodeBuilder S) (token : GreenToken) :
    Except (Panic S) (ThreadedGreenNodeBuilder S) :=
  (TextSize.addAssign cfg b.docLen token.data.textLen).map fun docLen =>
    { b with children := b.children ++ [token.toElement], docLen }

/-- `token`. -/
def token (c : ThreadedNodeCache I) (b : ThreadedGreenNodeBuilder S) (kind : S) (text : String) :
    Except (Panic S) (ThreadedNodeCache I × ThreadedGreenNodeBuilder S) := do
  let (c, token) ← c.tokenFor cfg kind text
  let b ← b.pushToken cfg token
  return (c, b)

/-- `static_token`. -/
def staticToken (c : ThreadedNodeCache I) (b : ThreadedGreenNodeBuilder S) (kind : S) :
    Except (Panic S) (ThreadedNodeCache I × ThreadedGreenNodeBuilder S) := do
  let (c, token) ← c.staticTokenFor kind
  let b ← b.pushToken cfg token
  return (c, b)

/-- `start_node`. -/
def startNode (b : ThreadedGreenNodeBuilder S) (kind : S) : ThreadedGreenNodeBuilder S :=
  { b with parents := b.parents ++ [(kind, b.children.length)] }

/-- `finish_node`: pops the innermost frame and replaces its children by their node. -/
def finishNode (c : ThreadedNodeCache I) (b : ThreadedGreenNodeBuilder S) :
    Except (Panic S) (ThreadedNodeCache I × ThreadedGreenNodeBuilder S) :=
  match b.parents.getLast? with
  | none => .error .finishNodeNoParent
  | some (kind, firstChild) => do
    let (c, node, children) ← c.node cfg kind b.children firstChild
    return (c, { b with parents := b.parents.dropLast, children := children ++ [node.toElement] })

/-- `checkpoint`. -/
def checkpoint (b : ThreadedGreenNodeBuilder S) : Checkpoint := ⟨b.children.length⟩

/-- `start_node_at`: opens a frame whose children start at the checkpoint. -/
def startNodeAt (b : ThreadedGreenNodeBuilder S) (checkpoint : Checkpoint) (kind : S) :
    Except (Panic S) (ThreadedGreenNodeBuilder S) :=
  if checkpoint.pos ≤ b.children.length then
    match b.parents.getLast? with
    | some (_, firstChild) =>
      if checkpoint.pos ≥ firstChild then
        .ok { b with parents := b.parents ++ [(kind, checkpoint.pos)] }
      else .error .checkpointUnmatched
    | none => .ok { b with parents := b.parents ++ [(kind, checkpoint.pos)] }
  else .error .checkpointFinishedEarly

/-- The first child of the innermost frame, `0` when none is open. -/
def firstChild (b : ThreadedGreenNodeBuilder S) : Nat :=
  (b.parents.getLast?.map Prod.snd).getD 0

/-- `current_children`: `&self.children[first_child..]`. -/
def currentChildren (b : ThreadedGreenNodeBuilder S) : Except (Panic S) (List GreenElement) :=
  sliceFrom b.children b.firstChild

/-- `pop_last_child`: removes the last child of the innermost frame and returns it. -/
def popLastChild (b : ThreadedGreenNodeBuilder S) :
    Except (Panic S) (ThreadedGreenNodeBuilder S × GreenElement) := do
  let current ← b.currentChildren
  if current.isEmpty then throw .noChildrenToPop
  match b.children.getLast? with
  | none => throw .popLastChildUnwrap
  | some elem =>
    let docLen ← TextSize.subAssign cfg b.docLen elem.textLen
    return ({ b with children := b.children.dropLast, docLen }, elem)

/-- `document_len`. -/
def documentLen (b : ThreadedGreenNodeBuilder S) : TextSize := b.docLen

/-- `self.cache.into_owned()`: the cache if the builder owns it. -/
def intoOwned (b : ThreadedGreenNodeBuilder S) (c : ThreadedNodeCache I) :
    Option (ThreadedNodeCache I) :=
  if b.cacheOwned then some c else none

/-- `interner_mut`: the interner, when the builder owns its cache and the cache owns its
interner. -/
def internerMut (b : ThreadedGreenNodeBuilder S) (c : ThreadedNodeCache (MaybeOwnedRef I)) :
    Option I :=
  if b.cacheOwned then c.internerMut else none

/-- `finish`: the only pending element, which must be a node, and the cache if the builder owns
it. -/
def finish (c : ThreadedNodeCache I) (b : ThreadedGreenNodeBuilder S) :
    Except (Panic S) (GreenNode × Option (ThreadedNodeCache I)) :=
  if b.children.length = 1 then
    match b.children.getLast? with
    | none => .error .finishUnwrap
    | some (.node id head children) => .ok (⟨id, head, children⟩, b.intoOwned c)
    | some (.token _ _) => .error .finishOnlyToken
  else .error (.finishLen b.children.length)

/-- One operation. -/
def step (c : ThreadedNodeCache I) (b : ThreadedGreenNodeBuilder S) :
    BuilderOp S → Except (Panic S) (ThreadedNodeCache I × ThreadedGreenNodeBuilder S)
  | .token kind text => b.token cfg c kind text
  | .staticToken kind => b.staticToken cfg c kind
  | .startNode kind => .ok (c, b.startNode kind)
  | .finishNode => b.finishNode cfg c
  | .startNodeAt checkpoint kind => (b.startNodeAt checkpoint kind).map (c, ·)
  | .popLastChild => (b.popLastChild cfg).map fun r => (c, r.1)

/-- A run of operations; the first panic ends it. -/
def run (c : ThreadedNodeCache I) (b : ThreadedGreenNodeBuilder S) :
    List (BuilderOp S) → Except (Panic S) (ThreadedNodeCache I × ThreadedGreenNodeBuilder S)
  | [] => .ok (c, b)
  | op :: ops => do
    let (c, b) ← b.step cfg c op
    run c b ops

end ops

/-- A run of `p ++ q` is the run of `p` followed by the run of `q`. -/
theorem run_append [Syntax S] [Interner I] (cfg : Config) (p q : List (BuilderOp S)) :
    ∀ (c : ThreadedNodeCache I) (b : ThreadedGreenNodeBuilder S),
      b.run cfg c (p ++ q) = (b.run cfg c p).bind fun r => r.2.run cfg r.1 q := by
  induction p with
  | nil => intro c b; rfl
  | cons op p ih =>
    intro c b
    simp only [List.cons_append, run]
    cases b.step cfg c op with
    | error e => rfl
    | ok r => exact ih r.1 r.2

/-! ## What an operation that returns did -/

section spec

variable (cfg : Config) {c c' : ThreadedNodeCache I} {b b' : ThreadedGreenNodeBuilder S}

theorem pushToken_ok {t : GreenToken} (h : b.pushToken cfg t = .ok b') :
    ∃ docLen,
      TextSize.addAssign cfg b.docLen t.data.textLen = (.ok docLen : Except (Panic S) _) ∧
      b' = { b with children := b.children ++ [t.toElement], docLen } := by
  obtain ⟨d, hd, rfl⟩ := except_map_eq_ok.1 h
  exact ⟨d, hd, rfl⟩

theorem token_ok [Syntax S] [Interner I] {kind : S} {text : String}
    (h : b.token cfg c kind text = .ok (c', b')) :
    ∃ t, c.tokenFor cfg kind text = .ok (c', t) ∧ b.pushToken cfg t = .ok b' := by
  obtain ⟨⟨c₁, t⟩, ht, h⟩ := except_bind_eq_ok.1 h
  obtain ⟨b₁, hb, h⟩ := except_bind_eq_ok.1 h
  cases h
  exact ⟨t, ht, hb⟩

theorem staticToken_ok [Syntax S] {kind : S} (h : b.staticToken cfg c kind = .ok (c', b')) :
    ∃ t, c.staticTokenFor kind = .ok (c', t) ∧ b.pushToken cfg t = .ok b' := by
  obtain ⟨⟨c₁, t⟩, ht, h⟩ := except_bind_eq_ok.1 h
  obtain ⟨b₁, hb, h⟩ := except_bind_eq_ok.1 h
  cases h
  exact ⟨t, ht, hb⟩

theorem finishNode_ok [Syntax S] (h : b.finishNode cfg c = .ok (c', b')) :
    ∃ ps kind firstChild n rest, b.parents = ps ++ [(kind, firstChild)] ∧
      c.node cfg kind b.children firstChild = .ok (c', n, rest) ∧
      b' = { b with parents := ps, children := rest ++ [n.toElement] } := by
  unfold finishNode at h
  split at h
  · cases h
  · rename_i kind firstChild hlast
    obtain ⟨⟨c₁, n, rest⟩, hn, h⟩ := except_bind_eq_ok.1 h
    cases h
    obtain ⟨ps, hps⟩ := List.getLast?_eq_some_iff.1 hlast
    exact ⟨ps, kind, firstChild, n, rest, hps, hn, by simp [hps]⟩

theorem startNodeAt_ok {checkpoint : Checkpoint} {kind : S}
    (h : b.startNodeAt checkpoint kind = .ok b') :
    checkpoint.pos ≤ b.children.length ∧ b.firstChild ≤ checkpoint.pos ∧
      b' = { b with parents := b.parents ++ [(kind, checkpoint.pos)] } := by
  unfold startNodeAt at h
  split at h
  · split at h
    · rename_i hlast
      split at h
      · cases h; exact ⟨‹_›, by simp [firstChild, hlast]; omega, rfl⟩
      · cases h
    · rename_i hlast
      cases h; exact ⟨‹_›, by simp [firstChild, hlast], rfl⟩
  · cases h

theorem popLastChild_ok {e : GreenElement} (h : b.popLastChild cfg = .ok (b', e)) :
    ∃ ys docLen, b.children = ys ++ [e] ∧ b.firstChild < b.children.length ∧
      TextSize.subAssign cfg b.docLen e.textLen = (.ok docLen : Except (Panic S) _) ∧
      b' = { b with children := ys, docLen } := by
  unfold popLastChild currentChildren sliceFrom at h
  split at h
  · rename_i hle
    simp only [except_ok_bind] at h
    split at h
    · cases h
    · rename_i hne
      simp only [List.isEmpty_iff, List.drop_eq_nil_iff] at hne
      simp only [except_pure, except_ok_bind] at h
      split at h
      · cases h
      · rename_i elem hlast
        obtain ⟨d, hd, h⟩ := except_bind_eq_ok.1 h
        cases h
        obtain ⟨ys, hys⟩ := List.getLast?_eq_some_iff.1 hlast
        exact ⟨ys, d, hys, by omega, hd, by simp [hys]⟩
  · cases h

theorem step_startNodeAt_ok [Syntax S] [Interner I] {checkpoint : Checkpoint} {kind : S}
    (h : b.step cfg c (.startNodeAt checkpoint kind) = .ok (c', b')) :
    c' = c ∧ checkpoint.pos ≤ b.children.length ∧ b.firstChild ≤ checkpoint.pos ∧
      b' = { b with parents := b.parents ++ [(kind, checkpoint.pos)] } := by
  obtain ⟨_, hs, h⟩ := except_map_eq_ok.1 h
  cases h
  exact ⟨rfl, startNodeAt_ok hs⟩

theorem step_popLastChild_ok [Syntax S] [Interner I]
    (h : b.step cfg c .popLastChild = .ok (c', b')) :
    c' = c ∧ ∃ e, b.popLastChild cfg = .ok (b', e) := by
  obtain ⟨⟨_, e⟩, hp, h⟩ := except_map_eq_ok.1 h
  cases h
  exact ⟨rfl, e, hp⟩

theorem finish_ok {r : GreenNode × Option (ThreadedNodeCache I)} (h : b.finish c = .ok r) :
    b.children = [r.1.toElement] ∧ r.2 = b.intoOwned c := by
  unfold finish at h
  split at h
  · obtain ⟨x, hx⟩ := List.length_eq_one.1 ‹_›
    simp only [hx, List.getLast?_singleton] at h
    rcases x with ⟨id, head, cs⟩ | ⟨id, d⟩
    · obtain rfl := Except.ok.inj h
      exact ⟨hx, rfl⟩
    · cases h
  · cases h

end spec

end ThreadedGreenNodeBuilder

end Cstree
