import Cstree.Green.Element
import Mathlib.Logic.Function.Basic

/-!
# The node cache

`ThreadedNodeCache` deduplicates tokens and small nodes (`threaded_builder.rs:25-244`). Its two
`DashMap`s are functions into `Option`, each `entry(..).or_insert_with(..)` is one atomic step,
and a counter hands out the allocation ids of new `Arc`s. The cache also keeps a ghost log of
the requests it served, so that two runs can be compared request by request.
-/

namespace Cstree

/-- The `Syntax` trait: a kind's raw discriminant and its static text, if it has one. -/
class Syntax (S : Type) where
  intoRaw : S → RawSyntaxKind
  staticText : S → Option String

/-- The `Interner<TokenKey>` capability, `get_or_intern` through a shared reference. -/
class Interner (I : Type) where
  getOrIntern : I → String → I × TokenKey

/-- An interner that keys each text by the position of its first interning, as the default
sequential interners do. -/
structure ListInterner where
  texts : List String

instance : Interner ListInterner where
  getOrIntern i text :=
    match i.texts.indexOf? text with
    | some k => (i, ⟨UInt32.ofNat k⟩)
    | none => (⟨i.texts ++ [text]⟩, ⟨UInt32.ofNat i.texts.length⟩)

/-- `MaybeOwnedRef` (`crate::utility_types`): a value its holder owns, or one it borrows. -/
inductive MaybeOwnedRef (α : Type) where
  | owned (a : α)
  | borrowed (a : α)
deriving DecidableEq, Repr

namespace MaybeOwnedRef

variable {α : Type}

/-- `Deref`: the value, owned or borrowed. -/
def get : MaybeOwnedRef α → α
  | owned a | borrowed a => a

/-- Whether the holder owns the value. -/
def isOwned : MaybeOwnedRef α → Bool
  | owned _ => true
  | borrowed _ => false

/-- `into_owned`: the value when the holder owns it. -/
def intoOwned : MaybeOwnedRef α → Option α
  | owned a => some a
  | borrowed _ => none

/-- A call through the reference changes the value and keeps who owns it. -/
def map (f : α → α) : MaybeOwnedRef α → MaybeOwnedRef α
  | owned a => owned (f a)
  | borrowed a => borrowed (f a)

@[simp] theorem get_map (f : α → α) (r : MaybeOwnedRef α) : (r.map f).get = f r.get := by
  cases r <;> rfl

@[simp] theorem isOwned_map (f : α → α) (r : MaybeOwnedRef α) :
    (r.map f).isOwned = r.isOwned := by
  cases r <;> rfl

theorem intoOwned_eq (r : MaybeOwnedRef α) :
    r.intoOwned = if r.isOwned then some r.get else none := by
  cases r <;> rfl

theorem eq_owned_of_isOwned {r : MaybeOwnedRef α} (h : r.isOwned = true) : r = owned r.get := by
  cases r
  · rfl
  · cases h

end MaybeOwnedRef

/-- `(&*self.interner).get_or_intern(text)` on a `MaybeOwnedRef<I>`: interns in the interner it owns
or borrows. -/
instance {I : Type} [Interner I] : Interner (MaybeOwnedRef I) where
  getOrIntern r text :=
    (r.map fun i => (Interner.getOrIntern i text).1, (Interner.getOrIntern r.get text).2)

@[simp] theorem MaybeOwnedRef.getOrIntern_owned {I : Type} [Interner I] (i : I) (text : String) :
    Interner.getOrIntern (MaybeOwnedRef.owned i) text
      = (.owned (Interner.getOrIntern i text).1, (Interner.getOrIntern i text).2) := rfl

@[simp] theorem MaybeOwnedRef.getOrIntern_borrowed {I : Type} [Interner I] (i : I) (text : String) :
    Interner.getOrIntern (MaybeOwnedRef.borrowed i) text
      = (.borrowed (Interner.getOrIntern i text).1, (Interner.getOrIntern i text).2) := rfl

/-- The kinds of the doc examples (`cstree::testing`): `Root`, `Int`, `Plus` and `Operation`, of
which `Plus` has the static text `+`. -/
inductive TestSyntaxKind where
  | root | int | plus | operation
deriving DecidableEq, Repr

instance : Syntax TestSyntaxKind where
  intoRaw k := ⟨UInt32.ofNat k.toCtorIdx⟩
  staticText
    | .plus => some "+"
    | _ => none

/-- What the code fixes at compile time. -/
structure Config where
  /-- `cfg(debug_assertions)`, which also turns on integer overflow checks. -/
  debugAssertions : Bool
  /-- `hasher.finish() as u32` after `child.hash(&mut hasher)` for each child in order. Neither
  `FxHasher32` nor `Hash for GreenElement` is in this file, so the hash is a parameter. -/
  childHash : List (NodeOrToken GreenNodeHead GreenTokenData) → UInt32

/-- The panics of `threaded_builder.rs`, one constructor per site. -/
inductive Panic (S : Type) where
  /-- `self.parents.pop().unwrap()` in `finish_node`. -/
  | finishNodeNoParent
  /-- "checkpoint no longer valid, was finish_node called early?" -/
  | checkpointFinishedEarly
  /-- "checkpoint no longer valid, was an unmatched start_node_at called?" -/
  | checkpointUnmatched
  /-- "no children to pop for current node" -/
  | noChildrenToPop
  /-- `self.children.pop().unwrap()` in `pop_last_child`. -/
  | popLastChildUnwrap
  /-- "Missing static text for '{kind:?}'" in `static_token`. -/
  | missingStaticText (kind : S)
  /-- `assert_eq!(self.children.len(), 1)` in `finish`. -/
  | finishLen (len : Nat)
  /-- `self.children.pop().unwrap()` in `finish`. -/
  | finishUnwrap
  /-- "called `finish` on a `GreenNodeBuilder` which only contained a token" -/
  | finishOnlyToken
  /-- `&v[start..]` past the end: "range start index .. out of range for slice of length ..". -/
  | sliceStartOutOfRange (start len : Nat)
  /-- The `debug_assert_eq!(static_text, text, ..)` of `token`. -/
  | staticTextMismatch (kind : S) (staticText text : String)
  /-- "attempt to add with overflow", `TextSize` addition with overflow checks. -/
  | addOverflow
  /-- "attempt to subtract with overflow", `TextSize` subtraction with overflow checks. -/
  | subOverflow

variable {S I : Type}

/-! ## `Except` as the panic channel -/

section Except

variable {ε α β : Type}

@[simp] theorem except_ok_bind (a : α) (f : α → Except ε β) : (Except.ok a >>= f) = f a := rfl

@[simp] theorem except_error_bind (e : ε) (f : α → Except ε β) :
    (Except.error e >>= f) = Except.error e := rfl

@[simp] theorem except_pure (a : α) : (pure a : Except ε α) = Except.ok a := rfl

@[simp] theorem except_throw (e : ε) : (throw e : Except ε α) = Except.error e := rfl

@[simp] theorem except_map_ok (f : α → β) (a : α) :
    Except.map f (Except.ok a : Except ε α) = Except.ok (f a) := rfl

@[simp] theorem except_map_error (f : α → β) (e : ε) :
    Except.map f (Except.error e : Except ε α) = Except.error e := rfl

@[simp] theorem except_fmap_eq_map (f : α → β) (x : Except ε α) : f <$> x = x.map f := rfl

theorem except_map_eq_ok {f : α → β} {x : Except ε α} {b : β} :
    x.map f = .ok b ↔ ∃ a, x = .ok a ∧ f a = b := by
  cases x <;> simp

theorem except_bind_eq_ok {f : α → Except ε β} {x : Except ε α} {b : β} :
    (x >>= f) = .ok b ↔ ∃ a, x = .ok a ∧ f a = .ok b := by
  cases x <;> simp

theorem except_map_eq_error {f : α → β} {x : Except ε α} {e : ε} :
    x.map f = .error e ↔ x = .error e := by
  cases x <;> simp

theorem except_bind_eq_error {f : α → Except ε β} {x : Except ε α} {e : ε} :
    (x >>= f) = .error e ↔ x = .error e ∨ ∃ a, x = .ok a ∧ f a = .error e := by
  cases x <;> simp

end Except

/-- `a += b` on `TextSize`: wraps, or panics on overflow when overflow checks are on. -/
def TextSize.addAssign (cfg : Config) (a b : TextSize) : Except (Panic S) TextSize :=
  if cfg.debugAssertions ∧ 2 ^ 32 ≤ a.toNat + b.toNat then .error .addOverflow else .ok (a + b)

theorem TextSize.addAssign_of_ok {cfg : Config} {a b : TextSize}
    (h : ¬ (cfg.debugAssertions ∧ 2 ^ 32 ≤ a.toNat + b.toNat)) :
    (TextSize.addAssign cfg a b : Except (Panic S) TextSize) = .ok (a + b) := if_neg h

theorem TextSize.addAssign_of_overflow {cfg : Config} {a b : TextSize}
    (h : cfg.debugAssertions ∧ 2 ^ 32 ≤ a.toNat + b.toNat) :
    (TextSize.addAssign cfg a b : Except (Panic S) TextSize) = .error .addOverflow := if_pos h

theorem TextSize.eq_add_of_addAssign {cfg : Config} {a b d : TextSize}
    (h : (TextSize.addAssign cfg a b : Except (Panic S) TextSize) = .ok d) : d = a + b := by
  unfold TextSize.addAssign at h
  split at h <;> cases h
  rfl

/-- `a -= b` on `TextSize`: wraps, or panics on underflow when overflow checks are on. -/
def TextSize.subAssign (cfg : Config) (a b : TextSize) : Except (Panic S) TextSize :=
  if cfg.debugAssertions ∧ a.toNat < b.toNat then .error .subOverflow else .ok (a - b)

theorem TextSize.eq_sub_of_subAssign {cfg : Config} {a b d : TextSize}
    (h : (TextSize.subAssign cfg a b : Except (Panic S) TextSize) = .ok d) : d = a - b := by
  unfold TextSize.subAssign at h
  split at h <;> cases h
  rfl

/-- `&v[start..]`. -/
def sliceFrom {α : Type} (v : List α) (start : Nat) : Except (Panic S) (List α) :=
  if start ≤ v.length then .ok (v.drop start) else .error (.sliceStartOutOfRange start v.length)

/-- `CHILDREN_CACHE_THRESHOLD`: nodes with at most this many children are deduplicated. -/
def childrenCacheThreshold : Nat := 3

/-- A request that reaches the cache's shared state, as one atomic step. -/
inductive CacheRequest where
  | intern (text : String)
  | token (data : GreenTokenData)
  | node (kind : RawSyntaxKind) (children : List GreenElement)

/-- `ThreadedNodeCache`. -/
structure ThreadedNodeCache (I : Type) where
  /-- `nodes: DashMap<GreenNodeHead, GreenNode>`. -/
  nodes : GreenNodeHead → Option GreenNode
  /-- `tokens: DashMap<GreenTokenData, GreenToken>`. -/
  tokens : GreenTokenData → Option GreenToken
  interner : I
  /-- The number of `Arc`s allocated so far; the next one gets this id. -/
  allocated : Nat
  /-- Ghost: the requests served, oldest first. -/
  served : List CacheRequest

namespace ThreadedNodeCache

/-- An empty cache over `interner`: `with_interner(interner)` when `interner` is a
`MaybeOwnedRef.borrowed`, `from_interner` and `new` when it is a `MaybeOwnedRef.owned`. -/
def withInterner (interner : I) : ThreadedNodeCache I :=
  ⟨fun _ => none, fun _ => none, interner, 0, []⟩

/-- `from_interner`: an empty cache that owns its interner. -/
def fromInterner (interner : I) : ThreadedNodeCache (MaybeOwnedRef I) :=
  withInterner (.owned interner)

/-- `interner_mut`: the interner, when the cache owns it. -/
def internerMut (c : ThreadedNodeCache (MaybeOwnedRef I)) : Option I :=
  c.interner.intoOwned

/-- `into_interner`: `self.interner.into_owned()`. -/
def intoInterner (c : ThreadedNodeCache (MaybeOwnedRef I)) : Option I :=
  c.interner.intoOwned

/-- Log a request (ghost). -/
def record (c : ThreadedNodeCache I) (r : CacheRequest) : ThreadedNodeCache I :=
  { c with served := c.served ++ [r] }

/-- `intern`: `get_or_intern` on the cache's interner. -/
def intern [Interner I] (c : ThreadedNodeCache I) (text : String) :
    ThreadedNodeCache I × TokenKey :=
  let r := Interner.getOrIntern c.interner text
  ({ c.record (.intern text) with interner := r.1 }, r.2)

/-- `self.tokens.entry(data).or_insert_with(|| GreenToken::new(data)).clone()`. -/
def tokenEntry (c : ThreadedNodeCache I) (data : GreenTokenData) :
    ThreadedNodeCache I × GreenToken :=
  let c := c.record (.token data)
  match c.tokens data with
  | some token => (c, token)
  | none =>
    let token : GreenToken := ⟨c.allocated, data⟩
    ({ c with tokens := Function.update c.tokens data (some token), allocated := c.allocated + 1 },
      token)

/-- `token`: the shared token for `(kind, text, len)`. -/
def token [Syntax S] (c : ThreadedNodeCache I) (kind : S) (text : Option TokenKey) (len : UInt32) :
    ThreadedNodeCache I × GreenToken :=
  c.tokenEntry ⟨Syntax.intoRaw kind, text, len⟩

/-- `get_cached_node`: `self.nodes.entry(head).or_insert_with(|| from_head_and_children(..))`. -/
def getCachedNode (c : ThreadedNodeCache I) (kind : RawSyntaxKind) (children : List GreenElement)
    (textLen : TextSize) (childHash : UInt32) : ThreadedNodeCache I × GreenNode :=
  let head : GreenNodeHead := ⟨kind, textLen, childHash⟩
  match c.nodes head with
  | some node => (c, node)
  | none =>
    let node : GreenNode := ⟨c.allocated, head, children⟩
    ({ c with nodes := Function.update c.nodes head (some node), allocated := c.allocated + 1 },
      node)

/-- The part of `node` after its loop: the drained children go to the cache when there are at most
`CHILDREN_CACHE_THRESHOLD` of them, and into a fresh node otherwise. -/
def nodeOf (cfg : Config) (c : ThreadedNodeCache I) (kind : RawSyntaxKind)
    (children : List GreenElement) (textLen : TextSize) : ThreadedNodeCache I × GreenNode :=
  let childHash := cfg.childHash (children.map GreenElement.head)
  let c := c.record (.node kind children)
  if children.length ≤ childrenCacheThreshold then
    c.getCachedNode kind children textLen childHash
  else
    ({ c with allocated := c.allocated + 1 },
      GreenNode.newWithLenAndHash c.allocated kind children textLen childHash)

/-- The loop of `node`: `text_len += child.text_len()` over the children, from `0`. -/
def accumulateTextLen (cfg : Config) (children : List GreenElement) : Except (Panic S) TextSize :=
  children.foldlM (fun textLen child => TextSize.addAssign cfg textLen child.textLen) 0

/-- `node`: the node of `kind` over `all_children[offset..]`, which it drains. Returns the cache,
the node and what is left of `all_children`. -/
def node [Syntax S] (cfg : Config) (c : ThreadedNodeCache I) (kind : S)
    (allChildren : List GreenElement) (offset : Nat) :
    Except (Panic S) (ThreadedNodeCache I × GreenNode × List GreenElement) := do
  let children ← sliceFrom allChildren offset
  let textLen ← accumulateTextLen cfg children
  let (c, node) := c.nodeOf cfg (Syntax.intoRaw kind) children textLen
  return (c, node, allChildren.take offset)

/-- One atomic request on the shared state, as a builder makes it. -/
def serve [Interner I] (cfg : Config) (c : ThreadedNodeCache I) :
    CacheRequest → ThreadedNodeCache I
  | .intern text => (c.intern text).1
  | .token data => (c.tokenEntry data).1
  | .node kind children => (c.nodeOf cfg kind children (sumTextLen children)).1

/-- Caches reachable from an empty one by any sequence of requests, from any number of builders. -/
inductive Reachable [Interner I] (cfg : Config) : ThreadedNodeCache I → Prop
  | withInterner (interner : I) : Reachable cfg (withInterner interner)
  | serve {c : ThreadedNodeCache I} (r : CacheRequest) :
    Reachable cfg c → Reachable cfg (c.serve cfg r)

/-- `serve` over a sequence of requests. -/
def serveAll [Interner I] (cfg : Config) (c : ThreadedNodeCache I) (rs : List CacheRequest) :
    ThreadedNodeCache I :=
  rs.foldl (serve cfg) c

/-! ## What each operation does to the maps -/

/-- Inserting `(f a).getD x` at `a` keeps every entry of `f`. -/
theorem update_getD_of_some {α β : Type} [DecidableEq α] {f : α → Option β} {a b : α}
    {w : β} (x : β) (h : f b = some w) :
    Function.update f a (some ((f a).getD x)) b = some w := by
  by_cases hb : b = a
  · subst hb; simp [h]
  · rw [Function.update_noteq hb, h]

@[simp] theorem nodes_record (c : ThreadedNodeCache I) (r : CacheRequest) :
    (c.record r).nodes = c.nodes := rfl

@[simp] theorem tokens_record (c : ThreadedNodeCache I) (r : CacheRequest) :
    (c.record r).tokens = c.tokens := rfl

@[simp] theorem allocated_record (c : ThreadedNodeCache I) (r : CacheRequest) :
    (c.record r).allocated = c.allocated := rfl

@[simp] theorem served_record (c : ThreadedNodeCache I) (r : CacheRequest) :
    (c.record r).served = c.served ++ [r] := rfl

@[simp] theorem interner_record (c : ThreadedNodeCache I) (r : CacheRequest) :
    (c.record r).interner = c.interner := rfl

@[simp] theorem nodes_intern [Interner I] (c : ThreadedNodeCache I) (text : String) :
    (c.intern text).1.nodes = c.nodes := rfl

@[simp] theorem tokens_intern [Interner I] (c : ThreadedNodeCache I) (text : String) :
    (c.intern text).1.tokens = c.tokens := rfl

@[simp] theorem interner_intern [Interner I] (c : ThreadedNodeCache I) (text : String) :
    (c.intern text).1.interner = (Interner.getOrIntern c.interner text).1 := rfl

@[simp] theorem interner_tokenEntry (c : ThreadedNodeCache I) (data : GreenTokenData) :
    (c.tokenEntry data).1.interner = c.interner := by
  simp only [tokenEntry, tokens_record]
  cases c.tokens data <;> rfl

@[simp] theorem allocated_intern [Interner I] (c : ThreadedNodeCache I) (text : String) :
    (c.intern text).1.allocated = c.allocated := rfl

/-- A token entry answers with the stored token, or with a fresh one it stores. -/
theorem tokenEntry_snd (c : ThreadedNodeCache I) (data : GreenTokenData) :
    (c.tokenEntry data).2 = (c.tokens data).getD ⟨c.allocated, data⟩ := by
  simp only [tokenEntry, tokens_record, allocated_record]
  cases c.tokens data <;> rfl

/-- After a token entry the map holds the answer under its key, and nothing else changed. -/
theorem tokens_tokenEntry (c : ThreadedNodeCache I) (data : GreenTokenData) :
    (c.tokenEntry data).1.tokens
      = Function.update c.tokens data (some (c.tokenEntry data).2) := by
  simp only [tokenEntry, tokens_record, allocated_record]
  cases h : c.tokens data
  · rfl
  · simp [← h]

@[simp] theorem nodes_tokenEntry (c : ThreadedNodeCache I) (data : GreenTokenData) :
    (c.tokenEntry data).1.nodes = c.nodes := by
  simp only [tokenEntry, tokens_record]
  cases c.tokens data <;> rfl

/-- A node entry answers with the stored node, or with a fresh one it stores. -/
theorem getCachedNode_snd (c : ThreadedNodeCache I) (kind : RawSyntaxKind)
    (children : List GreenElement) (textLen : TextSize) (childHash : UInt32) :
    (c.getCachedNode kind children textLen childHash).2
      = (c.nodes ⟨kind, textLen, childHash⟩).getD
          ⟨c.allocated, ⟨kind, textLen, childHash⟩, children⟩ := by
  simp only [getCachedNode]
  cases c.nodes ⟨kind, textLen, childHash⟩ <;> rfl

/-- After a node entry the map holds the answer under its head, and nothing else changed. -/
theorem nodes_getCachedNode (c : ThreadedNodeCache I) (kind : RawSyntaxKind)
    (children : List GreenElement) (textLen : TextSize) (childHash : UInt32) :
    (c.getCachedNode kind children textLen childHash).1.nodes
      = Function.update c.nodes ⟨kind, textLen, childHash⟩
          (some (c.getCachedNode kind children textLen childHash).2) := by
  simp only [getCachedNode]
  cases h : c.nodes ⟨kind, textLen, childHash⟩
  · rfl
  · simp [← h]

@[simp] theorem tokens_getCachedNode (c : ThreadedNodeCache I) (kind : RawSyntaxKind)
    (children : List GreenElement) (textLen : TextSize) (childHash : UInt32) :
    (c.getCachedNode kind children textLen childHash).1.tokens = c.tokens := by
  simp only [getCachedNode]
  cases c.nodes ⟨kind, textLen, childHash⟩ <;> rfl

@[simp] theorem interner_getCachedNode (c : ThreadedNodeCache I) (kind : RawSyntaxKind)
    (children : List GreenElement) (textLen : TextSize) (childHash : UInt32) :
    (c.getCachedNode kind children textLen childHash).1.interner = c.interner := by
  simp only [getCachedNode]
  cases c.nodes ⟨kind, textLen, childHash⟩ <;> rfl

section nodeOf

variable (cfg : Config) (c : ThreadedNodeCache I) (kind : RawSyntaxKind)
  (children : List GreenElement) (textLen : TextSize)

/-- The head `node` computes for its children. -/
abbrev headOf : GreenNodeHead :=
  ⟨kind, textLen, cfg.childHash (children.map GreenElement.head)⟩

/-- `nodeOf` answers with the entry under the computed head for a small node, and with a fresh
node otherwise. -/
theorem nodeOf_snd : (c.nodeOf cfg kind children textLen).2
    = if children.length ≤ childrenCacheThreshold then
        (c.nodes (headOf cfg kind children textLen)).getD
          ⟨c.allocated, headOf cfg kind children textLen, children⟩
      else ⟨c.allocated, headOf cfg kind children textLen, children⟩ := by
  unfold nodeOf; split <;> simp [getCachedNode_snd, GreenNode.newWithLenAndHash]

theorem nodes_nodeOf : (c.nodeOf cfg kind children textLen).1.nodes
    = if children.length ≤ childrenCacheThreshold then
        Function.update c.nodes (headOf cfg kind children textLen)
          (some ((c.nodes (headOf cfg kind children textLen)).getD
            ⟨c.allocated, headOf cfg kind children textLen, children⟩))
      else c.nodes := by
  unfold nodeOf; split <;> simp [nodes_getCachedNode, getCachedNode_snd]

@[simp] theorem tokens_nodeOf : (c.nodeOf cfg kind children textLen).1.tokens = c.tokens := by
  unfold nodeOf; split <;> simp

@[simp] theorem interner_nodeOf :
    (c.nodeOf cfg kind children textLen).1.interner = c.interner := by
  unfold nodeOf; split <;> simp

end nodeOf

/-- The loop of `node` in closed form: in a build with overflow checks it panics exactly when the
children's lengths add up to `2 ^ 32` or more; otherwise it yields their `TextSize` sum. -/
theorem accumulateTextLen_eq (cfg : Config) (children : List GreenElement) :
    (accumulateTextLen cfg children : Except (Panic S) TextSize)
      = if cfg.debugAssertions ∧ 2 ^ 32 ≤ natTextLen children then .error .addOverflow
        else .ok (sumTextLen children) := by
  suffices ∀ a : TextSize,
      (children.foldlM (fun t child => TextSize.addAssign cfg t child.textLen) a
        : Except (Panic S) TextSize)
      = if cfg.debugAssertions ∧ 2 ^ 32 ≤ a.toNat + natTextLen children then .error .addOverflow
        else .ok (a + sumTextLen children) by
    simpa using this 0
  induction children with
  | nil =>
    intro a
    rw [List.foldlM_nil, if_neg fun h => absurd h.2 (Nat.not_le.2 a.toNat_lt_size)]
    simp
  | cons e es ih =>
    intro a
    rw [List.foldlM_cons]
    by_cases ho : cfg.debugAssertions ∧ 2 ^ 32 ≤ a.toNat + e.textLen.toNat
    · rw [TextSize.addAssign_of_overflow ho, except_error_bind, if_pos ⟨ho.1, by simp; omega⟩]
    · have hcond : (cfg.debugAssertions ∧ 2 ^ 32 ≤ (a + e.textLen).toNat + natTextLen es)
          ↔ (cfg.debugAssertions ∧ 2 ^ 32 ≤ a.toNat + natTextLen (e :: es)) := by
        by_cases hd : cfg.debugAssertions
        · have hlt : a.toNat + e.textLen.toNat < 2 ^ 32 := by simpa [hd] using ho
          rw [TextSize.toNat_add, Nat.mod_eq_of_lt hlt, natTextLen_cons, Nat.add_assoc]
        · simp [hd]
      rw [TextSize.addAssign_of_ok ho, except_ok_bind, ih]
      simp only [hcond, sumTextLen_cons, add_assoc]

/-- `node` in one equation, for an offset inside the vector. -/
theorem node_eq [Syntax S] (cfg : Config) (c : ThreadedNodeCache I) (kind : S)
    (allChildren : List GreenElement) {offset : Nat} (h : offset ≤ allChildren.length) :
    c.node cfg kind allChildren offset
      = (accumulateTextLen cfg (allChildren.drop offset)).map fun textLen =>
          ((c.nodeOf cfg (Syntax.intoRaw kind) (allChildren.drop offset) textLen).1,
            (c.nodeOf cfg (Syntax.intoRaw kind) (allChildren.drop offset) textLen).2,
            allChildren.take offset) := by
  simp only [node, sliceFrom, h, if_true, except_ok_bind]
  cases accumulateTextLen cfg (allChildren.drop offset) <;> rfl

/-- What a `node` that returns did: it served the request for its slice, which did not overflow,
and left the children before the offset. -/
theorem node_ok [Syntax S] [Interner I] {cfg : Config} {c c' : ThreadedNodeCache I} {kind : S}
    {allChildren : List GreenElement} {offset : Nat} {n : GreenNode} {rest : List GreenElement}
    (h : c.node cfg kind allChildren offset = .ok (c', n, rest)) :
    offset ≤ allChildren.length ∧
      ¬ (cfg.debugAssertions ∧ 2 ^ 32 ≤ natTextLen (allChildren.drop offset)) ∧
      c' = c.serve cfg (.node (Syntax.intoRaw kind) (allChildren.drop offset)) ∧
      n = (c.nodeOf cfg (Syntax.intoRaw kind) (allChildren.drop offset)
        (sumTextLen (allChildren.drop offset))).2 ∧ rest = allChildren.take offset := by
  by_cases hoff : offset ≤ allChildren.length
  · rw [node_eq cfg c kind allChildren hoff, accumulateTextLen_eq] at h
    split at h
    · cases h
    · simp only [except_map_ok, Except.ok.injEq, Prod.mk.injEq] at h
      exact ⟨hoff, ‹_›, h.1.symm, h.2.1.symm, h.2.2.symm⟩
  · simp [node, sliceFrom, hoff] at h

end ThreadedNodeCache

end Cstree
