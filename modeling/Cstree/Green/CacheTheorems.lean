import Cstree.Green.Cache
import Mathlib.Data.Fintype.Card
import Mathlib.Data.Fintype.Prod

/-!
# What the shared cache guarantees

The cache is shared by any number of builders, and every request it serves is one atomic step,
so a run of the shared cache is a sequence of requests and every interleaving of the builders is
one such sequence. Over all of them:

* an entry, once in a map, is never replaced, so equal token requests, and node requests over
  structurally equal small children, get one instance (`node_serveAll_same`);
* every entry is stored under its own key, which its content determines (`Inv`).

The cache is not transparent: a small node is looked up by `(kind, text_len, child_hash)` alone
and a hit answers with the stored node, whatever its children (`node_answers_stored_entry`). A
32-bit child hash collides on some pair of child sequences whatever the hasher, so a lookup can
return a node with other children (`node_not_transparent`).
-/

namespace Cstree.ThreadedNodeCache

variable {S I : Type} (cfg : Config)

/-! ## Entries are never replaced -/

section serve

variable [Interner I]

theorem nodes_serve_of_some {c : ThreadedNodeCache I} {h : GreenNodeHead} {n : GreenNode}
    (hn : c.nodes h = some n) (r : CacheRequest) : (c.serve cfg r).nodes h = some n := by
  cases r with
  | intern text => exact hn
  | token data => simpa [serve] using hn
  | node kind children =>
    simp only [serve, nodes_nodeOf]
    split
    · exact update_getD_of_some _ hn
    · exact hn

theorem tokens_serve_of_some {c : ThreadedNodeCache I} {d : GreenTokenData} {t : GreenToken}
    (ht : c.tokens d = some t) (r : CacheRequest) : (c.serve cfg r).tokens d = some t := by
  cases r with
  | intern text => exact ht
  | token data =>
    simp only [serve, tokens_tokenEntry, tokenEntry_snd]
    exact update_getD_of_some _ ht
  | node kind children => simpa [serve] using ht

theorem nodes_serveAll_of_some {c : ThreadedNodeCache I} {h : GreenNodeHead} {n : GreenNode}
    (hn : c.nodes h = some n) (rs : List CacheRequest) : (c.serveAll cfg rs).nodes h = some n := by
  induction rs generalizing c with
  | nil => exact hn
  | cons r rs ih => exact ih (nodes_serve_of_some cfg hn r)

theorem tokens_serveAll_of_some {c : ThreadedNodeCache I} {d : GreenTokenData} {t : GreenToken}
    (ht : c.tokens d = some t) (rs : List CacheRequest) :
    (c.serveAll cfg rs).tokens d = some t := by
  induction rs generalizing c with
  | nil => exact ht
  | cons r rs ih => exact ih (tokens_serve_of_some cfg ht r)

end serve

/-- After a token request its answer is the entry of its key. -/
theorem tokens_tokenEntry_self (c : ThreadedNodeCache I) (data : GreenTokenData) :
    (c.tokenEntry data).1.tokens data = some (c.tokenEntry data).2 := by
  rw [tokens_tokenEntry]; simp

/-- After a small node request its answer is the entry of the computed head. -/
theorem nodes_nodeOf_self (c : ThreadedNodeCache I) (kind : RawSyntaxKind)
    (children : List GreenElement) (textLen : TextSize)
    (hsmall : children.length ≤ childrenCacheThreshold) :
    (c.nodeOf cfg kind children textLen).1.nodes (headOf cfg kind children textLen)
      = some (c.nodeOf cfg kind children textLen).2 := by
  rw [nodes_nodeOf, nodeOf_snd, if_pos hsmall, if_pos hsmall]; simp

/-- A small node request over children with the heads and lengths of a stored entry's request
gets that entry. -/
theorem nodeOf_of_some {c : ThreadedNodeCache I} {kind : RawSyntaxKind}
    {children : List GreenElement} {textLen : TextSize} {n : GreenNode}
    (hsmall : children.length ≤ childrenCacheThreshold)
    (hn : c.nodes (headOf cfg kind children textLen) = some n) :
    (c.nodeOf cfg kind children textLen).2 = n := by
  rw [nodeOf_snd, if_pos hsmall, hn]; rfl

/-- `node` over at most `CHILDREN_CACHE_THRESHOLD` children answers with the entry stored under the
head of its request and leaves the nodes map as it was. -/
theorem node_of_nodes_headOf [Interner I] [Syntax S] {c c' : ThreadedNodeCache I} {kind : S}
    {all : List GreenElement} {off : Nat} {n m : GreenNode} {rest : List GreenElement}
    (h : c.node cfg kind all off = .ok (c', n, rest))
    (hsmall : (all.drop off).length ≤ childrenCacheThreshold)
    (hm : c.nodes (headOf cfg (Syntax.intoRaw kind) (all.drop off) (sumTextLen (all.drop off)))
      = some m) :
    n = m ∧ c'.nodes = c.nodes := by
  obtain ⟨-, -, rfl, rfl, -⟩ := node_ok h
  refine ⟨nodeOf_of_some cfg hsmall hm, ?_⟩
  rw [serve, nodes_nodeOf, if_pos hsmall, hm, Option.getD_some, ← hm, Function.update_eq_self]

/-- Two token requests with equal data, any requests between them, get the same instance. -/
theorem tokenEntry_serveAll_same [Interner I] (c : ThreadedNodeCache I) (data : GreenTokenData)
    (rs : List CacheRequest) :
    (((c.tokenEntry data).1.serveAll cfg rs).tokenEntry data).2 = (c.tokenEntry data).2 := by
  rw [tokenEntry_snd, tokens_serveAll_of_some cfg (tokens_tokenEntry_self c data) rs]; rfl

/-- Structurally equal children have the same heads, lengths and count. -/
theorem head_map_eq_of_strip {cs cs' : List GreenElement}
    (h : cs'.map GreenElement.strip = cs.map GreenElement.strip) :
    cs'.map GreenElement.head = cs.map GreenElement.head ∧ sumTextLen cs' = sumTextLen cs ∧
      natTextLen cs' = natTextLen cs ∧ cs'.length = cs.length := by
  have hh := congrArg (List.map GreenElement.head) h
  have hl := congrArg (List.map GreenElement.textLen) h
  simp only [List.map_map, Function.comp_def, GreenElement.head_strip,
    GreenElement.textLen_strip] at hh hl
  refine ⟨hh, ?_, ?_, by simpa using congrArg List.length h⟩
  · simp only [sumTextLen, hl]
  · simp only [natTextLen, hl]

/-- Two `node` requests for one raw kind over structurally equal children of at most
`CHILDREN_CACHE_THRESHOLD` elements, any requests between them, get the same instance. -/
theorem node_serveAll_same [Interner I] [Syntax S] {c c₁ : ThreadedNodeCache I} {kind kind' : S}
    {all all' : List GreenElement} {off off' : Nat} {n₁ : GreenNode} {rest₁ : List GreenElement}
    (h₁ : c.node cfg kind all off = .ok (c₁, n₁, rest₁))
    (hsmall : (all.drop off).length ≤ childrenCacheThreshold) (rs : List CacheRequest)
    (hkind : Syntax.intoRaw kind' = Syntax.intoRaw kind) (hoff' : off' ≤ all'.length)
    (hstrip : (all'.drop off').map GreenElement.strip = (all.drop off).map GreenElement.strip) :
    ∃ c₂ rest₂,
      (c₁.serveAll cfg rs).node cfg kind' all' off' = .ok (c₂, n₁, rest₂) := by
  obtain ⟨hh, hsum, hnat, hlen⟩ := head_map_eq_of_strip hstrip
  obtain ⟨-, hacc, rfl, rfl, -⟩ := node_ok h₁
  have hentry := nodes_nodeOf_self cfg c (Syntax.intoRaw kind) _ (sumTextLen (all.drop off)) hsmall
  rw [node_eq cfg _ kind' all' hoff', accumulateTextLen_eq, if_neg (by rwa [hnat]), except_map_ok,
    nodeOf_of_some cfg (hlen ▸ hsmall)
      (by simp only [headOf, hkind, hh, hsum]; exact nodes_serveAll_of_some cfg hentry rs)]
  exact ⟨_, _, rfl⟩

/-- The shared cache's maps only grow, a later request for a stored key gets the stored entry,
and equal requests, with any requests of any builders between them, get one instance. -/
theorem cache_entries_stable_and_shared [Interner I] [Syntax S] :
    (∀ (c : ThreadedNodeCache I) h n rs,
      c.nodes h = some n → (c.serveAll cfg rs).nodes h = some n) ∧
    (∀ (c : ThreadedNodeCache I) d t rs,
      c.tokens d = some t → (c.serveAll cfg rs).tokens d = some t) ∧
    (∀ (c : ThreadedNodeCache I) d t, c.tokens d = some t → (c.tokenEntry d).2 = t) ∧
    (∀ (c : ThreadedNodeCache I) kind children textLen n,
      children.length ≤ childrenCacheThreshold →
      c.nodes (headOf cfg kind children textLen) = some n → (c.nodeOf cfg kind children textLen).2 = n) ∧
    (∀ (c c' : ThreadedNodeCache I) (kind : S) all off n rest m,
      c.node cfg kind all off = .ok (c', n, rest) → (all.drop off).length ≤ childrenCacheThreshold →
      c.nodes (headOf cfg (Syntax.intoRaw kind) (all.drop off) (sumTextLen (all.drop off)))
        = some m → n = m ∧ c'.nodes = c.nodes) ∧
    (∀ (c : ThreadedNodeCache I) d rs,
      (((c.tokenEntry d).1.serveAll cfg rs).tokenEntry d).2 = (c.tokenEntry d).2) ∧
    (∀ (c c₁ : ThreadedNodeCache I) (kind kind' : S) all all' off off' n₁ rest₁ rs,
      c.node cfg kind all off = .ok (c₁, n₁, rest₁) →
      (all.drop off).length ≤ childrenCacheThreshold →
      Syntax.intoRaw kind' = Syntax.intoRaw kind → off' ≤ all'.length →
      (all'.drop off').map GreenElement.strip = (all.drop off).map GreenElement.strip →
      ∃ c₂ rest₂, (c₁.serveAll cfg rs).node cfg kind' all' off' = .ok (c₂, n₁, rest₂)) :=
  ⟨fun _ _ _ rs hn => nodes_serveAll_of_some cfg hn rs,
    fun _ _ _ rs ht => tokens_serveAll_of_some cfg ht rs,
    fun c d t ht => by rw [tokenEntry_snd, ht]; rfl,
    fun _ _ _ _ _ hsmall hn => nodeOf_of_some cfg hsmall hn,
    fun _ _ _ _ _ _ _ _ h hsmall hm => node_of_nodes_headOf cfg h hsmall hm,
    fun c d rs => tokenEntry_serveAll_same cfg c d rs,
    fun _ _ _ _ _ _ _ _ _ _ rs h₁ hsmall hkind hoff' hstrip =>
      node_serveAll_same cfg h₁ hsmall rs hkind hoff' hstrip⟩

/-! ## Nodes over more children are never shared -/

/-- Over more than `CHILDREN_CACHE_THRESHOLD` children, `nodeOf` leaves the nodes map as it was and
answers with the next allocation. -/
theorem nodeOf_of_large (c : ThreadedNodeCache I) (kind : RawSyntaxKind)
    (children : List GreenElement) (textLen : TextSize)
    (hlarge : childrenCacheThreshold < children.length) :
    (c.nodeOf cfg kind children textLen).1.nodes = c.nodes ∧
      (c.nodeOf cfg kind children textLen).1.allocated = c.allocated + 1 ∧
      (c.nodeOf cfg kind children textLen).2.id = c.allocated := by
  simp [nodeOf, if_neg (Nat.not_le.2 hlarge), GreenNode.newWithLenAndHash]

section allocated

variable [Interner I]

theorem allocated_le_serve (c : ThreadedNodeCache I) (r : CacheRequest) :
    c.allocated ≤ (c.serve cfg r).allocated := by
  cases r with
  | intern text => exact le_rfl
  | token data => simp only [serve, tokenEntry]; split <;> simp
  | node kind children =>
    simp only [serve, nodeOf, getCachedNode]; split <;> [split <;> simp; simp]

theorem allocated_le_serveAll (c : ThreadedNodeCache I) (rs : List CacheRequest) :
    c.allocated ≤ (c.serveAll cfg rs).allocated := by
  induction rs generalizing c with
  | nil => exact le_rfl
  | cons r rs ih => exact (allocated_le_serve cfg c r).trans (ih _)

/-- `node()` over more than `CHILDREN_CACHE_THRESHOLD` children never looks the cache up: it leaves
the nodes map as it was and answers with a fresh instance. So a later such request, with any
requests of any builders between them, gets a different instance, even over structurally equal
children. -/
theorem node_above_threshold_fresh [Syntax S] {c c₁ c₂ : ThreadedNodeCache I} {kind kind' : S}
    {all all' : List GreenElement} {off off' : Nat} {n₁ n₂ : GreenNode}
    {rest₁ rest₂ : List GreenElement} (h₁ : c.node cfg kind all off = .ok (c₁, n₁, rest₁))
    (hlarge : childrenCacheThreshold < (all.drop off).length) (rs : List CacheRequest)
    (h₂ : (c₁.serveAll cfg rs).node cfg kind' all' off' = .ok (c₂, n₂, rest₂))
    (hlarge' : childrenCacheThreshold < (all'.drop off').length) :
    c₁.nodes = c.nodes ∧ n₁.id < n₂.id := by
  obtain ⟨-, -, rfl, rfl, -⟩ := node_ok h₁
  obtain ⟨-, -, -, rfl, -⟩ := node_ok h₂
  obtain ⟨hnodes, halloc, hid₁⟩ := nodeOf_of_large cfg c _ _ (sumTextLen (all.drop off)) hlarge
  refine ⟨hnodes, ?_⟩
  rw [hid₁, (nodeOf_of_large cfg _ _ _ _ hlarge').2.2]
  calc c.allocated < c.allocated + 1 := Nat.lt_succ_self _
    _ = (c.serve cfg (.node (Syntax.intoRaw kind) (all.drop off))).allocated := halloc.symm
    _ ≤ _ := allocated_le_serveAll cfg _ rs

/-- Two requests over the same four empty tokens get two instances. -/
theorem node_above_threshold_fresh_four :
    ∃ c₁ n₁ rest₁ c₂ n₂ rest₂,
      (withInterner (⟨[]⟩ : ListInterner)).node ⟨false, fun _ => 0⟩ TestSyntaxKind.root
        (List.replicate 4 (.token 0 ⟨⟨0⟩, none, 0⟩)) 0 = .ok (c₁, n₁, rest₁) ∧
      (c₁.serveAll ⟨false, fun _ => 0⟩ []).node ⟨false, fun _ => 0⟩ TestSyntaxKind.root
        (List.replicate 4 (.token 0 ⟨⟨0⟩, none, 0⟩)) 0 = .ok (c₂, n₂, rest₂) ∧
      c₁.nodes = (withInterner (⟨[]⟩ : ListInterner)).nodes ∧ n₁.id < n₂.id :=
  ⟨_, _, _, _, _, _, rfl, rfl,
    @node_above_threshold_fresh TestSyntaxKind ListInterner ⟨false, fun _ => 0⟩ _ _
      (withInterner ⟨[]⟩) _ _ .root .root (List.replicate 4 (.token 0 ⟨⟨0⟩, none, 0⟩))
      (List.replicate 4 (.token 0 ⟨⟨0⟩, none, 0⟩)) 0 0 _ _ _ _ rfl (by decide) [] rfl (by decide)⟩

end allocated

/-! ## Every entry is stored under its own key -/

/-- The invariant of every reachable cache: a node is stored under its own head, which is the head
its children give it, and a token under its own data. -/
structure Inv (c : ThreadedNodeCache I) : Prop where
  nodes_head : ∀ h n, c.nodes h = some n → n.head = h
  nodes_headOf : ∀ h n, c.nodes h = some n →
    h = headOf cfg h.kind n.children (sumTextLen n.children)
  tokens_data : ∀ d t, c.tokens d = some t → t.data = d

theorem inv_withInterner (interner : I) : (withInterner interner).Inv cfg :=
  ⟨fun _ _ h => (nomatch h), fun _ _ h => (nomatch h), fun _ _ h => (nomatch h)⟩

/-- An entry of `Function.update f a (some ((f a).getD x))` is an old entry or `x` at `a`. -/
theorem eq_of_update_getD {α β : Type} [DecidableEq α] {f : α → Option β} {a b : α}
    {x w : β} (h : Function.update f a (some ((f a).getD x)) b = some w) :
    f b = some w ∨ (b = a ∧ f a = none ∧ w = x) := by
  by_cases hb : b = a
  · subst hb
    cases hfb : f b <;> simp_all
  · rw [Function.update_noteq hb] at h; exact .inl h

/-- An entry after a node request is an old entry or the fresh node under the computed head. -/
theorem nodes_serve_node [Interner I] {c : ThreadedNodeCache I} {kind : RawSyntaxKind}
    {children : List GreenElement} {h : GreenNodeHead} {n : GreenNode}
    (hn : (c.serve cfg (.node kind children)).nodes h = some n) :
    c.nodes h = some n ∨
      (h = headOf cfg kind children (sumTextLen children) ∧
        n = ⟨c.allocated, h, children⟩) := by
  simp only [serve, nodes_nodeOf] at hn
  split at hn
  · rcases eq_of_update_getD hn with hn | ⟨rfl, -, rfl⟩
    · exact .inl hn
    · exact .inr ⟨rfl, rfl⟩
  · exact .inl hn

theorem serve_inv [Interner I] {c : ThreadedNodeCache I} (hc : c.Inv cfg) (r : CacheRequest) :
    (c.serve cfg r).Inv cfg := by
  cases r with
  | intern text => exact ⟨hc.nodes_head, hc.nodes_headOf, hc.tokens_data⟩
  | token data =>
    refine ⟨by simpa [serve] using hc.nodes_head, by simpa [serve] using hc.nodes_headOf,
      fun d t ht => ?_⟩
    simp only [serve, tokens_tokenEntry, tokenEntry_snd] at ht
    rcases eq_of_update_getD ht with ht | ⟨rfl, -, rfl⟩
    · exact hc.tokens_data d t ht
    · rfl
  | node kind children =>
    refine ⟨fun h n hn => ?_, fun h n hn => ?_, by simpa [serve] using hc.tokens_data⟩
    · rcases nodes_serve_node cfg hn with hn | ⟨-, rfl⟩
      · exact hc.nodes_head h n hn
      · rfl
    · rcases nodes_serve_node cfg hn with hn | ⟨rfl, rfl⟩
      · exact hc.nodes_headOf h n hn
      · rfl

/-- Every reachable cache satisfies `Inv`. -/
theorem Reachable.inv [Interner I] {c : ThreadedNodeCache I} (hc : c.Reachable cfg) :
    c.Inv cfg := by
  induction hc with
  | withInterner interner => exact inv_withInterner cfg interner
  | serve r _ ih => exact serve_inv cfg ih r

/-- Under `Inv`, `nodeOf` answers, on a hit or a miss, with a node of the computed head. -/
theorem Inv.head_nodeOf {c : ThreadedNodeCache I} (hc : c.Inv cfg) (kind : RawSyntaxKind)
    (children : List GreenElement) (textLen : TextSize) :
    (c.nodeOf cfg kind children textLen).2.head = headOf cfg kind children textLen := by
  rw [nodeOf_snd]
  split
  · cases hn : c.nodes (headOf cfg kind children textLen) with
    | none => rfl
    | some n => exact hc.nodes_head _ n hn
  · rfl

/-! ## The cache is not transparent

`get_cached_node` looks a node up by its head alone and never compares children. The pigeonhole
principle gives, for every 32-bit child hash, two different pairs of empty tokens with equal
hashes; a node over the first pair, once cached, answers a request over the second. -/

/-- Cache transparency as the spec states it: over any reachable cache, `node` answers a request
over at most `CHILDREN_CACHE_THRESHOLD` children with a node structurally equal to the one
`GreenNode::new_with_len_and_hash` builds from them. -/
def NodeTransparent (cfg : Config) : Prop :=
  ∀ (S I : Type) [Syntax S] [Interner I] (c : ThreadedNodeCache I), c.Reachable cfg →
    ∀ (kind : S) (children : List GreenElement), children.length ≤ childrenCacheThreshold →
      ∀ c' n rest, c.node cfg kind children 0 = .ok (c', n, rest) →
        n.toElement.strip = (GreenNode.newWithLenAndHash 0 (Syntax.intoRaw kind) children
          (sumTextLen children) (cfg.childHash (children.map GreenElement.head))).toElement.strip

/-- An empty token of raw kind `k`. -/
def emptyToken (k : Nat) : GreenElement := .token 0 ⟨⟨UInt32.ofNat k⟩, none, 0⟩

@[simp] theorem strip_emptyToken (k : Nat) : (emptyToken k).strip = emptyToken k := rfl

theorem emptyToken_injective {i j : Fin (2 ^ 32)} (h : emptyToken i = emptyToken j) : i = j := by
  simp only [emptyToken, GreenElement.token.injEq, GreenTokenData.mk.injEq, RawSyntaxKind.mk.injEq,
    true_and, and_true] at h
  have := congrArg UInt32.toNat h
  rwa [UInt32.toNat_ofNat_of_lt i.isLt, UInt32.toNat_ofNat_of_lt j.isLt, Fin.val_inj] at this

/-- Whatever the hasher, two different pairs of empty tokens have equal child hashes. -/
theorem exists_childHash_collision (cfg : Config) :
    ∃ x y : Fin (2 ^ 32) × Fin (2 ^ 32), x ≠ y ∧
      cfg.childHash ([emptyToken x.1, emptyToken x.2].map GreenElement.head)
        = cfg.childHash ([emptyToken y.1, emptyToken y.2].map GreenElement.head) := by
  obtain ⟨x, y, hxy, hf⟩ := Fintype.exists_ne_map_eq_of_card_lt
    (fun p : Fin (2 ^ 32) × Fin (2 ^ 32) => (⟨(cfg.childHash
      ([emptyToken p.1, emptyToken p.2].map GreenElement.head)).toNat, UInt32.toNat_lt_size _⟩ :
        Fin (2 ^ 32)))
    (by simp only [Fintype.card_prod, Fintype.card_fin]
        exact Nat.lt_mul_self_iff.2 (Nat.one_lt_two_pow (by decide)))
  exact ⟨x, y, hxy, UInt32.toNat.inj (Fin.mk.inj_iff.1 hf)⟩

/-- No hasher makes the node cache transparent. -/
theorem node_not_transparent : ¬ ∃ cfg, NodeTransparent cfg := by
  rintro ⟨cfg, hT⟩
  obtain ⟨x, y, hxy, hf⟩ := exists_childHash_collision cfg
  let kind := Syntax.intoRaw TestSyntaxKind.root
  let cx := [emptyToken x.1, emptyToken x.2]
  let cy := [emptyToken y.1, emptyToken y.2]
  let c₁ := (withInterner (⟨[]⟩ : ListInterner)).serve cfg (.node kind cx)
  -- the request over `cy` hits the entry stored for `cx`
  have hhit : c₁.nodes (headOf cfg kind cy (sumTextLen cy))
      = some ⟨0, headOf cfg kind cx (sumTextLen cx), cx⟩ := by
    simp only [headOf, show sumTextLen cy = sumTextLen cx from rfl, ← hf]
    exact nodes_nodeOf_self cfg _ kind cx _ (by simp [cx, cy, childrenCacheThreshold])
  have hnode : c₁.node cfg TestSyntaxKind.root cy 0
      = .ok ((c₁.nodeOf cfg kind cy (sumTextLen cy)).1,
          ⟨0, headOf cfg kind cx (sumTextLen cx), cx⟩, []) := by
    rw [node_eq cfg c₁ TestSyntaxKind.root cy (Nat.zero_le _), accumulateTextLen_eq,
      if_neg (by simp [cy, emptyToken, natTextLen, GreenElement.textLen]), except_map_ok,
      List.drop_zero, List.take_zero,
      nodeOf_of_some cfg (by simp [cx, cy, childrenCacheThreshold]) hhit]
  have := hT TestSyntaxKind ListInterner c₁ (.serve _ (.withInterner _)) .root cy
    (by simp [cy, childrenCacheThreshold]) _ _ _ hnode
  simp only [GreenNode.toElement, GreenNode.newWithLenAndHash, GreenElement.strip_node] at this
  have hc := (GreenElement.node.inj this).2.2
  simp only [cx, cy, List.map_cons, List.map_nil, strip_emptyToken, List.cons.injEq, and_true] at hc
  exact hxy (Prod.ext (emptyToken_injective hc.1) (emptyToken_injective hc.2))

/-- `node` over at most `CHILDREN_CACHE_THRESHOLD` children looks the head
`(kind, text_len, child_hash)` of the request up and never compares children: when the cache holds
a node under it, `node` answers with that node, whatever its children, and leaves the nodes map as
it was; otherwise it answers with a fresh node over the requested children and stores it there. -/
theorem node_answers_stored_entry [Interner I] [Syntax S] {c c' : ThreadedNodeCache I} {kind : S}
    {all : List GreenElement} {off : Nat} {n : GreenNode} {rest : List GreenElement}
    (h : c.node cfg kind all off = .ok (c', n, rest))
    (hsmall : (all.drop off).length ≤ childrenCacheThreshold) :
    (∀ m, c.nodes (headOf cfg (Syntax.intoRaw kind) (all.drop off) (sumTextLen (all.drop off)))
        = some m → n = m ∧ c'.nodes = c.nodes) ∧
    (c.nodes (headOf cfg (Syntax.intoRaw kind) (all.drop off) (sumTextLen (all.drop off))) = none →
      n = ⟨c.allocated, headOf cfg (Syntax.intoRaw kind) (all.drop off) (sumTextLen (all.drop off)),
        all.drop off⟩ ∧
      c'.nodes (headOf cfg (Syntax.intoRaw kind) (all.drop off) (sumTextLen (all.drop off)))
        = some n) := by
  refine ⟨fun m hm => node_of_nodes_headOf cfg h hsmall hm, fun hm => ?_⟩
  obtain ⟨-, -, rfl, rfl, -⟩ := node_ok h
  simp only [serve, nodes_nodeOf, nodeOf_snd, if_pos hsmall, hm, Option.getD_none,
    Function.update_same, and_true]

/-- A collision: under a constant child hash, a request over two tokens of kinds `3` and `4` gets
the node stored for tokens of kinds `1` and `2`. -/
theorem node_answers_stored_entry_collision :
    ∃ c' n rest, ((withInterner (⟨[]⟩ : ListInterner)).serve ⟨false, fun _ => 0⟩
        (.node (Syntax.intoRaw TestSyntaxKind.root) [emptyToken 1, emptyToken 2])).node
        ⟨false, fun _ => 0⟩ TestSyntaxKind.root [emptyToken 3, emptyToken 4] 0 = .ok (c', n, rest) ∧
      n.children = [emptyToken 1, emptyToken 2] :=
  ⟨_, _, _, rfl, congrArg GreenNode.children
    ((@node_answers_stored_entry TestSyntaxKind ListInterner ⟨false, fun _ => 0⟩ _ _
      ((withInterner ⟨[]⟩).serve ⟨false, fun _ => 0⟩
        (.node (Syntax.intoRaw TestSyntaxKind.root) [emptyToken 1, emptyToken 2])) _ .root
      [emptyToken 3, emptyToken 4] 0 _ _ rfl (by decide)).1 _ rfl).1⟩

/-! ## Who owns the interner -/

section ownership

variable {J : Type} [Interner J]

/-- A request keeps who owns the interner. -/
@[simp] theorem isOwned_interner_serve (c : ThreadedNodeCache (MaybeOwnedRef J))
    (r : CacheRequest) : (c.serve cfg r).interner.isOwned = c.interner.isOwned := by
  cases r with
  | intern text => cases h : c.interner <;> simp [serve, h, MaybeOwnedRef.isOwned]
  | token data => simp [serve]
  | node kind children => simp [serve]

theorem isOwned_interner_serveAll (c : ThreadedNodeCache (MaybeOwnedRef J))
    (rs : List CacheRequest) : (c.serveAll cfg rs).interner.isOwned = c.interner.isOwned := by
  induction rs generalizing c with
  | nil => rfl
  | cons r rs ih => exact (ih _).trans (isOwned_interner_serve cfg c r)

/-- Over any requests of any builders, `into_interner` (and `interner_mut`, which matches the same
way) answers as the cache was made: with the current interner on a cache made by `from_interner`
or `new`, and with nothing on one made by `with_interner`. -/
theorem intoInterner_serveAll (c : ThreadedNodeCache (MaybeOwnedRef J)) (rs : List CacheRequest) :
    (c.serveAll cfg rs).intoInterner
      = if c.interner.isOwned then some (c.serveAll cfg rs).interner.get else none := by
  rw [intoInterner, MaybeOwnedRef.intoOwned_eq, isOwned_interner_serveAll]

end ownership

/-! ## Collisions a run has met

A collision leaves a trace in the cache: the request is in the ghost log and the node with other
children stays under its head. So whether a run met one can be read off the cache it ends in. -/

/-- Since its first `n` requests, the cache has served a node request under whose head it holds a
node with other children: the child hash collided on that request. -/
def CollidedSince (n : Nat) (c : ThreadedNodeCache I) : Prop :=
  ∃ kind children m, CacheRequest.node kind children ∈ c.served.drop n ∧
    c.nodes (headOf cfg kind children (sumTextLen children)) = some m ∧
    m.children.map GreenElement.strip ≠ children.map GreenElement.strip

theorem CollidedSince.mono {n n' : Nat} {c : ThreadedNodeCache I} (h : c.CollidedSince cfg n')
    (hn : n ≤ n') : c.CollidedSince cfg n :=
  let ⟨kind, children, m, hr, hm, hne⟩ := h
  ⟨kind, children, m, List.drop_subset_drop_left _ hn hr, hm, hne⟩

section collided

variable [Interner I]

/-- The ghost log records each request served. -/
@[simp] theorem served_serve (c : ThreadedNodeCache I) (r : CacheRequest) :
    (c.serve cfg r).served = c.served ++ [r] := by
  cases r with
  | intern text => rfl
  | token data => simp only [serve, tokenEntry]; split <;> rfl
  | node kind children => simp only [serve, nodeOf, getCachedNode]; split <;> [split <;> rfl; rfl]

@[simp] theorem served_serveAll (c : ThreadedNodeCache I) (rs : List CacheRequest) :
    (c.serveAll cfg rs).served = c.served ++ rs := by
  induction rs generalizing c with
  | nil => simp [serveAll]
  | cons r rs ih => exact (ih (c.serve cfg r)).trans (by simp)

theorem CollidedSince.serveAll {n : Nat} {c : ThreadedNodeCache I} (h : c.CollidedSince cfg n)
    (rs : List CacheRequest) : (c.serveAll cfg rs).CollidedSince cfg n := by
  obtain ⟨kind, children, m, hr, hm, hne⟩ := h
  refine ⟨kind, children, m, ?_, nodes_serveAll_of_some cfg hm rs, hne⟩
  rw [served_serveAll, List.drop_append_eq_append_drop]
  exact List.mem_append_left _ hr

/-- On a cache with the invariant, a node request is answered with the node requested up to
allocation ids, or the request met a collision. -/
theorem Inv.nodeOf_requested_or_collided {c : ThreadedNodeCache I} (hc : c.Inv cfg)
    (kind : RawSyntaxKind) (children : List GreenElement) :
    ((c.nodeOf cfg kind children (sumTextLen children)).2.head
        = headOf cfg kind children (sumTextLen children) ∧
      (c.nodeOf cfg kind children (sumTextLen children)).2.children.map GreenElement.strip
        = children.map GreenElement.strip) ∨
    (c.serve cfg (.node kind children)).CollidedSince cfg c.served.length := by
  rw [nodeOf_snd]
  split
  · cases hm : c.nodes (headOf cfg kind children (sumTextLen children)) with
    | none => exact .inl ⟨rfl, rfl⟩
    | some m =>
      by_cases hch : m.children.map GreenElement.strip = children.map GreenElement.strip
      · exact .inl ⟨hc.nodes_head _ m hm, hch⟩
      · exact .inr ⟨kind, children, m, by simp, nodes_serve_of_some cfg hm _, hch⟩
  · exact .inl ⟨rfl, rfl⟩

end collided

end Cstree.ThreadedNodeCache
