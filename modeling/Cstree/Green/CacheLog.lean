import Cstree.Green.CacheTheorems

/-!
# The cache as a function of its log

`entry(key).or_insert_with(..)` stores a value only when the key is absent, so the first request
for a key decides the entry for the rest of the cache's life (`threaded_builder.rs:217-243`). Over
every reachable cache, every interleaving of the builders sharing it included, both maps are
therefore functions of the log of served requests: under a head, the nodes map holds the children
of the first request over at most `CHILDREN_CACHE_THRESHOLD` children with that head, and the
tokens map holds an entry for exactly the token data requested. The abstract side is
`firstNodeRequest`, computed from the log alone.

The same log fixes how many `Arc`s the cache has allocated (`allocationsOf`): one `GreenToken` per
distinct token data, one `GreenNode` per distinct head of the node requests it looks up, and one
per node request over more than `CHILDREN_CACHE_THRESHOLD` children (`threaded_builder.rs:199-206`).
-/

namespace Cstree

variable {I : Type}

/-- The children a request leaves under the head `h` when it is the first for it: those of a node
request over at most `CHILDREN_CACHE_THRESHOLD` children whose computed head is `h`. -/
def CacheRequest.storedUnder (cfg : Config) (h : GreenNodeHead) :
    CacheRequest → Option (List GreenElement)
  | .node kind children =>
    if children.length ≤ childrenCacheThreshold ∧
        ThreadedNodeCache.headOf cfg kind children (sumTextLen children) = h then
      some children
    else none
  | _ => none

/-- The first-writer-wins map of a log of requests: under each head, the children of the first
request stored under it. -/
def firstNodeRequest (cfg : Config) (log : List CacheRequest) (h : GreenNodeHead) :
    Option (List GreenElement) :=
  log.findSome? (CacheRequest.storedUnder cfg h)

@[simp] theorem firstNodeRequest_nil (cfg : Config) (h : GreenNodeHead) :
    firstNodeRequest cfg [] h = none := rfl

theorem firstNodeRequest_append_singleton (cfg : Config) (log : List CacheRequest)
    (r : CacheRequest) (h : GreenNodeHead) :
    firstNodeRequest cfg (log ++ [r]) h
      = (firstNodeRequest cfg log h).or (r.storedUnder cfg h) := by
  simp only [firstNodeRequest, List.findSome?_append, List.findSome?_cons, List.findSome?_nil]
  cases r.storedUnder cfg h <;> rfl

theorem card_toFinset_append_singleton {α : Type} [DecidableEq α] (l : List α) (a : α) :
    (l ++ [a]).toFinset.card = l.toFinset.card + if a ∈ l then 0 else 1 := by
  rw [List.toFinset_append, List.toFinset_cons, List.toFinset_nil, insert_emptyc_eq,
    Finset.union_comm, ← Finset.insert_eq]
  split_ifs with h
  · exact Finset.card_insert_of_mem (List.mem_toFinset.2 h)
  · exact Finset.card_insert_of_not_mem (mt List.mem_toFinset.1 h)

namespace CacheRequest

/-- The data of a token request. -/
def tokenData? : CacheRequest → Option GreenTokenData
  | .token data => some data
  | _ => none

/-- The head a node request over at most `CHILDREN_CACHE_THRESHOLD` children is looked up under. -/
def cachedHead? (cfg : Config) : CacheRequest → Option GreenNodeHead
  | .node kind children =>
    if children.length ≤ childrenCacheThreshold then
      some (ThreadedNodeCache.headOf cfg kind children (sumTextLen children))
    else none
  | _ => none

/-- Whether a request is for a node over more than `CHILDREN_CACHE_THRESHOLD` children. -/
def isLargeNode : CacheRequest → Bool
  | .node _ children => childrenCacheThreshold < children.length
  | _ => false

theorem mem_filterMap_tokenData {log : List CacheRequest} {d : GreenTokenData} :
    d ∈ log.filterMap tokenData? ↔ token d ∈ log := by
  refine ⟨fun h => ?_, fun h => List.mem_filterMap.2 ⟨_, h, rfl⟩⟩
  obtain ⟨r, hr, hd⟩ := List.mem_filterMap.1 h
  cases r <;> cases hd
  exact hr

theorem cachedHead?_eq_some {cfg : Config} {r : CacheRequest} {h : GreenNodeHead} :
    r.cachedHead? cfg = some h ↔ (r.storedUnder cfg h).isSome := by
  cases r with
  | node kind children =>
    by_cases hsmall : children.length ≤ childrenCacheThreshold <;>
      simp [cachedHead?, storedUnder, hsmall]
  | intern | token => simp [cachedHead?, storedUnder]

theorem mem_filterMap_cachedHead {cfg : Config} {log : List CacheRequest} {h : GreenNodeHead} :
    h ∈ log.filterMap (cachedHead? cfg) ↔ (firstNodeRequest cfg log h).isSome := by
  simp only [List.mem_filterMap, cachedHead?_eq_some, firstNodeRequest, List.findSome?_isSome_iff]

end CacheRequest

/-- The `Arc`s a log of requests calls for: a token per distinct token data, a node per distinct
head the cache looks node requests up under, and a node per node request it does not look up. -/
def allocationsOf (cfg : Config) (log : List CacheRequest) : Nat :=
  (log.filterMap CacheRequest.tokenData?).toFinset.card
    + (log.filterMap (CacheRequest.cachedHead? cfg)).toFinset.card
    + log.countP CacheRequest.isLargeNode

@[simp] theorem allocationsOf_nil (cfg : Config) : allocationsOf cfg [] = 0 := rfl

example : allocationsOf ⟨false, fun _ => 0⟩ [.token ⟨⟨1⟩, none, 1⟩, .intern "1",
    .token ⟨⟨1⟩, none, 1⟩, .node ⟨0⟩ [], .node ⟨0⟩ [],
    .node ⟨0⟩ (List.replicate 4 (.token 0 ⟨⟨0⟩, none, 0⟩))] = 3 := by decide

theorem allocationsOf_append_intern (cfg : Config) (log : List CacheRequest) (text : String) :
    allocationsOf cfg (log ++ [.intern text]) = allocationsOf cfg log := by
  simp [allocationsOf, CacheRequest.tokenData?, CacheRequest.cachedHead?,
    CacheRequest.isLargeNode]

theorem allocationsOf_append_token (cfg : Config) (log : List CacheRequest) (d : GreenTokenData) :
    allocationsOf cfg (log ++ [.token d])
      = allocationsOf cfg log + if d ∈ log.filterMap CacheRequest.tokenData? then 0 else 1 := by
  simp only [allocationsOf, List.filterMap_append, List.filterMap_cons, List.filterMap_nil,
    CacheRequest.tokenData?, CacheRequest.cachedHead?, List.append_nil, List.countP_append,
    card_toFinset_append_singleton]
  simp [CacheRequest.isLargeNode]
  omega

theorem allocationsOf_append_node (cfg : Config) (log : List CacheRequest) (kind : RawSyntaxKind)
    (children : List GreenElement) :
    allocationsOf cfg (log ++ [.node kind children]) = allocationsOf cfg log +
      if children.length ≤ childrenCacheThreshold then
        if (firstNodeRequest cfg log
          (ThreadedNodeCache.headOf cfg kind children (sumTextLen children))).isSome then 0 else 1
      else 1 := by
  by_cases hsmall : children.length ≤ childrenCacheThreshold
  · simp only [allocationsOf, List.filterMap_append, List.filterMap_cons, List.filterMap_nil,
      CacheRequest.tokenData?, CacheRequest.cachedHead?, if_pos hsmall, List.append_nil,
      card_toFinset_append_singleton, CacheRequest.mem_filterMap_cachedHead, List.countP_append]
    simp [CacheRequest.isLargeNode, hsmall]
    omega
  · simp [allocationsOf, CacheRequest.tokenData?, CacheRequest.cachedHead?, hsmall,
      CacheRequest.isLargeNode, List.countP_append, List.countP_cons, Nat.not_le.1 hsmall]
    omega

namespace ThreadedNodeCache

variable (cfg : Config)

/-- The concrete maps agree with what the log determines. -/
structure LogAgrees (c : ThreadedNodeCache I) : Prop where
  nodes : ∀ h, (c.nodes h).map GreenNode.children = firstNodeRequest cfg c.served h
  tokens : ∀ d, (c.tokens d).isSome ↔ CacheRequest.token d ∈ c.served

theorem logAgrees_withInterner (interner : I) : (withInterner interner).LogAgrees cfg :=
  ⟨fun _ => rfl, fun _ => by simp [withInterner]⟩

variable [Interner I]

/-- A node request changes the entry under `h` only when it is the first stored under `h`. -/
theorem nodes_serve_node_map (c : ThreadedNodeCache I) (kind : RawSyntaxKind)
    (children : List GreenElement) (h : GreenNodeHead) :
    ((c.serve cfg (.node kind children)).nodes h).map GreenNode.children
      = ((c.nodes h).map GreenNode.children).or
          ((CacheRequest.node kind children).storedUnder cfg h) := by
  simp only [serve, nodes_nodeOf, CacheRequest.storedUnder]
  by_cases hsmall : children.length ≤ childrenCacheThreshold
  · by_cases hh : headOf cfg kind children (sumTextLen children) = h
    · subst hh
      rw [if_pos hsmall, if_pos ⟨hsmall, rfl⟩, Function.update_same]
      cases c.nodes (headOf cfg kind children (sumTextLen children)) <;> rfl
    · rw [if_pos hsmall, if_neg fun h' => hh h'.2, Function.update_noteq (Ne.symm hh),
        Option.or_none]
  · rw [if_neg hsmall, if_neg fun h' => hsmall h'.1, Option.or_none]

theorem LogAgrees.serve {c : ThreadedNodeCache I} (hc : c.LogAgrees cfg) (r : CacheRequest) :
    (c.serve cfg r).LogAgrees cfg := by
  refine ⟨fun h => ?_, fun d => ?_⟩
  · rw [served_serve, firstNodeRequest_append_singleton, ← hc.nodes h]
    cases r with
    | intern text => exact Option.or_none.symm
    | token data =>
      rw [show (c.serve cfg (.token data)).nodes = c.nodes from nodes_tokenEntry c data]
      exact Option.or_none.symm
    | node kind children => exact nodes_serve_node_map cfg c kind children h
  · rw [served_serve, List.mem_append, List.mem_singleton, ← hc.tokens d]
    cases r with
    | intern text => simp [ThreadedNodeCache.serve]
    | token data =>
      simp only [ThreadedNodeCache.serve, tokens_tokenEntry, CacheRequest.token.injEq]
      by_cases hd : d = data
      · subst hd; simp
      · simp [Function.update_noteq hd, hd]
    | node kind children => simp [ThreadedNodeCache.serve]

theorem Reachable.logAgrees {c : ThreadedNodeCache I} (hc : c.Reachable cfg) :
    c.LogAgrees cfg := by
  induction hc with
  | withInterner interner => exact logAgrees_withInterner cfg interner
  | serve r _ ih => exact ih.serve cfg r

/-- The shared cache is a first-writer-wins map over its log. In every reachable cache, whatever
interleaving of builders produced it, the node stored under a head has the children of the first
request over at most `CHILDREN_CACHE_THRESHOLD` children with that head, and no node is stored
under a head no such request had; a token is stored for exactly the token data requested. -/
theorem cache_maps_of_log {c : ThreadedNodeCache I} (hc : c.Reachable cfg) :
    (∀ h, (c.nodes h).map GreenNode.children = firstNodeRequest cfg c.served h) ∧
    ∀ d, (c.tokens d).isSome ↔ CacheRequest.token d ∈ c.served :=
  ⟨(hc.logAgrees cfg).nodes, (hc.logAgrees cfg).tokens⟩

/-- Under a constant hash, requests over `[emptyToken 1]` and then `[emptyToken 2]` share a head;
the first one's children stay. -/
theorem cache_maps_of_log_collision :
    let cfg : Config := ⟨false, fun _ => 0⟩
    let c := ((withInterner (⟨[]⟩ : ListInterner)).serve cfg (.node ⟨0⟩ [emptyToken 1])).serve cfg
      (.node ⟨0⟩ [emptyToken 2])
    (∀ h, (c.nodes h).map GreenNode.children = firstNodeRequest cfg c.served h) ∧
    ∀ d, (c.tokens d).isSome ↔ CacheRequest.token d ∈ c.served :=
  cache_maps_of_log _ (.serve _ (.serve _ (.withInterner _)))

/-! ## Allocations -/

theorem allocated_serve_token (c : ThreadedNodeCache I) (d : GreenTokenData) :
    (c.serve cfg (.token d)).allocated = c.allocated + if (c.tokens d).isSome then 0 else 1 := by
  simp only [ThreadedNodeCache.serve, tokenEntry, tokens_record, allocated_record]
  cases c.tokens d <;> rfl

theorem allocated_serve_node (c : ThreadedNodeCache I) (kind : RawSyntaxKind)
    (children : List GreenElement) :
    (c.serve cfg (.node kind children)).allocated = c.allocated +
      if children.length ≤ childrenCacheThreshold then
        if (c.nodes (headOf cfg kind children (sumTextLen children))).isSome then 0 else 1
      else 1 := by
  simp only [ThreadedNodeCache.serve, nodeOf, getCachedNode, nodes_record, allocated_record]
  split_ifs <;> first | rfl | (split <;> simp_all)

/-- One request keeps the allocation count equal to what the log calls for. -/
theorem LogAgrees.allocated_serve {c : ThreadedNodeCache I} (hc : c.LogAgrees cfg)
    (ha : c.allocated = allocationsOf cfg c.served) (r : CacheRequest) :
    (c.serve cfg r).allocated = allocationsOf cfg (c.serve cfg r).served := by
  rw [served_serve]
  cases r with
  | intern text => rw [allocationsOf_append_intern, ← ha]; rfl
  | token d =>
    have hd : d ∈ c.served.filterMap CacheRequest.tokenData? ↔ (c.tokens d).isSome :=
      CacheRequest.mem_filterMap_tokenData.trans (hc.tokens d).symm
    simp only [allocated_serve_token, allocationsOf_append_token, ha, hd]
  | node kind children =>
    rw [allocated_serve_node, allocationsOf_append_node, ha, ← hc.nodes, Option.isSome_map']

/-- How much the shared cache allocates is fixed by what it was asked, whatever interleaving of
builders asked it: in every reachable cache, the `Arc`s allocated are one `GreenToken` per distinct
token data requested, one `GreenNode` per distinct head of the node requests over at most
`CHILDREN_CACHE_THRESHOLD` children, and one `GreenNode` per node request over more. -/
theorem allocated_eq_allocationsOf {c : ThreadedNodeCache I} (hc : c.Reachable cfg) :
    c.allocated = allocationsOf cfg c.served := by
  induction hc with
  | withInterner interner => rfl
  | serve r hc ih => exact (hc.logAgrees cfg).allocated_serve cfg ih r

/-- Two requests for one token and a node over it allocate two `Arc`s. -/
theorem allocated_eq_allocationsOf_shared_token :
    let cfg : Config := ⟨false, fun _ => 0⟩
    let d : GreenTokenData := ⟨⟨1⟩, none, 1⟩
    let c := (((withInterner (⟨[]⟩ : ListInterner)).serve cfg (.token d)).serve cfg
      (.token d)).serve cfg (.node ⟨0⟩ [.token 0 d])
    c.allocated = allocationsOf cfg c.served :=
  allocated_eq_allocationsOf _ (.serve _ (.serve _ (.serve _ (.withInterner _))))

end ThreadedNodeCache

end Cstree
