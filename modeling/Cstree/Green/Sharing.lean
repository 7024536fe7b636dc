import Cstree.Green.World

/-!
# Sharing between builders

The node cache is there so that trees share structure: green nodes are immutable, "so it's ok to
deduplicate them" (`threaded_builder.rs:194-200`), and reusing one cache between builders "allows
to structurally share underlying trees" (`threaded_builder.rs:304-305`). In every world of builders
sharing a cache, every token and every node of at most `CHILDREN_CACHE_THRESHOLD` children that a
builder holds, at any depth, is the cache's entry for its key (`World.Shared`). So any two of them
with equal keys are one instance, whichever builders hold them.
-/

namespace Cstree

variable {S I : Type}

/-! ## Elements the cache deduplicates -/

namespace GreenElement

/-- Whether the cache is asked for the element by its key: a token, or a node of at most
`CHILDREN_CACHE_THRESHOLD` children. -/
def cacheable : GreenElement → Bool
  | .node _ _ cs => decide (cs.length ≤ childrenCacheThreshold)
  | .token .. => true

mutual
/-- The elements of the subtree, the element itself first. -/
def subtree : GreenElement → List GreenElement
  | .node id h cs => .node id h cs :: subtreeAll cs
  | .token id d => [.token id d]

/-- The elements of the subtrees of a list. -/
def subtreeAll : List GreenElement → List GreenElement
  | [] => []
  | e :: es => e.subtree ++ subtreeAll es
end

theorem mem_subtreeAll {x : GreenElement} {es : List GreenElement} :
    x ∈ subtreeAll es ↔ ∃ e ∈ es, x ∈ e.subtree := by
  induction es with
  | nil => simp [subtreeAll]
  | cons e es ih => simp [subtreeAll, ih]

end GreenElement

@[simp] theorem GreenNode.toElement_eq_node {n : GreenNode} {id : Nat} {h : GreenNodeHead}
    {cs : List GreenElement} : n.toElement = .node id h cs ↔ n = ⟨id, h, cs⟩ := by
  cases n; simp [GreenNode.toElement]

@[simp] theorem GreenToken.toElement_eq_token {t : GreenToken} {id : Nat} {d : GreenTokenData} :
    t.toElement = .token id d ↔ t = ⟨id, d⟩ := by
  cases t; simp [GreenToken.toElement]

/-- The element the cache holds under a key. -/
def ThreadedNodeCache.entry (c : ThreadedNodeCache I) :
    NodeOrToken GreenNodeHead GreenTokenData → Option GreenElement
  | .node h => (c.nodes h).map GreenNode.toElement
  | .token d => (c.tokens d).map GreenToken.toElement

/-- Every element of the subtree that the cache deduplicates is the cache's entry for its key. -/
def GreenElement.Cached (c : ThreadedNodeCache I) (e : GreenElement) : Prop :=
  ∀ x ∈ e.subtree, x.cacheable = true → c.entry x.head = some x

namespace GreenElement

variable {c : ThreadedNodeCache I}

theorem cached_node {id : Nat} {h : GreenNodeHead} {cs : List GreenElement} :
    (node id h cs).Cached c ↔
      (cs.length ≤ childrenCacheThreshold → c.nodes h = some ⟨id, h, cs⟩) ∧
        ∀ e ∈ cs, e.Cached c := by
  simp only [Cached, subtree, List.mem_cons, forall_eq_or_imp, mem_subtreeAll, cacheable, head,
    ThreadedNodeCache.entry, decide_eq_true_eq, Option.map_eq_some', GreenNode.toElement_eq_node,
    exists_eq_right]
  exact and_congr_right fun _ =>
    ⟨fun h e he x hx => h x ⟨e, he, hx⟩, fun h x ⟨e, he, hx⟩ => h e he x hx⟩

theorem cached_token {id : Nat} {d : GreenTokenData} :
    (token id d).Cached c ↔ c.tokens d = some ⟨id, d⟩ := by
  simp [Cached, subtree, cacheable, head, ThreadedNodeCache.entry]

end GreenElement

/-! ## Requests keep what is cached -/

namespace ThreadedNodeCache

variable [Interner I] (cfg : Config) {c : ThreadedNodeCache I}

theorem entry_serveAll_of_some {k : NodeOrToken GreenNodeHead GreenTokenData} {x : GreenElement}
    (h : c.entry k = some x) (rs : List CacheRequest) : (c.serveAll cfg rs).entry k = some x := by
  cases k with
  | node hd =>
    obtain ⟨n, hn, rfl⟩ := Option.map_eq_some'.1 h
    simp [entry, nodes_serveAll_of_some cfg hn rs]
  | token d =>
    obtain ⟨t, ht, rfl⟩ := Option.map_eq_some'.1 h
    simp [entry, tokens_serveAll_of_some cfg ht rs]

end ThreadedNodeCache

theorem GreenElement.Cached.serveAll [Interner I] (cfg : Config) {c : ThreadedNodeCache I}
    {e : GreenElement} (h : e.Cached c) (rs : List CacheRequest) : e.Cached (c.serveAll cfg rs) :=
  fun x hx hxc => ThreadedNodeCache.entry_serveAll_of_some cfg (h x hx hxc) rs

namespace ThreadedNodeCache

variable [Interner I] (cfg : Config) {c : ThreadedNodeCache I}

/-- Every node the cache stores is cached with its whole subtree. -/
def NodesCached (c : ThreadedNodeCache I) : Prop :=
  ∀ h n, c.nodes h = some n → n.toElement.Cached c

/-- Requests that leave the nodes map as it was keep the stored nodes cached. -/
theorem NodesCached.serveAll_of_nodes_eq (hs : c.NodesCached) (rs : List CacheRequest)
    (hn : (c.serveAll cfg rs).nodes = c.nodes) : (c.serveAll cfg rs).NodesCached :=
  fun h n hm => (hs h n (hn ▸ hm)).serveAll cfg rs

/-- A node request over cached children keeps the stored nodes cached and is answered with a node
cached with its subtree: on a hit the stored node, on a miss the fresh node it stores, and over
more than `CHILDREN_CACHE_THRESHOLD` children a fresh node that nothing looks up. -/
theorem nodeOf_cached (hs : c.NodesCached) (kind : RawSyntaxKind) {children : List GreenElement}
    (hcs : ∀ e ∈ children, e.Cached c) :
    (c.serve cfg (.node kind children)).NodesCached ∧
      (c.nodeOf cfg kind children (sumTextLen children)).2.toElement.Cached
        (c.serve cfg (.node kind children)) := by
  let fresh : GreenNode := ⟨c.allocated, headOf cfg kind children (sumTextLen children), children⟩
  have hfresh : (children.length ≤ childrenCacheThreshold →
      (c.serve cfg (.node kind children)).nodes fresh.head = some fresh) →
      fresh.toElement.Cached (c.serve cfg (.node kind children)) := fun h =>
    GreenElement.cached_node.2 ⟨h, fun e he => (hcs e he).serveAll cfg [.node kind children]⟩
  refine ⟨fun h n hn => ?_, ?_⟩
  · rcases nodes_serve_node cfg hn with hn | ⟨rfl, rfl⟩
    · exact (hs h n hn).serveAll cfg [.node kind children]
    · exact hfresh fun _ => hn
  · have hself := nodes_nodeOf_self cfg c kind children (sumTextLen children)
    rw [nodeOf_snd] at hself ⊢
    split
    · rename_i hsmall
      cases hm : c.nodes (headOf cfg kind children (sumTextLen children)) with
      | none => exact hfresh fun _ => by simpa [hsmall, hm] using hself hsmall
      | some n => exact (hs _ n hm).serveAll cfg [.node kind children]
    · exact hfresh fun h => absurd h ‹_›

omit [Interner I] in
/-- On a cache with the invariant, the token a token request answers is the entry of its data. -/
theorem Inv.tokens_tokenEntry (hc : c.Inv cfg) (data : GreenTokenData) :
    (c.tokenEntry data).1.tokens (c.tokenEntry data).2.data = some (c.tokenEntry data).2 := by
  rw [hc.data_tokenEntry cfg data]
  exact tokens_tokenEntry_self c data

theorem Inv.tokens_tokenFor [Syntax S] (hc : c.Inv cfg) {kind : S} {text : String}
    {c' : ThreadedNodeCache I} {t : GreenToken} (h : c.tokenFor cfg kind text = .ok (c', t)) :
    c'.tokens t.data = some t := by
  unfold tokenFor at h
  split at h
  · split at h
    · cases h
    · obtain ⟨rfl, rfl⟩ := Prod.ext_iff.1 (Except.ok.inj h)
      exact hc.tokens_tokenEntry cfg _
  · obtain ⟨rfl, rfl⟩ := Prod.ext_iff.1 (Except.ok.inj h)
    exact (serve_inv cfg hc (.intern text)).tokens_tokenEntry cfg _

omit [Interner I] in
theorem Inv.tokens_staticTokenFor [Syntax S] (hc : c.Inv cfg) {kind : S}
    {c' : ThreadedNodeCache I} {t : GreenToken} (h : c.staticTokenFor kind = .ok (c', t)) :
    c'.tokens t.data = some t := by
  unfold staticTokenFor at h
  split at h
  · cases h
  · obtain ⟨rfl, rfl⟩ := Prod.ext_iff.1 (Except.ok.inj h)
    exact hc.tokens_tokenEntry cfg _

end ThreadedNodeCache

/-! ## Builders hold cached elements -/

/-- Every pending element of the builder is cached with its whole subtree. -/
def ThreadedGreenNodeBuilder.ChildrenCached (c : ThreadedNodeCache I)
    (b : ThreadedGreenNodeBuilder S) : Prop :=
  ∀ e ∈ b.children, e.Cached c

namespace ThreadedGreenNodeBuilder

variable [Syntax S] [Interner I] (cfg : Config)

omit [Syntax S] in
theorem ChildrenCached.serveAll {c : ThreadedNodeCache I} {b : ThreadedGreenNodeBuilder S}
    (hb : b.ChildrenCached c) (rs : List CacheRequest) : b.ChildrenCached (c.serveAll cfg rs) :=
  fun e he => (hb e he).serveAll cfg rs

/-- One operation over a cache with the invariant keeps the stored nodes and the builder's pending
elements cached. -/
theorem step_cached {c c' : ThreadedNodeCache I} {b b' : ThreadedGreenNodeBuilder S}
    {op : BuilderOp S} (hc : c.Inv cfg) (hs : c.NodesCached) (hb : b.ChildrenCached c)
    (h : b.step cfg c op = .ok (c', b')) : c'.NodesCached ∧ b'.ChildrenCached c' := by
  rcases step_cases cfg h with ⟨t, rs, rfl, hn, ht, hch⟩ | ⟨kind, firstChild, rfl, hch⟩ | ⟨rfl, hpre⟩
  · have htok : (c.serveAll cfg rs).tokens t.data = some t := by
      rcases ht with ⟨kind, text, ht⟩ | ⟨kind, ht⟩
      · exact hc.tokens_tokenFor cfg ht
      · exact hc.tokens_staticTokenFor cfg ht
    refine ⟨hs.serveAll_of_nodes_eq cfg rs hn, fun e he => ?_⟩
    rcases List.mem_append.1 (hch ▸ he) with he | he
    · exact (hb e he).serveAll cfg rs
    · rw [List.mem_singleton.1 he]; exact GreenElement.cached_token.2 htok
  · obtain ⟨hs', hn⟩ := ThreadedNodeCache.nodeOf_cached cfg hs kind
      (fun e he => hb e (List.mem_of_mem_drop he))
    refine ⟨hs', fun e he => ?_⟩
    rcases List.mem_append.1 (hch ▸ he) with he | he
    · exact (hb e (List.mem_of_mem_take he)).serveAll cfg
        [.node kind (b.children.drop firstChild)]
    · rw [List.mem_singleton.1 he]; exact hn
  · exact ⟨hs, fun e he => hb e (hpre.subset he)⟩

end ThreadedGreenNodeBuilder

/-! ## Every world shares -/

namespace World

variable [Syntax S] [Interner I] (cfg : Config)

/-- The sharing invariant of a world: the stored nodes and every builder's pending elements are
cached with their whole subtrees. -/
structure Shared (w : World S I) : Prop where
  nodes_cached : w.cache.NodesCached
  builders_cached : ∀ b ∈ w.builders, b.ChildrenCached w.cache

theorem Step.shared {w w' : World S I} (hw : w.Reachable cfg) (hs : w.Shared)
    (h : Step cfg w w') : w'.Shared := by
  cases h with
  | create owned =>
    refine ⟨hs.nodes_cached, fun b hb => ?_⟩
    rcases List.mem_append.1 hb with hb | hb
    · exact hs.builders_cached b hb
    · rw [List.mem_singleton.1 hb]; intro e he; cases he
  | op i op hb h =>
    obtain ⟨rs, hrs⟩ := ThreadedGreenNodeBuilder.step_serves cfg h
    obtain ⟨hc', hb'⟩ := ThreadedGreenNodeBuilder.step_cached cfg
      ((hw.sound cfg).cache_reachable.inv cfg) hs.nodes_cached
      (hs.builders_cached _ (List.getElem?_mem hb)) h
    refine ⟨hc', fun b₀ hb₀ => ?_⟩
    rcases List.mem_or_eq_of_mem_set hb₀ with hb₀ | rfl
    · exact hrs ▸ (hs.builders_cached b₀ hb₀).serveAll cfg rs
    · exact hb'
  | intern text =>
    exact ⟨hs.nodes_cached.serveAll_of_nodes_eq cfg [.intern text] rfl,
      fun b hb => (hs.builders_cached b hb).serveAll cfg [.intern text]⟩
  | token data =>
    exact ⟨hs.nodes_cached.serveAll_of_nodes_eq cfg [.token data]
        (ThreadedNodeCache.nodes_serve_token cfg w.cache data),
      fun b hb => (hs.builders_cached b hb).serveAll cfg [.token data]⟩

theorem Reachable.shared {w : World S I} (hw : w.Reachable cfg) : w.Shared := by
  induction hw with
  | init interner => exact ⟨fun _ _ h => (nomatch h), fun _ h => (nomatch h)⟩
  | step hw h ih => exact Step.shared cfg hw ih h

/-- The cache shares structure across every builder using it: in every reachable world, any two
tokens with equal data, and any two nodes of at most `CHILDREN_CACHE_THRESHOLD` children with
equal `(kind, text_len, child_hash)`, found at any depth of any builders' pending elements (among
them the roots `finish` returns), are one and the same instance. -/
theorem shared_elements_identical {w : World S I} (hw : w.Reachable cfg) :
    ∀ b₁ ∈ w.builders, ∀ b₂ ∈ w.builders, ∀ e₁ ∈ b₁.children, ∀ e₂ ∈ b₂.children,
      ∀ x ∈ e₁.subtree, ∀ y ∈ e₂.subtree, x.cacheable = true → y.cacheable = true →
        x.head = y.head → x = y := by
  intro b₁ hb₁ b₂ hb₂ e₁ he₁ e₂ he₂ x hx y hy hxc hyc hxy
  have hs := hw.shared cfg
  have h₁ := hs.builders_cached b₁ hb₁ e₁ he₁ x hx hxc
  rw [hxy, hs.builders_cached b₂ hb₂ e₂ he₂ y hy hyc] at h₁
  exact (Option.some.inj h₁).symm

/-- Two builders over one cache each push a `+`: both hold the one token instance. -/
theorem shared_elements_identical_two_plus :
    ∃ w : World TestSyntaxKind ListInterner, w.Reachable ⟨false, fun _ => 0⟩ ∧
      w.builders.map (·.children) =
        [[.token 0 ⟨Syntax.intoRaw TestSyntaxKind.plus, none, 1⟩],
         [.token 0 ⟨Syntax.intoRaw TestSyntaxKind.plus, none, 1⟩]] ∧
      ∀ b₁ ∈ w.builders, ∀ b₂ ∈ w.builders, ∀ e₁ ∈ b₁.children, ∀ e₂ ∈ b₂.children,
        ∀ x ∈ e₁.subtree, ∀ y ∈ e₂.subtree, x.cacheable = true → y.cacheable = true →
          x.head = y.head → x = y := by
  let w₂ : World TestSyntaxKind ListInterner :=
    ⟨.withInterner ⟨[]⟩, [.create false, .create false]⟩
  have h₂ : w₂.Reachable ⟨false, fun _ => 0⟩ :=
    .step (.step (.init _) (.create _ false)) (.create _ false)
  have hw := Reachable.step (.step h₂ (.op w₂ 0 (.staticToken .plus) rfl rfl))
    (.op _ 1 (.staticToken .plus) rfl rfl)
  exact ⟨_, hw, rfl, shared_elements_identical _ hw⟩

end World

end Cstree
