import Cstree.Green.Threads
import Cstree.Green.Sharing

/-!
# Equal trees, one instance

The cache exists so that equal subtrees are one instance: "For example, all `#[inline]` in this
file share the same green node!" (`threaded_builder.rs:194-200`). This needs two things of the
parties. The cache looks a small node up by the head its children give it, so equal small subtrees
must reach the cache with equal children, which holds by induction once equal texts get equal keys.
That is the interner's contract (`LawfulInterner`): a text, once interned, keeps its key.

Under it, the element a builder pushes for a tree all of whose nodes have at most
`CHILDREN_CACHE_THRESHOLD` children is the cache's entry for that tree (`GreenElement.Keyed`), and
that entry is unique. So threads that build equal such trees over one cache, in any interleaving,
finish with one and the same root, whether or not the child hash collides.
-/

namespace Cstree

variable {S I : Type}

/-! ## The interner's contract -/

/-- `get_or_intern` gives a text one key for the interner's lifetime: interning a text a second
time changes nothing, and a text keeps its key while other texts are interned. -/
class LawfulInterner (I : Type) [Interner I] : Prop where
  getOrIntern_getOrIntern : ∀ (i : I) (text : String),
    Interner.getOrIntern (Interner.getOrIntern i text).1 text = Interner.getOrIntern i text
  getOrIntern_of_fixed : ∀ (i : I) (text text' : String) (k : TokenKey),
    Interner.getOrIntern i text = (i, k) →
      Interner.getOrIntern (Interner.getOrIntern i text').1 text
        = ((Interner.getOrIntern i text').1, k)

theorem ListInterner.getOrIntern_eq (i : ListInterner) (text : String) :
    Interner.getOrIntern i text = match i.texts.indexOf? text with
      | some k => (i, ⟨UInt32.ofNat k⟩)
      | none => (⟨i.texts ++ [text]⟩, ⟨UInt32.ofNat i.texts.length⟩) := rfl

theorem ListInterner.indexOf?_append_singleton (l : List String) (a b : String) :
    (l ++ [b]).indexOf? a = (l.indexOf? a).or (if b = a then some l.length else none) := by
  simp only [List.indexOf?, List.findIdx?_append, List.findIdx?_cons, List.findIdx?_nil,
    beq_iff_eq]
  split <;> simp

theorem ListInterner.getOrIntern_getOrIntern (i : ListInterner) (text : String) :
    Interner.getOrIntern (Interner.getOrIntern i text).1 text = Interner.getOrIntern i text := by
  rw [ListInterner.getOrIntern_eq i text]
  cases h : i.texts.indexOf? text with
  | some k => simp only [ListInterner.getOrIntern_eq, h]
  | none => simp [ListInterner.getOrIntern_eq, ListInterner.indexOf?_append_singleton, h]

/-- Appending a text never moves the first occurrence of another. -/
theorem ListInterner.getOrIntern_of_fixed (i : ListInterner) (text text' : String) (k : TokenKey)
    (hk : Interner.getOrIntern i text = (i, k)) :
    Interner.getOrIntern (Interner.getOrIntern i text').1 text
      = ((Interner.getOrIntern i text').1, k) := by
  rw [ListInterner.getOrIntern_eq i text] at hk
  cases h : i.texts.indexOf? text with
  | none =>
    rw [h] at hk
    have := congrArg (fun i : ListInterner => i.texts.length) (Prod.ext_iff.1 hk).1
    simp at this
  | some j =>
    rw [h] at hk
    obtain rfl := (Prod.ext_iff.1 hk).2
    rw [ListInterner.getOrIntern_eq i text']
    cases i.texts.indexOf? text' with
    | some k' => simp only [ListInterner.getOrIntern_eq, h]
    | none => simp [ListInterner.getOrIntern_eq, ListInterner.indexOf?_append_singleton, h]

/-- Keys by first position keep their texts' keys. -/
instance : LawfulInterner ListInterner :=
  ⟨ListInterner.getOrIntern_getOrIntern, ListInterner.getOrIntern_of_fixed⟩

/-! ## Trees the cache deduplicates -/

namespace SyntaxTree

mutual
/-- Whether every node of the tree has at most `CHILDREN_CACHE_THRESHOLD` children, so that every
element built for it is looked up in the cache. -/
def small : SyntaxTree S → Bool
  | node _ ts => decide (ts.length ≤ childrenCacheThreshold) && smallAll ts
  | token .. | staticToken .. => true

/-- Whether every tree of the list is `small`. -/
def smallAll : List (SyntaxTree S) → Bool
  | [] => true
  | t :: ts => t.small && smallAll ts
end

end SyntaxTree

/-! ## The cache's entry for a tree -/

namespace ThreadedNodeCache

variable [Syntax S] [Interner I]

/-- The data `token(kind, text)` asks for, the cache's interner holding the key of `text`: for a
kind with static text no key and that text's length, otherwise the key and the text's length. -/
def LeafData (c : ThreadedNodeCache I) (kind : S) (text : String) (d : GreenTokenData) : Prop :=
  d.kind = Syntax.intoRaw kind ∧
    d.textLen = UInt32.ofNat (SyntaxTree.leafText kind text).utf8ByteSize ∧
    match Syntax.staticText kind with
    | some _ => d.text = none
    | none => ∃ k, d.text = some k ∧ Interner.getOrIntern c.interner text = (c.interner, k)

theorem LeafData.unique {c : ThreadedNodeCache I} {kind : S} {text : String}
    {d₁ d₂ : GreenTokenData} (h₁ : c.LeafData kind text d₁) (h₂ : c.LeafData kind text d₂) :
    d₁ = d₂ := by
  obtain ⟨hk₁, hl₁, ht₁⟩ := h₁
  obtain ⟨hk₂, hl₂, ht₂⟩ := h₂
  cases d₁; cases d₂
  simp only at hk₁ hl₁ hk₂ hl₂ ht₁ ht₂ ⊢
  subst hk₁ hk₂ hl₁ hl₂
  revert ht₁ ht₂
  cases Syntax.staticText kind with
  | some _ => rintro rfl rfl; rfl
  | none =>
    rintro ⟨k₁, rfl, hk₁⟩ ⟨k₂, rfl, hk₂⟩
    obtain rfl : k₁ = k₂ := congrArg Prod.snd (hk₁.symm.trans hk₂)
    rfl

variable [LawfulInterner I] (cfg : Config)

/-- Requests keep the keys the interner holds. -/
theorem LeafData.serve {c : ThreadedNodeCache I} {kind : S} {text : String} {d : GreenTokenData}
    (h : c.LeafData kind text d) (r : CacheRequest) : (c.serve cfg r).LeafData kind text d := by
  obtain ⟨hk, hl, ht⟩ := h
  refine ⟨hk, hl, ?_⟩
  have hint : ∀ k, Interner.getOrIntern c.interner text = (c.interner, k) →
      Interner.getOrIntern (c.serve cfg r).interner text = ((c.serve cfg r).interner, k) := by
    intro k hk
    cases r with
    | intern text' => exact LawfulInterner.getOrIntern_of_fixed _ _ text' k hk
    | token data =>
      simp only [ThreadedNodeCache.serve, tokenEntry]
      split <;> exact hk
    | node kind children =>
      simp only [ThreadedNodeCache.serve, nodeOf, getCachedNode]
      split
      · split <;> exact hk
      · exact hk
  revert ht
  cases Syntax.staticText kind with
  | some _ => exact id
  | none => exact fun ⟨k, hd, hk⟩ => ⟨k, hd, hint k hk⟩

theorem LeafData.serveAll {c : ThreadedNodeCache I} {kind : S} {text : String}
    {d : GreenTokenData} (h : c.LeafData kind text d) (rs : List CacheRequest) :
    (c.serveAll cfg rs).LeafData kind text d := by
  induction rs generalizing c with
  | nil => exact h
  | cons r rs ih => exact ih (h.serve cfg r)

/-- The token `token(kind, text)` pushes is the cache's entry for the data it asked for. -/
theorem Inv.leafData_tokenFor {c c' : ThreadedNodeCache I} (hc : c.Inv cfg) {kind : S}
    {text : String} {t : GreenToken} (h : c.tokenFor cfg kind text = .ok (c', t)) :
    c'.tokens t.data = some t ∧ c'.LeafData kind text t.data := by
  refine ⟨hc.tokens_tokenFor cfg h, ?_⟩
  unfold tokenFor at h
  split at h
  · rename_i staticText hst
    split at h
    · cases h
    · obtain ⟨rfl, rfl⟩ := Prod.ext_iff.1 (Except.ok.inj h)
      rw [token, hc.data_tokenEntry cfg]
      simp [LeafData, SyntaxTree.leafText, hst]
  · rename_i hst
    obtain ⟨rfl, rfl⟩ := Prod.ext_iff.1 (Except.ok.inj h)
    have hc₁ : (c.intern text).1.Inv cfg := serve_inv cfg hc (.intern text)
    rw [token, hc₁.data_tokenEntry cfg]
    refine ⟨rfl, by simp [SyntaxTree.leafText, hst], ?_⟩
    rw [hst]
    refine ⟨_, rfl, ?_⟩
    simp only [tokenEntry]
    split <;> exact LawfulInterner.getOrIntern_getOrIntern _ _

omit [LawfulInterner I] in
/-- The token `static_token(kind)` pushes is the cache's entry for the data it asked for. -/
theorem Inv.leafData_staticTokenFor {c c' : ThreadedNodeCache I} (hc : c.Inv cfg) {kind : S}
    {t : GreenToken} (h : c.staticTokenFor kind = .ok (c', t)) :
    c'.tokens t.data = some t ∧ c'.LeafData kind "" t.data := by
  refine ⟨hc.tokens_staticTokenFor cfg h, ?_⟩
  unfold staticTokenFor at h
  split at h
  · cases h
  · rename_i staticText hst
    obtain ⟨rfl, rfl⟩ := Prod.ext_iff.1 (Except.ok.inj h)
    rw [token, hc.data_tokenEntry cfg]
    simp [LeafData, SyntaxTree.leafText, hst]

end ThreadedNodeCache

mutual
/-- `e` is the cache's entry for the tree: for a leaf the token stored under the data the leaf asks
for, for a node the node stored under the head of children that are the entries for its subtrees,
at most `CHILDREN_CACHE_THRESHOLD` of them. -/
def GreenElement.Keyed [Syntax S] [Interner I] (cfg : Config) (c : ThreadedNodeCache I) :
    GreenElement → SyntaxTree S → Prop
  | e, .node kind ts => ∃ (cs : List GreenElement) (n : GreenNode),
    GreenElement.KeyedAll cfg c cs ts ∧ cs.length ≤ childrenCacheThreshold ∧
      c.nodes (ThreadedNodeCache.headOf cfg (Syntax.intoRaw kind) cs (sumTextLen cs)) = some n ∧
      e = n.toElement
  | e, .token kind text => ∃ t : GreenToken,
    c.tokens t.data = some t ∧ e = t.toElement ∧ c.LeafData kind text t.data
  | e, .staticToken kind => ∃ t : GreenToken,
    c.tokens t.data = some t ∧ e = t.toElement ∧ c.LeafData kind "" t.data

/-- `Keyed`, element by element. -/
def GreenElement.KeyedAll [Syntax S] [Interner I] (cfg : Config) (c : ThreadedNodeCache I) :
    List GreenElement → List (SyntaxTree S) → Prop
  | [], [] => True
  | e :: es, t :: ts => e.Keyed cfg c t ∧ GreenElement.KeyedAll cfg c es ts
  | _, _ => False
end

namespace GreenElement

variable [Syntax S] [Interner I] (cfg : Config) {c : ThreadedNodeCache I}

theorem KeyedAll.length_eq : ∀ {es : List GreenElement} {ts : List (SyntaxTree S)},
    KeyedAll cfg c es ts → es.length = ts.length
  | [], [], _ => rfl
  | _ :: _, _ :: _, h => congrArg (· + 1) (KeyedAll.length_eq h.2)

mutual
/-- The cache has at most one entry for a tree. -/
theorem Keyed.unique : ∀ (t : SyntaxTree S) {e₁ e₂ : GreenElement},
    e₁.Keyed cfg c t → e₂.Keyed cfg c t → e₁ = e₂
  | .node _ ts, _, _, h₁, h₂ => by
    obtain ⟨cs₁, n₁, hcs₁, -, hn₁, rfl⟩ := h₁
    obtain ⟨cs₂, n₂, hcs₂, -, hn₂, rfl⟩ := h₂
    obtain rfl := GreenElement.KeyedAll.unique ts hcs₁ hcs₂
    rw [hn₁, Option.some.injEq] at hn₂
    rw [hn₂]
  | .token .., _, _, h₁, h₂ | .staticToken _, _, _, h₁, h₂ => by
    obtain ⟨t₁, ht₁, rfl, hd₁⟩ := h₁
    obtain ⟨t₂, ht₂, rfl, hd₂⟩ := h₂
    rw [hd₁.unique hd₂, ht₂, Option.some.injEq] at ht₁
    rw [ht₁]

/-- `Keyed.unique`, element by element. -/
theorem KeyedAll.unique : ∀ (ts : List (SyntaxTree S)) {es₁ es₂ : List GreenElement},
    KeyedAll cfg c es₁ ts → KeyedAll cfg c es₂ ts → es₁ = es₂
  | [], [], [], _, _ => rfl
  | t :: ts, _ :: _, _ :: _, h₁, h₂ => by
    rw [GreenElement.Keyed.unique t h₁.1 h₂.1, GreenElement.KeyedAll.unique ts h₁.2 h₂.2]
  | [], _ :: _, _, h, _ | _ :: _, [], _, h, _ | [], [], _ :: _, _, h
  | _ :: _, _ :: _, [], _, h => h.elim
end

mutual
/-- A request keeps every entry for a tree. -/
theorem Keyed.serve [LawfulInterner I] : ∀ (t : SyntaxTree S) {e : GreenElement}, e.Keyed cfg c t →
    ∀ r, e.Keyed cfg (c.serve cfg r) t
  | .node _ ts, _, h, r => by
    obtain ⟨cs, n, hcs, hlen, hn, he⟩ := h
    exact ⟨cs, n, GreenElement.KeyedAll.serve ts hcs r, hlen,
      ThreadedNodeCache.nodes_serve_of_some cfg hn r, he⟩
  | .token .., _, h, r | .staticToken _, _, h, r => by
    obtain ⟨t, ht, he, hd⟩ := h
    exact ⟨t, ThreadedNodeCache.tokens_serve_of_some cfg ht r, he, hd.serve cfg r⟩

/-- `Keyed.serve`, element by element. -/
theorem KeyedAll.serve [LawfulInterner I] : ∀ (ts : List (SyntaxTree S)) {es : List GreenElement},
    KeyedAll cfg c es ts → ∀ r, KeyedAll cfg (c.serve cfg r) es ts
  | [], [], h, _ => h
  | t :: ts, _ :: _, h, r =>
    ⟨GreenElement.Keyed.serve t h.1 r, GreenElement.KeyedAll.serve ts h.2 r⟩
  | [], _ :: _, h, _ | _ :: _, [], h, _ => h.elim
end

theorem Keyed.serveAll [LawfulInterner I] {t : SyntaxTree S} {e : GreenElement} (h : e.Keyed cfg c t)
    (rs : List CacheRequest) : e.Keyed cfg (c.serveAll cfg rs) t := by
  induction rs generalizing c with
  | nil => exact h
  | cons r rs ih => exact ih (h.serve cfg t r)

theorem KeyedAll.serveAll [LawfulInterner I] {ts : List (SyntaxTree S)}
    {es : List GreenElement} (h : KeyedAll cfg c es ts) (rs : List CacheRequest) :
    KeyedAll cfg (c.serveAll cfg rs) es ts := by
  induction rs generalizing c with
  | nil => exact h
  | cons r rs ih => exact ih (h.serve cfg ts r)

end GreenElement

/-! ## Building a small tree pushes its entry -/

namespace ThreadedGreenNodeBuilder

variable [Syntax S] [Interner I] [LawfulInterner I] (cfg : Config)

mutual
/-- From any builder and any reachable cache, the operations of a small tree the builder accepts,
with any requests of other parties between them, push the cache's entry for the tree. -/
theorem runView_events_keyed : ∀ (t : SyntaxTree S) {vs : List (View S)}
    {c : ThreadedNodeCache I} (b : ThreadedGreenNodeBuilder S), View.ownOps vs = t.events →
    c.Reachable cfg → t.valid cfg.debugAssertions = true → t.small = true →
    (cfg.debugAssertions = true → b.docLen.toNat + t.text.utf8ByteSize < 2 ^ 32) →
    ∃ c' e, b.runView cfg c vs = .ok (c',
      { b with children := b.children ++ [e],
               docLen := b.docLen + UInt32.ofNat t.text.utf8ByteSize }) ∧ e.Keyed cfg c' t
  | .node kind children, vs, c, b, hvs, hc, hv, hsmall, hlen => by
    simp only [SyntaxTree.small, Bool.and_eq_true, decide_eq_true_eq] at hsmall
    obtain ⟨rs₀, vs₁, rs₂, rs₃, hvs₁, hnode⟩ := runView_node (I := I) cfg hvs
    obtain ⟨c₁, es, hrun, hkeyed⟩ := runView_events_keyed_all children (b.startNode kind) hvs₁
      (hc.serveAll cfg rs₀) hv hsmall.2 hlen
    obtain ⟨c₁', es', hrun', hfits, -⟩ := runView_events_all cfg children (b.startNode kind) hvs₁
      (hc.serveAll cfg rs₀) hv hlen
    obtain ⟨rfl, hb⟩ := Prod.mk.inj (Except.ok.inj (hrun.symm.trans hrun'))
    obtain rfl : es = es' := List.append_cancel_left (congrArg (·.children) hb)
    have hno : ¬ (cfg.debugAssertions ∧ 2 ^ 32 ≤ natTextLen es) := fun h =>
      absurd (hlen h.1) (by have := natTextLen_le_of_fits hfits; simp only [SyntaxTree.text]; omega)
    have hes : es.length ≤ childrenCacheThreshold := (hkeyed.length_eq cfg).trans_le hsmall.1
    let c₂ := c₁.serveAll cfg rs₂
    refine ⟨_, _, hnode c c₁ b es _ hrun hno, es, _,
      ((hkeyed.serveAll cfg rs₂).serve cfg children (.node (Syntax.intoRaw kind) es)).serveAll
        cfg rs₃, hes, ThreadedNodeCache.nodes_serveAll_of_some cfg
        (ThreadedNodeCache.nodes_nodeOf_self cfg c₂ _ es _ hes) rs₃, rfl⟩
  | .token kind text, vs, c, b, hvs, hc, hv, _, hlen => by
    obtain ⟨rs₀, vs', rfl, hvs'⟩ := View.exists_of_ownOps_eq_cons hvs
    obtain ⟨rs₁, rfl⟩ := View.exists_of_ownOps_eq_nil hvs'
    have hc₀ := (hc.serveAll cfg rs₀).inv cfg
    obtain ⟨c₁, t, ht, hm⟩ := ThreadedNodeCache.tokenFor_of_valid cfg hc₀ hv
    obtain ⟨htok, hd⟩ := hc₀.leafData_tokenFor cfg ht
    refine ⟨c₁.serveAll cfg rs₁, t.toElement, ?_,
      t, ThreadedNodeCache.tokens_serveAll_of_some cfg htok rs₁, rfl, hd.serveAll cfg rs₁⟩
    simp only [runView_around, step, token, ht, pushToken_of_fits cfg b hm.fits hlen,
      except_ok_bind, except_pure]
    rfl
  | .staticToken kind, vs, c, b, hvs, hc, hv, _, hlen => by
    obtain ⟨rs₀, vs', rfl, hvs'⟩ := View.exists_of_ownOps_eq_cons hvs
    obtain ⟨rs₁, rfl⟩ := View.exists_of_ownOps_eq_nil hvs'
    have hc₀ := (hc.serveAll cfg rs₀).inv cfg
    obtain ⟨c₁, t, ht, hm⟩ := ThreadedNodeCache.staticTokenFor_of_valid cfg hc₀ hv
    obtain ⟨htok, hd⟩ := hc₀.leafData_staticTokenFor cfg ht
    refine ⟨c₁.serveAll cfg rs₁, t.toElement, ?_,
      t, ThreadedNodeCache.tokens_serveAll_of_some cfg htok rs₁, rfl, hd.serveAll cfg rs₁⟩
    simp only [runView_around, step, staticToken, ht, pushToken_of_fits cfg b hm.fits hlen,
      except_ok_bind, except_pure]
    rfl

/-- `runView_events_keyed` over a list of trees: one entry per tree. -/
theorem runView_events_keyed_all : ∀ (ts : List (SyntaxTree S)) {vs : List (View S)}
    {c : ThreadedNodeCache I} (b : ThreadedGreenNodeBuilder S),
    View.ownOps vs = SyntaxTree.eventsAll ts → c.Reachable cfg →
    SyntaxTree.validAll cfg.debugAssertions ts = true → SyntaxTree.smallAll ts = true →
    (cfg.debugAssertions = true →
      b.docLen.toNat + (SyntaxTree.textAll ts).utf8ByteSize < 2 ^ 32) →
    ∃ c' es, b.runView cfg c vs = .ok (c',
      { b with children := b.children ++ es,
               docLen := b.docLen + UInt32.ofNat (SyntaxTree.textAll ts).utf8ByteSize })
      ∧ GreenElement.KeyedAll cfg c' es ts
  | [], vs, c, b, hvs, _, _, _, _ => by
    obtain ⟨rs, rfl⟩ := View.exists_of_ownOps_eq_nil hvs
    have hdoc : b.docLen + UInt32.ofNat (SyntaxTree.textAll ([] : List (SyntaxTree S))).utf8ByteSize
        = b.docLen := add_zero _
    exact ⟨_, [], by rw [runView_map_other, List.append_nil, hdoc], trivial⟩
  | t :: ts, vs, c, b, hvs, hc, hv, hsmall, hlen => by
    obtain ⟨vs₁, vs₂, rfl, hvs₁, hvs₂⟩ := View.exists_split_of_ownOps_eq_append hvs
    simp only [SyntaxTree.validAll, SyntaxTree.smallAll, Bool.and_eq_true] at hv hsmall
    simp only [SyntaxTree.textAll, utf8ByteSize_append] at hlen
    obtain ⟨c₁, e, h₁, he⟩ :=
      runView_events_keyed t b hvs₁ hc hv.1 hsmall.1 fun h => by have := hlen h; omega
    obtain ⟨rs₁, rfl⟩ := runView_serves cfg h₁
    have hdoc : cfg.debugAssertions = true → (b.docLen + UInt32.ofNat t.text.utf8ByteSize).toNat
        = b.docLen.toNat + t.text.utf8ByteSize := fun h => by
      have := hlen h
      rw [TextSize.toNat_add, TextSize.toNat_ofNat,
        Nat.mod_eq_of_lt (by omega : t.text.utf8ByteSize < 2 ^ 32), Nat.mod_eq_of_lt (by omega)]
    obtain ⟨c₂, es, h₂, hes⟩ := runView_events_keyed_all ts
      { b with children := b.children ++ [e],
               docLen := b.docLen + UInt32.ofNat t.text.utf8ByteSize }
      hvs₂ (hc.serveAll cfg rs₁) hv.2 hsmall.2 fun h => by rw [hdoc h]; have := hlen h; omega
    obtain ⟨rs₂, rfl⟩ := runView_serves cfg h₂
    refine ⟨(c.serveAll cfg rs₁).serveAll cfg rs₂, e :: es, ?_, he.serveAll cfg rs₂, hes⟩
    rw [runView_append, h₁]
    refine h₂.trans ?_
    simp [SyntaxTree.textAll, utf8ByteSize_append, TextSize.ofNat_add, add_assoc]
end

end ThreadedGreenNodeBuilder

/-! ## Threads building equal trees share their root -/

namespace Threads

variable [Syntax S] [Interner I] [LawfulInterner I] (cfg : Config)

/-- A thread that has made all the operations of a small tree finishes with the root that is the
cache's entry for its tree. -/
theorem ThreadOk.finish_keyed {c : ThreadedNodeCache I} {th : Thread S} (h : ThreadOk cfg c th)
    (htodo : th.todo = []) (hsmall : th.tree.small = true) :
    ∃ root : GreenNode, th.builder.finish c = .ok (root, th.builder.intoOwned c) ∧
      root.toElement.Keyed cfg c th.tree := by
  obtain ⟨owned, c₀, vs, hc₀, hvs, hrun⟩ := h.history
  obtain ⟨hnode, hv, hlen⟩ := h.buildable
  rw [htodo, List.append_nil] at hvs
  obtain ⟨c₁, e, hall, he⟩ := ThreadedGreenNodeBuilder.runView_events_keyed cfg th.tree
    (.create owned) hvs hc₀ hv hsmall
    fun hdbg => by simpa [ThreadedGreenNodeBuilder.create] using hlen hdbg
  obtain ⟨rfl, hb⟩ := Prod.mk.inj (Except.ok.inj (hrun.symm.trans hall))
  cases ht : th.tree with
  | node kind ts =>
    have he' := he
    rw [ht] at he'
    obtain ⟨-, n, -, -, -, rfl⟩ := he'
    exact ⟨n, by rw [hb]; rfl, ht ▸ he⟩
  | token | staticToken => simp [ht, SyntaxTree.isNode] at hnode

/-- Equal trees, one root: in every reachable configuration of threads sharing one cache, with
the interner keeping each text's key, two threads that have built equal trees, every node of which
has at most `CHILDREN_CACHE_THRESHOLD` children, finish with one and the same root instance, in
whatever order their operations and those of all other parties interleaved. This holds even when
the child hash collides. -/
theorem equal_small_trees_share_root {w : Threads S I} (hw : w.Reachable cfg) :
    ∀ th₁ ∈ w.threads, ∀ th₂ ∈ w.threads, th₁.todo = [] → th₂.todo = [] →
      th₁.tree = th₂.tree → th₁.tree.small = true → ∃ root : GreenNode,
        th₁.builder.finish w.cache = .ok (root, th₁.builder.intoOwned w.cache) ∧
        th₂.builder.finish w.cache = .ok (root, th₂.builder.intoOwned w.cache) := by
  intro th₁ h₁ th₂ h₂ hdone₁ hdone₂ htree hsmall
  obtain ⟨r₁, hf₁, hk₁⟩ := ((hw.sound cfg).threads_ok th₁ h₁).finish_keyed cfg hdone₁ hsmall
  obtain ⟨r₂, hf₂, hk₂⟩ :=
    ((hw.sound cfg).threads_ok th₂ h₂).finish_keyed cfg hdone₂ (htree ▸ hsmall)
  rw [← htree] at hk₂
  have hr := GreenElement.Keyed.unique cfg th₁.tree hk₁ hk₂
  obtain rfl : r₁ = r₂ := by
    cases r₁; cases r₂
    simp only [GreenNode.toElement, GreenElement.node.injEq] at hr
    obtain ⟨rfl, rfl, rfl⟩ := hr
    rfl
  exact ⟨r₁, hf₁, hf₂⟩

/-- Two threads, one owning the cache and one borrowing it, build `Root[1]` with their operations
interleaved one by one. -/
theorem equal_small_trees_share_root_interleaved :
    ∃ w : Threads TestSyntaxKind ListInterner, w.Reachable ⟨true, fun _ => 0⟩ ∧
      w.threads.map Thread.todo = [[], []] ∧
      ∀ th₁ ∈ w.threads, ∀ th₂ ∈ w.threads, th₁.todo = [] → th₂.todo = [] →
        th₁.tree = th₂.tree → th₁.tree.small = true → ∃ root : GreenNode,
          th₁.builder.finish w.cache = .ok (root, th₁.builder.intoOwned w.cache) ∧
          th₂.builder.finish w.cache = .ok (root, th₂.builder.intoOwned w.cache) := by
  let t : SyntaxTree TestSyntaxKind := .node .root [.token .int "1"]
  have h₂ : Reachable ⟨true, fun _ => 0⟩ (⟨.withInterner ⟨[]⟩,
      [⟨t, .create true, t.events⟩, ⟨t, .create false, t.events⟩]⟩
        : Threads TestSyntaxKind ListInterner) :=
    .step (.step (.init _) (.spawn _ true t (by decide))) (.spawn _ false t (by decide))
  have hw := Reachable.step (.step (.step (.step (.step (.step h₂
    (.op _ 0 rfl rfl rfl)) (.op _ 1 rfl rfl rfl)) (.op _ 0 rfl rfl rfl)) (.op _ 1 rfl rfl rfl))
    (.op _ 0 rfl rfl rfl)) (.op _ 1 rfl rfl rfl)
  exact ⟨_, hw, rfl, equal_small_trees_share_root _ hw⟩

end Threads

end Cstree
