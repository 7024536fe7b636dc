import Cstree.Green.SyntaxTree
import Cstree.Green.View

/-!
# Building the tree a parser describes

A parser describes a tree to the builder by the documented protocol: `start_node`, the operations
of the children and `finish_node` for a node, and `token` or `static_token` for a leaf
(`threaded_builder.rs:404-456`). From any builder state and over any reachable cache, the builder
accepts the operations of every tree whose tokens it accepts, and appends one element that has the
tree's variant, kind and text length. From a fresh builder, `finish` then returns a root of the
tree's kind whose length is the byte length of the tree's text, modulo `2 ^ 32`. A debug build asks
in addition that static texts match and that the text be shorter than `2 ^ 32` bytes.

The tree fixes the variant, the kind and the length of what the builder returns. Unless the cache
meets a collision of the child hash meanwhile, it fixes the whole shape too: each element mirrors
its tree node by node (`runView_events`). Halfway, under an open node, `current_children` shows one
such element per tree built so far (`currentChildren_after_events`). Ids are the cache's choice,
and so, under a collision, are a node's children (`node_not_transparent`); which text a key stands
for is the interner's (`Cstree.Green.Spelling`).
-/

namespace Cstree

variable {S I : Type}

/-! ## The tokens of a valid tree -/

namespace ThreadedNodeCache

variable (cfg : Config)

/-- On a cache with the invariant, a token entry answers with a token of the requested data. -/
theorem Inv.data_tokenEntry {c : ThreadedNodeCache I} (hc : c.Inv cfg) (data : GreenTokenData) :
    (c.tokenEntry data).2.data = data := by
  rw [tokenEntry_snd]
  cases ht : c.tokens data with
  | none => rfl
  | some t => exact hc.tokens_data data t ht

variable [Syntax S] {c : ThreadedNodeCache I}

/-- The token the cache answers for a kind, a text key and a text's length mirrors every leaf with
that kind and text, when the key is absent exactly for kinds with static text. -/
theorem Inv.mirrors_token (hc : c.Inv cfg) {kind : S} {key : Option TokenKey} {s : String}
    (tree : SyntaxTree S) (hkind : tree.kind = kind) (hleaf : tree.isNode = false)
    (htext : tree.text = s) (hkey : key.isNone = (Syntax.staticText kind).isSome) :
    (c.token kind key (UInt32.ofNat s.utf8ByteSize)).2.toElement.Mirrors cfg tree := by
  have hd := hc.data_tokenEntry cfg ⟨Syntax.intoRaw kind, key, UInt32.ofNat s.utf8ByteSize⟩
  simp only [ThreadedNodeCache.token, GreenToken.toElement, GreenElement.Mirrors, hd, hkind, htext,
    true_and]
  exact ⟨hleaf, hkey⟩

theorem staticTokenFor_of_valid (hc : c.Inv cfg) {kind : S}
    (hv : (SyntaxTree.staticToken kind).valid cfg.debugAssertions = true) :
    ∃ c' t, c.staticTokenFor kind = .ok (c', t) ∧
      t.toElement.Mirrors cfg (.staticToken kind) := by
  unfold staticTokenFor
  simp only [SyntaxTree.valid] at hv
  split
  · rename_i hst
    simp [hst] at hv
  · rename_i staticText hst
    exact ⟨_, _, rfl, hc.mirrors_token cfg _ rfl rfl
      (by simp [SyntaxTree.text, SyntaxTree.leafText, hst]) (by simp [hst])⟩

variable [Interner I]

theorem tokenFor_of_valid (hc : c.Inv cfg) {kind : S} {s : String}
    (hv : (SyntaxTree.token kind s).valid cfg.debugAssertions = true) :
    ∃ c' t, c.tokenFor cfg kind s = .ok (c', t) ∧ t.toElement.Mirrors cfg (.token kind s) := by
  unfold tokenFor
  simp only [SyntaxTree.valid] at hv
  split
  · rename_i staticText hst
    rw [hst] at hv
    have hok : ¬ (cfg.debugAssertions = true ∧ staticText ≠ s) := by
      rintro ⟨hdbg, hne⟩
      simp [hdbg, hne] at hv
    exact ⟨_, _, if_neg hok, hc.mirrors_token cfg _ rfl rfl
      (by simp [SyntaxTree.text, SyntaxTree.leafText, hst]) (by simp [hst])⟩
  · rename_i hst
    exact ⟨_, _, rfl, (serve_inv cfg hc (.intern s)).mirrors_token cfg _ rfl rfl
      (by simp [SyntaxTree.text, SyntaxTree.leafText, hst]) (by simp [hst])⟩

end ThreadedNodeCache

namespace ThreadedGreenNodeBuilder

variable [Syntax S] [Interner I] (cfg : Config)

/-! ## Running the operations of a tree -/

omit [Interner I] in
/-- A token that fits a leaf is pushed, unless a debug build's document would reach `2 ^ 32`
bytes. -/
theorem pushToken_of_fits (b : ThreadedGreenNodeBuilder S) {t : GreenToken} {tree : SyntaxTree S}
    (hfit : t.toElement.Fits tree)
    (hlen : cfg.debugAssertions = true → b.docLen.toNat + tree.text.utf8ByteSize < 2 ^ 32) :
    b.pushToken cfg t = .ok
      { b with children := b.children ++ [t.toElement],
               docLen := b.docLen + UInt32.ofNat tree.text.utf8ByteSize } := by
  have hle : t.data.textLen.toNat ≤ tree.text.utf8ByteSize := by
    rw [← GreenToken.textLen_toElement, hfit.textLen_eq, TextSize.toNat_ofNat]
    exact Nat.mod_le _ _
  rw [pushToken, TextSize.addAssign_of_ok fun h => absurd (hlen h.1) (by omega),
    ← GreenToken.textLen_toElement, hfit.textLen_eq]
  rfl

omit [Interner I] in
/-- `finish_node` right after `start_node(kind)` and the pushes of `es` closes the cache's node for
`es`, and leaves the builder as it was before `start_node` with that node pushed. -/
theorem finishNode_startNode (c : ThreadedNodeCache I) (b : ThreadedGreenNodeBuilder S) (kind : S)
    (es : List GreenElement) (docLen : TextSize)
    (hno : ¬ (cfg.debugAssertions ∧ 2 ^ 32 ≤ natTextLen es)) :
    finishNode cfg c ({ b.startNode kind with children := b.children ++ es, docLen }
        : ThreadedGreenNodeBuilder S)
      = .ok ((c.nodeOf cfg (Syntax.intoRaw kind) es (sumTextLen es)).1,
          { b with children := b.children ++
              [(c.nodeOf cfg (Syntax.intoRaw kind) es (sumTextLen es)).2.toElement], docLen }) := by
  simp only [finishNode, startNode, List.getLast?_append, List.getLast?_singleton, Option.or_some]
  rw [ThreadedNodeCache.node_eq cfg c kind _ (by simp), List.drop_left,
    ThreadedNodeCache.accumulateTextLen_eq, if_neg hno]
  simp

/-- A leaf's one operation, with other parties' requests around it, pushes an element with a
property `P` of the element and the cache that later requests keep, when it does so from every
reachable cache. -/
theorem runView_leaf {P : ThreadedNodeCache I → GreenElement → Prop} (tree : SyntaxTree S)
    {op : BuilderOp S} {vs : List (View S)} (hvs : View.ownOps vs = [op])
    {c : ThreadedNodeCache I} (b : ThreadedGreenNodeBuilder S) (hc : c.Reachable cfg)
    (hop : ∀ c₀ : ThreadedNodeCache I, c₀.Reachable cfg →
      ∃ c₁ e, b.step cfg c₀ op = .ok (c₁,
      { b with children := b.children ++ [e],
               docLen := b.docLen + UInt32.ofNat tree.text.utf8ByteSize }) ∧ P c₁ e)
    (hP : ∀ c e rs, P c e → P (c.serveAll cfg rs) e) :
    ∃ c' e, b.runView cfg c vs = .ok (c',
      { b with children := b.children ++ [e],
               docLen := b.docLen + UInt32.ofNat tree.text.utf8ByteSize }) ∧ P c' e := by
  obtain ⟨rs₀, vs', rfl, hvs'⟩ := View.exists_of_ownOps_eq_cons hvs
  obtain ⟨rs₁, rfl⟩ := View.exists_of_ownOps_eq_nil hvs'
  obtain ⟨c₁, e, hs, he⟩ := hop _ (hc.serveAll cfg rs₀)
  exact ⟨_, e, by rw [runView_around, hs]; rfl, hP _ _ rs₁ he⟩

/-- The operations of a node with other parties' requests around them are requests `rs₀`,
`start_node`, a view of the children, requests `rs₂`, `finish_node` and requests `rs₃`. When the
view of the children pushes `es`, the whole view pushes the cache's node for `es`. -/
theorem runView_node {kind : S} {children : List (SyntaxTree S)} {vs : List (View S)}
    (hvs : View.ownOps vs = (SyntaxTree.node kind children).events) :
    ∃ (rs₀ : List CacheRequest) (vs₁ : List (View S)) (rs₂ rs₃ : List CacheRequest),
      View.ownOps vs₁ = SyntaxTree.eventsAll children ∧
      ∀ (c c₁ : ThreadedNodeCache I) (b : ThreadedGreenNodeBuilder S) (es : List GreenElement)
        (docLen : TextSize),
        (b.startNode kind).runView cfg (c.serveAll cfg rs₀) vs₁
          = .ok (c₁, { b.startNode kind with children := b.children ++ es, docLen }) →
        ¬ (cfg.debugAssertions ∧ 2 ^ 32 ≤ natTextLen es) →
        b.runView cfg c vs = .ok (((c₁.serveAll cfg rs₂).nodeOf cfg (Syntax.intoRaw kind) es
            (sumTextLen es)).1.serveAll cfg rs₃,
          { b with children := b.children ++ [((c₁.serveAll cfg rs₂).nodeOf cfg
              (Syntax.intoRaw kind) es (sumTextLen es)).2.toElement], docLen }) := by
  rw [SyntaxTree.events, List.cons_append] at hvs
  obtain ⟨rs₀, vs', rfl, hvs'⟩ := View.exists_of_ownOps_eq_cons hvs
  obtain ⟨vs₁, vs₂, rfl, hvs₁, hvs₂⟩ := View.exists_split_of_ownOps_eq_append hvs'
  obtain ⟨rs₂, vs₃, rfl, hvs₃⟩ := View.exists_of_ownOps_eq_cons hvs₂
  obtain ⟨rs₃, rfl⟩ := View.exists_of_ownOps_eq_nil hvs₃
  refine ⟨rs₀, vs₁, rs₂, rs₃, hvs₁, fun c c₁ b es docLen hrun hno => ?_⟩
  rw [runView_append, runView_map_other]
  show (b.startNode kind).runView cfg _ (vs₁ ++ _) = _
  rw [runView_append, hrun]
  show runView cfg _ _ (rs₂.map .other ++ .own .finishNode :: rs₃.map .other) = _
  rw [runView_around]
  exact congrArg (Except.map fun r : ThreadedNodeCache I × ThreadedGreenNodeBuilder S =>
    (r.1.serveAll cfg rs₃, r.2)) (finishNode_startNode cfg _ b kind es _ hno)

mutual
/-- The step lemma over a tree: from any builder and any reachable cache, the operations of a tree
whose tokens the builder accepts, with any requests of other parties between them, return and push
one element that fits the tree, its length added to `doc_len`, provided a debug build's document
stays below `2 ^ 32` bytes. The element mirrors the tree unless the cache met a collision of the
child hash meanwhile. -/
theorem runView_events : ∀ (t : SyntaxTree S) {vs : List (View S)} {c : ThreadedNodeCache I}
    (b : ThreadedGreenNodeBuilder S), View.ownOps vs = t.events → c.Reachable cfg →
    t.valid cfg.debugAssertions = true →
    (cfg.debugAssertions = true → b.docLen.toNat + t.text.utf8ByteSize < 2 ^ 32) →
    ∃ c' e, b.runView cfg c vs = .ok (c',
      { b with children := b.children ++ [e],
               docLen := b.docLen + UInt32.ofNat t.text.utf8ByteSize }) ∧ e.Fits t ∧
      (e.Mirrors cfg t ∨ c'.CollidedSince cfg c.served.length)
  | .node kind children, vs, c, b, hvs, hc, hv, hlen => by
    obtain ⟨rs₀, vs₁, rs₂, rs₃, hvs₁, hnode⟩ := runView_node (I := I) cfg hvs
    obtain ⟨c₁, es, hrun, hfits, hmir⟩ :=
      runView_events_all children (b.startNode kind) hvs₁ (hc.serveAll cfg rs₀) hv hlen
    obtain ⟨rs₁, rfl⟩ := runView_serves cfg hrun
    have hc₂ := ((hc.serveAll cfg rs₀).serveAll cfg rs₁).serveAll cfg rs₂
    have hno : ¬ (cfg.debugAssertions ∧ 2 ^ 32 ≤ natTextLen es) := fun h =>
      absurd (hlen h.1) (by have := natTextLen_le_of_fits hfits; simp only [SyntaxTree.text]; omega)
    have hhead := ThreadedNodeCache.Inv.head_nodeOf cfg (hc₂.inv cfg) (Syntax.intoRaw kind) es
      (sumTextLen es)
    have hsum := sumTextLen_of_fits hfits
    let c₂ := ((c.serveAll cfg rs₀).serveAll cfg rs₁).serveAll cfg rs₂
    let r := c₂.nodeOf cfg (Syntax.intoRaw kind) es (sumTextLen es)
    refine ⟨r.1.serveAll cfg rs₃, r.2.toElement, hnode c _ b es _ hrun hno,
      ⟨congrArg (·.kind) hhead, rfl, (congrArg (·.textLen) hhead).trans hsum⟩, ?_⟩
    -- the children mirror their trees and the node request is answered as asked, or a
    -- collision stays in the cache
    have hserved : c.served.length ≤ (c.serveAll cfg rs₀).served.length := by simp
    rcases hmir with hmir | hcol
    · rcases (hc₂.inv cfg).nodeOf_requested_or_collided cfg (Syntax.intoRaw kind) es with
        ⟨hhead, hcs⟩ | hcol
      · refine .inl ⟨?_, GreenElement.MirrorsAll.of_strip_eq cfg es _ children hcs hmir⟩
        rw [hhead, (ThreadedNodeCache.head_map_eq_of_strip hcs).1, hsum]
      · exact .inr ((hcol.mono cfg (by simp)).serveAll cfg rs₃)
    · exact .inr ((((hcol.mono cfg hserved).serveAll cfg rs₂).serveAll cfg
        [.node (Syntax.intoRaw kind) es]).serveAll cfg rs₃)
  | .token kind s, vs, c, b, hvs, hc, hv, hlen => by
    obtain ⟨c', e, h, hm⟩ := runView_leaf (P := fun _ e => e.Mirrors cfg (.token kind s)) cfg
      (.token kind s) hvs b hc (fun c₀ hc₀ => by
        obtain ⟨c₁, t, ht, hm⟩ := ThreadedNodeCache.tokenFor_of_valid cfg (hc₀.inv cfg) hv
        refine ⟨c₁, t.toElement, ?_, hm⟩
        simp only [step, token, ht, pushToken_of_fits cfg b hm.fits hlen, except_ok_bind,
          except_pure]) fun _ _ _ => id
    exact ⟨c', e, h, hm.fits, .inl hm⟩
  | .staticToken kind, vs, c, b, hvs, hc, hv, hlen => by
    obtain ⟨c', e, h, hm⟩ := runView_leaf (P := fun _ e => e.Mirrors cfg (.staticToken kind))
      cfg (.staticToken kind) hvs b hc (fun c₀ hc₀ => by
        obtain ⟨c₁, t, ht, hm⟩ :=
          ThreadedNodeCache.staticTokenFor_of_valid cfg (hc₀.inv cfg) hv
        refine ⟨c₁, t.toElement, ?_, hm⟩
        simp only [step, staticToken, ht, pushToken_of_fits cfg b hm.fits hlen, except_ok_bind,
          except_pure]) fun _ _ _ => id
    exact ⟨c', e, h, hm.fits, .inl hm⟩

/-- The run lemma over a list of trees: their operations push one fitting element per tree, and
all of them mirror their trees unless the cache met a collision meanwhile. -/
theorem runView_events_all : ∀ (ts : List (SyntaxTree S)) {vs : List (View S)}
    {c : ThreadedNodeCache I} (b : ThreadedGreenNodeBuilder S),
    View.ownOps vs = SyntaxTree.eventsAll ts → c.Reachable cfg →
    SyntaxTree.validAll cfg.debugAssertions ts = true →
    (cfg.debugAssertions = true →
      b.docLen.toNat + (SyntaxTree.textAll ts).utf8ByteSize < 2 ^ 32) →
    ∃ c' es, b.runView cfg c vs = .ok (c',
      { b with children := b.children ++ es,
               docLen := b.docLen + UInt32.ofNat (SyntaxTree.textAll ts).utf8ByteSize })
      ∧ List.Forall₂ GreenElement.Fits es ts ∧
      (GreenElement.MirrorsAll cfg es ts ∨ c'.CollidedSince cfg c.served.length)
  | [], vs, c, b, hvs, _, _, _ => by
    obtain ⟨rs, rfl⟩ := View.exists_of_ownOps_eq_nil hvs
    have hdoc : b.docLen + UInt32.ofNat (SyntaxTree.textAll ([] : List (SyntaxTree S))).utf8ByteSize
        = b.docLen := add_zero _
    exact ⟨_, [], by rw [runView_map_other, List.append_nil, hdoc], .nil, .inl trivial⟩
  | t :: ts, vs, c, b, hvs, hc, hv, hlen => by
    obtain ⟨vs₁, vs₂, rfl, hvs₁, hvs₂⟩ := View.exists_split_of_ownOps_eq_append hvs
    simp only [SyntaxTree.validAll, Bool.and_eq_true] at hv
    simp only [SyntaxTree.textAll, utf8ByteSize_append] at hlen
    obtain ⟨c₁, e, h₁, he, hme⟩ :=
      runView_events t b hvs₁ hc hv.1 fun h => by have := hlen h; omega
    obtain ⟨rs₁, rfl⟩ := runView_serves cfg h₁
    have hdoc : cfg.debugAssertions = true → (b.docLen + UInt32.ofNat t.text.utf8ByteSize).toNat
        = b.docLen.toNat + t.text.utf8ByteSize := fun h => by
      have := hlen h
      rw [TextSize.toNat_add, TextSize.toNat_ofNat,
        Nat.mod_eq_of_lt (by omega : t.text.utf8ByteSize < 2 ^ 32), Nat.mod_eq_of_lt (by omega)]
    obtain ⟨c₂, es, h₂, hes, hmes⟩ := runView_events_all ts
      { b with children := b.children ++ [e],
               docLen := b.docLen + UInt32.ofNat t.text.utf8ByteSize }
      hvs₂ (hc.serveAll cfg rs₁) hv.2 fun h => by rw [hdoc h]; have := hlen h; omega
    obtain ⟨rs₂, rfl⟩ := runView_serves cfg h₂
    refine ⟨(c.serveAll cfg rs₁).serveAll cfg rs₂, e :: es, ?_, .cons he hes, ?_⟩
    · rw [runView_append, h₁]
      refine h₂.trans ?_
      simp [SyntaxTree.textAll, utf8ByteSize_append, TextSize.ofNat_add, add_assoc]
    rcases hme with hme | hcol
    · rcases hmes with hmes | hcol
      · exact .inl ⟨hme, hmes⟩
      · exact .inr (hcol.mono cfg (by simp))
    · exact .inr (hcol.serveAll cfg rs₂)
end

/-! ## Trees the builder does not accept -/

/-- Once a view panics, so does every longer one. -/
theorem runView_append_error {vs : List (View S)} {c : ThreadedNodeCache I}
    {b : ThreadedGreenNodeBuilder S} {e : Panic S} (h : b.runView cfg c vs = .error e)
    (ws : List (View S)) : b.runView cfg c (vs ++ ws) = .error e := by
  rw [runView_append, h]
  rfl

/-- A leaf's one operation that panics from every cache panics with any requests around it. -/
theorem runView_leaf_error {op : BuilderOp S} {vs : List (View S)} (hvs : View.ownOps vs = [op])
    (c : ThreadedNodeCache I) (b : ThreadedGreenNodeBuilder S)
    (hop : ∀ c₀ : ThreadedNodeCache I, ∃ e, b.step cfg c₀ op = .error e) :
    ∃ e, b.runView cfg c vs = .error e := by
  obtain ⟨rs₀, vs', rfl, hvs'⟩ := View.exists_of_ownOps_eq_cons hvs
  obtain ⟨rs₁, rfl⟩ := View.exists_of_ownOps_eq_nil hvs'
  obtain ⟨e, he⟩ := hop (c.serveAll cfg rs₀)
  exact ⟨e, by rw [runView_around, he]; rfl⟩

mutual
/-- The operations of a tree with a token the builder does not accept panic, whatever the builder
state and the cache, and with any requests of other parties in between. -/
theorem runView_events_error : ∀ (t : SyntaxTree S) {vs : List (View S)} (c : ThreadedNodeCache I)
    (b : ThreadedGreenNodeBuilder S), View.ownOps vs = t.events →
    t.valid cfg.debugAssertions = false → ∃ e, b.runView cfg c vs = .error e
  | .node kind children, vs, c, b, hvs, hv => by
    rw [SyntaxTree.events, List.cons_append] at hvs
    obtain ⟨rs₀, vs', rfl, hvs'⟩ := View.exists_of_ownOps_eq_cons hvs
    obtain ⟨vs₁, vs₂, rfl, hvs₁, -⟩ := View.exists_split_of_ownOps_eq_append hvs'
    obtain ⟨e, he⟩ :=
      runView_events_all_error children (c.serveAll cfg rs₀) (b.startNode kind) hvs₁ hv
    refine ⟨e, ?_⟩
    rw [runView_append, runView_map_other]
    exact runView_append_error cfg he vs₂
  | .token kind s, vs, c, b, hvs, hv =>
    runView_leaf_error cfg hvs c b fun c₀ => by
      simp only [SyntaxTree.valid] at hv
      split at hv
      · rename_i staticText hst
        have hbad : cfg.debugAssertions = true ∧ staticText ≠ s := by
          simpa [Bool.or_eq_false_iff] using hv
        exact ⟨.staticTextMismatch kind staticText s,
          by simp [step, token, ThreadedNodeCache.tokenFor, hst, hbad]⟩
      · cases hv
  | .staticToken kind, vs, c, b, hvs, hv =>
    runView_leaf_error cfg hvs c b fun c₀ => by
      simp only [SyntaxTree.valid] at hv
      cases hst : Syntax.staticText kind with
      | none => exact ⟨.missingStaticText kind, by simp [step, staticToken,
          ThreadedNodeCache.staticTokenFor, hst]⟩
      | some staticText => simp [hst] at hv

/-- The operations of a list of trees of which one has a token the builder does not accept panic. -/
theorem runView_events_all_error : ∀ (ts : List (SyntaxTree S)) {vs : List (View S)}
    (c : ThreadedNodeCache I) (b : ThreadedGreenNodeBuilder S),
    View.ownOps vs = SyntaxTree.eventsAll ts →
    SyntaxTree.validAll cfg.debugAssertions ts = false → ∃ e, b.runView cfg c vs = .error e
  | [], _, _, _, _, hv => by cases hv
  | t :: ts, vs, c, b, hvs, hv => by
    obtain ⟨vs₁, vs₂, rfl, hvs₁, hvs₂⟩ := View.exists_split_of_ownOps_eq_append hvs
    cases ht : t.valid cfg.debugAssertions with
    | false =>
      obtain ⟨e, he⟩ := runView_events_error t c b hvs₁ ht
      exact ⟨e, runView_append_error cfg he vs₂⟩
    | true =>
      simp only [SyntaxTree.validAll, ht, Bool.true_and] at hv
      rw [runView_append]
      cases h₁ : b.runView cfg c vs₁ with
      | error e => exact ⟨e, rfl⟩
      | ok r => exact runView_events_all_error ts r.1 r.2 hvs₂ hv
end

/-- The builder accepts the operations of a tree exactly as far as it accepts its tokens: over any
reachable cache and with any requests of other parties in between, the operations of a tree that is
not valid make the builder panic, whatever follows them; and in a release build those of a tree
return exactly when it is valid. -/
theorem events_accepted_iff_valid {c : ThreadedNodeCache I} (hc : c.Reachable cfg)
    (t : SyntaxTree S) (b : ThreadedGreenNodeBuilder S) {vs : List (View S)}
    (hvs : View.ownOps vs = t.events) :
    (t.valid cfg.debugAssertions = false →
      ∀ ws : List (View S), ∃ e, b.runView cfg c (vs ++ ws) = .error e) ∧
    (cfg.debugAssertions = false →
      ((∃ r, b.runView cfg c vs = .ok r) ↔ t.valid false = true)) := by
  refine ⟨fun hv ws => ?_, fun hrel => ⟨fun ⟨r, hr⟩ => ?_, fun hv => ?_⟩⟩
  · obtain ⟨e, he⟩ := runView_events_error cfg t c b hvs hv
    exact ⟨e, runView_append_error cfg he ws⟩
  · cases hv : t.valid false with
    | true => rfl
    | false =>
      obtain ⟨e, he⟩ := runView_events_error cfg t c b hvs (hrel ▸ hv)
      cases hr.symm.trans he
  · obtain ⟨c', e, h, -⟩ :=
      runView_events cfg t b hvs hc (hrel ▸ hv) fun h => absurd h (by simp [hrel])
    exact ⟨_, h⟩

/-- In a release build a `token` of kind `Plus` with the text `-` is accepted. -/
theorem events_accepted_iff_valid_minus :
    ((SyntaxTree.node TestSyntaxKind.root [.token .plus "-"]).valid false = false →
      ∀ ws : List (View TestSyntaxKind), ∃ e,
        (create true : ThreadedGreenNodeBuilder TestSyntaxKind).runView ⟨false, fun _ => 0⟩
          (ThreadedNodeCache.withInterner (⟨[]⟩ : ListInterner))
          ((SyntaxTree.node TestSyntaxKind.root [.token .plus "-"]).events.map .own ++ ws)
          = .error e) ∧
    (false = false → ((∃ r, (create true : ThreadedGreenNodeBuilder TestSyntaxKind).runView
        ⟨false, fun _ => 0⟩ (ThreadedNodeCache.withInterner (⟨[]⟩ : ListInterner))
        ((SyntaxTree.node TestSyntaxKind.root [.token .plus "-"]).events.map .own) = .ok r) ↔
      (SyntaxTree.node TestSyntaxKind.root [.token .plus "-"]).valid false = true)) :=
  events_accepted_iff_valid ⟨false, fun _ => 0⟩ (.withInterner _) _ _ (View.ownOps_map_own _)

omit [Interner I] in
/-- A fresh builder that has pushed one element fitting a node tree finishes with that element as
the root, of the tree's kind and text length, and with the cache when it owns it. -/
theorem finish_of_fits (owned : Bool) {e : GreenElement} {tree : SyntaxTree S}
    (c : ThreadedNodeCache I) (hfit : e.Fits tree) (hnode : tree.isNode = true) :
    ∃ root : GreenNode, (∀ docLen : TextSize,
      ({ create owned with children := [e], docLen } : ThreadedGreenNodeBuilder S).finish c
        = .ok (root, if owned then some c else none)) ∧ root.toElement = e ∧
      root.head.kind = Syntax.intoRaw tree.kind ∧
      root.head.textLen = UInt32.ofNat tree.text.utf8ByteSize := by
  cases e with
  | token id data => cases hfit.isNode_eq.trans hnode
  | node id head cs =>
    exact ⟨⟨id, head, cs⟩, fun _ => rfl, rfl, hfit.kind_eq, hfit.textLen_eq⟩

/-- From a fresh builder over any reachable cache, the operations of a node whose tokens the builder
accepts, with any requests of other parties between them (`vs`; a plain run is
`vs = ops.map .own`), all return, and `finish` returns a root of the node's kind whose length is the
byte length of the node's text modulo `2 ^ 32`, as is `document_len()`, with the cache when the
builder owns it. A debug build asks the text to be shorter than `2 ^ 32` bytes. -/
theorem finish_events_root {c : ThreadedNodeCache I} (hc : c.Reachable cfg) (owned : Bool)
    (kind : S) (children : List (SyntaxTree S)) {vs : List (View S)}
    (hvs : View.ownOps vs = (SyntaxTree.node kind children).events)
    (hv : (SyntaxTree.node kind children).valid cfg.debugAssertions = true)
    (hlen : cfg.debugAssertions = true →
      (SyntaxTree.node kind children).text.utf8ByteSize < 2 ^ 32) :
    ∃ c' b root, (create owned).runView cfg c vs = .ok (c', b) ∧
      b.finish c' = .ok (root, if owned then some c' else none) ∧
      root.head.kind = Syntax.intoRaw kind ∧
      root.head.textLen = UInt32.ofNat (SyntaxTree.node kind children).text.utf8ByteSize ∧
      b.documentLen = root.head.textLen := by
  obtain ⟨c', e, h, hfit, -⟩ := runView_events cfg (.node kind children) (create owned) hvs hc hv
    fun hdbg => by simpa [create] using hlen hdbg
  obtain ⟨root, hfin, -, hkind, htext⟩ := finish_of_fits owned c' hfit rfl
  exact ⟨c', _, root, h, hfin _, hkind, htext, by simp [documentLen, create, htext]⟩

/-- Another builder finishes a node `1` over the same cache between the `start_node` and the first
token of `1+2`. -/
theorem finish_events_root_operation :
    ∃ c' b root, (create true : ThreadedGreenNodeBuilder TestSyntaxKind).runView
        ⟨true, fun _ => 0⟩ (ThreadedNodeCache.withInterner (⟨[]⟩ : ListInterner))
        [.own (.startNode .operation), .other (.intern "1"),
          .other (.node ⟨0⟩ []), .own (.token .int "1"), .own (.staticToken .plus),
          .own (.token .int "2"), .own .finishNode] = .ok (c', b) ∧
      b.finish c' = .ok (root, some c') ∧
      root.head.kind = Syntax.intoRaw TestSyntaxKind.operation ∧
      root.head.textLen = 3 ∧ b.documentLen = root.head.textLen :=
  finish_events_root ⟨true, fun _ => 0⟩ (.withInterner _) true TestSyntaxKind.operation
    [.token .int "1", .staticToken .plus, .token .int "2"] rfl (by decide) fun _ => by decide

/-! ## What `current_children` shows -/

/-- After `start_node(kind)` and the operations of any trees the builder accepts, with any requests
of other parties between them, `current_children()` shows one element per tree, in order: each
fits its tree, and all mirror their trees unless the cache met a collision of the child hash
meanwhile. This is what a parser looking back at the children of the open node sees. -/
theorem currentChildren_after_events {c : ThreadedNodeCache I} (hc : c.Reachable cfg)
    (b : ThreadedGreenNodeBuilder S) (kind : S) (ts : List (SyntaxTree S)) {vs : List (View S)}
    (hvs : View.ownOps vs = SyntaxTree.eventsAll ts)
    (hv : SyntaxTree.validAll cfg.debugAssertions ts = true)
    (hlen : cfg.debugAssertions = true →
      b.docLen.toNat + (SyntaxTree.textAll ts).utf8ByteSize < 2 ^ 32) :
    ∃ c' b' es, (b.startNode kind).runView cfg c vs = .ok (c', b') ∧
      b'.currentChildren = .ok es ∧ List.Forall₂ GreenElement.Fits es ts ∧
      (GreenElement.MirrorsAll cfg es ts ∨ c'.CollidedSince cfg c.served.length) := by
  obtain ⟨c', es, h, hfit, hmir⟩ := runView_events_all cfg ts (b.startNode kind) hvs hc hv hlen
  refine ⟨c', _, es, h, ?_, hfit, hmir⟩
  simp [currentChildren, firstChild, startNode, sliceFrom]

/-- Under an open `Root`, a parser that has built `1` and `+` sees both. -/
theorem currentChildren_after_events_one_plus :
    ∃ c' b' es, ((create false : ThreadedGreenNodeBuilder TestSyntaxKind).startNode .root).runView
        ⟨true, fun _ => 0⟩ (ThreadedNodeCache.withInterner (⟨[]⟩ : ListInterner))
        ((SyntaxTree.eventsAll [.token TestSyntaxKind.int "1", .staticToken .plus]).map View.own)
        = .ok (c', b') ∧
      b'.currentChildren = .ok es ∧
      List.Forall₂ GreenElement.Fits es [.token TestSyntaxKind.int "1", .staticToken .plus] ∧
      (GreenElement.MirrorsAll ⟨true, fun _ => 0⟩ es
          [.token TestSyntaxKind.int "1", .staticToken .plus] ∨
        c'.CollidedSince ⟨true, fun _ => 0⟩ 0) :=
  currentChildren_after_events ⟨true, fun _ => 0⟩ (.withInterner _) (create false)
    TestSyntaxKind.root [.token TestSyntaxKind.int "1", .staticToken TestSyntaxKind.plus]
    (View.ownOps_map_own _) (by decide) fun _ => by decide

end ThreadedGreenNodeBuilder

end Cstree
