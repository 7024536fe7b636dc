import Cstree.Green.Builder
import Cstree.Green.CacheTheorems

/-!
# The document length

`doc_len` caches the length of the document built so far. Over every run from a reachable cache
it is the `TextSize` sum of the text lengths of the pending elements, because `finish_node` gets
back a node whose length is the sum over the slice it drains (`Inv.head_nodeOf`), hit or miss.
In a debug build the sum is moreover exact and below `2 ^ 32`, since `token`'s addition would
panic first.
-/

namespace Cstree

variable {S I : Type}

/-! ## What a builder operation does to the cache -/

namespace ThreadedNodeCache

variable (cfg : Config)

theorem Reachable.serveAll [Interner I] {c : ThreadedNodeCache I} (hc : c.Reachable cfg)
    (rs : List CacheRequest) : (c.serveAll cfg rs).Reachable cfg := by
  induction rs generalizing c with
  | nil => exact hc
  | cons r rs ih => exact ih (.serve r hc)

theorem tokenFor_serves [Syntax S] [Interner I] {c c' : ThreadedNodeCache I} {kind : S}
    {text : String} {t : GreenToken} (h : c.tokenFor cfg kind text = .ok (c', t)) :
    ∃ rs, c' = c.serveAll cfg rs := by
  unfold tokenFor at h
  split at h
  · rename_i staticText _
    split at h
    · cases h
    · exact ⟨[.token ⟨Syntax.intoRaw kind, none, UInt32.ofNat staticText.utf8ByteSize⟩],
        (congrArg Prod.fst (Except.ok.inj h)).symm⟩
  · exact ⟨[.intern text, .token ⟨Syntax.intoRaw kind, some (c.intern text).2,
      UInt32.ofNat text.utf8ByteSize⟩], (congrArg Prod.fst (Except.ok.inj h)).symm⟩

theorem staticTokenFor_serves [Syntax S] [Interner I] {c c' : ThreadedNodeCache I} {kind : S}
    {t : GreenToken} (h : c.staticTokenFor kind = .ok (c', t)) :
    ∃ rs, c' = c.serveAll cfg rs := by
  unfold staticTokenFor at h
  split at h
  · cases h
  · rename_i staticText _
    exact ⟨[.token ⟨Syntax.intoRaw kind, none, UInt32.ofNat staticText.utf8ByteSize⟩],
      (congrArg Prod.fst (Except.ok.inj h)).symm⟩

theorem tokenFor_nodes [Syntax S] [Interner I] {c c' : ThreadedNodeCache I} {kind : S}
    {text : String} {t : GreenToken} (h : c.tokenFor cfg kind text = .ok (c', t)) :
    c'.nodes = c.nodes := by
  unfold tokenFor at h
  split at h
  · split at h
    · cases h
    · rw [show c' = _ from (congrArg Prod.fst (Except.ok.inj h)).symm]; simp [token]
  · rw [show c' = _ from (congrArg Prod.fst (Except.ok.inj h)).symm]; simp [token]

theorem staticTokenFor_nodes [Syntax S] {c c' : ThreadedNodeCache I} {kind : S} {t : GreenToken}
    (h : c.staticTokenFor kind = .ok (c', t)) : c'.nodes = c.nodes := by
  unfold staticTokenFor at h
  split at h
  · cases h
  · rw [show c' = _ from (congrArg Prod.fst (Except.ok.inj h)).symm]; simp [token]

end ThreadedNodeCache

namespace ThreadedGreenNodeBuilder

variable [Syntax S] [Interner I] (cfg : Config)

/-- What one operation can do, said once: push a token the cache answered, leaving the nodes map
as it was; replace the pending elements from some index on by the node the cache answered for
them; or leave the cache as it was and keep a prefix of the pending elements. -/
theorem step_cases {c c' : ThreadedNodeCache I} {b b' : ThreadedGreenNodeBuilder S}
    {op : BuilderOp S} (h : b.step cfg c op = .ok (c', b')) :
    (∃ (t : GreenToken) (rs : List CacheRequest), c' = c.serveAll cfg rs ∧ c'.nodes = c.nodes ∧
      ((∃ (kind : S) (text : String), c.tokenFor cfg kind text = .ok (c', t)) ∨
        ∃ kind : S, c.staticTokenFor kind = .ok (c', t)) ∧
      b'.children = b.children ++ [t.toElement]) ∨
    (∃ kind firstChild, c' = c.serve cfg (.node kind (b.children.drop firstChild)) ∧
      b'.children = b.children.take firstChild ++
        [(c.nodeOf cfg kind (b.children.drop firstChild)
          (sumTextLen (b.children.drop firstChild))).2.toElement]) ∨
    (c' = c ∧ b'.children <+: b.children) := by
  cases op with
  | token kind text =>
    obtain ⟨t, ht, hp⟩ := token_ok cfg h
    obtain ⟨rs, hrs⟩ := ThreadedNodeCache.tokenFor_serves cfg ht
    obtain ⟨_, -, rfl⟩ := pushToken_ok cfg hp
    exact .inl ⟨t, rs, hrs, ThreadedNodeCache.tokenFor_nodes cfg ht, .inl ⟨kind, text, ht⟩, rfl⟩
  | staticToken kind =>
    obtain ⟨t, ht, hp⟩ := staticToken_ok cfg h
    obtain ⟨rs, hrs⟩ := ThreadedNodeCache.staticTokenFor_serves cfg ht
    obtain ⟨_, -, rfl⟩ := pushToken_ok cfg hp
    exact .inl ⟨t, rs, hrs, ThreadedNodeCache.staticTokenFor_nodes ht, .inr ⟨kind, ht⟩, rfl⟩
  | startNode kind => cases h; exact .inr (.inr ⟨rfl, List.prefix_refl _⟩)
  | finishNode =>
    obtain ⟨_, kind, firstChild, n, rest, -, hn, rfl⟩ := finishNode_ok cfg h
    obtain ⟨-, -, rfl, rfl, rfl⟩ := ThreadedNodeCache.node_ok hn
    exact .inr (.inl ⟨_, firstChild, rfl, rfl⟩)
  | startNodeAt checkpoint kind =>
    obtain ⟨rfl, -, -, rfl⟩ := step_startNodeAt_ok cfg h
    exact .inr (.inr ⟨rfl, List.prefix_refl _⟩)
  | popLastChild =>
    obtain ⟨rfl, e, hp⟩ := step_popLastChild_ok cfg h
    obtain ⟨ys, d, hys, -, -, rfl⟩ := popLastChild_ok cfg hp
    exact .inr (.inr ⟨rfl, by rw [hys]; exact List.prefix_append ys [e]⟩)

/-- A builder operation reaches the cache only through requests. -/
theorem step_serves {c c' : ThreadedNodeCache I} {b b' : ThreadedGreenNodeBuilder S}
    {op : BuilderOp S} (h : b.step cfg c op = .ok (c', b')) : ∃ rs, c' = c.serveAll cfg rs := by
  rcases step_cases cfg h with ⟨t, rs, hrs, -⟩ | ⟨kind, firstChild, rfl, -⟩ | ⟨rfl, -⟩
  · exact ⟨rs, hrs⟩
  · exact ⟨[.node kind (b.children.drop firstChild)], rfl⟩
  · exact ⟨[], rfl⟩

/-! ## The invariant -/

/-- `doc_len` is the `TextSize` sum of the pending elements' text lengths, and in a debug build
their exact sum is below `2 ^ 32`. -/
structure DocLenOk (cfg : Config) (b : ThreadedGreenNodeBuilder S) : Prop where
  docLen_eq : b.docLen = sumTextLen b.children
  natTextLen_lt : cfg.debugAssertions = true → natTextLen b.children < 2 ^ 32

omit [Syntax S] [Interner I] in
theorem DocLenOk.toNat_docLen {b : ThreadedGreenNodeBuilder S} (hb : b.DocLenOk cfg)
    (hlt : natTextLen b.children < 2 ^ 32) : b.docLen.toNat = natTextLen b.children := by
  rw [hb.docLen_eq, toNat_sumTextLen, Nat.mod_eq_of_lt hlt]

omit [Syntax S] [Interner I] in
theorem create_docLenOk (owned : Bool) : (create owned : ThreadedGreenNodeBuilder S).DocLenOk cfg :=
  ⟨rfl, fun _ => by simp [create]⟩

omit [Syntax S] [Interner I] in
theorem pushToken_docLenOk {b b' : ThreadedGreenNodeBuilder S} {t : GreenToken}
    (hb : b.DocLenOk cfg) (h : b.pushToken cfg t = .ok b') : b'.DocLenOk cfg := by
  obtain ⟨d, hd, rfl⟩ := pushToken_ok cfg h
  unfold TextSize.addAssign at hd
  split at hd
  · cases hd
  · rename_i hno
    rw [← Except.ok.inj hd]
    refine ⟨by simp [hb.docLen_eq, GreenToken.toElement, GreenElement.textLen], fun hdbg => ?_⟩
    have := hb.toNat_docLen cfg (hb.natTextLen_lt hdbg)
    simp only [hdbg, true_and, not_le] at hno
    simp [GreenToken.toElement, GreenElement.textLen]
    omega

/-- `finish_node` replaces the slice it drains by a node of the same total length. -/
theorem finishNode_replaces {c c' : ThreadedNodeCache I} {b b' : ThreadedGreenNodeBuilder S}
    (hc : c.Inv cfg) (h : b.finishNode cfg c = .ok (c', b')) :
    ∃ (firstChild : Nat) (n : GreenNode), firstChild ≤ b.children.length ∧
      b'.children = b.children.take firstChild ++ [n.toElement] ∧
      n.head.textLen = sumTextLen (b.children.drop firstChild) ∧
      ¬ (cfg.debugAssertions ∧ 2 ^ 32 ≤ natTextLen (b.children.drop firstChild)) := by
  obtain ⟨_, kind, firstChild, n, rest, -, hn, rfl⟩ := finishNode_ok cfg h
  obtain ⟨hoff, hno, -, rfl, rfl⟩ := ThreadedNodeCache.node_ok hn
  exact ⟨firstChild, _, hoff, rfl, by rw [ThreadedNodeCache.Inv.head_nodeOf cfg hc], hno⟩

theorem finishNode_docLenOk {c c' : ThreadedNodeCache I} {b b' : ThreadedGreenNodeBuilder S}
    (hc : c.Inv cfg) (hb : b.DocLenOk cfg) (h : b.finishNode cfg c = .ok (c', b')) :
    b'.DocLenOk cfg := by
  obtain ⟨firstChild, n, -, hch, hlen, hno⟩ := finishNode_replaces cfg hc h
  have hdoc : b'.docLen = b.docLen := by
    obtain ⟨_, _, _, _, _, -, -, rfl⟩ := finishNode_ok cfg h; rfl
  refine ⟨?_, fun hdbg => ?_⟩
  · rw [hdoc, hch, sumTextLen_append, hb.docLen_eq, ← sumTextLen_take_add_drop _ firstChild]
    simp [GreenNode.toElement, GreenElement.textLen, hlen]
  have hall := hb.natTextLen_lt hdbg
  have hsplit := natTextLen_append (b.children.take firstChild) (b.children.drop firstChild)
  rw [List.take_append_drop] at hsplit
  rw [hch, natTextLen_append]
  simp only [natTextLen_cons, natTextLen_nil, GreenNode.toElement, GreenElement.textLen, hlen,
    toNat_sumTextLen, Nat.mod_eq_of_lt (show natTextLen (b.children.drop firstChild) < 2 ^ 32 by
      omega)]
  omega

omit [Syntax S] [Interner I] in
theorem popLastChild_docLenOk {b b' : ThreadedGreenNodeBuilder S} {e : GreenElement}
    (hb : b.DocLenOk cfg) (h : b.popLastChild cfg = .ok (b', e)) : b'.DocLenOk cfg := by
  obtain ⟨ys, d, hys, -, hd, rfl⟩ := popLastChild_ok cfg h
  unfold TextSize.subAssign at hd
  split at hd
  · cases hd
  · rw [← Except.ok.inj hd]
    refine ⟨by simp [hb.docLen_eq, hys], fun hdbg => ?_⟩
    have := hb.natTextLen_lt hdbg
    simp [hys] at this ⊢
    omega

omit [Syntax S] [Interner I] in
/-- Under the invariant `pop_last_child` returns whenever the innermost frame has a child: its
subtraction cannot underflow. -/
theorem popLastChild_of_lt {b : ThreadedGreenNodeBuilder S} (hb : b.DocLenOk cfg)
    (hf : b.firstChild < b.children.length) :
    ∃ b' e, b.popLastChild cfg = .ok (b', e) ∧ b'.children = b.children.dropLast := by
  obtain ⟨ys, e, hys⟩ :=
    (List.eq_nil_or_concat b.children).resolve_left fun h => by simp [h] at hf
  rw [List.concat_eq_append] at hys
  have hsub : (TextSize.subAssign cfg b.docLen e.textLen : Except (Panic S) _)
      = .ok (b.docLen - e.textLen) := by
    refine if_neg fun ⟨hdbg, hlt⟩ => ?_
    have := hb.toNat_docLen cfg (hb.natTextLen_lt hdbg)
    have := toNat_textLen_le_natTextLen (show e ∈ b.children by simp [hys])
    omega
  refine
    ⟨{ b with children := b.children.dropLast, docLen := b.docLen - e.textLen }, e, ?_, rfl⟩
  unfold popLastChild currentChildren sliceFrom
  rw [if_pos hf.le]
  simp only [hys, List.length_append, List.length_singleton] at hf ⊢
  simp [hf, hsub]

/-- What one operation does to `document_len()` and the pending elements: `token` and `static_token`
push a token and add its length; `start_node` and `start_node_at` change neither; `finish_node`
replaces the elements from some index on by a node of their total length and keeps
`document_len()`; `pop_last_child` removes the last element and subtracts its length. -/
def DocLenStep : BuilderOp S → ThreadedGreenNodeBuilder S → ThreadedGreenNodeBuilder S → Prop
  | .token .., b, b' | .staticToken _, b, b' => ∃ t : GreenToken,
    b'.children = b.children ++ [t.toElement] ∧ b'.documentLen = b.documentLen + t.data.textLen
  | .startNode _, b, b' | .startNodeAt .., b, b' =>
    b'.children = b.children ∧ b'.documentLen = b.documentLen
  | .finishNode, b, b' => (∃ (firstChild : Nat) (n : GreenNode),
      b'.children = b.children.take firstChild ++ [n.toElement] ∧
      n.head.textLen = sumTextLen (b.children.drop firstChild)) ∧ b'.documentLen = b.documentLen
  | .popLastChild, b, b' => ∃ e : GreenElement,
    b.children = b'.children ++ [e] ∧ b'.documentLen = b.documentLen - e.textLen

omit [Syntax S] [Interner I] in
theorem pushToken_documentLen {b b' : ThreadedGreenNodeBuilder S} {t : GreenToken}
    (h : b.pushToken cfg t = .ok b') :
    b'.children = b.children ++ [t.toElement] ∧ b'.documentLen = b.documentLen + t.data.textLen := by
  obtain ⟨d, hd, rfl⟩ := pushToken_ok cfg h
  exact ⟨rfl, TextSize.eq_add_of_addAssign hd⟩

/-- Every operation does to `document_len()` what `DocLenStep` says, on a cache that satisfies
`Inv`. -/
theorem step_docLenStep {c c' : ThreadedNodeCache I} {b b' : ThreadedGreenNodeBuilder S}
    {op : BuilderOp S} (hc : c.Inv cfg) (h : b.step cfg c op = .ok (c', b')) :
    DocLenStep op b b' := by
  cases op with
  | token kind text =>
    obtain ⟨t, -, hp⟩ := token_ok cfg h
    exact ⟨t, pushToken_documentLen cfg hp⟩
  | staticToken kind =>
    obtain ⟨t, -, hp⟩ := staticToken_ok cfg h
    exact ⟨t, pushToken_documentLen cfg hp⟩
  | startNode kind => cases h; exact ⟨rfl, rfl⟩
  | finishNode =>
    obtain ⟨firstChild, n, -, hch, hlen, -⟩ := finishNode_replaces cfg hc h
    obtain ⟨_, _, _, _, _, -, -, rfl⟩ := finishNode_ok cfg h
    exact ⟨⟨firstChild, n, hch, hlen⟩, rfl⟩
  | startNodeAt checkpoint kind =>
    obtain ⟨-, -, -, rfl⟩ := step_startNodeAt_ok cfg h
    exact ⟨rfl, rfl⟩
  | popLastChild =>
    obtain ⟨-, e, hp⟩ := step_popLastChild_ok cfg h
    obtain ⟨ys, d, hys, -, hd, rfl⟩ := popLastChild_ok cfg hp
    exact ⟨e, hys, TextSize.eq_sub_of_subAssign hd⟩

/-- One operation keeps the invariant, on a cache that satisfies `Inv`. -/
theorem step_docLenOk {c c' : ThreadedNodeCache I} {b b' : ThreadedGreenNodeBuilder S}
    {op : BuilderOp S} (hc : c.Inv cfg) (hb : b.DocLenOk cfg) (h : b.step cfg c op = .ok (c', b')) :
    b'.DocLenOk cfg := by
  cases op with
  | token kind text =>
    obtain ⟨t, -, hp⟩ := token_ok cfg h
    exact pushToken_docLenOk cfg hb hp
  | staticToken kind =>
    obtain ⟨t, -, hp⟩ := staticToken_ok cfg h
    exact pushToken_docLenOk cfg hb hp
  | startNode kind => cases h; exact ⟨hb.docLen_eq, hb.natTextLen_lt⟩
  | finishNode => exact finishNode_docLenOk cfg hc hb h
  | startNodeAt checkpoint kind =>
    obtain ⟨-, -, -, rfl⟩ := step_startNodeAt_ok cfg h
    exact ⟨hb.docLen_eq, hb.natTextLen_lt⟩
  | popLastChild =>
    obtain ⟨-, e, hp⟩ := step_popLastChild_ok cfg h
    exact popLastChild_docLenOk cfg hb hp

/-- A run from a reachable cache keeps the invariant, and the cache reachable. -/
theorem run_docLenOk {c c' : ThreadedNodeCache I} {b b' : ThreadedGreenNodeBuilder S}
    (hc : c.Reachable cfg) (hb : b.DocLenOk cfg) {ops : List (BuilderOp S)}
    (h : b.run cfg c ops = .ok (c', b')) : b'.DocLenOk cfg ∧ c'.Reachable cfg := by
  induction ops generalizing c b with
  | nil => cases h; exact ⟨hb, hc⟩
  | cons op ops ih =>
    obtain ⟨⟨c₁, b₁⟩, hs, hr⟩ := except_bind_eq_ok.1 h
    obtain ⟨rs, rfl⟩ := step_serves cfg hs
    exact ih (hc.serveAll cfg rs)
      (step_docLenOk cfg (ThreadedNodeCache.Reachable.inv cfg hc) hb hs) hr

/-! ## The document-length law -/

/-- Over every run of a fresh builder from a reachable cache that raises no panic,
`document_len()` is the `TextSize` sum of the pending elements' text lengths; a debug build keeps
the exact sum below `2 ^ 32`; and while the exact sum is below `2 ^ 32`, `document_len()` is that
sum, no pending element is longer (so `pop_last_child`'s subtraction cannot underflow), and the
accumulation in `node()` over any drained slice cannot overflow. Each operation over a reachable
cache does what `DocLenStep` says: `token` and `static_token` add the new token's length,
`finish_node` replaces a run of elements by a node of their total length, `start_node` and
`start_node_at` change nothing, and `pop_last_child` subtracts the removed element's length. -/
theorem documentLen_eq_sumTextLen {c₀ c : ThreadedNodeCache I} {b : ThreadedGreenNodeBuilder S}
    (owned : Bool) (ops : List (BuilderOp S)) (hc : c₀.Reachable cfg)
    (h : (create owned).run cfg c₀ ops = .ok (c, b)) :
    (∀ (c₁ c₂ : ThreadedNodeCache I) (b₁ b₂ : ThreadedGreenNodeBuilder S) (op : BuilderOp S),
      c₁.Reachable cfg → b₁.step cfg c₁ op = .ok (c₂, b₂) → DocLenStep op b₁ b₂) ∧
    b.documentLen = sumTextLen b.children ∧
      (cfg.debugAssertions = true → natTextLen b.children < 2 ^ 32) ∧
      (natTextLen b.children < 2 ^ 32 →
        b.documentLen.toNat = natTextLen b.children ∧
        (∀ e ∈ b.children, e.textLen.toNat ≤ b.documentLen.toNat) ∧
        ∀ firstChild, natTextLen (b.children.drop firstChild) < 2 ^ 32 ∧
          (ThreadedNodeCache.accumulateTextLen cfg (b.children.drop firstChild)
            : Except (Panic S) TextSize) = .ok (sumTextLen (b.children.drop firstChild))) := by
  obtain ⟨hb, -⟩ := run_docLenOk cfg hc (create_docLenOk cfg owned) h
  refine ⟨fun _ _ _ _ _ hc₁ hs => step_docLenStep cfg (hc₁.inv cfg) hs, hb.docLen_eq,
    hb.natTextLen_lt, fun hlt => ?_⟩
  have hdoc := hb.toNat_docLen cfg hlt
  refine ⟨hdoc, fun e he => hdoc ▸ toNat_textLen_le_natTextLen he, fun f => ?_⟩
  have hf : natTextLen (b.children.drop f) < 2 ^ 32 := (natTextLen_drop_le _ f).trans_lt hlt
  refine ⟨hf, ?_⟩
  rw [ThreadedNodeCache.accumulateTextLen_eq, if_neg fun h => absurd h.2 (Nat.not_le.2 hf)]

theorem documentLen_eq_sumTextLen_plus :
    ∃ c b, (create true : ThreadedGreenNodeBuilder TestSyntaxKind).run ⟨true, fun _ => 0⟩
        (ThreadedNodeCache.withInterner (⟨[]⟩ : ListInterner))
        [.startNode .root, .token .int "42", .staticToken .plus, .finishNode] = .ok (c, b) ∧
      (∀ (c₁ c₂ : ThreadedNodeCache ListInterner) (b₁ b₂ : ThreadedGreenNodeBuilder TestSyntaxKind)
        (op : BuilderOp TestSyntaxKind), c₁.Reachable ⟨true, fun _ => 0⟩ →
        b₁.step ⟨true, fun _ => 0⟩ c₁ op = .ok (c₂, b₂) → DocLenStep op b₁ b₂) ∧
      b.documentLen = sumTextLen b.children ∧
      ((⟨true, fun _ => 0⟩ : Config).debugAssertions = true → natTextLen b.children < 2 ^ 32) ∧
      (natTextLen b.children < 2 ^ 32 →
        b.documentLen.toNat = natTextLen b.children ∧
        (∀ e ∈ b.children, e.textLen.toNat ≤ b.documentLen.toNat) ∧
        ∀ firstChild, natTextLen (b.children.drop firstChild) < 2 ^ 32 ∧
          (ThreadedNodeCache.accumulateTextLen ⟨true, fun _ => 0⟩ (b.children.drop firstChild)
            : Except (Panic TestSyntaxKind) TextSize) = .ok (sumTextLen (b.children.drop firstChild))) := by
  obtain ⟨c, b, h⟩ : ∃ c b, (create true : ThreadedGreenNodeBuilder TestSyntaxKind).run
      ⟨true, fun _ => 0⟩ (ThreadedNodeCache.withInterner (⟨[]⟩ : ListInterner))
      [.startNode .root, .token .int "42", .staticToken .plus, .finishNode] = .ok (c, b) :=
    ⟨_, _, rfl⟩
  exact ⟨c, b, h, documentLen_eq_sumTextLen _ true _ (.withInterner _) h⟩

end ThreadedGreenNodeBuilder

end Cstree
