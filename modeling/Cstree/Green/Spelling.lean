import Cstree.Green.Dedup

/-!
# Building exactly the tree a parser describes

`Mirrors` fixes what a built element keeps of its tree's shape: variants, kinds, text lengths,
child hashes, and which tokens carry a text key. Which text a key stands for is the interner's:
`token(kind, text)` stores the key `get_or_intern(text)` returns (`threaded_builder.rs:413-417`).
`Spells` says that every token of an element is the token its leaf asks for under the cache's
interner (`LeafData`), so that its key is the interner's key for the leaf's text. An element then
spells at most one text, when kinds are told apart and the interner gives distinct texts distinct
keys (`spells_determines_text`).

With the interner's contract (`LawfulInterner`), a text keeps its key while the cache serves other
requests. Then from a fresh builder over any reachable cache, the operations of a node build a
root that mirrors the node and spells its text, unless the child hash collided meanwhile
(`finish_events_mirrors`). A builder that owns a cache owning its interner hands that interner back
through `finish` and `into_interner` (`finish_into_interner_spells`).
-/

namespace Cstree

variable {S I : Type}

mutual
/-- `e` spells the tree in the cache `c`: each token of `e` is the token its leaf asks for under
`c`'s interner (for a leaf with text, the interner's key for that text), node for node. -/
def GreenElement.Spells [Syntax S] [Interner I] (c : ThreadedNodeCache I) :
    GreenElement → SyntaxTree S → Prop
  | .node _ _ cs, .node _ ts => GreenElement.SpellsAll c cs ts
  | .token _ data, .token kind text => c.LeafData kind text data
  | .token _ data, .staticToken kind => c.LeafData kind "" data
  | _, _ => False

/-- `Spells`, element by element. -/
def GreenElement.SpellsAll [Syntax S] [Interner I] (c : ThreadedNodeCache I) :
    List GreenElement → List (SyntaxTree S) → Prop
  | [], [] => True
  | e :: es, t :: ts => e.Spells c t ∧ GreenElement.SpellsAll c es ts
  | _, _ => False
end

/-- The interner gives distinct texts distinct keys: a key it holds stands for one text. -/
def KeysInjective [Interner I] (i : I) : Prop :=
  ∀ (s s' : String) (k : TokenKey), Interner.getOrIntern i s = (i, k) →
    Interner.getOrIntern i s' = (i, k) → s = s'

namespace GreenElement

variable [Syntax S] [Interner I] {c : ThreadedNodeCache I}

mutual
/-- `Spells` reads no allocation id, so it holds of every element with the same structure. -/
theorem Spells.of_strip_eq : ∀ (e e' : GreenElement) (t : SyntaxTree S),
    e'.strip = e.strip → e.Spells c t → e'.Spells c t
  | .node _ _ cs, .node _ _ cs', .node _ ts, hs, h => by
    simp only [GreenElement.strip_node, GreenElement.node.injEq] at hs
    exact GreenElement.SpellsAll.of_strip_eq cs cs' ts hs.2.2 h
  | .node .., .node .., .token .., _, h | .node .., .node .., .staticToken .., _, h => h.elim
  | .token .., .token .., t, hs, h => by
    simp only [GreenElement.strip_token, GreenElement.token.injEq, true_and] at hs
    subst hs
    cases t <;> exact h
  | .node .., .token .., _, hs, _ | .token .., .node .., _, hs, _ => by simp at hs

/-- `Spells.of_strip_eq`, element by element. -/
theorem SpellsAll.of_strip_eq : ∀ (es es' : List GreenElement) (ts : List (SyntaxTree S)),
    es'.map GreenElement.strip = es.map GreenElement.strip → SpellsAll c es ts → SpellsAll c es' ts
  | [], [], ts, _, h => h
  | e :: es, e' :: es', t :: ts, hs, ⟨he, hes⟩ => by
    simp only [List.map_cons, List.cons.injEq] at hs
    exact ⟨GreenElement.Spells.of_strip_eq e e' t hs.1 he,
      GreenElement.SpellsAll.of_strip_eq es es' ts hs.2 hes⟩
  | [], _ :: _, _, hs, _ | _ :: _, [], _, hs, _ => by simp at hs
  | _ :: _, _ :: _, [], _, h => h.elim
end

variable (cfg : Config)

mutual
/-- A request keeps every spelling, the interner keeping each text's key. -/
theorem Spells.serve [LawfulInterner I] : ∀ (e : GreenElement) (t : SyntaxTree S), e.Spells c t →
    ∀ r, e.Spells (c.serve cfg r) t
  | .node _ _ cs, .node _ ts, h, r => GreenElement.SpellsAll.serve cs ts h r
  | .token .., .token .., h, r | .token .., .staticToken _, h, r =>
    ThreadedNodeCache.LeafData.serve cfg h r
  | .node .., .token .., h, _ | .node .., .staticToken _, h, _ | .token .., .node .., h, _ => h.elim

/-- `Spells.serve`, element by element. -/
theorem SpellsAll.serve [LawfulInterner I] : ∀ (es : List GreenElement) (ts : List (SyntaxTree S)),
    SpellsAll c es ts → ∀ r, SpellsAll (c.serve cfg r) es ts
  | [], [], h, _ => h
  | e :: es, t :: ts, h, r =>
    ⟨GreenElement.Spells.serve e t h.1 r, GreenElement.SpellsAll.serve es ts h.2 r⟩
  | [], _ :: _, h, _ | _ :: _, [], h, _ => h.elim
end

theorem Spells.serveAll [LawfulInterner I] {e : GreenElement} {t : SyntaxTree S}
    (h : e.Spells c t) (rs : List CacheRequest) : e.Spells (c.serveAll cfg rs) t := by
  induction rs generalizing c with
  | nil => exact h
  | cons r rs ih => exact ih (h.serve cfg e t r)

theorem SpellsAll.serveAll [LawfulInterner I] {es : List GreenElement}
    {ts : List (SyntaxTree S)} (h : SpellsAll c es ts) (rs : List CacheRequest) :
    SpellsAll (c.serveAll cfg rs) es ts := by
  induction rs generalizing c with
  | nil => exact h
  | cons r rs ih => exact ih (h.serve cfg es ts r)

/-! ## A spelling fixes the text -/

/-- Two leaves whose data is one token's have the same text, when kinds are told apart by their raw
kinds and the interner gives distinct texts distinct keys. -/
theorem leafText_eq_of_leafData (hkind : Function.Injective (Syntax.intoRaw : S → RawSyntaxKind))
    (hkey : KeysInjective c.interner) {kind₁ kind₂ : S} {text₁ text₂ : String} {d : GreenTokenData}
    (h₁ : c.LeafData kind₁ text₁ d) (h₂ : c.LeafData kind₂ text₂ d) :
    SyntaxTree.leafText kind₁ text₁ = SyntaxTree.leafText kind₂ text₂ := by
  obtain ⟨hk₁, -, ht₁⟩ := h₁
  obtain ⟨hk₂, -, ht₂⟩ := h₂
  obtain rfl := hkind (hk₁.symm.trans hk₂)
  unfold SyntaxTree.leafText
  revert ht₁ ht₂
  cases Syntax.staticText kind₁ with
  | some _ => exact fun _ _ => rfl
  | none =>
    rintro ⟨k₁, hd₁, hi₁⟩ ⟨k₂, hd₂, hi₂⟩
    obtain rfl : k₁ = k₂ := Option.some.inj (hd₁.symm.trans hd₂)
    exact hkey _ _ _ hi₁ hi₂

mutual
/-- A green element spells at most one text in a cache, when kinds are told apart by their raw
kinds and the interner gives distinct texts distinct keys: the text of a tree can be read back
from the element built for it and the interner. -/
theorem spells_determines_text (hkind : Function.Injective (Syntax.intoRaw : S → RawSyntaxKind))
    (hkey : KeysInjective c.interner) :
    ∀ (e : GreenElement) (t₁ t₂ : SyntaxTree S), e.Spells c t₁ → e.Spells c t₂ → t₁.text = t₂.text
  | .node _ _ cs, .node _ ts₁, .node _ ts₂, h₁, h₂ =>
    GreenElement.spellsAll_determines_text hkind hkey cs ts₁ ts₂ h₁ h₂
  | .token .., .token .., .token .., h₁, h₂ | .token .., .token .., .staticToken _, h₁, h₂
  | .token .., .staticToken _, .token .., h₁, h₂
  | .token .., .staticToken _, .staticToken _, h₁, h₂ =>
    leafText_eq_of_leafData hkind hkey h₁ h₂
  | .node .., .node .., .token .., _, h | .node .., .node .., .staticToken _, _, h
  | .node .., .token .., _, h, _ | .node .., .staticToken _, _, h, _
  | .token .., .node .., _, h, _ | .token .., .token .., .node .., _, h
  | .token .., .staticToken _, .node .., _, h => h.elim

/-- `spells_determines_text`, element by element. -/
theorem spellsAll_determines_text
    (hkind : Function.Injective (Syntax.intoRaw : S → RawSyntaxKind))
    (hkey : KeysInjective c.interner) :
    ∀ (es : List GreenElement) (ts₁ ts₂ : List (SyntaxTree S)),
    SpellsAll c es ts₁ → SpellsAll c es ts₂ → SyntaxTree.textAll ts₁ = SyntaxTree.textAll ts₂
  | [], [], [], _, _ => rfl
  | e :: es, t₁ :: ts₁, t₂ :: ts₂, h₁, h₂ => by
    rw [SyntaxTree.textAll, SyntaxTree.textAll,
      GreenElement.spells_determines_text hkind hkey e t₁ t₂ h₁.1 h₂.1,
      GreenElement.spellsAll_determines_text hkind hkey es ts₁ ts₂ h₁.2 h₂.2]
  | [], _ :: _, _, h, _ | [], [], _ :: _, _, h | _ :: _, [], _, h, _
  | _ :: _, _ :: _, [], _, h => h.elim
end

end GreenElement

/-- `into_raw` of the test kinds tells them apart. -/
theorem TestSyntaxKind.intoRaw_injective :
    Function.Injective (Syntax.intoRaw : TestSyntaxKind → RawSyntaxKind) := by
  intro a b h
  cases a <;> cases b <;> first | rfl | exact absurd h (by decide)

/-- `ListInterner` gives distinct texts distinct keys while it holds at most `2 ^ 32` of them. -/
theorem ListInterner.keysInjective (i : ListInterner) (hlen : i.texts.length ≤ 2 ^ 32) :
    KeysInjective i := by
  intro s s' k h h'
  have key : ∀ {s}, Interner.getOrIntern i s = (i, k) →
      ∃ (j : Nat) (hj : j < i.texts.length), i.texts[j] = s ∧ k = ⟨UInt32.ofNat j⟩ := by
    intro s h
    rw [ListInterner.getOrIntern_eq] at h
    cases hs : i.texts.indexOf? s with
    | none =>
      rw [hs] at h
      have := congrArg (fun i : ListInterner => i.texts.length) (Prod.ext_iff.1 h).1
      simp at this
    | some j =>
      rw [hs] at h
      obtain ⟨hj, hp, -⟩ := List.findIdx?_eq_some_iff_getElem.1 hs
      exact ⟨j, hj, by simpa using hp, (Prod.ext_iff.1 h).2.symm⟩
  obtain ⟨j, hj, rfl, rfl⟩ := key h
  obtain ⟨j', hj', rfl, hk⟩ := key h'
  have := congrArg UInt32.toNat (TokenKey.mk.inj hk)
  rw [UInt32.toNat_ofNat_of_lt (hj.trans_le hlen), UInt32.toNat_ofNat_of_lt (hj'.trans_le hlen)]
    at this
  subst this
  rfl

/-- The node built for `Root[1]` over an interner holding `1` spells `Root[1]` and `Operation[1]`:
`Spells` fixes the text, and `Mirrors` the kinds. -/
theorem spells_determines_text_root_operation :
    GreenElement.Spells (.withInterner (⟨["1"]⟩ : ListInterner))
        (.node 1 ⟨Syntax.intoRaw TestSyntaxKind.root, 1, 0⟩
          [.token 0 ⟨Syntax.intoRaw TestSyntaxKind.int, some ⟨0⟩, 1⟩])
        (.node TestSyntaxKind.root [.token .int "1"]) ∧
      GreenElement.Spells (.withInterner (⟨["1"]⟩ : ListInterner))
        (.node 1 ⟨Syntax.intoRaw TestSyntaxKind.root, 1, 0⟩
          [.token 0 ⟨Syntax.intoRaw TestSyntaxKind.int, some ⟨0⟩, 1⟩])
        (.node TestSyntaxKind.operation [.token .int "1"]) ∧
      (SyntaxTree.node TestSyntaxKind.root [.token .int "1"]).text
        = (SyntaxTree.node TestSyntaxKind.operation [.token .int "1"]).text :=
  have h : ∀ kind : TestSyntaxKind, GreenElement.Spells (.withInterner (⟨["1"]⟩ : ListInterner))
      (.node 1 ⟨Syntax.intoRaw TestSyntaxKind.root, 1, 0⟩
        [.token 0 ⟨Syntax.intoRaw TestSyntaxKind.int, some ⟨0⟩, 1⟩])
      (.node kind [.token .int "1"]) := fun _ => ⟨⟨rfl, rfl, ⟨0⟩, rfl, rfl⟩, trivial⟩
  ⟨h _, h _, GreenElement.spells_determines_text TestSyntaxKind.intoRaw_injective
    (ListInterner.keysInjective _ (by decide)) _ _ _ (h _) (h _)⟩

/-! ## Building a tree spells it -/

namespace ThreadedGreenNodeBuilder

variable [Syntax S] [Interner I] [LawfulInterner I] (cfg : Config)

mutual
/-- From any builder and any reachable cache, the operations of a tree the builder accepts, with
any requests of other parties between them, push an element that spells the tree in the cache
they end with, unless the cache met a collision of the child hash meanwhile. -/
theorem runView_events_spells : ∀ (t : SyntaxTree S) {vs : List (View S)}
    {c : ThreadedNodeCache I} (b : ThreadedGreenNodeBuilder S), View.ownOps vs = t.events →
    c.Reachable cfg → t.valid cfg.debugAssertions = true →
    (cfg.debugAssertions = true → b.docLen.toNat + t.text.utf8ByteSize < 2 ^ 32) →
    ∃ c' e, b.runView cfg c vs = .ok (c',
      { b with children := b.children ++ [e],
               docLen := b.docLen + UInt32.ofNat t.text.utf8ByteSize }) ∧
      (e.Spells c' t ∨ c'.CollidedSince cfg c.served.length)
  | .node kind children, vs, c, b, hvs, hc, hv, hlen => by
    obtain ⟨rs₀, vs₁, rs₂, rs₃, hvs₁, hnode⟩ := runView_node (I := I) cfg hvs
    obtain ⟨c₁, es, hrun, hsp⟩ := runView_events_spells_all children (b.startNode kind) hvs₁
      (hc.serveAll cfg rs₀) hv hlen
    obtain ⟨c₁', es', hrun', hfits, -⟩ := runView_events_all cfg children (b.startNode kind) hvs₁
      (hc.serveAll cfg rs₀) hv hlen
    obtain ⟨rfl, hb⟩ := Prod.mk.inj (Except.ok.inj (hrun.symm.trans hrun'))
    obtain rfl : es = es' := List.append_cancel_left (congrArg (·.children) hb)
    obtain ⟨rs₁, rfl⟩ := runView_serves cfg hrun
    have hno : ¬ (cfg.debugAssertions ∧ 2 ^ 32 ≤ natTextLen es) := fun h =>
      absurd (hlen h.1) (by have := natTextLen_le_of_fits hfits; simp only [SyntaxTree.text]; omega)
    have hc₂ := ((hc.serveAll cfg rs₀).serveAll cfg rs₁).serveAll cfg rs₂
    refine ⟨_, _, hnode c _ b es _ hrun hno, ?_⟩
    -- the children spell their trees and the node request is answered as asked, or a collision
    -- stays in the cache
    rcases hsp with hsp | hcol
    · rcases (hc₂.inv cfg).nodeOf_requested_or_collided cfg (Syntax.intoRaw kind) es with
        ⟨-, hcs⟩ | hcol
      · exact .inl (GreenElement.SpellsAll.of_strip_eq es _ children hcs
          (((hsp.serveAll cfg rs₂).serve cfg es children (.node (Syntax.intoRaw kind) es)).serveAll
            cfg rs₃))
      · exact .inr ((hcol.mono cfg (by simp)).serveAll cfg rs₃)
    · have hserved : c.served.length ≤ (c.serveAll cfg rs₀).served.length := by simp
      exact .inr ((((hcol.mono cfg hserved).serveAll cfg rs₂).serveAll cfg
        [.node (Syntax.intoRaw kind) es]).serveAll cfg rs₃)
  | .token kind text, vs, c, b, hvs, hc, hv, hlen => by
    obtain ⟨c', e, h, he⟩ := runView_leaf (P := fun c e => e.Spells c (.token kind text)) cfg
      (.token kind text) hvs b hc (fun c₀ hc₀ => by
        obtain ⟨c₁, t, ht, hm⟩ := ThreadedNodeCache.tokenFor_of_valid cfg (hc₀.inv cfg) hv
        refine ⟨c₁, t.toElement, ?_, ((hc₀.inv cfg).leafData_tokenFor cfg ht).2⟩
        simp only [step, token, ht, pushToken_of_fits cfg b hm.fits hlen, except_ok_bind,
          except_pure]) fun _ e rs h => h.serveAll cfg rs
    exact ⟨c', e, h, .inl he⟩
  | .staticToken kind, vs, c, b, hvs, hc, hv, hlen => by
    obtain ⟨c', e, h, he⟩ := runView_leaf (P := fun c e => e.Spells c (.staticToken kind)) cfg
      (.staticToken kind) hvs b hc (fun c₀ hc₀ => by
        obtain ⟨c₁, t, ht, hm⟩ := ThreadedNodeCache.staticTokenFor_of_valid cfg (hc₀.inv cfg) hv
        refine ⟨c₁, t.toElement, ?_, ((hc₀.inv cfg).leafData_staticTokenFor cfg ht).2⟩
        simp only [step, staticToken, ht, pushToken_of_fits cfg b hm.fits hlen, except_ok_bind,
          except_pure]) fun _ e rs h => h.serveAll cfg rs
    exact ⟨c', e, h, .inl he⟩

/-- `runView_events_spells` over a list of trees: one element per tree, all of which spell their
trees unless the cache met a collision meanwhile. -/
theorem runView_events_spells_all : ∀ (ts : List (SyntaxTree S)) {vs : List (View S)}
    {c : ThreadedNodeCache I} (b : ThreadedGreenNodeBuilder S),
    View.ownOps vs = SyntaxTree.eventsAll ts → c.Reachable cfg →
    SyntaxTree.validAll cfg.debugAssertions ts = true →
    (cfg.debugAssertions = true →
      b.docLen.toNat + (SyntaxTree.textAll ts).utf8ByteSize < 2 ^ 32) →
    ∃ c' es, b.runView cfg c vs = .ok (c',
      { b with children := b.children ++ es,
               docLen := b.docLen + UInt32.ofNat (SyntaxTree.textAll ts).utf8ByteSize })
      ∧ (GreenElement.SpellsAll c' es ts ∨ c'.CollidedSince cfg c.served.length)
  | [], vs, c, b, hvs, _, _, _ => by
    obtain ⟨rs, rfl⟩ := View.exists_of_ownOps_eq_nil hvs
    have hdoc : b.docLen + UInt32.ofNat (SyntaxTree.textAll ([] : List (SyntaxTree S))).utf8ByteSize
        = b.docLen := add_zero _
    exact ⟨_, [], by rw [runView_map_other, List.append_nil, hdoc], .inl trivial⟩
  | t :: ts, vs, c, b, hvs, hc, hv, hlen => by
    obtain ⟨vs₁, vs₂, rfl, hvs₁, hvs₂⟩ := View.exists_split_of_ownOps_eq_append hvs
    simp only [SyntaxTree.validAll, Bool.and_eq_true] at hv
    simp only [SyntaxTree.textAll, utf8ByteSize_append] at hlen
    obtain ⟨c₁, e, h₁, he⟩ :=
      runView_events_spells t b hvs₁ hc hv.1 fun h => by have := hlen h; omega
    obtain ⟨rs₁, rfl⟩ := runView_serves cfg h₁
    have hdoc : cfg.debugAssertions = true → (b.docLen + UInt32.ofNat t.text.utf8ByteSize).toNat
        = b.docLen.toNat + t.text.utf8ByteSize := fun h => by
      have := hlen h
      rw [TextSize.toNat_add, TextSize.toNat_ofNat,
        Nat.mod_eq_of_lt (by omega : t.text.utf8ByteSize < 2 ^ 32), Nat.mod_eq_of_lt (by omega)]
    obtain ⟨c₂, es, h₂, hes⟩ := runView_events_spells_all ts
      { b with children := b.children ++ [e],
               docLen := b.docLen + UInt32.ofNat t.text.utf8ByteSize }
      hvs₂ (hc.serveAll cfg rs₁) hv.2 fun h => by rw [hdoc h]; have := hlen h; omega
    obtain ⟨rs₂, rfl⟩ := runView_serves cfg h₂
    refine ⟨(c.serveAll cfg rs₁).serveAll cfg rs₂, e :: es, ?_, ?_⟩
    · rw [runView_append, h₁]
      refine h₂.trans ?_
      simp [SyntaxTree.textAll, utf8ByteSize_append, TextSize.ofNat_add, add_assoc]
    rcases he with he | hcol
    · rcases hes with hes | hcol
      · exact .inl ⟨he.serveAll cfg rs₂, hes⟩
      · exact .inr (hcol.mono cfg (by simp))
    · exact .inr (hcol.serveAll cfg rs₂)
end

/-- From a fresh builder over any reachable cache, the operations of a node the builder accepts,
with any requests of other parties between them, leave a builder that still owns its cache when it
did and that finishes with a root mirroring and spelling the node, unless the child hash collided
meanwhile. -/
theorem runView_finish_spells {c : ThreadedNodeCache I} (hc : c.Reachable cfg) (owned : Bool)
    (kind : S) (children : List (SyntaxTree S)) {vs : List (View S)}
    (hvs : View.ownOps vs = (SyntaxTree.node kind children).events)
    (hv : (SyntaxTree.node kind children).valid cfg.debugAssertions = true)
    (hlen : cfg.debugAssertions = true →
      (SyntaxTree.node kind children).text.utf8ByteSize < 2 ^ 32) :
    ∃ c' b root, (create owned).runView cfg c vs = .ok (c', b) ∧ b.cacheOwned = owned ∧
      b.finish c' = .ok (root, if owned then some c' else none) ∧
      ((root.toElement.Mirrors cfg (.node kind children) ∧
          root.toElement.Spells c' (.node kind children)) ∨
        c'.CollidedSince cfg c.served.length) := by
  have hlen' : cfg.debugAssertions = true →
      (create owned : ThreadedGreenNodeBuilder S).docLen.toNat
        + (SyntaxTree.node kind children).text.utf8ByteSize < 2 ^ 32 :=
    fun hdbg => by simpa [create] using hlen hdbg
  obtain ⟨c', e, h, hfit, hmir⟩ :=
    runView_events cfg (.node kind children) (create owned) hvs hc hv hlen'
  obtain ⟨c'', e', h', hsp⟩ :=
    runView_events_spells cfg (.node kind children) (create owned) hvs hc hv hlen'
  obtain ⟨rfl, hb⟩ := Prod.mk.inj (Except.ok.inj (h.symm.trans h'))
  obtain rfl : e = e' := by simpa [create] using congrArg (·.children) hb
  obtain ⟨root, hfin, rfl, -⟩ := finish_of_fits owned c' hfit rfl
  refine ⟨c', _, root, h, rfl, hfin _, ?_⟩
  rcases hmir with hmir | hcol
  · exact hsp.imp_left (⟨hmir, ·⟩)
  · exact .inr hcol

/-- From a fresh builder over any reachable cache, the operations of a node whose tokens the builder
accepts, with any requests of other parties between them, build a root that mirrors the node all
the way down (kinds, text lengths, child hashes and shape) and spells its text (each token's key is
the key the interner holds for the leaf's text), unless the cache met a collision of the child hash
while they ran: it then holds, under the head of a node request served meanwhile, a node with other
children. -/
theorem finish_events_mirrors {c : ThreadedNodeCache I} (hc : c.Reachable cfg) (owned : Bool)
    (kind : S) (children : List (SyntaxTree S)) {vs : List (View S)}
    (hvs : View.ownOps vs = (SyntaxTree.node kind children).events)
    (hv : (SyntaxTree.node kind children).valid cfg.debugAssertions = true)
    (hlen : cfg.debugAssertions = true →
      (SyntaxTree.node kind children).text.utf8ByteSize < 2 ^ 32) :
    ∃ c' b root, (create owned).runView cfg c vs = .ok (c', b) ∧
      b.finish c' = .ok (root, if owned then some c' else none) ∧
      ((root.toElement.Mirrors cfg (.node kind children) ∧
          root.toElement.Spells c' (.node kind children)) ∨
        c'.CollidedSince cfg c.served.length) :=
  let ⟨c', b, root, h, _, hfin, hms⟩ := runView_finish_spells cfg hc owned kind children hvs hv hlen
  ⟨c', b, root, h, hfin, hms⟩

/-- `1+2` built alone from a fresh cache in a debug build. -/
theorem finish_events_mirrors_one_plus_two :
    ∃ c' b root, (create false : ThreadedGreenNodeBuilder TestSyntaxKind).runView
        ⟨true, fun _ => 0⟩ (ThreadedNodeCache.withInterner (⟨[]⟩ : ListInterner))
        ((SyntaxTree.node TestSyntaxKind.operation
          [.token .int "1", .staticToken .plus, .token .int "2"]).events.map .own) = .ok (c', b) ∧
      b.finish c' = .ok (root, none) ∧
      ((root.toElement.Mirrors ⟨true, fun _ => 0⟩ (SyntaxTree.node TestSyntaxKind.operation
          [.token .int "1", .staticToken .plus, .token .int "2"]) ∧
        root.toElement.Spells c' (SyntaxTree.node TestSyntaxKind.operation
          [.token .int "1", .staticToken .plus, .token .int "2"])) ∨
        c'.CollidedSince ⟨true, fun _ => 0⟩ 0) :=
  finish_events_mirrors ⟨true, fun _ => 0⟩ (.withInterner _) false TestSyntaxKind.operation
    [.token .int "1", .staticToken .plus, .token .int "2"] (View.ownOps_map_own _) (by decide)
    fun _ => by decide

/-! ## The interner a finished builder hands back -/

section ownership

variable {J : Type} [Interner J]

theorem MaybeOwnedRef.getOrIntern_getOrIntern [LawfulInterner J] (r : MaybeOwnedRef J)
    (text : String) :
    Interner.getOrIntern (Interner.getOrIntern r text).1 text = Interner.getOrIntern r text := by
  cases r <;> simp [LawfulInterner.getOrIntern_getOrIntern]

theorem MaybeOwnedRef.getOrIntern_of_fixed [LawfulInterner J] (r : MaybeOwnedRef J)
    (text text' : String) (k : TokenKey) (hk : Interner.getOrIntern r text = (r, k)) :
    Interner.getOrIntern (Interner.getOrIntern r text').1 text
      = ((Interner.getOrIntern r text').1, k) := by
  have hi : Interner.getOrIntern r.get text = (r.get, k) := by
    cases r <;> simpa [Prod.ext_iff, MaybeOwnedRef.get] using hk
  cases r <;> simp only [MaybeOwnedRef.get] at hi <;>
    simp [LawfulInterner.getOrIntern_of_fixed _ _ text' k hi]

/-- An interner held or borrowed through a `MaybeOwnedRef` keeps each text's key when the interner
itself does. -/
instance [LawfulInterner J] : LawfulInterner (MaybeOwnedRef J) :=
  ⟨MaybeOwnedRef.getOrIntern_getOrIntern, MaybeOwnedRef.getOrIntern_of_fixed⟩

/-- The doc examples' round trip (`from_interner`, `finish`, `into_interner`): over a cache that
owns its interner, a fresh builder that owns the cache makes the operations of a node it accepts,
with any requests of other parties between them. Then `interner_mut` gives the cache's interner,
`finish` hands the cache back, `into_interner` returns that same interner, and the root mirrors the
node and spells its text in it, each token's key being the interner's key for the leaf's text,
unless the child hash collided meanwhile. -/
theorem finish_into_interner_spells [LawfulInterner J] (i : J) (kind : S)
    (children : List (SyntaxTree S)) {vs : List (View S)}
    (hvs : View.ownOps vs = (SyntaxTree.node kind children).events)
    (hv : (SyntaxTree.node kind children).valid cfg.debugAssertions = true)
    (hlen : cfg.debugAssertions = true →
      (SyntaxTree.node kind children).text.utf8ByteSize < 2 ^ 32) :
    ∃ (c' : ThreadedNodeCache (MaybeOwnedRef J)) (b : ThreadedGreenNodeBuilder S) (root : GreenNode)
      (j : J), (create true).runView cfg (ThreadedNodeCache.fromInterner i) vs = .ok (c', b) ∧
      c'.interner = .owned j ∧ b.internerMut c' = some j ∧ b.finish c' = .ok (root, some c') ∧
      c'.intoInterner = some j ∧
      ((root.toElement.Mirrors cfg (.node kind children) ∧
          root.toElement.Spells c' (.node kind children)) ∨
        c'.CollidedSince cfg 0) := by
  obtain ⟨c', b, root, h, hown, hfin, hms⟩ :=
    runView_finish_spells cfg (.withInterner (MaybeOwnedRef.owned i)) true kind children hvs hv hlen
  obtain ⟨rs, rfl⟩ := runView_serves cfg h
  have hj := MaybeOwnedRef.eq_owned_of_isOwned
    ((ThreadedNodeCache.isOwned_interner_serveAll cfg (.fromInterner i) rs).trans rfl)
  have hinto : ((ThreadedNodeCache.fromInterner i).serveAll cfg rs).intoInterner
      = some ((ThreadedNodeCache.fromInterner i).serveAll cfg rs).interner.get := by
    rw [ThreadedNodeCache.intoInterner_serveAll]; rfl
  exact ⟨_, b, root, _, h, hj, by rw [internerMut, hown, if_pos rfl]; exact hinto, hfin, hinto,
    hms⟩

/-- `Root[42]` built from a fresh builder over a cache that owns an empty interner. -/
theorem finish_into_interner_spells_forty_two :
    ∃ (c' : ThreadedNodeCache (MaybeOwnedRef ListInterner))
      (b : ThreadedGreenNodeBuilder TestSyntaxKind) (root : GreenNode) (j : ListInterner),
      (create true : ThreadedGreenNodeBuilder TestSyntaxKind).runView
        ⟨true, fun _ => 0⟩ (ThreadedNodeCache.fromInterner ⟨[]⟩)
        ((SyntaxTree.node TestSyntaxKind.root [.token .int "42"]).events.map .own) = .ok (c', b) ∧
      c'.interner = .owned j ∧ b.internerMut c' = some j ∧ b.finish c' = .ok (root, some c') ∧
      c'.intoInterner = some j ∧
      ((root.toElement.Mirrors ⟨true, fun _ => 0⟩
          (SyntaxTree.node TestSyntaxKind.root [.token .int "42"]) ∧
        root.toElement.Spells c' (SyntaxTree.node TestSyntaxKind.root [.token .int "42"])) ∨
        c'.CollidedSince ⟨true, fun _ => 0⟩ 0) :=
  finish_into_interner_spells ⟨true, fun _ => 0⟩ (⟨[]⟩ : ListInterner) TestSyntaxKind.root
    [.token .int "42"] (View.ownOps_map_own _) (by decide) fun _ => by decide

end ownership

end ThreadedGreenNodeBuilder

end Cstree
