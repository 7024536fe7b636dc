import Cstree.Green.Events
import Mathlib.Logic.Relation

/-!
# Builders sharing one cache

A `ThreadedNodeCache` is shared by reference between the builders made `with_cache` from it, and
its interner can be used directly through `interner()`. The world is the cache with the builders
that use it; a step is one operation of one builder, a new builder, or a request made outside any
builder operation. That last step also covers a `token` call that panicked after its requests
were served, since a panic in `token` can come only after them.

Requests from builders are of sound children only, so every node the cache stores, and every
element a builder holds, has the length of its tokens (`GreenElement.LenSound`); hence so has
every tree `finish` returns. The cache-level invariant `Inv` holds over any request sequence
(`CacheTheorems`); here it is joined to the trees.
-/

namespace Cstree

variable {S I : Type}

/-! ## Sound caches and builders -/

/-- Every node the cache stores has the length of its tokens, at every depth. -/
def ThreadedNodeCache.NodesSound (c : ThreadedNodeCache I) : Prop :=
  ∀ h n, c.nodes h = some n → n.toElement.LenSound

/-- Every pending element of the builder has the length of its tokens, at every depth. -/
def ThreadedGreenNodeBuilder.ChildrenSound (b : ThreadedGreenNodeBuilder S) : Prop :=
  ∀ e ∈ b.children, e.LenSound

@[simp] theorem GreenToken.lenSound_toElement (t : GreenToken) : t.toElement.LenSound := trivial

namespace ThreadedNodeCache

variable (cfg : Config)

/-- `nodeOf` over sound children, with their `TextSize` sum as length, answers with a sound node
and keeps the stored nodes sound: a hit returns a stored node, a miss the fresh one. -/
theorem nodeOf_lenSound {c : ThreadedNodeCache I} (hc : c.NodesSound) (kind : RawSyntaxKind)
    {children : List GreenElement} (hcs : ∀ e ∈ children, e.LenSound) :
    (c.nodeOf cfg kind children (sumTextLen children)).2.toElement.LenSound ∧
      (c.nodeOf cfg kind children (sumTextLen children)).1.NodesSound := by
  have hfresh : (⟨c.allocated, headOf cfg kind children (sumTextLen children), children⟩
      : GreenNode).toElement.LenSound := GreenElement.lenSound_node hcs rfl
  refine ⟨?_, fun h n hn => ?_⟩
  · rw [nodeOf_snd]
    split
    · cases hn : c.nodes (headOf cfg kind children (sumTextLen children)) with
      | none => exact hfresh
      | some n => exact hc _ n hn
    · exact hfresh
  · rw [nodes_nodeOf] at hn
    split at hn
    · rcases eq_of_update_getD hn with hn | ⟨-, -, rfl⟩
      · exact hc h n hn
      · exact hfresh
    · exact hc h n hn

theorem nodes_serve_intern [Interner I] (c : ThreadedNodeCache I) (text : String) :
    (c.serve cfg (.intern text)).nodes = c.nodes := rfl

theorem nodes_serve_token [Interner I] (c : ThreadedNodeCache I) (data : GreenTokenData) :
    (c.serve cfg (.token data)).nodes = c.nodes := nodes_tokenEntry c data

end ThreadedNodeCache

namespace ThreadedGreenNodeBuilder

variable [Syntax S] [Interner I] (cfg : Config)

/-- One operation on a sound cache keeps the cache and the builder sound. -/
theorem step_lenSound {c c' : ThreadedNodeCache I} {b b' : ThreadedGreenNodeBuilder S}
    {op : BuilderOp S} (hc : c.NodesSound) (hb : b.ChildrenSound)
    (h : b.step cfg c op = .ok (c', b')) : c'.NodesSound ∧ b'.ChildrenSound := by
  rcases step_cases cfg h with ⟨t, -, -, hn, -, hch⟩ | ⟨kind, firstChild, rfl, hch⟩ | ⟨rfl, hpre⟩
  · refine ⟨by simpa [ThreadedNodeCache.NodesSound, hn] using hc, ?_⟩
    simpa [ChildrenSound, hch, or_imp, forall_and] using hb
  · obtain ⟨hn, hc'⟩ := ThreadedNodeCache.nodeOf_lenSound cfg hc kind
      (fun e he => hb e (List.mem_of_mem_drop he))
    refine ⟨hc', fun e he => ?_⟩
    rcases List.mem_append.1 (hch ▸ he) with he | he
    · exact hb e (List.mem_of_mem_take he)
    · rw [List.mem_singleton.1 he]; exact hn
  · exact ⟨hc, fun e he => hb e (hpre.subset he)⟩

end ThreadedGreenNodeBuilder

/-! ## The world -/

/-- A cache and the builders that share it. -/
structure World (S I : Type) where
  cache : ThreadedNodeCache I
  builders : List (ThreadedGreenNodeBuilder S)

namespace World

variable [Syntax S] [Interner I] (cfg : Config)

/-- One move of any party sharing the cache. -/
inductive Step : World S I → World S I → Prop
  /-- `with_cache(&cache)` (or, with `owned`, a builder that owns the cache). -/
  | create (w : World S I) (owned : Bool) :
    Step w ⟨w.cache, w.builders ++ [ThreadedGreenNodeBuilder.create owned]⟩
  /-- One operation of the `i`-th builder that raises no panic. -/
  | op (w : World S I) (i : Nat) {b b' : ThreadedGreenNodeBuilder S} {c' : ThreadedNodeCache I}
    (op : BuilderOp S) (hb : w.builders[i]? = some b) (h : b.step cfg w.cache op = .ok (c', b')) :
    Step w ⟨c', w.builders.set i b'⟩
  /-- `get_or_intern` on the shared interner, from outside a builder operation. -/
  | intern (w : World S I) (text : String) :
    Step w { w with cache := w.cache.serve cfg (.intern text) }
  /-- A token request outside a builder operation, as a `token` call that panicked leaves. -/
  | token (w : World S I) (data : GreenTokenData) :
    Step w { w with cache := w.cache.serve cfg (.token data) }

/-- Worlds reachable from a fresh cache with no builder. -/
inductive Reachable : World S I → Prop
  | init (interner : I) : Reachable ⟨ThreadedNodeCache.withInterner interner, []⟩
  | step {w w' : World S I} : Reachable w → Step cfg w w' → Reachable w'

/-- A whole run of one builder, operation after operation, is a run of the world. -/
theorem Reachable.run {w : World S I} (hw : w.Reachable cfg) (i : Nat)
    {b : ThreadedGreenNodeBuilder S} (hb : w.builders[i]? = some b) (ops : List (BuilderOp S))
    {c' : ThreadedNodeCache I} {b' : ThreadedGreenNodeBuilder S}
    (h : b.run cfg w.cache ops = .ok (c', b')) : Reachable cfg ⟨c', w.builders.set i b'⟩ := by
  induction ops generalizing w b with
  | nil =>
    cases h
    obtain ⟨hi, rfl⟩ := List.getElem?_eq_some_iff.1 hb
    have hset : w.builders.set i w.builders[i] = w.builders :=
      List.ext_getElem (List.length_set ..) fun j _ _ => by
        rw [List.getElem_set]; split <;> simp_all
    rw [hset]
    exact hw
  | cons op ops ih =>
    obtain ⟨⟨c₁, b₁⟩, hs, hr⟩ := except_bind_eq_ok.1 h
    have hi : i < w.builders.length := (List.getElem?_eq_some_iff.1 hb).1
    have h₁ := ih (.step hw (.op w i op hb hs)) (List.getElem?_set_self hi) hr
    rwa [List.set_set] at h₁

/-- The world invariant: the cache is reachable by requests, its nodes are sound, and so is every
pending element of every builder. -/
structure Sound (w : World S I) : Prop where
  cache_reachable : w.cache.Reachable cfg
  nodes_sound : w.cache.NodesSound
  builders_sound : ∀ b ∈ w.builders, b.ChildrenSound

theorem Step.sound {w w' : World S I} (hw : w.Sound cfg) (h : Step cfg w w') : w'.Sound cfg := by
  cases h with
  | create owned =>
    refine ⟨hw.cache_reachable, hw.nodes_sound, fun b hb => ?_⟩
    rcases List.mem_append.1 hb with hb | hb
    · exact hw.builders_sound b hb
    · rw [List.mem_singleton.1 hb]; intro e he; cases he
  | op i op hb h =>
    obtain ⟨rs, hrs⟩ := ThreadedGreenNodeBuilder.step_serves cfg h
    obtain ⟨hc', hb'⟩ := ThreadedGreenNodeBuilder.step_lenSound cfg hw.nodes_sound
      (hw.builders_sound _ (List.getElem?_mem hb)) h
    refine ⟨hrs ▸ hw.cache_reachable.serveAll cfg rs, hc', fun b₀ hb₀ => ?_⟩
    rcases List.mem_or_eq_of_mem_set hb₀ with hb₀ | rfl
    · exact hw.builders_sound b₀ hb₀
    · exact hb'
  | intern text =>
    exact ⟨.serve (.intern text) hw.cache_reachable, by
      simpa [ThreadedNodeCache.NodesSound, ThreadedNodeCache.nodes_serve_intern]
        using hw.nodes_sound,
      hw.builders_sound⟩
  | token data =>
    exact ⟨.serve (.token data) hw.cache_reachable, by
      simpa [ThreadedNodeCache.NodesSound, ThreadedNodeCache.nodes_serve_token]
        using hw.nodes_sound,
      hw.builders_sound⟩

theorem Reachable.sound {w : World S I} (hw : w.Reachable cfg) : w.Sound cfg := by
  induction hw with
  | init interner =>
    exact ⟨.withInterner interner, fun _ _ h => (nomatch h), fun _ h => (nomatch h)⟩
  | step _ h ih => exact Step.sound cfg ih h

/-- Every builder of a reachable world keeps the document-length invariant. -/
theorem Reachable.docLenOk {w : World S I} (hw : w.Reachable cfg) :
    ∀ b ∈ w.builders, b.DocLenOk cfg := by
  induction hw with
  | init interner => intro b hb; cases hb
  | step hw h ih =>
    cases h with
    | create owned =>
      intro b hb
      rcases List.mem_append.1 hb with hb | hb
      · exact ih b hb
      · rw [List.mem_singleton.1 hb]; exact ThreadedGreenNodeBuilder.create_docLenOk cfg owned
    | op i op hb h =>
      intro b₀ hb₀
      rcases List.mem_or_eq_of_mem_set hb₀ with hb₀ | rfl
      · exact ih b₀ hb₀
      · exact ThreadedGreenNodeBuilder.step_docLenOk cfg
          ((hw.sound cfg).cache_reachable.inv cfg) (ih _ (List.getElem?_mem hb)) h
    | intern text => exact ih
    | token data => exact ih

/-- Every tree a builder of a reachable world finishes has, at every node, the length of its
tokens. -/
theorem Reachable.finish_lenSound {w : World S I} (hw : w.Reachable cfg)
    {b : ThreadedGreenNodeBuilder S} (hb : b ∈ w.builders)
    {r : GreenNode × Option (ThreadedNodeCache I)} (h : b.finish w.cache = .ok r) :
    r.1.toElement.LenSound := by
  have hsound := (hw.sound cfg).builders_sound b hb
  rw [ThreadedGreenNodeBuilder.ChildrenSound, (ThreadedGreenNodeBuilder.finish_ok h).1] at hsound
  exact hsound _ (List.mem_singleton_self _)

/-! ## The length law of the shared cache -/

/-- Every cache reachable by requests satisfies `Inv`, and `node()` answers it, hit or miss, with
the requested kind and the length it summed; and in every world of builders sharing a cache, every
tree a builder's `finish` returns has, at every node, the length of its tokens. -/
theorem cache_inv_and_trees_len_sound :
    (∀ c : ThreadedNodeCache I, c.Reachable cfg → c.Inv cfg ∧
      ∀ (kind : S) (allChildren : List GreenElement) (offset : Nat) c' n rest,
        c.node cfg kind allChildren offset = .ok (c', n, rest) →
          n.head.kind = Syntax.intoRaw kind ∧
            n.head.textLen = sumTextLen (allChildren.drop offset)) ∧
    ∀ w : World S I, w.Reachable cfg → ∀ b ∈ w.builders, ∀ r, b.finish w.cache = .ok r →
      r.1.toElement.LenSound := by
  refine ⟨fun c hc => ⟨hc.inv cfg, fun kind allChildren offset c' n rest h => ?_⟩,
    fun w hw b hb r h => ?_⟩
  · obtain ⟨-, -, -, rfl, -⟩ := ThreadedNodeCache.node_ok h
    rw [ThreadedNodeCache.Inv.head_nodeOf cfg (hc.inv cfg)]
    exact ⟨rfl, rfl⟩
  · exact hw.finish_lenSound cfg hb h

/-- In every world of builders sharing a cache, when a builder's `finish` returns a root,
`document_len()` is the root's `text_len`, which is the total length of the root's tokens. -/
theorem documentLen_eq_finish_textLen :
    ∀ w : World S I, w.Reachable cfg → ∀ b ∈ w.builders, ∀ r, b.finish w.cache = .ok r →
      b.documentLen = r.1.head.textLen ∧
        r.1.head.textLen = GreenElement.tokenLenAll r.1.children := by
  intro w hw b hb r h
  have hroot := hw.finish_lenSound cfg hb h
  simp only [GreenNode.toElement, GreenElement.LenSound] at hroot
  refine ⟨?_, hroot.1⟩
  rw [ThreadedGreenNodeBuilder.documentLen, (hw.docLenOk cfg b hb).docLen_eq,
    (ThreadedGreenNodeBuilder.finish_ok h).1]
  simp [GreenNode.toElement, GreenElement.textLen]

theorem documentLen_eq_finish_textLen_root :
    ∃ w : World TestSyntaxKind ListInterner, w.Reachable ⟨true, fun _ => 0⟩ ∧
      ∃ b ∈ w.builders,
      ∃ r, b.finish w.cache = .ok r ∧ b.documentLen = r.1.head.textLen ∧
        r.1.head.textLen = GreenElement.tokenLenAll r.1.children := by
  obtain ⟨c, b, hrun⟩ : ∃ c b, (ThreadedGreenNodeBuilder.create false :
      ThreadedGreenNodeBuilder TestSyntaxKind).run ⟨true, fun _ => 0⟩
      (ThreadedNodeCache.withInterner (⟨[]⟩ : ListInterner))
      [.startNode .root, .token .int "42", .staticToken .plus, .finishNode] = .ok (c, b) :=
    ⟨_, _, rfl⟩
  have hw : Reachable ⟨true, fun _ => 0⟩ ⟨c, [b]⟩ :=
    Reachable.run _ (.step (.init _) (.create _ false)) 0 rfl _ hrun
  obtain ⟨r, hr⟩ : ∃ r, b.finish c = .ok r := by cases hrun; exact ⟨_, rfl⟩
  exact ⟨_, hw, b, List.mem_singleton_self b, r, hr,
    documentLen_eq_finish_textLen _ _ hw b (List.mem_singleton_self b) r hr⟩

/-! ## One builder's view of the world -/

/-- Seen from any one builder, a step of the world is one of its own operations, or requests that
other parties made to the shared cache. -/
theorem Step.view {w w' : World S I} (h : Step cfg w w') {i : Nat} {b : ThreadedGreenNodeBuilder S}
    (hb : w.builders[i]? = some b) :
    ∃ vs b', w'.builders[i]? = some b' ∧ b.runView cfg w.cache vs = .ok (w'.cache, b') := by
  have hi : i < w.builders.length := (List.getElem?_eq_some_iff.1 hb).1
  cases h with
  | create owned => exact ⟨[], b, (List.getElem?_append_left hi).trans hb, rfl⟩
  | op j op hbj h =>
    by_cases hij : j = i
    · subst hij
      obtain rfl := Option.some.inj (hbj.symm.trans hb)
      refine ⟨[.own op], _, List.getElem?_set_self hi, ?_⟩
      simp only [ThreadedGreenNodeBuilder.runView, h]
      rfl
    · obtain ⟨rs, hrs⟩ := ThreadedGreenNodeBuilder.step_serves cfg h
      exact ⟨rs.map .other, b, (List.getElem?_set_ne hij).trans hb,
        by rw [ThreadedGreenNodeBuilder.runView_map_other, hrs]⟩
  | intern text => exact ⟨[.other (.intern text)], b, hb, rfl⟩
  | token data => exact ⟨[.other (.token data)], b, hb, rfl⟩

/-- Every run of the world, seen from any one builder, is a run of that builder's own operations
with the requests of the other parties served in between: the builder's state at the end is what
such a run makes of its state at the start, over the shared cache. -/
theorem view_of_world_run {w w' : World S I} (h : Relation.ReflTransGen (Step cfg) w w') {i : Nat}
    {b : ThreadedGreenNodeBuilder S} (hb : w.builders[i]? = some b) :
    ∃ vs b', w'.builders[i]? = some b' ∧ b.runView cfg w.cache vs = .ok (w'.cache, b') := by
  induction h with
  | refl => exact ⟨[], b, hb, rfl⟩
  | tail _ hs ih =>
    obtain ⟨vs, b₁, hb₁, hr⟩ := ih
    obtain ⟨vs', b', hb', hr'⟩ := hs.view cfg hb₁
    exact ⟨vs ++ vs', b', hb', by rw [ThreadedGreenNodeBuilder.runView_append, hr]; exact hr'⟩

/-- A second builder opens a node and a text is interned while the first builder waits. -/
theorem view_of_world_run_two_builders :
    ∃ vs b', (World.mk
        ((ThreadedNodeCache.withInterner ⟨[]⟩).serve ⟨true, fun _ => 0⟩ (.intern "x"))
        [.create true, (ThreadedGreenNodeBuilder.create false).startNode TestSyntaxKind.root]
        : World TestSyntaxKind ListInterner).builders[0]? = some b' ∧
      (ThreadedGreenNodeBuilder.create true).runView ⟨true, fun _ => 0⟩
        (ThreadedNodeCache.withInterner (⟨[]⟩ : ListInterner)) vs
        = .ok ((ThreadedNodeCache.withInterner ⟨[]⟩).serve ⟨true, fun _ => 0⟩ (.intern "x"),
          b') :=
  view_of_world_run ⟨true, fun _ => 0⟩
    (((Relation.ReflTransGen.single (Step.create (World.mk
      (ThreadedNodeCache.withInterner (⟨[]⟩ : ListInterner))
      [(ThreadedGreenNodeBuilder.create true : ThreadedGreenNodeBuilder TestSyntaxKind)])
        false)).tail
      (Step.op _ 1 (.startNode TestSyntaxKind.root) rfl rfl)).tail (Step.intern _ "x")) rfl

end World

end Cstree
