import Cstree.Green.World

/-!
# Threads building trees over one cache

What `ThreadedNodeCache` is for: builders on several threads share one cache, and each is driven by
a parser through the operations of its own tree, the operations of the threads interleaving in any
order. A thread is a builder together with the tree it builds and the operations it has still to
make. A step runs the next operation of one thread, starts a thread on a tree with a fresh
builder, or is a request made to the cache outside any builder operation.

Under every interleaving no thread is ever stuck: its next operation returns, and from every
reachable configuration the threads' own operations bring all of them to the end of their trees
(`threads_all_finish`). A thread that has made all its operations finishes with a root of its
tree's kind and text length, which mirrors its tree unless the cache met a collision of the child
hash (`threads_build_their_trees`). Without their
trees and pending operations, the threads are a world of builders sharing a cache (`World`), so
what is proved there holds of them too. Each thread's history is a view of the shared cache
(`View`) from a fresh builder, which is how `runView_events` applies to it.
-/

namespace Cstree

variable {S I : Type}

/-- A builder driven through the operations of one tree. -/
structure Thread (S : Type) where
  /-- The tree the thread builds (ghost). -/
  tree : SyntaxTree S
  builder : ThreadedGreenNodeBuilder S
  /-- The operations the thread has still to make. -/
  todo : List (BuilderOp S)

/-- Threads sharing one cache. -/
structure Threads (S I : Type) where
  cache : ThreadedNodeCache I
  threads : List (Thread S)

namespace Threads

variable [Syntax S] [Interner I] (cfg : Config)

/-- The world of the threads' builders. -/
def toWorld (w : Threads S I) : World S I := ⟨w.cache, w.threads.map Thread.builder⟩

/-- A tree a thread may build: a node whose tokens the builder accepts and whose text, in a debug
build, is shorter than `2 ^ 32` bytes. -/
def Buildable (t : SyntaxTree S) : Prop :=
  t.isNode = true ∧ t.valid cfg.debugAssertions = true ∧
    (cfg.debugAssertions = true → t.text.utf8ByteSize < 2 ^ 32)

instance (t : SyntaxTree S) : Decidable (Buildable cfg t) := inferInstanceAs (Decidable (_ ∧ _))

/-- One move of any party sharing the cache. -/
inductive Step : Threads S I → Threads S I → Prop
  /-- A thread starts on a tree with a fresh builder, borrowing the cache or owning it. -/
  | spawn (w : Threads S I) (owned : Bool) (t : SyntaxTree S) (ht : Buildable cfg t) :
    Step w ⟨w.cache, w.threads ++ [⟨t, .create owned, t.events⟩]⟩
  /-- Thread `i` makes its next operation. -/
  | op (w : Threads S I) (i : Nat) {th : Thread S} {op : BuilderOp S} {ops : List (BuilderOp S)}
    {c' : ThreadedNodeCache I} {b' : ThreadedGreenNodeBuilder S} (hi : w.threads[i]? = some th)
    (htodo : th.todo = op :: ops) (h : th.builder.step cfg w.cache op = .ok (c', b')) :
    Step w ⟨c', w.threads.set i ⟨th.tree, b', ops⟩⟩
  /-- `get_or_intern` on the shared interner, outside any builder operation. -/
  | intern (w : Threads S I) (text : String) :
    Step w { w with cache := w.cache.serve cfg (.intern text) }
  /-- A token request outside any builder operation. -/
  | token (w : Threads S I) (data : GreenTokenData) :
    Step w { w with cache := w.cache.serve cfg (.token data) }

/-- Threads reachable from a fresh cache with none started. -/
inductive Reachable : Threads S I → Prop
  | init (interner : I) : Reachable ⟨ThreadedNodeCache.withInterner interner, []⟩
  | step {w w' : Threads S I} : Reachable w → Step cfg w w' → Reachable w'

/-! ## The invariant of a thread -/

/-- What holds of a thread over the cache `c`: it builds a buildable tree, and its builder is what
a fresh builder made of the operations the thread has done, with other parties' requests in
between, from a reachable cache up to `c`. -/
structure ThreadOk (c : ThreadedNodeCache I) (th : Thread S) : Prop where
  buildable : Buildable cfg th.tree
  history : ∃ (owned : Bool) (c₀ : ThreadedNodeCache I) (vs : List (View S)),
    c₀.Reachable cfg ∧ View.ownOps vs ++ th.todo = th.tree.events ∧
    (ThreadedGreenNodeBuilder.create owned).runView cfg c₀ vs = .ok (c, th.builder)

/-- Requests of other parties extend a thread's history. -/
theorem ThreadOk.serveAll {c : ThreadedNodeCache I} {th : Thread S} (h : ThreadOk cfg c th)
    (rs : List CacheRequest) : ThreadOk cfg (c.serveAll cfg rs) th := by
  obtain ⟨owned, c₀, vs, hc₀, hvs, hrun⟩ := h.history
  refine ⟨h.buildable, owned, c₀, vs ++ rs.map .other, hc₀, by simpa using hvs, ?_⟩
  rw [ThreadedGreenNodeBuilder.runView_append, hrun]
  exact ThreadedGreenNodeBuilder.runView_map_other cfg rs c th.builder

/-- The thread's own next operation extends its history. -/
theorem ThreadOk.step {c c' : ThreadedNodeCache I} {th : Thread S} {op : BuilderOp S}
    {ops : List (BuilderOp S)} {b' : ThreadedGreenNodeBuilder S} (h : ThreadOk cfg c th)
    (htodo : th.todo = op :: ops) (hs : th.builder.step cfg c op = .ok (c', b')) :
    ThreadOk cfg c' ⟨th.tree, b', ops⟩ := by
  obtain ⟨owned, c₀, vs, hc₀, hvs, hrun⟩ := h.history
  refine ⟨h.buildable, owned, c₀, vs ++ [.own op], hc₀,
    by simpa [View.ownOps, htodo] using hvs, ?_⟩
  rw [ThreadedGreenNodeBuilder.runView_append, hrun]
  show (th.builder.step cfg c op).bind _ = _
  rw [hs]
  rfl

/-- A fresh thread has done nothing yet. -/
theorem threadOk_spawn {c : ThreadedNodeCache I} (hc : c.Reachable cfg) (owned : Bool)
    {t : SyntaxTree S} (ht : Buildable cfg t) : ThreadOk cfg c ⟨t, .create owned, t.events⟩ :=
  ⟨ht, owned, c, [], hc, rfl, rfl⟩

/-- A thread with an operation left can make it: over the cache it reached, its operations so far
and the rest of its tree's operations together return. -/
theorem ThreadOk.next_ok {c : ThreadedNodeCache I} {th : Thread S} {op : BuilderOp S}
    {ops : List (BuilderOp S)} (h : ThreadOk cfg c th) (htodo : th.todo = op :: ops) :
    ∃ c' b', th.builder.step cfg c op = .ok (c', b') := by
  obtain ⟨owned, c₀, vs, hc₀, hvs, hrun⟩ := h.history
  obtain ⟨-, hv, hlen⟩ := h.buildable
  have hvs' : View.ownOps (vs ++ .own op :: ops.map .own) = th.tree.events := by
    simpa [View.ownOps, htodo] using hvs
  obtain ⟨c₁, e, hall, -⟩ := ThreadedGreenNodeBuilder.runView_events cfg th.tree
    (.create owned) hvs' hc₀ hv
    fun hdbg => by simpa [ThreadedGreenNodeBuilder.create] using hlen hdbg
  rw [ThreadedGreenNodeBuilder.runView_append, hrun] at hall
  obtain ⟨⟨c', b'⟩, hs, -⟩ := except_bind_eq_ok.1
    (show (th.builder.step cfg c op).bind _ = _ from hall)
  exact ⟨c', b', hs⟩

/-- A thread with no operation left has pushed one element for its tree onto a fresh builder: it
fits the tree, and mirrors it unless the cache met a collision since the thread started. -/
theorem ThreadOk.built {c : ThreadedNodeCache I} {th : Thread S} (h : ThreadOk cfg c th)
    (htodo : th.todo = []) :
    ∃ (owned : Bool) (e : GreenElement),
      th.builder = { ThreadedGreenNodeBuilder.create owned with
        children := [e], docLen := UInt32.ofNat th.tree.text.utf8ByteSize } ∧
      e.Fits th.tree ∧ (e.Mirrors cfg th.tree ∨ c.CollidedSince cfg 0) := by
  obtain ⟨owned, c₀, vs, hc₀, hvs, hrun⟩ := h.history
  obtain ⟨-, hv, hlen⟩ := h.buildable
  rw [htodo, List.append_nil] at hvs
  obtain ⟨c₁, e, hall, hfit, hmir⟩ := ThreadedGreenNodeBuilder.runView_events cfg th.tree
    (.create owned) hvs hc₀ hv
    fun hdbg => by simpa [ThreadedGreenNodeBuilder.create] using hlen hdbg
  obtain ⟨rfl, hb⟩ := Prod.mk.inj (Except.ok.inj (hrun.symm.trans hall))
  exact ⟨owned, e, hb.trans (by simp [ThreadedGreenNodeBuilder.create]), hfit,
    hmir.imp_right (·.mono cfg (Nat.zero_le _))⟩

/-- A thread with no operation left holds the root of its tree. -/
theorem ThreadOk.finish_ok {c : ThreadedNodeCache I} {th : Thread S} (h : ThreadOk cfg c th)
    (htodo : th.todo = []) :
    ∃ root, th.builder.finish c = .ok (root, th.builder.intoOwned c) ∧
      root.head.kind = Syntax.intoRaw th.tree.kind ∧
      root.head.textLen = UInt32.ofNat th.tree.text.utf8ByteSize ∧
      th.builder.documentLen = root.head.textLen := by
  obtain ⟨owned, e, hb, hfit, -⟩ := h.built cfg htodo
  obtain ⟨root, hfin, -, hkind, htext⟩ :=
    ThreadedGreenNodeBuilder.finish_of_fits owned c hfit h.buildable.1
  refine ⟨root, by rw [hb]; exact hfin _, hkind, htext, ?_⟩
  rw [hb, htext]
  simp [ThreadedGreenNodeBuilder.documentLen]

/-- A thread with no operation left holds a root that mirrors its tree, unless the cache met a
collision. -/
theorem ThreadOk.finish_mirrors {c : ThreadedNodeCache I} {th : Thread S} (h : ThreadOk cfg c th)
    (htodo : th.todo = []) :
    ∃ root, th.builder.finish c = .ok (root, th.builder.intoOwned c) ∧
      (root.toElement.Mirrors cfg th.tree ∨ c.CollidedSince cfg 0) := by
  obtain ⟨owned, e, hb, hfit, hmir⟩ := h.built cfg htodo
  obtain ⟨root, hfin, rfl, -⟩ :=
    ThreadedGreenNodeBuilder.finish_of_fits owned c hfit h.buildable.1
  exact ⟨root, by rw [hb]; exact hfin _, hmir⟩

/-! ## Every reachable configuration -/

/-- The invariant of the threads: the cache is reachable by requests and every thread is sound
over it. -/
structure Sound (w : Threads S I) : Prop where
  cache_reachable : w.cache.Reachable cfg
  threads_ok : ∀ th ∈ w.threads, ThreadOk cfg w.cache th

theorem Step.sound {w w' : Threads S I} (hw : w.Sound cfg) (h : Step cfg w w') : w'.Sound cfg := by
  cases h with
  | spawn owned t ht =>
    refine ⟨hw.cache_reachable, fun th hth => ?_⟩
    rcases List.mem_append.1 hth with hth | hth
    · exact hw.threads_ok th hth
    · rw [List.mem_singleton.1 hth]
      exact threadOk_spawn cfg hw.cache_reachable owned ht
  | op i hi htodo h =>
    obtain ⟨rs, hrs⟩ := ThreadedGreenNodeBuilder.step_serves cfg h
    refine ⟨hrs ▸ hw.cache_reachable.serveAll cfg rs, fun th₀ hth₀ => ?_⟩
    rcases List.mem_or_eq_of_mem_set hth₀ with hth₀ | rfl
    · exact hrs ▸ (hw.threads_ok th₀ hth₀).serveAll cfg rs
    · exact (hw.threads_ok _ (List.getElem?_mem hi)).step cfg htodo h
  | intern text =>
    exact ⟨.serve (.intern text) hw.cache_reachable,
      fun th hth => (hw.threads_ok th hth).serveAll cfg [.intern text]⟩
  | token data =>
    exact ⟨.serve (.token data) hw.cache_reachable,
      fun th hth => (hw.threads_ok th hth).serveAll cfg [.token data]⟩

theorem Reachable.sound {w : Threads S I} (hw : w.Reachable cfg) : w.Sound cfg := by
  induction hw with
  | init interner => exact ⟨.withInterner interner, fun _ h => (nomatch h)⟩
  | step _ h ih => exact Step.sound cfg ih h

/-- Every step of the threads is a step of the world of their builders. -/
theorem Step.toWorld {w w' : Threads S I} (h : Step cfg w w') :
    World.Step cfg w.toWorld w'.toWorld := by
  cases h with
  | spawn owned t ht =>
    have hw' : Threads.toWorld ⟨w.cache, w.threads ++ [⟨t, .create owned, t.events⟩]⟩
        = ⟨w.toWorld.cache, w.toWorld.builders ++ [.create owned]⟩ := by
      simp [Threads.toWorld]
    rw [hw']
    exact .create _ owned
  | @op i th op ops c' b' hi htodo h =>
    have hb : w.toWorld.builders[i]? = some th.builder := by
      simp only [Threads.toWorld, List.getElem?_map, hi, Option.map_some']
    have hw' : Threads.toWorld ⟨c', w.threads.set i ⟨th.tree, b', ops⟩⟩
        = ⟨c', w.toWorld.builders.set i b'⟩ := by
      simp [Threads.toWorld, List.map_set]
    rw [hw']
    exact .op _ i op hb h
  | intern text => exact World.Step.intern w.toWorld text
  | token data => exact World.Step.token w.toWorld data

theorem Reachable.toWorld {w : Threads S I} (hw : w.Reachable cfg) : w.toWorld.Reachable cfg := by
  induction hw with
  | init interner => exact .init interner
  | step _ h ih => exact .step ih (h.toWorld cfg)

/-- Threads that build trees over one shared cache, interleaved in any order: their builders form
a reachable world of builders sharing a cache; no thread's next operation ever panics; and a
thread that has made all its operations finishes with a root of its tree's kind and text length,
which is also its `document_len()`, with the cache when its builder owns it. -/
theorem threads_never_stuck_and_finish_roots {w : Threads S I} (hw : w.Reachable cfg) :
    w.toWorld.Reachable cfg ∧
    ∀ th ∈ w.threads,
      (∀ op ops, th.todo = op :: ops →
        ∃ c' b', th.builder.step cfg w.cache op = .ok (c', b')) ∧
      (th.todo = [] → ∃ root,
        th.builder.finish w.cache = .ok (root, th.builder.intoOwned w.cache) ∧
        root.head.kind = Syntax.intoRaw th.tree.kind ∧
        root.head.textLen = UInt32.ofNat th.tree.text.utf8ByteSize ∧
        th.builder.documentLen = root.head.textLen) :=
  ⟨hw.toWorld cfg, fun th hth =>
    have hok := (hw.sound cfg).threads_ok th hth
    ⟨fun _ _ htodo => hok.next_ok cfg htodo, hok.finish_ok cfg⟩⟩

/-- Two threads started on `1` and on `+`, the second having opened its node. -/
theorem threads_never_stuck_and_finish_roots_two :
    ∃ w : Threads TestSyntaxKind ListInterner, w.Reachable ⟨true, fun _ => 0⟩ ∧
      w.threads.length = 2 ∧ w.toWorld.Reachable ⟨true, fun _ => 0⟩ ∧
      ∀ th ∈ w.threads,
        (∀ op ops, th.todo = op :: ops →
          ∃ c' b', th.builder.step ⟨true, fun _ => 0⟩ w.cache op = .ok (c', b')) ∧
        (th.todo = [] → ∃ root,
          th.builder.finish w.cache = .ok (root, th.builder.intoOwned w.cache) ∧
          root.head.kind = Syntax.intoRaw th.tree.kind ∧
          root.head.textLen = UInt32.ofNat th.tree.text.utf8ByteSize ∧
          th.builder.documentLen = root.head.textLen) := by
  let t₁ : SyntaxTree TestSyntaxKind := .node .root [.token .int "1"]
  let t₂ : SyntaxTree TestSyntaxKind := .node .operation [.staticToken .plus]
  let w₂ : Threads TestSyntaxKind ListInterner := ⟨ThreadedNodeCache.withInterner ⟨[]⟩,
    [⟨t₁, .create true, t₁.events⟩, ⟨t₂, .create false, t₂.events⟩]⟩
  have h₂ : Reachable ⟨true, fun _ => 0⟩ w₂ :=
    .step (.step (.init _) (.spawn _ true t₁ (by decide))) (.spawn _ false t₂ (by decide))
  have hw : Reachable ⟨true, fun _ => 0⟩ ⟨w₂.cache, [⟨t₁, .create true, t₁.events⟩,
      ⟨t₂, (ThreadedGreenNodeBuilder.create false).startNode .operation,
        [.staticToken .plus, .finishNode]⟩]⟩ :=
    .step h₂ (.op w₂ 1 rfl rfl rfl)
  exact ⟨_, hw, rfl, threads_never_stuck_and_finish_roots _ hw⟩

/-- Whatever the interleaving, every thread builds its own tree: in every reachable configuration of
threads sharing one cache, a thread that has made all its operations finishes with a root that
mirrors its tree node by node (kinds, text lengths, child hashes, shape and which tokens carry a
text key), unless the shared cache has met a collision of the child hash, that is, it holds under
the head of a node request it served a node with other children. -/
theorem threads_build_their_trees {w : Threads S I} (hw : w.Reachable cfg) :
    ∀ th ∈ w.threads, th.todo = [] → ∃ root,
      th.builder.finish w.cache = .ok (root, th.builder.intoOwned w.cache) ∧
      (root.toElement.Mirrors cfg th.tree ∨ w.cache.CollidedSince cfg 0) :=
  fun th hth htodo => ((hw.sound cfg).threads_ok th hth).finish_mirrors cfg htodo

/-- One thread that has built `1` over a fresh cache. -/
theorem threads_build_their_trees_one :
    ∃ w : Threads TestSyntaxKind ListInterner, w.Reachable ⟨true, fun _ => 0⟩ ∧
      (∃ th ∈ w.threads, th.todo = []) ∧
      ∀ th ∈ w.threads, th.todo = [] → ∃ root,
        th.builder.finish w.cache = .ok (root, th.builder.intoOwned w.cache) ∧
        (root.toElement.Mirrors ⟨true, fun _ => 0⟩ th.tree ∨
          w.cache.CollidedSince ⟨true, fun _ => 0⟩ 0) := by
  let t : SyntaxTree TestSyntaxKind := .node .root [.token .int "1"]
  have h₁ : Reachable ⟨true, fun _ => 0⟩
      (⟨.withInterner ⟨[]⟩, [⟨t, .create true, t.events⟩]⟩ : Threads TestSyntaxKind ListInterner) :=
    .step (.init _) (.spawn _ true t (by decide))
  have hw := Reachable.step (.step (.step h₁ (.op _ 0 rfl rfl rfl)) (.op _ 0 rfl rfl rfl))
    (.op _ 0 rfl rfl rfl)
  exact ⟨_, hw, ⟨_, List.mem_singleton_self _, rfl⟩, threads_build_their_trees _ hw⟩

/-! ## Every thread can finish -/

/-- A step in which one thread makes its next operation, the steps `Step.op` takes. -/
inductive OpStep : Threads S I → Threads S I → Prop
  | op (w : Threads S I) (i : Nat) {th : Thread S} {op : BuilderOp S} {ops : List (BuilderOp S)}
    {c' : ThreadedNodeCache I} {b' : ThreadedGreenNodeBuilder S} (hi : w.threads[i]? = some th)
    (htodo : th.todo = op :: ops) (h : th.builder.step cfg w.cache op = .ok (c', b')) :
    OpStep w ⟨c', w.threads.set i ⟨th.tree, b', ops⟩⟩

theorem OpStep.step {w w' : Threads S I} (h : OpStep cfg w w') : Step cfg w w' := by
  cases h with
  | op i hi htodo hs => exact Step.op w i hi htodo hs

/-- The operations the threads have still to make, all threads together. -/
def pending (w : Threads S I) : Nat := w.threads.foldr (fun th n => th.todo.length + n) 0

omit [Syntax S] [Interner I] in
/-- A thread's next operation takes one off the pending count and keeps every thread's tree. -/
theorem pending_set {op : BuilderOp S} {ops : List (BuilderOp S)}
    (b' : ThreadedGreenNodeBuilder S) :
    ∀ {l : List (Thread S)} {i : Nat} {th : Thread S}, l[i]? = some th → th.todo = op :: ops →
      (l.set i ⟨th.tree, b', ops⟩).foldr (fun th n => th.todo.length + n) 0 + 1
        = l.foldr (fun th n => th.todo.length + n) 0 ∧
      (l.set i ⟨th.tree, b', ops⟩).map Thread.tree = l.map Thread.tree
  | [], _, _, hi, _ => nomatch hi
  | x :: l, 0, th, hi, htodo => by
    obtain rfl : x = th := by simpa using hi
    simp only [List.set_cons_zero, List.map_cons, List.foldr_cons, htodo, List.length_cons,
      and_true]
    omega
  | x :: l, i + 1, th, hi, htodo => by
    obtain ⟨hsum, htree⟩ := pending_set b' (l := l) (by simpa using hi) htodo
    simp only [List.set_cons_succ, List.map_cons, List.foldr_cons, htree, and_true]
    omega

/-- While some thread has an operation left, one of them can make it. -/
theorem Reachable.exists_step {w : Threads S I} (hw : w.Reachable cfg)
    (hleft : ¬ ∀ th ∈ w.threads, th.todo = []) :
    ∃ w', OpStep cfg w w' ∧ w'.pending + 1 = w.pending ∧
      w'.threads.map Thread.tree = w.threads.map Thread.tree := by
  push_neg at hleft
  obtain ⟨th, hth, hne⟩ := hleft
  obtain ⟨op, ops, htodo⟩ := List.exists_cons_of_ne_nil hne
  obtain ⟨i, hi⟩ := List.mem_iff_getElem?.1 hth
  obtain ⟨c', b', hs⟩ := ((hw.sound cfg).threads_ok th hth).next_ok cfg htodo
  exact ⟨_, .op w i hi htodo hs, pending_set b' hi htodo⟩

/-- From a reachable configuration, the threads' own operations alone, at most `n` of them, bring
every thread to the end of its operations. -/
theorem Reachable.complete : ∀ (n : Nat) {w : Threads S I}, w.Reachable cfg → w.pending ≤ n →
    ∃ w', Relation.ReflTransGen (OpStep cfg) w w' ∧ w'.Reachable cfg ∧
      w'.threads.map Thread.tree = w.threads.map Thread.tree ∧ ∀ th ∈ w'.threads, th.todo = []
  | n, w, hw, hn => by
    by_cases hall : ∀ th ∈ w.threads, th.todo = []
    · exact ⟨w, .refl, hw, rfl, hall⟩
    obtain ⟨w₁, hs, hp, htree⟩ := hw.exists_step cfg hall
    cases n with
    | zero => omega
    | succ n =>
      obtain ⟨w', hst, hw', htree', hdone⟩ :=
        Reachable.complete n (hw.step (hs.step cfg)) (by omega)
      exact ⟨w', .head hs hst, hw', htree'.trans htree, hdone⟩

/-- Whatever the interleaving so far, every thread can finish: from every reachable configuration
of threads sharing one cache, the threads' own next operations alone, made in some order, none of
them panicking, bring every thread to the end of its operations. Each thread then finishes
with a root that mirrors its tree node by node, unless the shared cache has met a collision of the
child hash. -/
theorem threads_all_finish {w : Threads S I} (hw : w.Reachable cfg) :
    ∃ w', Relation.ReflTransGen (OpStep cfg) w w' ∧
      w'.threads.map Thread.tree = w.threads.map Thread.tree ∧
      ∀ th ∈ w'.threads, th.todo = [] ∧ ∃ root,
        th.builder.finish w'.cache = .ok (root, th.builder.intoOwned w'.cache) ∧
        (root.toElement.Mirrors cfg th.tree ∨ w'.cache.CollidedSince cfg 0) := by
  obtain ⟨w', hst, hw', htree, hdone⟩ := hw.complete cfg _ le_rfl
  exact ⟨w', hst, htree, fun th hth =>
    ⟨hdone th hth, ((hw'.sound cfg).threads_ok th hth).finish_mirrors cfg (hdone th hth)⟩⟩

/-- A thread just started on `1` can finish. -/
theorem threads_all_finish_one :
    ∃ w : Threads TestSyntaxKind ListInterner, w.Reachable ⟨true, fun _ => 0⟩ ∧ w.pending = 3 ∧
      ∃ w', Relation.ReflTransGen (OpStep ⟨true, fun _ => 0⟩) w w' ∧
        w'.threads.map Thread.tree = w.threads.map Thread.tree ∧
        ∀ th ∈ w'.threads, th.todo = [] ∧ ∃ root,
          th.builder.finish w'.cache = .ok (root, th.builder.intoOwned w'.cache) ∧
          (root.toElement.Mirrors ⟨true, fun _ => 0⟩ th.tree ∨
            w'.cache.CollidedSince ⟨true, fun _ => 0⟩ 0) := by
  let t : SyntaxTree TestSyntaxKind := .node .root [.token .int "1"]
  have hw : Reachable ⟨true, fun _ => 0⟩
      (⟨.withInterner ⟨[]⟩, [⟨t, .create true, t.events⟩]⟩ : Threads TestSyntaxKind ListInterner) :=
    .step (.init _) (.spawn _ true t (by decide))
  exact ⟨_, hw, rfl, threads_all_finish _ hw⟩

end Threads

end Cstree
