import Cstree.Green.Checkpoint
import Cstree.Green.Events

/-!
# Laws of the builder

Two laws of every run. Debug assertions are checks and nothing else: a run that returns in a
build with them returns the same cache and builder in a build without them
(`run_release_of_ok`), so a debug build only adds panics. And `pop_last_child` right after `token`
or `static_token` undoes it: it returns the pushed token and gives the builder back as it was
(`popLastChild_undoes_token`), whatever the document length, since the subtraction takes back
exactly what the addition added. The same holds of a whole subtree: after the operations of any
tree the builder accepts, `pop_last_child` returns the one element they pushed and gives the
builder back as it was before them (`popLastChild_undoes_events`).
-/

namespace Cstree

variable {S I : Type}

/-- The same build without debug assertions, and so without overflow checks. -/
def Config.release (cfg : Config) : Config := { cfg with debugAssertions := false }

/-! ## Debug assertions only add panics -/

section release

variable {cfg : Config}

theorem TextSize.addAssign_release {a b r : TextSize}
    (h : (TextSize.addAssign cfg a b : Except (Panic S) TextSize) = .ok r) :
    (TextSize.addAssign cfg.release a b : Except (Panic S) TextSize) = .ok r := by
  unfold TextSize.addAssign at h ⊢
  split at h
  · cases h
  · rwa [if_neg (by simp [Config.release])]

theorem TextSize.subAssign_release {a b r : TextSize}
    (h : (TextSize.subAssign cfg a b : Except (Panic S) TextSize) = .ok r) :
    (TextSize.subAssign cfg.release a b : Except (Panic S) TextSize) = .ok r := by
  unfold TextSize.subAssign at h ⊢
  split at h
  · cases h
  · rwa [if_neg (by simp [Config.release])]

namespace ThreadedNodeCache

theorem accumulateTextLen_release {children : List GreenElement} {r : TextSize}
    (h : (accumulateTextLen cfg children : Except (Panic S) TextSize) = .ok r) :
    (accumulateTextLen cfg.release children : Except (Panic S) TextSize) = .ok r := by
  rw [accumulateTextLen_eq] at h ⊢
  split at h
  · cases h
  · rwa [if_neg (by simp [Config.release])]

theorem node_release [Syntax S] [Interner I] {c c' : ThreadedNodeCache I} {kind : S}
    {all : List GreenElement} {off : Nat} {n : GreenNode} {rest : List GreenElement}
    (h : c.node cfg kind all off = .ok (c', n, rest)) :
    c.node cfg.release kind all off = .ok (c', n, rest) := by
  obtain ⟨hoff, -⟩ := node_ok h
  rw [node_eq cfg c kind all hoff] at h
  obtain ⟨t, ht, h⟩ := except_map_eq_ok.1 h
  rw [node_eq cfg.release c kind all hoff, accumulateTextLen_release ht, except_map_ok, ← h]
  rfl

theorem tokenFor_release [Syntax S] [Interner I] {c c' : ThreadedNodeCache I} {kind : S}
    {text : String} {t : GreenToken} (h : c.tokenFor cfg kind text = .ok (c', t)) :
    c.tokenFor cfg.release kind text = .ok (c', t) := by
  unfold tokenFor at h ⊢
  cases hs : Syntax.staticText kind with
  | none => simpa only [hs] using h
  | some staticText =>
    simp only [hs] at h ⊢
    split at h
    · cases h
    · rwa [if_neg (by simp [Config.release])]

end ThreadedNodeCache

namespace ThreadedGreenNodeBuilder

theorem pushToken_release {b b' : ThreadedGreenNodeBuilder S} {t : GreenToken}
    (h : b.pushToken cfg t = .ok b') : b.pushToken cfg.release t = .ok b' := by
  obtain ⟨d, hd, h⟩ := except_map_eq_ok.1 h
  rw [pushToken, TextSize.addAssign_release hd, except_map_ok, h]

theorem popLastChild_release {b b' : ThreadedGreenNodeBuilder S} {e : GreenElement}
    (h : b.popLastChild cfg = .ok (b', e)) : b.popLastChild cfg.release = .ok (b', e) := by
  obtain ⟨ys, d, hys, hlt, hd, rfl⟩ := popLastChild_ok cfg h
  unfold popLastChild currentChildren sliceFrom
  rw [if_pos hlt.le]
  simp only [hys, List.length_append, List.length_singleton] at hlt ⊢
  simp [hlt, TextSize.subAssign_release hd]

/-- One operation that returns in a debug build returns the same in a release build. -/
theorem step_release [Syntax S] [Interner I] {c c' : ThreadedNodeCache I}
    {b b' : ThreadedGreenNodeBuilder S} {op : BuilderOp S} (h : b.step cfg c op = .ok (c', b')) :
    b.step cfg.release c op = .ok (c', b') := by
  cases op with
  | token kind text =>
    obtain ⟨t, ht, hp⟩ := token_ok cfg h
    simp only [step, token, ThreadedNodeCache.tokenFor_release ht, except_ok_bind,
      pushToken_release hp, except_pure]
  | staticToken kind =>
    obtain ⟨t, ht, hp⟩ := staticToken_ok cfg h
    simp only [step, staticToken, ht, except_ok_bind, pushToken_release hp, except_pure]
  | startNode kind => exact h
  | finishNode =>
    obtain ⟨ps, kind, firstChild, n, rest, hps, hn, rfl⟩ := finishNode_ok cfg h
    simp only [step, finishNode, hps, List.getLast?_concat, ThreadedNodeCache.node_release hn,
      except_ok_bind, except_pure, List.dropLast_concat]
  | startNodeAt checkpoint kind => exact h
  | popLastChild =>
    obtain ⟨rfl, e, hp⟩ := step_popLastChild_ok cfg h
    simp only [step, popLastChild_release hp, except_map_ok]

/-- A run that returns in a build with debug assertions returns the same cache and builder in the
build without them: the assertions and overflow checks only ever add panics. -/
theorem run_release_of_ok [Syntax S] [Interner I] (c : ThreadedNodeCache I)
    (b : ThreadedGreenNodeBuilder S) (ops : List (BuilderOp S))
    {r : ThreadedNodeCache I × ThreadedGreenNodeBuilder S} (h : b.run cfg c ops = .ok r) :
    b.run cfg.release c ops = .ok r := by
  induction ops generalizing c b with
  | nil => exact h
  | cons op ops ih =>
    obtain ⟨⟨c₁, b₁⟩, hs, hr⟩ := except_bind_eq_ok.1 h
    simp only [run, step_release hs, except_ok_bind]
    exact ih c₁ b₁ hr

theorem run_release_of_ok_plus :
    ∃ r, (create true : ThreadedGreenNodeBuilder TestSyntaxKind).run ⟨true, fun _ => 0⟩
        (ThreadedNodeCache.withInterner (⟨[]⟩ : ListInterner))
        [.startNode .root, .token .int "42", .staticToken .plus, .finishNode] = .ok r ∧
      (create true : ThreadedGreenNodeBuilder TestSyntaxKind).run
        (Config.release ⟨true, fun _ => 0⟩)
        (ThreadedNodeCache.withInterner (⟨[]⟩ : ListInterner))
        [.startNode .root, .token .int "42", .staticToken .plus, .finishNode] = .ok r := by
  obtain ⟨r, h⟩ : ∃ r, (create true : ThreadedGreenNodeBuilder TestSyntaxKind).run
      ⟨true, fun _ => 0⟩ (ThreadedNodeCache.withInterner (⟨[]⟩ : ListInterner))
      [.startNode .root, .token .int "42", .staticToken .plus, .finishNode] = .ok r := ⟨_, rfl⟩
  exact ⟨r, h, run_release_of_ok _ _ _ h⟩

end ThreadedGreenNodeBuilder

end release

/-! ## `pop_last_child` undoes a token -/

namespace ThreadedGreenNodeBuilder

variable (cfg : Config)

/-- The subtraction of `pop_last_child` takes back exactly what the addition of `token` added:
in a debug build the addition did not overflow, so neither does the subtraction. -/
theorem subAssign_of_addAssign {a x d : TextSize}
    (h : (TextSize.addAssign cfg a x : Except (Panic S) TextSize) = .ok d) :
    (TextSize.subAssign cfg d x : Except (Panic S) TextSize) = .ok a := by
  unfold TextSize.addAssign at h
  split at h
  · cases h
  rename_i hno
  cases h
  have hsafe : ¬ (cfg.debugAssertions = true ∧ (a + x).toNat < x.toNat) := by
    rintro ⟨hdbg, hlt⟩
    simp only [hdbg, true_and, not_le] at hno
    rw [TextSize.toNat_add, Nat.mod_eq_of_lt hno] at hlt
    omega
  unfold TextSize.subAssign
  rw [if_neg hsafe, add_sub_cancel_right]

/-- `pop_last_child` takes back an element pushed onto the innermost frame with its length added
to `doc_len`. -/
theorem popLastChild_push {b : ThreadedGreenNodeBuilder S} {e : GreenElement} {d : TextSize}
    (hf : b.firstChild ≤ b.children.length)
    (hd : (TextSize.addAssign cfg b.docLen e.textLen : Except (Panic S) TextSize) = .ok d) :
    popLastChild cfg ({ b with children := b.children ++ [e], docLen := d }
      : ThreadedGreenNodeBuilder S) = .ok (b, e) := by
  simp only [popLastChild, currentChildren, sliceFrom, firstChild] at hf ⊢
  have hlt : (b.parents.getLast?.map Prod.snd).getD 0 < b.children.length + 1 := by omega
  simp [hlt, hlt.le, subAssign_of_addAssign cfg hd]

theorem pushToken_popLastChild {b b' : ThreadedGreenNodeBuilder S} {t : GreenToken}
    (hf : b.firstChild ≤ b.children.length) (h : b.pushToken cfg t = .ok b') :
    b'.popLastChild cfg = .ok (b, t.toElement) := by
  obtain ⟨d, hd, rfl⟩ := pushToken_ok cfg h
  exact popLastChild_push cfg hf hd

/-- From any state a fresh builder reaches, `pop_last_child` right after a `token` or
`static_token` that returns removes the pushed token and gives back the builder as it was. -/
theorem popLastChild_undoes_token [Syntax S] [Interner I] {c₀ c c' : ThreadedNodeCache I}
    {b b' : ThreadedGreenNodeBuilder S} (owned : Bool) (ops : List (BuilderOp S))
    (hrun : (create owned).run cfg c₀ ops = .ok (c, b)) {op : BuilderOp S}
    (hop : (∃ kind text, op = .token kind text) ∨ ∃ kind, op = .staticToken kind)
    (h : b.step cfg c op = .ok (c', b')) :
    ∃ t : GreenToken, b'.children = b.children ++ [t.toElement] ∧
      b'.popLastChild cfg = .ok (b, t.toElement) := by
  obtain ⟨s, rfl⟩ := NestedBuilder.run_create_toFlat cfg hrun
  have hf : s.toFlat.firstChild ≤ s.toFlat.children.length :=
    firstChild_le (Frames.parents_sorted_le s.frames).2
  have hpush : ∀ t, s.toFlat.pushToken cfg t = .ok b' → ∃ t' : GreenToken,
      b'.children = s.toFlat.children ++ [t'.toElement] ∧
        b'.popLastChild cfg = .ok (s.toFlat, t'.toElement) := fun t hp =>
    ⟨t, by obtain ⟨d, -, rfl⟩ := pushToken_ok cfg hp; rfl, pushToken_popLastChild cfg hf hp⟩
  rcases hop with ⟨kind, text, rfl⟩ | ⟨kind, rfl⟩
  · obtain ⟨t, -, hp⟩ := token_ok cfg h
    exact hpush t hp
  · obtain ⟨t, -, hp⟩ := staticToken_ok cfg h
    exact hpush t hp

theorem popLastChild_undoes_token_int :
    ∃ c b c' b', (create true : ThreadedGreenNodeBuilder TestSyntaxKind).run
        ⟨true, fun _ => 0⟩ (ThreadedNodeCache.withInterner (⟨[]⟩ : ListInterner))
        [.startNode .root] = .ok (c, b) ∧
      b.step ⟨true, fun _ => 0⟩ c (.token .int "1") = .ok (c', b') ∧
      ∃ t : GreenToken, b'.children = b.children ++ [t.toElement] ∧
        b'.popLastChild ⟨true, fun _ => 0⟩ = .ok (b, t.toElement) := by
  obtain ⟨c, b, hrun⟩ : ∃ c b, (create true : ThreadedGreenNodeBuilder TestSyntaxKind).run
      ⟨true, fun _ => 0⟩ (ThreadedNodeCache.withInterner (⟨[]⟩ : ListInterner))
      [.startNode .root] = .ok (c, b) := ⟨_, _, rfl⟩
  obtain ⟨c', b', h⟩ :
      ∃ c' b', b.step ⟨true, fun _ => 0⟩ c (.token .int "1") = .ok (c', b') := by
    cases hrun; exact ⟨_, _, rfl⟩
  exact ⟨c, b, c', b', hrun, h,
    popLastChild_undoes_token _ true _ hrun (.inl ⟨.int, "1", rfl⟩) h⟩

/-! ## `pop_last_child` undoes a subtree -/

/-- From any state a fresh builder reaches, the operations of any tree the builder accepts, with any
requests of other parties between them, push one element, and `pop_last_child` right after them
returns that element and gives the builder back as it was before the tree: a parser can take back a
whole subtree it has built. The element fits the tree, and mirrors it unless the cache met a
collision of the child hash meanwhile. -/
theorem popLastChild_undoes_events [Syntax S] [Interner I] {c₀ c : ThreadedNodeCache I}
    {b : ThreadedGreenNodeBuilder S} (hc₀ : c₀.Reachable cfg) (owned : Bool)
    (ops : List (BuilderOp S)) (hrun : (create owned).run cfg c₀ ops = .ok (c, b))
    (t : SyntaxTree S) {vs : List (View S)} (hvs : View.ownOps vs = t.events)
    (hv : t.valid cfg.debugAssertions = true)
    (hlen : cfg.debugAssertions = true → b.docLen.toNat + t.text.utf8ByteSize < 2 ^ 32) :
    ∃ c' b' e, b.runView cfg c vs = .ok (c', b') ∧ b'.popLastChild cfg = .ok (b, e) ∧
      e.Fits t ∧ (e.Mirrors cfg t ∨ c'.CollidedSince cfg c.served.length) := by
  have hc := (run_docLenOk cfg hc₀ (create_docLenOk cfg owned) hrun).2
  obtain ⟨s, rfl⟩ := NestedBuilder.run_create_toFlat cfg hrun
  have hf : s.toFlat.firstChild ≤ s.toFlat.children.length :=
    firstChild_le (Frames.parents_sorted_le s.frames).2
  obtain ⟨c', e, h, hfit, hmir⟩ := runView_events cfg t _ hvs hc hv hlen
  have hle : (UInt32.ofNat t.text.utf8ByteSize).toNat ≤ t.text.utf8ByteSize := by
    rw [TextSize.toNat_ofNat]; exact Nat.mod_le _ _
  have hd : (TextSize.addAssign cfg s.toFlat.docLen e.textLen : Except (Panic S) TextSize)
      = .ok (s.toFlat.docLen + UInt32.ofNat t.text.utf8ByteSize) := by
    rw [hfit.textLen_eq]
    exact TextSize.addAssign_of_ok fun h => absurd (hlen h.1) (by omega)
  exact ⟨c', _, e, h, popLastChild_push cfg hf hd, hfit, hmir⟩

/-- A parser backs out of `1+2` under an open `Root`. -/
theorem popLastChild_undoes_events_sum :
    ∃ c b, (create true : ThreadedGreenNodeBuilder TestSyntaxKind).run ⟨false, fun _ => 0⟩
        (ThreadedNodeCache.withInterner (⟨[]⟩ : ListInterner)) [.startNode .root] = .ok (c, b) ∧
      ∃ c' b' e, b.runView ⟨false, fun _ => 0⟩ c ((SyntaxTree.node TestSyntaxKind.operation
          [.token .int "1", .staticToken .plus, .token .int "2"]).events.map .own) = .ok (c', b') ∧
        b'.popLastChild ⟨false, fun _ => 0⟩ = .ok (b, e) ∧
        e.Fits (SyntaxTree.node TestSyntaxKind.operation
          [.token .int "1", .staticToken .plus, .token .int "2"]) ∧
        (e.Mirrors ⟨false, fun _ => 0⟩ (SyntaxTree.node TestSyntaxKind.operation
            [.token .int "1", .staticToken .plus, .token .int "2"]) ∨
          c'.CollidedSince ⟨false, fun _ => 0⟩ c.served.length) := by
  obtain ⟨c, b, hrun⟩ : ∃ c b, (create true : ThreadedGreenNodeBuilder TestSyntaxKind).run
      ⟨false, fun _ => 0⟩ (ThreadedNodeCache.withInterner (⟨[]⟩ : ListInterner))
      [.startNode .root] = .ok (c, b) := ⟨_, _, rfl⟩
  exact ⟨c, b, hrun, popLastChild_undoes_events _ (.withInterner _) true _ hrun _
    (View.ownOps_map_own _) (by decide) fun h => nomatch h⟩

end ThreadedGreenNodeBuilder

end Cstree
