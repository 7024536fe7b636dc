import Cstree.Green.Refinement

/-!
# Which panics the builder can raise

Every reachable flat state is the image of a nested state, so its first-child indices rise from
the bottom of the stack to its top and stay within the children vector, and every slice the
builder takes is in bounds. The nested builder raises only its contract checks, plus, in debug
builds, the static-text assertion of `token` and `TextSize`'s overflow checks; by refinement so
does the flat one. `finish` checks only that a single node is pending, not that every frame was
closed.
-/

namespace Cstree

variable {S I : Type}

/-- The panics raised on purpose: the contract checks, and in debug builds the static-text
assertion of `token` and the overflow checks of `TextSize` arithmetic. -/
def Panic.IsCheck (cfg : Config) : Panic S → Prop
  | .finishNodeNoParent | .checkpointFinishedEarly | .checkpointUnmatched | .noChildrenToPop
  | .missingStaticText _ | .finishLen _ | .finishOnlyToken => True
  | .staticTextMismatch _ _ _ | .addOverflow | .subOverflow => cfg.debugAssertions = true
  | .popLastChildUnwrap | .finishUnwrap | .sliceStartOutOfRange _ _ => False

/-! ## Where each operation can panic -/

theorem TextSize.addAssign_error {cfg : Config} {a b : TextSize} {e : Panic S}
    (h : TextSize.addAssign cfg a b = .error e) : e.IsCheck cfg := by
  unfold TextSize.addAssign at h
  split at h
  · cases h; exact (‹_ ∧ _›).1
  · cases h

theorem TextSize.subAssign_error {cfg : Config} {a b : TextSize} {e : Panic S}
    (h : TextSize.subAssign cfg a b = .error e) : e.IsCheck cfg := by
  unfold TextSize.subAssign at h
  split at h
  · cases h; exact (‹_ ∧ _›).1
  · cases h

namespace ThreadedNodeCache

variable [Syntax S] (cfg : Config) (c : ThreadedNodeCache I)

theorem node_zero_error {kind : S} {cs : List GreenElement} {e : Panic S}
    (h : c.node cfg kind cs 0 = .error e) : e.IsCheck cfg := by
  rw [node_eq cfg c kind cs (Nat.zero_le _), accumulateTextLen_eq] at h
  split at h
  · cases h; exact (‹_ ∧ _›).1
  · cases h

theorem tokenFor_error [Interner I] {kind : S} {text : String} {e : Panic S}
    (h : c.tokenFor cfg kind text = .error e) : e.IsCheck cfg := by
  unfold tokenFor at h
  split at h
  · split at h
    · cases h; exact (‹_ ∧ _›).1
    · cases h
  · cases h

theorem staticTokenFor_error {kind : S} {e : Panic S}
    (h : c.staticTokenFor kind = .error e) : e.IsCheck cfg := by
  unfold staticTokenFor at h
  split at h
  · cases h; trivial
  · cases h

end ThreadedNodeCache

namespace NestedBuilder

variable (cfg : Config) (c : ThreadedNodeCache I) (s : NestedBuilder S)

theorem pushToken_error {t : GreenToken} {e : Panic S} (h : s.pushToken cfg t = .error e) :
    e.IsCheck cfg :=
  TextSize.addAssign_error (except_map_eq_error.1 h)

/-- The nested builder panics only at its checks. -/
theorem step_error [Syntax S] [Interner I] {op : BuilderOp S} {e : Panic S}
    (h : s.step cfg c op = .error e) : e.IsCheck cfg := by
  cases op with
  | token kind text =>
    rcases except_bind_eq_error.1 h with ht | ⟨⟨_, t⟩, -, h⟩
    · exact ThreadedNodeCache.tokenFor_error cfg c ht
    rcases except_bind_eq_error.1 h with hp | ⟨_, -, h⟩
    · exact pushToken_error cfg s hp
    · cases h
  | staticToken kind =>
    rcases except_bind_eq_error.1 h with ht | ⟨⟨_, t⟩, -, h⟩
    · exact ThreadedNodeCache.staticTokenFor_error cfg c ht
    rcases except_bind_eq_error.1 h with hp | ⟨_, -, h⟩
    · exact pushToken_error cfg s hp
    · cases h
  | startNode kind => cases h
  | finishNode =>
    simp only [step, finishNode] at h
    split at h
    · cases h; trivial
    rcases except_bind_eq_error.1 h with hn | ⟨⟨_, _, _⟩, -, h⟩
    · exact ThreadedNodeCache.node_zero_error cfg c hn
    · cases h
  | startNodeAt checkpoint kind =>
    simp only [step, startNodeAt] at h
    split at h
    · split at h <;> cases h; trivial
    · cases h; trivial
  | popLastChild =>
    have h := except_map_eq_error.1 h
    unfold popLastChild at h
    split at h
    · cases h; trivial
    · exact TextSize.subAssign_error (except_map_eq_error.1 h)

end NestedBuilder

/-! ## Reachable flat states -/

theorem Frames.parents_sorted_le (f : Frames S) :
    (f.parents.map Prod.snd).Pairwise (· ≤ ·) ∧
      ∀ p ∈ f.parents, p.2 ≤ f.flatten.length := by
  induction f with
  | root cs => simp [Frames.parents]
  | frame o k cs ih =>
    simp only [Frames.parents, Frames.flatten, List.map_append, List.map_cons, List.map_nil,
      List.pairwise_append, List.pairwise_singleton, List.mem_singleton, List.mem_append,
      List.length_append, forall_eq_or_imp, List.mem_map]
    refine ⟨⟨ih.1, trivial, ?_⟩, ?_⟩
    · rintro _ ⟨p, hp, rfl⟩ _ rfl; exact ih.2 p hp
    · rintro p (hp | rfl)
      · exact Nat.le_add_right_of_le (ih.2 p hp)
      · exact Nat.le_add_right _ _

namespace ThreadedGreenNodeBuilder

/-- What holds of every reachable flat builder state: the first-child indices rise from the bottom
of the stack to its top and stay within the children vector, `current_children` does not panic,
and no operation or `finish` raises a panic other than a check (`Panic.IsCheck`): no slice out of
bounds and no failed `unwrap`. -/
structure Safe [Syntax S] [Interner I] (cfg : Config) (c : ThreadedNodeCache I)
    (b : ThreadedGreenNodeBuilder S) : Prop where
  parents_sorted : (b.parents.map Prod.snd).Pairwise (· ≤ ·)
  parents_le : ∀ p ∈ b.parents, p.2 ≤ b.children.length
  currentChildren_ok : ∃ cs, (b.currentChildren : Except (Panic S) _) = .ok cs
  step_error : ∀ op e, b.step cfg c op = .error e → e.IsCheck cfg
  finish_error : ∀ e, b.finish c = .error e → e.IsCheck cfg

/-- `finish` panics only at its checks. -/
theorem finish_error {c : ThreadedNodeCache I} {b : ThreadedGreenNodeBuilder S} (cfg : Config)
    {e : Panic S} (h : b.finish c = .error e) : e.IsCheck cfg := by
  unfold finish at h
  split at h
  · obtain ⟨x, hx⟩ := List.length_eq_one.1 ‹_›
    rw [hx] at h
    cases x <;> cases h
    trivial
  · cases h; trivial

theorem NestedBuilder.toFlat_safe [Syntax S] [Interner I] (cfg : Config) (c : ThreadedNodeCache I)
    (s : NestedBuilder S) : s.toFlat.Safe cfg c where
  parents_sorted := (Frames.parents_sorted_le s.frames).1
  parents_le := (Frames.parents_sorted_le s.frames).2
  currentChildren_ok := ⟨_, NestedBuilder.currentChildren_toFlat s⟩
  step_error op e h := by
    rw [NestedBuilder.step_toFlat] at h
    exact NestedBuilder.step_error cfg c s (except_map_eq_error.1 h)
  finish_error _ h := finish_error cfg h

/-- Every state a run of a fresh builder reaches is `Safe`, whatever the cache. -/
theorem run_create_safe [Syntax S] [Interner I] (cfg : Config) (c : ThreadedNodeCache I)
    (owned : Bool) (ops : List (BuilderOp S)) {c' : ThreadedNodeCache I}
    {b : ThreadedGreenNodeBuilder S} (h : (create owned).run cfg c ops = .ok (c', b)) :
    b.Safe cfg c' := by
  obtain ⟨s, rfl⟩ := NestedBuilder.run_create_toFlat cfg h
  exact NestedBuilder.toFlat_safe cfg c' s

/-- A debug-build parser run that wraps `1` in an `Operation` with `start_node_at`, pops the `2`
it pushed and pushes `3` in its place. -/
theorem run_create_safe_wrap_pop :
    ∃ c b, (create true : ThreadedGreenNodeBuilder TestSyntaxKind).run ⟨true, fun _ => 0⟩
        (ThreadedNodeCache.withInterner (⟨[]⟩ : ListInterner))
        [.startNode .root, .token .int "1", .startNodeAt ⟨0⟩ .operation, .staticToken .plus,
          .token .int "2", .popLastChild, .token .int "3", .finishNode, .finishNode]
        = .ok (c, b) ∧ b.Safe ⟨true, fun _ => 0⟩ c :=
  ⟨_, _, rfl, @run_create_safe TestSyntaxKind ListInterner _ _ _ (.withInterner ⟨[]⟩) true
    [.startNode .root, .token .int "1", .startNodeAt ⟨0⟩ .operation, .staticToken .plus,
      .token .int "2", .popLastChild, .token .int "3", .finishNode, .finishNode] _ _ rfl⟩

/-- In a debug build, `token` with a static-text kind and other text panics at the static-text
assertion, which is not among `finish_node`'s, `start_node_at`'s, `pop_last_child`'s,
`static_token`'s and `finish`'s checks. -/
theorem token_static_text_mismatch :
    (create true : ThreadedGreenNodeBuilder TestSyntaxKind).token ⟨true, fun _ => 0⟩
        (ThreadedNodeCache.withInterner (⟨[]⟩ : ListInterner)) .plus "-"
      = .error (.staticTextMismatch .plus "+" "-") := rfl

/-! ## `finish` -/

/-- `finish` returns exactly when the only pending element is a node, open frames or not; in every
other state it panics. -/
theorem finish_eq_ok_iff (c : ThreadedNodeCache I) (b : ThreadedGreenNodeBuilder S)
    (r : GreenNode × Option (ThreadedNodeCache I)) :
    b.finish c = .ok r ↔ b.children = [r.1.toElement] ∧ r.2 = b.intoOwned c := by
  unfold finish
  split
  · obtain ⟨x, hx⟩ := List.length_eq_one.1 ‹_›
    rcases r with ⟨⟨id', head', cs'⟩, cache⟩
    cases x <;> simp [hx, GreenNode.toElement, eq_comm]
  · refine ⟨fun h => (nomatch h), fun ⟨h, _⟩ => ?_⟩
    simp [h] at *

/-- A run that leaves a frame open and a single node pending: `finish` returns that node. -/
theorem finish_returns_with_open_frame :
    ∃ c b r, (create true : ThreadedGreenNodeBuilder TestSyntaxKind).run ⟨false, fun _ => 0⟩
        (ThreadedNodeCache.withInterner (⟨[]⟩ : ListInterner))
        [.startNode .root, .startNode .int, .finishNode] = .ok (c, b) ∧
      b.parents = [(.root, 0)] ∧ b.finish c = .ok r :=
  ⟨_, _, _, rfl, rfl, rfl⟩

end ThreadedGreenNodeBuilder

end Cstree
