import Cstree.Green.Frames

/-!
# The flat builder refines the nested-frame builder

`toFlat` commutes with every operation (`step_toFlat`): from a nested state and its flat image,
both builders raise the same panic or reach states again related by `toFlat`, with the same
cache, so they send the cache the same requests in the same order. By induction the same holds of
whole runs (`run_toFlat`), and since the flat builder starts as the image of the empty nested one,
every reachable flat state is an image: its first-child indices rise from bottom to top and stay
within the children vector.
-/

namespace Cstree.NestedBuilder

variable {S I : Type}

/-- The innermost frame's children start after all the outer frames' children. -/
theorem firstChild_toFlat (s : NestedBuilder S) :
    s.toFlat.firstChild = s.frames.outer.length := by
  cases h : s.frames <;>
    simp [ThreadedGreenNodeBuilder.firstChild, toFlat, h, Frames.parents, Frames.outer]

section step

variable (cfg : Config) (c : ThreadedNodeCache I) (s : NestedBuilder S)

/-- Pushing a token commutes with `toFlat`, panic included. -/
theorem pushToken_toFlat (t : GreenToken) :
    s.toFlat.pushToken cfg t = (s.pushToken cfg t).map toFlat := by
  simp only [ThreadedGreenNodeBuilder.pushToken, pushToken, docLen_toFlat]
  cases TextSize.addAssign cfg s.docLen t.data.textLen <;>
    simp [toFlat, push, Frames.flatten_eq s.frames]

/-- `token` commutes with `toFlat`: the same request, the same answer, related states. -/
theorem token_toFlat [Syntax S] [Interner I] (kind : S) (text : String) :
    s.toFlat.token cfg c kind text = (s.token cfg c kind text).map fun r => (r.1, r.2.toFlat) := by
  simp only [ThreadedGreenNodeBuilder.token, token]
  cases c.tokenFor cfg kind text with
  | error e => rfl
  | ok r => simp only [except_ok_bind, pushToken_toFlat]; cases s.pushToken cfg r.2 <;> rfl

/-- `static_token` commutes with `toFlat`. -/
theorem staticToken_toFlat [Syntax S] (kind : S) :
    s.toFlat.staticToken cfg c kind =
      (s.staticToken cfg c kind).map fun r => (r.1, r.2.toFlat) := by
  simp only [ThreadedGreenNodeBuilder.staticToken, staticToken]
  cases c.staticTokenFor kind with
  | error e => rfl
  | ok r => simp only [except_ok_bind, pushToken_toFlat]; cases s.pushToken cfg r.2 <;> rfl

/-- `start_node` opens an empty frame, which the flat builder records as a parent at its length. -/
theorem startNode_toFlat (kind : S) : s.toFlat.startNode kind = (s.startNode kind).toFlat := by
  simp [ThreadedGreenNodeBuilder.startNode, startNode, toFlat, Frames.parents, Frames.flatten]

/-- `finish_node` drains in the flat builder exactly the innermost frame's children and asks the
cache for the same node. -/
theorem finishNode_toFlat [Syntax S] :
    s.toFlat.finishNode cfg c = (s.finishNode cfg c).map fun r => (r.1, r.2.toFlat) := by
  rcases s with ⟨owned, frames, docLen⟩
  cases frames with
  | root cs => rfl
  | frame o kind cs =>
    simp only [ThreadedGreenNodeBuilder.finishNode, finishNode, toFlat, Frames.getLast?_parents]
    rw [ThreadedNodeCache.node_eq cfg c kind _ (by simp [Frames.flatten]),
      ThreadedNodeCache.node_eq cfg c kind cs (Nat.zero_le _)]
    simp only [Frames.flatten, List.drop_left, List.take_left, List.drop_zero]
    cases ThreadedNodeCache.accumulateTextLen cfg cs <;>
      simp [Frames.parents, Frames.flatten_eq o]

/-- `start_node_at` splits the innermost frame where the flat builder's checkpoint points, and
panics in both builders at the same checks. -/
theorem startNodeAt_toFlat (checkpoint : Checkpoint) (kind : S) :
    s.toFlat.startNodeAt checkpoint kind = (s.startNodeAt checkpoint kind).map toFlat := by
  rcases s with ⟨owned, frames, docLen⟩
  simp only [ThreadedGreenNodeBuilder.startNodeAt, startNodeAt, children_toFlat]
  split
  · rename_i hle
    cases frames with
    | root cs =>
      simp [toFlat, Frames.parents, Frames.outer, Frames.setInnermost, Frames.innermost,
        Frames.flatten, Nat.min_eq_left (show checkpoint.pos ≤ cs.length from hle)]
    | frame o k cs =>
      simp only [toFlat, Frames.getLast?_parents, Frames.outer]
      split
      · rename_i hge
        have hk : checkpoint.pos - o.flatten.length ≤ cs.length := by
          simp [Frames.flatten] at hle; omega
        simp [toFlat, Frames.parents, Frames.setInnermost, Frames.innermost, Frames.flatten,
          Nat.min_eq_left hk, Nat.add_sub_cancel' hge]
      · rfl
  · rfl

/-- `pop_last_child` removes the innermost frame's last child in both builders. -/
theorem popLastChild_toFlat :
    s.toFlat.popLastChild cfg = (s.popLastChild cfg).map fun r => (r.1.toFlat, r.2) := by
  rcases s with ⟨owned, frames, docLen⟩
  have hflat := Frames.flatten_eq frames
  simp only [ThreadedGreenNodeBuilder.popLastChild, ThreadedGreenNodeBuilder.currentChildren,
    firstChild_toFlat, popLastChild, sliceFrom, children_toFlat, hflat, List.length_append,
    Nat.le_add_right, if_true, List.drop_left, except_ok_bind, docLen_toFlat]
  rcases List.eq_nil_or_concat frames.innermost with h | ⟨ys, e, h⟩
  · simp [h]
  · simp only [h, List.concat_eq_append, ← List.append_assoc, List.getLast?_concat,
      List.dropLast_concat]
    cases TextSize.subAssign cfg docLen e.textLen <;> simp [toFlat]

/-- The step lemma of the refinement: every operation commutes with `toFlat`. -/
theorem step_toFlat [Syntax S] [Interner I] (op : BuilderOp S) :
    s.toFlat.step cfg c op = (s.step cfg c op).map fun r => (r.1, r.2.toFlat) := by
  cases op with
  | token kind text => exact token_toFlat cfg c s kind text
  | staticToken kind => exact staticToken_toFlat cfg c s kind
  | startNode kind => simp [ThreadedGreenNodeBuilder.step, step, startNode_toFlat]
  | finishNode => exact finishNode_toFlat cfg c s
  | startNodeAt checkpoint kind =>
    simp only [ThreadedGreenNodeBuilder.step, step, startNodeAt_toFlat]
    cases s.startNodeAt checkpoint kind <;> rfl
  | popLastChild =>
    simp only [ThreadedGreenNodeBuilder.step, step, popLastChild_toFlat]
    cases s.popLastChild cfg <;> rfl

/-- `current_children` of an image is the innermost frame's list. -/
theorem currentChildren_toFlat : (s.toFlat.currentChildren : Except (Panic S) _)
    = .ok s.frames.innermost := by
  simp [ThreadedGreenNodeBuilder.currentChildren, firstChild_toFlat, sliceFrom,
    Frames.flatten_eq s.frames]

/-- A `finish` the nested builder allows returns the same root in the flat one. -/
theorem finish_toFlat [Interner I] {r : GreenNode × Option (ThreadedNodeCache I)}
    (h : s.finish c = some r) : (s.toFlat.finish c : Except (Panic S) _) = .ok r := by
  rcases s with ⟨owned, frames, docLen⟩
  simp only [finish] at h
  split at h
  · cases h; rfl
  · cases h

end step

/-- The run lemma of the refinement: whole runs commute with `toFlat`. -/
theorem run_toFlat [Syntax S] [Interner I] (cfg : Config) (ops : List (BuilderOp S)) :
    ∀ (c : ThreadedNodeCache I) (s : NestedBuilder S),
      ThreadedGreenNodeBuilder.run cfg c s.toFlat ops =
        (run cfg c s ops).map fun r => (r.1, r.2.toFlat) := by
  induction ops with
  | nil => intro c s; rfl
  | cons op ops ih =>
    intro c s
    simp only [ThreadedGreenNodeBuilder.run, run, step_toFlat]
    cases s.step cfg c op with
    | error e => rfl
    | ok r => exact ih r.1 r.2

/-- The empty nested builder stands for the empty flat one. -/
theorem create_eq_toFlat (owned : Bool) :
    (ThreadedGreenNodeBuilder.create owned : ThreadedGreenNodeBuilder S)
      = (⟨owned, .root [], 0⟩ : NestedBuilder S).toFlat := rfl

/-- Every state a run of a fresh flat builder reaches stands for a nested-frame state. -/
theorem run_create_toFlat [Syntax S] [Interner I] (cfg : Config) {c c' : ThreadedNodeCache I}
    {owned : Bool} {ops : List (BuilderOp S)} {b : ThreadedGreenNodeBuilder S}
    (h : (ThreadedGreenNodeBuilder.create owned).run cfg c ops = .ok (c', b)) :
    ∃ s : NestedBuilder S, b = s.toFlat := by
  rw [create_eq_toFlat, run_toFlat] at h
  obtain ⟨r, -, h⟩ := except_map_eq_ok.1 h
  exact ⟨r.2, (congrArg Prod.snd h).symm⟩

/-- The flat builder refines the nested-frame builder: from related states every run of both
raises the same panic or ends in related states with the same cache (so the same cache requests
were made, in the same order, with the same answers); the flat `children` and `parents` are the
concatenation of the frame lists and the offsets where they start; `current_children` is the
innermost list; and a `finish` the nested builder allows returns the same in the flat one. -/
theorem flat_refines_nested [Syntax S] [Interner I] (cfg : Config) :
    (∀ (c : ThreadedNodeCache I) (s : NestedBuilder S) ops,
      ThreadedGreenNodeBuilder.run cfg c s.toFlat ops
        = (run cfg c s ops).map fun r => (r.1, r.2.toFlat)) ∧
    (∀ owned, (ThreadedGreenNodeBuilder.create owned : ThreadedGreenNodeBuilder S)
        = (⟨owned, .root [], 0⟩ : NestedBuilder S).toFlat) ∧
    (∀ s : NestedBuilder S, s.toFlat.children = s.frames.flatten ∧
      s.toFlat.parents = s.frames.parents ∧
      (s.toFlat.currentChildren : Except (Panic S) _) = .ok s.frames.innermost) ∧
    (∀ (c : ThreadedNodeCache I) (s : NestedBuilder S) r,
      s.finish c = some r → s.toFlat.finish c = .ok r) :=
  ⟨fun c s ops => run_toFlat cfg ops c s, create_eq_toFlat,
    fun s => ⟨rfl, rfl, currentChildren_toFlat s⟩, fun c s _ h => finish_toFlat c s h⟩

end Cstree.NestedBuilder
