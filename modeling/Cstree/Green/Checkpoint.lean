import Cstree.Green.Safety
import Cstree.Green.DocLen

/-!
# Retroactive wrapping

`checkpoint()` records the length of the children vector, and `start_node_at(checkpoint, kind)`
opens a frame whose children start there (`threaded_builder.rs:484-506`): the elements pushed since
the checkpoint become children of the node the matching `finish_node` builds. When the operations
in between close only frames they opened themselves and never leave fewer pending children than
the checkpoint recorded, wrapping afterwards is the same as opening the node at the checkpoint with
`start_node(kind)`: both runs make the same cache requests in the same order and end in the same
builder and cache, or raise the same panic.

The early-opened run carries one frame more, `(kind, checkpoint)`, right above the frames that were
open at the checkpoint (`insertFrame`), and every operation in between commutes with inserting it.
-/

namespace Cstree.ThreadedGreenNodeBuilder

variable {S I : Type}

/-! ## The operations after the checkpoint -/

/-- The operations close only frames they opened themselves and leave none open, `depth` of their
own frames being open at the start; `start_node_at` is not among them. -/
def closesOwnFrames : Nat → List (BuilderOp S) → Bool
  | depth, [] => depth == 0
  | depth, .token _ _ :: ops => closesOwnFrames depth ops
  | depth, .staticToken _ :: ops => closesOwnFrames depth ops
  | depth, .startNode _ :: ops => closesOwnFrames (depth + 1) ops
  | 0, .finishNode :: _ => false
  | depth + 1, .finishNode :: ops => closesOwnFrames depth ops
  | _, .startNodeAt _ _ :: _ => false
  | depth, .popLastChild :: ops => closesOwnFrames depth ops

/-- Every operation of the run that returns leaves at least `n` pending children. -/
def keepsAtLeast [Syntax S] [Interner I] (cfg : Config) (n : Nat) :
    ThreadedNodeCache I → ThreadedGreenNodeBuilder S → List (BuilderOp S) → Bool
  | _, _, [] => true
  | c, b, op :: ops =>
    match b.step cfg c op with
    | .ok (c', b') => decide (n ≤ b'.children.length) && keepsAtLeast cfg n c' b' ops
    | .error _ => true

theorem keepsAtLeast_cons_of_ok [Syntax S] [Interner I] {cfg : Config} {n : Nat}
    {c c' : ThreadedNodeCache I} {b b' : ThreadedGreenNodeBuilder S} {op : BuilderOp S}
    {ops : List (BuilderOp S)} (h : b.step cfg c op = .ok (c', b'))
    (hk : keepsAtLeast cfg n c b (op :: ops) = true) :
    n ≤ b'.children.length ∧ keepsAtLeast cfg n c' b' ops = true := by
  simpa [keepsAtLeast, h] using hk

/-- The state of the early-opened run for a state of the checkpoint run: the frame `(kind, n)`
right above the frames `P` that were open at the checkpoint. -/
def insertFrame (P : List (S × Nat)) (kind : S) (n : Nat) (b : ThreadedGreenNodeBuilder S) :
    ThreadedGreenNodeBuilder S :=
  { b with parents := P ++ (kind, n) :: b.parents.drop P.length }

@[simp] theorem children_insertFrame (P : List (S × Nat)) (kind : S) (n : Nat)
    (b : ThreadedGreenNodeBuilder S) : (insertFrame P kind n b).children = b.children := rfl

@[simp] theorem docLen_insertFrame (P : List (S × Nat)) (kind : S) (n : Nat)
    (b : ThreadedGreenNodeBuilder S) : (insertFrame P kind n b).docLen = b.docLen := rfl

theorem insertFrame_of_parents {P Q : List (S × Nat)} {kind : S} {n : Nat}
    {b : ThreadedGreenNodeBuilder S} (h : b.parents = P ++ Q) :
    insertFrame P kind n b = { b with parents := P ++ (kind, n) :: Q } := by
  simp [insertFrame, h]

theorem firstChild_le {b : ThreadedGreenNodeBuilder S} {m : Nat}
    (h : ∀ x ∈ b.parents, x.2 ≤ m) :
    b.firstChild ≤ m := by
  unfold firstChild
  cases hl : b.parents.getLast? with
  | none => simp
  | some x => simpa using h x (List.mem_of_getLast?_eq_some hl)

/-- Right after the checkpoint, the inserted frame is the innermost one. -/
theorem firstChild_insertFrame_nil {P : List (S × Nat)} {kind : S} {n : Nat}
    {b : ThreadedGreenNodeBuilder S} (h : b.parents = P) :
    (insertFrame P kind n b).firstChild = n := by
  simp [firstChild, insertFrame, h]

/-- Once a frame of its own is open, the inserted frame is not the innermost one. -/
theorem firstChild_insertFrame {P Q : List (S × Nat)} {kind : S} {n : Nat}
    {b : ThreadedGreenNodeBuilder S} (h : b.parents = P ++ Q) (hQ : Q ≠ []) :
    (insertFrame P kind n b).firstChild = b.firstChild := by
  obtain ⟨Q, x, rfl⟩ := (List.eq_nil_or_concat Q).resolve_left hQ
  have h₁ : (insertFrame P kind n b).parents = (P ++ (kind, n) :: Q) ++ [x] := by
    simp [insertFrame, h]
  have h₂ : b.parents = (P ++ Q) ++ [x] := by simp [h]
  rw [firstChild, firstChild, h₁, h₂, List.getLast?_concat, List.getLast?_concat]

/-! ## Each operation commutes with inserting the frame -/

section step

variable [Syntax S] [Interner I] (cfg : Config) (P : List (S × Nat)) (k : S) (n : Nat)
  {c : ThreadedNodeCache I} {a : ThreadedGreenNodeBuilder S}

omit [Syntax S] [Interner I] in
theorem pushToken_insertFrame (t : GreenToken) :
    (insertFrame P k n a).pushToken cfg t = (a.pushToken cfg t).map (insertFrame P k n) := by
  simp only [pushToken, docLen_insertFrame]
  cases TextSize.addAssign cfg a.docLen t.data.textLen <;> rfl

theorem token_insertFrame (kind : S) (text : String) :
    (insertFrame P k n a).token cfg c kind text
      = (a.token cfg c kind text).map fun r => (r.1, insertFrame P k n r.2) := by
  unfold token
  cases c.tokenFor cfg kind text with
  | error e => rfl
  | ok r =>
    simp only [except_ok_bind, pushToken_insertFrame]
    cases a.pushToken cfg r.2 <;> rfl

omit [Interner I] in
theorem staticToken_insertFrame (kind : S) :
    (insertFrame P k n a).staticToken cfg c kind
      = (a.staticToken cfg c kind).map fun r => (r.1, insertFrame P k n r.2) := by
  unfold staticToken
  cases c.staticTokenFor kind with
  | error e => rfl
  | ok r =>
    simp only [except_ok_bind, pushToken_insertFrame]
    cases a.pushToken cfg r.2 <;> rfl

omit [Syntax S] [Interner I] in
theorem startNode_insertFrame {Q : List (S × Nat)} (hP : a.parents = P ++ Q) (kind : S) :
    (insertFrame P k n a).startNode kind = insertFrame P k n (a.startNode kind) := by
  simp [startNode, insertFrame, hP]

omit [Interner I] in
/-- `finish_node` inside a frame opened after the checkpoint pops that same frame in both runs. -/
theorem finishNode_insertFrame {Q : List (S × Nat)} (hP : a.parents = P ++ Q) (hQ : Q ≠ []) :
    (insertFrame P k n a).finishNode cfg c
      = (a.finishNode cfg c).map fun r => (r.1, insertFrame P k n r.2) := by
  obtain ⟨Q, ⟨kind, firstChild⟩, rfl⟩ := (List.eq_nil_or_concat Q).resolve_left hQ
  have h₁ : (insertFrame P k n a).parents = (P ++ (k, n) :: Q) ++ [(kind, firstChild)] := by
    simp [insertFrame, hP]
  have h₂ : a.parents = (P ++ Q) ++ [(kind, firstChild)] := by simp [hP]
  unfold finishNode
  rw [h₁, h₂, List.getLast?_concat, List.getLast?_concat, children_insertFrame]
  dsimp only
  cases c.node cfg kind a.children firstChild with
  | error e => rfl
  | ok r => simp [insertFrame]; rw [← List.cons_append, List.dropLast_concat]

omit [Syntax S] [Interner I] in
/-- `pop_last_child` inside a frame opened after the checkpoint sees the same frame in both runs. -/
theorem popLastChild_insertFrame_of_firstChild
    (h : (insertFrame P k n a).firstChild = a.firstChild) :
    (insertFrame P k n a).popLastChild cfg
      = (a.popLastChild cfg).map fun r => (insertFrame P k n r.1, r.2) := by
  unfold popLastChild currentChildren
  rw [h, children_insertFrame]
  cases sliceFrom a.children a.firstChild with
  | error e => rfl
  | ok cur =>
    simp only [except_ok_bind]
    split
    · rfl
    · cases a.children.getLast? with
      | none => rfl
      | some e =>
        simp only [docLen_insertFrame]
        cases TextSize.subAssign cfg a.docLen e.textLen <;> rfl

omit [Syntax S] [Interner I] in
/-- `pop_last_child` behaves alike in both runs when the innermost frame has a child in one exactly
when it has one in the other. -/
theorem popLastChild_insertFrame (hf : a.firstChild ≤ a.children.length)
    (hf' : (insertFrame P k n a).firstChild ≤ a.children.length)
    (h : a.firstChild < a.children.length ↔
      (insertFrame P k n a).firstChild < a.children.length) :
    (insertFrame P k n a).popLastChild cfg
      = (a.popLastChild cfg).map fun r => (insertFrame P k n r.1, r.2) := by
  unfold popLastChild currentChildren sliceFrom
  rw [children_insertFrame, if_pos hf, if_pos hf']
  by_cases hlt : a.firstChild < a.children.length
  · have hne : ¬ a.children.length ≤ a.firstChild := by omega
    have hne' : ¬ a.children.length ≤ (insertFrame P k n a).firstChild := by
      have := h.1 hlt; omega
    simp only [except_ok_bind, List.isEmpty_iff, List.drop_eq_nil_iff, hne, hne', if_false]
    cases a.children.getLast? with
    | none => rfl
    | some e =>
      simp only [docLen_insertFrame]
      cases TextSize.subAssign cfg a.docLen e.textLen <;> rfl
  · have hle : a.children.length ≤ a.firstChild := by omega
    have hle' : a.children.length ≤ (insertFrame P k n a).firstChild := by
      have := mt h.2 hlt; omega
    simp [hle, hle']

/-- One operation after the checkpoint commutes with inserting the frame, as long as the operation
is one the conditions allow and, if it returns, leaves at least `n` pending children. -/
theorem step_insertFrame {Q : List (S × Nat)} {op : BuilderOp S} {ops : List (BuilderOp S)}
    (hP : a.parents = P ++ Q) (hPn : ∀ x ∈ P, x.2 ≤ n) (hn : n ≤ a.children.length)
    (ha : a.DocLenOk cfg) (hq : closesOwnFrames Q.length (op :: ops) = true)
    (hkeep : ∀ c' a', a.step cfg c op = .ok (c', a') → n ≤ a'.children.length) :
    (insertFrame P k n a).step cfg c op =
      (a.step cfg c op).map fun r => (r.1, insertFrame P k n r.2) := by
  cases op with
  | token kind text => exact token_insertFrame cfg P k n kind text
  | staticToken kind => exact staticToken_insertFrame cfg P k n kind
  | startNode kind => simp only [step, startNode_insertFrame P k n hP]; rfl
  | finishNode =>
    refine finishNode_insertFrame cfg P k n hP fun hQ => ?_
    simp [hQ, closesOwnFrames] at hq
  | startNodeAt checkpoint kind => simp [closesOwnFrames] at hq
  | popLastChild =>
    simp only [step]
    by_cases hQ : Q = []
    · -- the inserted frame is the innermost one: it has a child exactly when the outer one does,
      -- since a pop from the outer frame that ends below `n` is excluded
      rw [hQ, List.append_nil] at hP
      have hf := firstChild_le (hP ▸ hPn)
      have hf' := @firstChild_insertFrame_nil _ P k n a hP
      rw [popLastChild_insertFrame cfg P k n (by omega) (by omega) ⟨fun hlt => ?_, by omega⟩]
      · cases a.popLastChild cfg <;> rfl
      · rw [hf']
        by_contra hle
        obtain ⟨a', e, hpop, hch⟩ := popLastChild_of_lt cfg ha hlt
        have := hkeep c a' (by simp [step, hpop])
        rw [hch, List.length_dropLast] at this
        omega
    · rw [popLastChild_insertFrame_of_firstChild cfg P k n (firstChild_insertFrame hP hQ)]
      cases a.popLastChild cfg <;> rfl

/-- After an operation the conditions allow, the frames open at the checkpoint are still there,
below those the operations opened. -/
theorem step_closesOwnFrames {c' : ThreadedNodeCache I} {a' : ThreadedGreenNodeBuilder S}
    {Q : List (S × Nat)} {op : BuilderOp S} {ops : List (BuilderOp S)} (hP : a.parents = P ++ Q)
    (hq : closesOwnFrames Q.length (op :: ops) = true) (h : a.step cfg c op = .ok (c', a')) :
    ∃ Q', a'.parents = P ++ Q' ∧ closesOwnFrames Q'.length ops = true := by
  cases op with
  | token kind text =>
    obtain ⟨t, -, hp⟩ := token_ok cfg h
    obtain ⟨d, -, rfl⟩ := pushToken_ok cfg hp
    exact ⟨Q, hP, by simpa [closesOwnFrames] using hq⟩
  | staticToken kind =>
    obtain ⟨t, -, hp⟩ := staticToken_ok cfg h
    obtain ⟨d, -, rfl⟩ := pushToken_ok cfg hp
    exact ⟨Q, hP, by simpa [closesOwnFrames] using hq⟩
  | startNode kind =>
    cases h
    exact ⟨Q ++ [(kind, a.children.length)], by simp [startNode, hP],
      by simpa [closesOwnFrames] using hq⟩
  | finishNode =>
    obtain ⟨ps, kind, firstChild, _, _, hps, -, rfl⟩ := finishNode_ok cfg h
    obtain ⟨Q, x, rfl⟩ := (List.eq_nil_or_concat Q).resolve_left fun hQ => by
      simp [hQ, closesOwnFrames] at hq
    rw [List.concat_eq_append, ← List.append_assoc, hps] at hP
    exact ⟨Q, (List.append_inj' hP rfl).1, by simpa [closesOwnFrames] using hq⟩
  | startNodeAt checkpoint kind => simp [closesOwnFrames] at hq
  | popLastChild =>
    obtain ⟨-, e, hp⟩ := step_popLastChild_ok cfg h
    obtain ⟨ys, d, -, -, -, rfl⟩ := popLastChild_ok cfg hp
    exact ⟨Q, hP, by simpa [closesOwnFrames] using hq⟩

end step

/-! ## Whole runs -/

section run

variable [Syntax S] [Interner I] (cfg : Config) (P : List (S × Nat)) (k : S) (n : Nat)

omit [Syntax S] [Interner I] in
/-- At the end, `start_node_at` with the checkpoint opens the frame the early run inserted. -/
theorem startNodeAt_checkpoint {a : ThreadedGreenNodeBuilder S} (hP : a.parents = P)
    (hPn : ∀ x ∈ P, x.2 ≤ n) (hn : n ≤ a.children.length) :
    a.startNodeAt ⟨n⟩ k = .ok (insertFrame P k n a) := by
  unfold startNodeAt
  rw [if_pos hn]
  cases hl : a.parents.getLast? with
  | none => simp [insertFrame, hP]
  | some x =>
    have := hPn x (hP ▸ List.mem_of_getLast?_eq_some hl)
    simp [insertFrame, hP, this]

/-- The lock-step run: from related states, the checkpoint run followed by `start_node_at` and the
early-opened run agree, panic for panic. -/
theorem run_insertFrame (hPn : ∀ x ∈ P, x.2 ≤ n) (q : List (BuilderOp S)) :
    ∀ (c : ThreadedNodeCache I) (a : ThreadedGreenNodeBuilder S) (Q : List (S × Nat)),
      c.Reachable cfg → a.DocLenOk cfg → a.parents = P ++ Q → n ≤ a.children.length →
      closesOwnFrames Q.length q = true → keepsAtLeast cfg n c a q = true →
      ((a.run cfg c q).bind fun r => (r.2.startNodeAt ⟨n⟩ k).map fun b => (r.1, b))
        = (insertFrame P k n a).run cfg c q := by
  induction q with
  | nil =>
    intro c a Q _ _ hP hn hq _
    obtain rfl : Q = [] := List.length_eq_zero.1 (by simpa [closesOwnFrames] using hq)
    rw [List.append_nil] at hP
    show Except.map _ (a.startNodeAt ⟨n⟩ k) = _
    rw [startNodeAt_checkpoint P k n hP hPn hn]
    rfl
  | cons op q ih =>
    intro c a Q hc ha hP hn hq hk
    simp only [run]
    rw [step_insertFrame cfg P k n hP hPn hn ha hq fun c' a' h => (keepsAtLeast_cons_of_ok h hk).1]
    cases h : a.step cfg c op with
    | error e => rfl
    | ok r =>
      obtain ⟨c', a'⟩ := r
      obtain ⟨hn', hk'⟩ := keepsAtLeast_cons_of_ok h hk
      obtain ⟨Q', hP', hq'⟩ := step_closesOwnFrames cfg P hP hq h
      obtain ⟨rs, rfl⟩ := step_serves cfg h
      exact ih _ a' Q' (hc.serveAll cfg rs) (step_docLenOk cfg (hc.inv cfg) ha h) hP' hn' hq' hk'

end run

/-! ## Retroactive wrapping equals early opening -/

/-- From a fresh builder on a reachable cache, take a checkpoint after any operations `p`, run
operations `q` that close only frames they opened, leave none open and never leave fewer pending
children than the checkpoint recorded, and wrap at the checkpoint: the result is the run with
`start_node(k)` at the checkpoint, panic for panic, builder for builder and cache for cache (so
with the same requests in the same order). Hence every continuation finishes alike. -/
theorem startNodeAt_checkpoint_eq_startNode [Syntax S] [Interner I] (cfg : Config)
    {c₀ : ThreadedNodeCache I} (hc : c₀.Reachable cfg) (owned : Bool) (p q : List (BuilderOp S))
    (k : S) (hq : closesOwnFrames 0 q = true)
    (hkeep : ∀ c₁ b₁, (create owned).run cfg c₀ p = .ok (c₁, b₁) →
      keepsAtLeast cfg b₁.checkpoint.pos c₁ b₁ q = true) :
    (((create owned).run cfg c₀ p).bind fun r₁ => (r₁.2.run cfg r₁.1 q).bind fun r₂ =>
        (r₂.2.startNodeAt r₁.2.checkpoint k).map fun b => (r₂.1, b))
      = (create owned).run cfg c₀ (p ++ .startNode k :: q) ∧
    ∀ rest : List (BuilderOp S),
      ((((create owned).run cfg c₀ p).bind fun r₁ => (r₁.2.run cfg r₁.1 q).bind fun r₂ =>
          (r₂.2.startNodeAt r₁.2.checkpoint k).map fun b => (r₂.1, b)).bind fun r =>
            (r.2.run cfg r.1 rest).bind fun r' => r'.2.finish r'.1)
        = ((create owned).run cfg c₀ (p ++ .startNode k :: q ++ rest)).bind
            fun r' => r'.2.finish r'.1 := by
  refine (fun h => ⟨h, fun rest => ?continuation⟩) ?wrap
  case continuation =>
    rename_i h
    rw [h, run_append cfg (p ++ .startNode k :: q) rest]
    cases (create owned).run cfg c₀ (p ++ .startNode k :: q) <;> rfl
  rw [run_append]
  cases h : (create owned).run cfg c₀ p with
  | error e => rfl
  | ok r₁ =>
    obtain ⟨c₁, b₁⟩ := r₁
    obtain ⟨s, rfl⟩ := NestedBuilder.run_create_toFlat cfg h
    obtain ⟨hb, hc₁⟩ := run_docLenOk cfg hc (create_docLenOk cfg owned) h
    have hwrap := run_insertFrame cfg s.toFlat.parents k s.toFlat.children.length
      (Frames.parents_sorted_le s.frames).2 q c₁ s.toFlat [] hc₁ hb (List.append_nil _).symm
      le_rfl (by simpa using hq) (hkeep c₁ _ h)
    rw [insertFrame_of_parents (List.append_nil _).symm] at hwrap
    exact hwrap

theorem startNodeAt_checkpoint_eq_startNode_operation :
    (((create true : ThreadedGreenNodeBuilder TestSyntaxKind).run ⟨true, fun _ => 0⟩
        (ThreadedNodeCache.withInterner (⟨[]⟩ : ListInterner))
        [.startNode .root, .token .int "1"]).bind fun r₁ =>
      (r₁.2.run ⟨true, fun _ => 0⟩ r₁.1
        [.startNode .int, .token .int "2", .finishNode, .staticToken .plus, .popLastChild]).bind
        fun r₂ => (r₂.2.startNodeAt r₁.2.checkpoint .operation).map fun b => (r₂.1, b))
      = (create true).run ⟨true, fun _ => 0⟩ (ThreadedNodeCache.withInterner (⟨[]⟩ : ListInterner))
          ([.startNode .root, .token .int "1"] ++ .startNode .operation ::
            [.startNode .int, .token .int "2", .finishNode, .staticToken .plus, .popLastChild]) ∧
    ∀ rest : List (BuilderOp TestSyntaxKind),
      ((((create true : ThreadedGreenNodeBuilder TestSyntaxKind).run ⟨true, fun _ => 0⟩
          (ThreadedNodeCache.withInterner (⟨[]⟩ : ListInterner))
          [.startNode .root, .token .int "1"]).bind fun r₁ =>
        (r₁.2.run ⟨true, fun _ => 0⟩ r₁.1
          [.startNode .int, .token .int "2", .finishNode, .staticToken .plus, .popLastChild]).bind
          fun r₂ => (r₂.2.startNodeAt r₁.2.checkpoint .operation).map fun b => (r₂.1, b)).bind
          fun r => (r.2.run ⟨true, fun _ => 0⟩ r.1 rest).bind fun r' => r'.2.finish r'.1)
        = ((create true).run ⟨true, fun _ => 0⟩
            (ThreadedNodeCache.withInterner (⟨[]⟩ : ListInterner))
            ([.startNode .root, .token .int "1"] ++ .startNode .operation ::
              [.startNode .int, .token .int "2", .finishNode, .staticToken .plus, .popLastChild] ++
                rest)).bind fun r' => r'.2.finish r'.1 := by
  have h :=
    @startNodeAt_checkpoint_eq_startNode TestSyntaxKind ListInterner _ _ ⟨true, fun _ => 0⟩ _
      (.withInterner ⟨[]⟩) true [.startNode .root, .token .int "1"]
      [.startNode .int, .token .int "2", .finishNode, .staticToken .plus, .popLastChild] .operation rfl
      fun _ _ h => by cases h; decide
  exact h

end Cstree.ThreadedGreenNodeBuilder
