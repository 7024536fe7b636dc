import Cstree.Green.DocLen

/-!
# A builder's view of the shared cache

Builders made `with_cache` share one cache (`threaded_builder.rs:306-313`). What one builder sees
of a run of them is its own operations, with the requests other parties make to the cache's maps
and interner served between them. `runView` runs a builder over such a view; a view reaches the
cache only through requests, so it keeps the cache reachable.
-/

namespace Cstree

variable {S I : Type}

/-! ## A builder's view of the shared cache -/

/-- What one builder sees of a run of the world: its own operations, and the requests other
parties make to the shared cache between them. -/
inductive View (S : Type) where
  | own (op : BuilderOp S)
  | other (r : CacheRequest)

namespace View

/-- The builder's own operations. -/
def ownOps : List (View S) → List (BuilderOp S)
  | [] => []
  | own op :: vs => op :: ownOps vs
  | other _ :: vs => ownOps vs

@[simp] theorem ownOps_map_own (ops : List (BuilderOp S)) : ownOps (ops.map own) = ops := by
  induction ops with
  | nil => rfl
  | cons op ops ih => simp [ownOps, ih]

@[simp] theorem ownOps_append (vs ws : List (View S)) :
    ownOps (vs ++ ws) = ownOps vs ++ ownOps ws := by
  induction vs with
  | nil => rfl
  | cons v vs ih => cases v <;> simp [ownOps, ih]

@[simp] theorem ownOps_map_other (rs : List CacheRequest) : ownOps (rs.map (@other S)) = [] := by
  induction rs with
  | nil => rfl
  | cons r rs ih => exact ih

/-- A view of `p ++ q` is a view of `p` followed by a view of `q`. -/
theorem exists_split_of_ownOps_eq_append {vs : List (View S)} {p q : List (BuilderOp S)}
    (h : ownOps vs = p ++ q) :
    ∃ vs₁ vs₂, vs = vs₁ ++ vs₂ ∧ ownOps vs₁ = p ∧ ownOps vs₂ = q := by
  induction vs generalizing p with
  | nil =>
    obtain ⟨rfl, rfl⟩ := List.append_eq_nil.1 h.symm
    exact ⟨[], [], rfl, rfl, rfl⟩
  | cons v vs ih =>
    cases v with
    | own op =>
      cases p with
      | nil => exact ⟨[], own op :: vs, rfl, rfl, h⟩
      | cons x p =>
        simp only [ownOps, List.cons_append, List.cons.injEq] at h
        obtain ⟨vs₁, vs₂, rfl, h₁, h₂⟩ := ih h.2
        exact ⟨own op :: vs₁, vs₂, rfl, by rw [ownOps, h₁, h.1], h₂⟩
    | other r =>
      obtain ⟨vs₁, vs₂, rfl, h₁, h₂⟩ := ih h
      exact ⟨other r :: vs₁, vs₂, rfl, h₁, h₂⟩

/-- A view of `op :: q`: other parties' requests, then `op`, then a view of `q`. -/
theorem exists_of_ownOps_eq_cons {vs : List (View S)} {op : BuilderOp S} {q : List (BuilderOp S)}
    (h : ownOps vs = op :: q) :
    ∃ (rs : List CacheRequest) (vs' : List (View S)),
      vs = rs.map other ++ own op :: vs' ∧ ownOps vs' = q := by
  induction vs with
  | nil => cases h
  | cons v vs ih =>
    cases v with
    | own op' =>
      simp only [ownOps, List.cons.injEq] at h
      obtain ⟨rfl, h⟩ := h
      exact ⟨[], vs, rfl, h⟩
    | other r =>
      obtain ⟨rs, vs', rfl, h'⟩ := ih h
      exact ⟨r :: rs, vs', rfl, h'⟩

/-- A view with no own operation is a list of other parties' requests. -/
theorem exists_of_ownOps_eq_nil {vs : List (View S)} (h : ownOps vs = []) :
    ∃ rs : List CacheRequest, vs = rs.map other := by
  induction vs with
  | nil => exact ⟨[], rfl⟩
  | cons v vs ih =>
    cases v with
    | own op => cases h
    | other r =>
      obtain ⟨rs, rfl⟩ := ih h
      exact ⟨r :: rs, rfl⟩

end View

namespace ThreadedGreenNodeBuilder

variable [Syntax S] [Interner I] (cfg : Config)

/-- A builder's run with the requests of other parties served between its operations. -/
def runView (c : ThreadedNodeCache I) (b : ThreadedGreenNodeBuilder S) :
    List (View S) → Except (Panic S) (ThreadedNodeCache I × ThreadedGreenNodeBuilder S)
  | [] => .ok (c, b)
  | .own op :: vs => (b.step cfg c op).bind fun r => runView r.1 r.2 vs
  | .other r :: vs => runView (c.serve cfg r) b vs

theorem runView_append (vs ws : List (View S)) :
    ∀ (c : ThreadedNodeCache I) (b : ThreadedGreenNodeBuilder S),
    b.runView cfg c (vs ++ ws) = (b.runView cfg c vs).bind fun r => r.2.runView cfg r.1 ws := by
  induction vs with
  | nil => intro c b; rfl
  | cons v vs ih =>
    intro c b
    cases v with
    | own op =>
      show (b.step cfg c op).bind _ = ((b.step cfg c op).bind _).bind _
      cases b.step cfg c op with
      | error e => rfl
      | ok r => exact ih r.1 r.2
    | other r => exact ih _ b

theorem runView_map_other (rs : List CacheRequest) :
    ∀ (c : ThreadedNodeCache I) (b : ThreadedGreenNodeBuilder S),
    b.runView cfg c (rs.map .other) = .ok (c.serveAll cfg rs, b) := by
  induction rs with
  | nil => intro c b; rfl
  | cons r rs ih => intro c b; exact ih _ b

/-- With no other party, a view is a plain run. -/
@[simp] theorem runView_map_own (ops : List (BuilderOp S)) :
    ∀ (c : ThreadedNodeCache I) (b : ThreadedGreenNodeBuilder S),
    b.runView cfg c (ops.map .own) = b.run cfg c ops := by
  induction ops with
  | nil => intro c b; rfl
  | cons op ops ih =>
    intro c b
    show (b.step cfg c op).bind _ = (b.step cfg c op) >>= _
    cases b.step cfg c op with
    | error e => rfl
    | ok r => exact ih r.1 r.2

/-- One own operation with other parties' requests before and after it. -/
theorem runView_around (rs₀ rs₁ : List CacheRequest) (op : BuilderOp S)
    (c : ThreadedNodeCache I) (b : ThreadedGreenNodeBuilder S) :
    b.runView cfg c (rs₀.map .other ++ .own op :: rs₁.map .other)
      = (b.step cfg (c.serveAll cfg rs₀) op).map fun r => (r.1.serveAll cfg rs₁, r.2) := by
  rw [runView_append, runView_map_other]
  show (b.step cfg _ op).bind _ = _
  cases b.step cfg (c.serveAll cfg rs₀) op with
  | error e => rfl
  | ok r => exact runView_map_other cfg rs₁ r.1 r.2

/-- A view reaches the cache only through requests, its own and the other parties'. -/
theorem runView_serves {vs : List (View S)} {c c' : ThreadedNodeCache I}
    {b b' : ThreadedGreenNodeBuilder S} (h : b.runView cfg c vs = .ok (c', b')) :
    ∃ rs, c' = c.serveAll cfg rs := by
  induction vs generalizing c b with
  | nil => cases h; exact ⟨[], rfl⟩
  | cons v vs ih =>
    cases v with
    | own op =>
      obtain ⟨⟨c₁, b₁⟩, hs, hr⟩ := except_bind_eq_ok.1 h
      obtain ⟨rs, rfl⟩ := step_serves cfg hs
      obtain ⟨rs', rfl⟩ := ih hr
      exact ⟨rs ++ rs', (List.foldl_append ..).symm⟩
    | other r =>
      obtain ⟨rs, rfl⟩ := ih h
      exact ⟨r :: rs, rfl⟩

end ThreadedGreenNodeBuilder

end Cstree
