import Mathlib.Data.UInt
import Mathlib.Algebra.BigOperators.Group.List

/-!
# Green elements

The data model of `green/threaded_builder.rs`: raw kinds, node heads, token data and the green
elements the builder assembles. A `GreenNode` is an `Arc` of a head and its children and a
`GreenToken` an `Arc` of its data. The identity of an `Arc` is modelled by the allocation id it
was created with, so "the same instance" is equality of ids, while `strip` forgets every id and
equal `strip`s are structural equality.

`Hash for GreenElement`, `FxHasher32` and the `Syntax` and `Interner` traits live outside this
file: the first two are the parameter `Config.childHash`, the traits are classes.
-/

namespace Cstree

/-- `RawSyntaxKind(u32)`, what a `Syntax` kind converts into. -/
structure RawSyntaxKind where
  raw : UInt32
deriving DecidableEq, Repr

/-- `TextSize`, a length in bytes held in a `u32`. -/
abbrev TextSize := UInt32

/-- `TokenKey`, the interner's key of a token text. -/
structure TokenKey where
  inner : UInt32
deriving DecidableEq, Repr

/-- `GreenNodeHead`: kind, text length and child hash of a node, the node cache's key. -/
structure GreenNodeHead where
  kind : RawSyntaxKind
  textLen : TextSize
  childHash : UInt32
deriving DecidableEq, Repr

/-- `GreenTokenData`: the whole content of a token, and the token cache's key. -/
structure GreenTokenData where
  kind : RawSyntaxKind
  text : Option TokenKey
  textLen : TextSize
deriving DecidableEq, Repr

/-- `util::NodeOrToken`. -/
inductive NodeOrToken (N T : Type) where
  | node (n : N)
  | token (t : T)
deriving DecidableEq, Repr

/-- `GreenElement = NodeOrToken<GreenNode, GreenToken>`, each handle with its allocation id. -/
inductive GreenElement where
  | node (id : Nat) (head : GreenNodeHead) (children : List GreenElement)
  | token (id : Nat) (data : GreenTokenData)
deriving Repr

/-- `GreenNode`: a handle to a head and its children. -/
structure GreenNode where
  id : Nat
  head : GreenNodeHead
  children : List GreenElement
deriving Repr

/-- `GreenToken`: a handle to token data. -/
structure GreenToken where
  id : Nat
  data : GreenTokenData
deriving DecidableEq, Repr

/-- `node.into()`. -/
def GreenNode.toElement (n : GreenNode) : GreenElement := .node n.id n.head n.children

/-- `token.into()`. -/
def GreenToken.toElement (t : GreenToken) : GreenElement := .token t.id t.data

/-- `GreenNode::new_with_len_and_hash`: a fresh node with the given head fields. -/
def GreenNode.newWithLenAndHash (id : Nat) (kind : RawSyntaxKind) (children : List GreenElement)
    (textLen : TextSize) (childHash : UInt32) : GreenNode :=
  ⟨id, ⟨kind, textLen, childHash⟩, children⟩

/-- `GreenElement::text_len`. -/
def GreenElement.textLen : GreenElement → TextSize
  | .node _ h _ => h.textLen
  | .token _ d => d.textLen

/-- What `Hash for GreenElement` feeds the hasher: a node's head or a token's data. Modelled from
the spec: the child hash is "a function solely of (child kinds, child lengths, child sub-hashes,
child texts)". -/
def GreenElement.head : GreenElement → NodeOrToken GreenNodeHead GreenTokenData
  | .node _ h _ => .node h
  | .token _ d => .token d

@[simp] theorem GreenNode.textLen_toElement (n : GreenNode) :
    n.toElement.textLen = n.head.textLen := rfl

@[simp] theorem GreenToken.textLen_toElement (t : GreenToken) :
    t.toElement.textLen = t.data.textLen := rfl

/-- The sum of the children's text lengths, in `TextSize` arithmetic. -/
def sumTextLen (children : List GreenElement) : TextSize := (children.map GreenElement.textLen).sum

@[simp] theorem sumTextLen_nil : sumTextLen [] = 0 := rfl

@[simp] theorem sumTextLen_append (l m : List GreenElement) :
    sumTextLen (l ++ m) = sumTextLen l + sumTextLen m := by
  simp [sumTextLen]

@[simp] theorem sumTextLen_cons (e : GreenElement) (l : List GreenElement) :
    sumTextLen (e :: l) = e.textLen + sumTextLen l := by
  simp [sumTextLen]

/-- `TextSize` addition wraps modulo `2 ^ 32`. -/
theorem TextSize.toNat_add (a b : TextSize) : (a + b).toNat = (a.toNat + b.toNat) % 2 ^ 32 := by
  show (a.toBitVec + b.toBitVec).toNat = _
  rw [BitVec.toNat_add]; rfl

theorem TextSize.ofNat_add (a b : Nat) : UInt32.ofNat (a + b) = UInt32.ofNat a + UInt32.ofNat b :=
  UInt32.eq_of_toBitVec_eq (BitVec.ofNat_add ..)

/-- `n as u32` keeps `n` modulo `2 ^ 32`. -/
theorem TextSize.toNat_ofNat (n : Nat) : (UInt32.ofNat n).toNat = n % 2 ^ 32 :=
  BitVec.toNat_ofNat ..

/-- The sum of the children's text lengths as a natural number, with no wrapping. -/
def natTextLen (children : List GreenElement) : Nat :=
  (children.map GreenElement.textLen).foldr (fun len acc => len.toNat + acc) 0

@[simp] theorem natTextLen_nil : natTextLen [] = 0 := rfl

@[simp] theorem natTextLen_cons (e : GreenElement) (l : List GreenElement) :
    natTextLen (e :: l) = e.textLen.toNat + natTextLen l := rfl

@[simp] theorem natTextLen_append (l m : List GreenElement) :
    natTextLen (l ++ m) = natTextLen l + natTextLen m := by
  induction l with
  | nil => simp
  | cons e l ih => simp [ih, Nat.add_assoc]

/-- `sumTextLen` is `natTextLen` modulo `2 ^ 32`. -/
theorem toNat_sumTextLen (l : List GreenElement) :
    (sumTextLen l).toNat = natTextLen l % 2 ^ 32 := by
  induction l with
  | nil => rfl
  | cons e l ih => simp [TextSize.toNat_add, ih, Nat.add_mod]

theorem natTextLen_drop_le (l : List GreenElement) (n : Nat) :
    natTextLen (l.drop n) ≤ natTextLen l := by
  have := natTextLen_append (l.take n) (l.drop n)
  rw [List.take_append_drop] at this
  omega

theorem toNat_textLen_le_natTextLen {e : GreenElement} {l : List GreenElement} (he : e ∈ l) :
    e.textLen.toNat ≤ natTextLen l := by
  induction l with
  | nil => cases he
  | cons e' l ih =>
    rcases List.mem_cons.1 he with rfl | he
    · simp
    · simp only [natTextLen_cons]; have := ih he; omega

theorem sumTextLen_take_add_drop (l : List GreenElement) (n : Nat) :
    sumTextLen (l.take n) + sumTextLen (l.drop n) = sumTextLen l := by
  rw [← sumTextLen_append, List.take_append_drop]

/-! ## Structural equality and token lengths -/

mutual
/-- The element with every allocation id set to `0`. -/
def GreenElement.strip : GreenElement → GreenElement
  | .node _ h cs => .node 0 h (GreenElement.stripAll cs)
  | .token _ d => .token 0 d

/-- `strip` on each element of a list. -/
def GreenElement.stripAll : List GreenElement → List GreenElement
  | [] => []
  | e :: es => e.strip :: GreenElement.stripAll es
end

@[simp] theorem GreenElement.stripAll_eq_map (es : List GreenElement) :
    GreenElement.stripAll es = es.map GreenElement.strip := by
  induction es with
  | nil => rfl
  | cons e es ih => simp [GreenElement.stripAll, ih]

@[simp] theorem GreenElement.strip_node (id : Nat) (h : GreenNodeHead) (cs : List GreenElement) :
    (GreenElement.node id h cs).strip = .node 0 h (cs.map GreenElement.strip) := by
  simp [GreenElement.strip]

@[simp] theorem GreenElement.strip_token (id : Nat) (d : GreenTokenData) :
    (GreenElement.token id d).strip = .token 0 d := rfl

/-- Stripping keeps what the hasher reads. -/
@[simp] theorem GreenElement.head_strip (e : GreenElement) : e.strip.head = e.head := by
  cases e <;> simp [GreenElement.head]

/-- Stripping keeps the text length. -/
@[simp] theorem GreenElement.textLen_strip (e : GreenElement) : e.strip.textLen = e.textLen := by
  cases e <;> simp [GreenElement.textLen]

mutual
/-- The total length of the tokens of an element's subtree, in `TextSize` arithmetic. -/
def GreenElement.tokenLen : GreenElement → TextSize
  | .node _ _ cs => GreenElement.tokenLenAll cs
  | .token _ d => d.textLen

/-- `tokenLen` summed over a list. -/
def GreenElement.tokenLenAll : List GreenElement → TextSize
  | [] => 0
  | e :: es => e.tokenLen + GreenElement.tokenLenAll es
end

mutual
/-- Every node of an element's subtree has a text length equal to the length of its tokens. -/
def GreenElement.LenSound : GreenElement → Prop
  | .node _ h cs => h.textLen = GreenElement.tokenLenAll cs ∧ GreenElement.LenSoundAll cs
  | .token _ _ => True

/-- `LenSound` of every element of a list. -/
def GreenElement.LenSoundAll : List GreenElement → Prop
  | [] => True
  | e :: es => e.LenSound ∧ GreenElement.LenSoundAll es
end

theorem GreenElement.lenSoundAll_iff (es : List GreenElement) :
    GreenElement.LenSoundAll es ↔ ∀ e ∈ es, e.LenSound := by
  induction es with
  | nil => simp [GreenElement.LenSoundAll]
  | cons e es ih => simp [GreenElement.LenSoundAll, ih]

/-- On a sound element the text length is the length of its tokens. -/
theorem GreenElement.LenSound.textLen_eq {e : GreenElement} (h : e.LenSound) :
    e.textLen = e.tokenLen := by
  cases e with
  | node id hd cs =>
    simpa [GreenElement.LenSound, GreenElement.textLen, GreenElement.tokenLen] using h.1
  | token id d => rfl

/-- Over sound elements, `sumTextLen` is the length of all their tokens. -/
theorem sumTextLen_eq_tokenLenAll {es : List GreenElement} (h : ∀ e ∈ es, e.LenSound) :
    sumTextLen es = GreenElement.tokenLenAll es := by
  induction es with
  | nil => rfl
  | cons e es ih =>
    simp only [List.mem_cons, forall_eq_or_imp] at h
    simp [GreenElement.tokenLenAll, h.1.textLen_eq, ih h.2]

/-- A node over sound children whose length is their `sumTextLen` is sound. -/
theorem GreenElement.lenSound_node {id : Nat} {h : GreenNodeHead} {cs : List GreenElement}
    (hcs : ∀ e ∈ cs, e.LenSound) (hlen : h.textLen = sumTextLen cs) :
    (GreenElement.node id h cs).LenSound := by
  simp only [GreenElement.LenSound]
  exact ⟨hlen.trans (sumTextLen_eq_tokenLenAll hcs), (GreenElement.lenSoundAll_iff cs).2 hcs⟩

end Cstree
