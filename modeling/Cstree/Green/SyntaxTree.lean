import Cstree.Green.Builder
import Cstree.Green.CacheTheorems
import Mathlib.Data.String.Basic

/-!
# Syntax trees

The trees a parser describes to the builder, the operations that describe them (`start_node`, the
children's operations and `finish_node` for a node, `token` or `static_token` for a leaf,
`threaded_builder.rs:404-456`), their text, and which of them the builder accepts. Over them, what
an element the builder returns keeps of its tree: `Fits` where the cache has no choice (variant,
kind and text length), `Mirrors` node by node (also the child hashes, the shape and which tokens
carry a text key). Which text each key stands for is in `Cstree.Green.Spelling`.
-/

namespace Cstree

variable {S I : Type}

theorem utf8ByteSize_append (s t : String) :
    (s ++ t).utf8ByteSize = s.utf8ByteSize + t.utf8ByteSize := by
  cases s; cases t
  exact String.utf8Len_append ..

/-! ## Syntax trees and their operations -/

/-- A syntax tree as a parser hands it to the builder: nodes of a kind over subtrees, tokens with
their text, and tokens whose text is their kind's static text. -/
inductive SyntaxTree (S : Type) where
  | node (kind : S) (children : List (SyntaxTree S))
  | token (kind : S) (text : String)
  | staticToken (kind : S)

namespace SyntaxTree

/-- The kind at the top of the tree. -/
def kind : SyntaxTree S → S
  | node kind _ => kind
  | token kind _ => kind
  | staticToken kind => kind

/-- Whether the tree is a node. -/
def isNode : SyntaxTree S → Bool
  | node .. => true
  | _ => false

mutual
/-- The builder operations that describe the tree. -/
def events : SyntaxTree S → List (BuilderOp S)
  | node kind children => .startNode kind :: eventsAll children ++ [.finishNode]
  | token kind text => [.token kind text]
  | staticToken kind => [.staticToken kind]

/-- The operations of a list of trees, one tree after the other. -/
def eventsAll : List (SyntaxTree S) → List (BuilderOp S)
  | [] => []
  | t :: ts => t.events ++ eventsAll ts
end

variable [Syntax S]

/-- The text of a token: its kind's static text when there is one, since `token` then keeps only
that text's length and no text of its own. -/
def leafText (kind : S) (text : String) : String := (Syntax.staticText kind).getD text

mutual
/-- The text of the tree: its tokens' texts in order. -/
def text : SyntaxTree S → String
  | node _ children => textAll children
  | token kind s => leafText kind s
  | staticToken kind => leafText kind ""

/-- The texts of a list of trees, one after the other. -/
def textAll : List (SyntaxTree S) → String
  | [] => ""
  | t :: ts => t.text ++ textAll ts
end

mutual
/-- Whether the builder accepts the tree's tokens: every `static_token` has a kind with static
text, and with debug assertions every `token` of such a kind has exactly that text. -/
def valid (debug : Bool) : SyntaxTree S → Bool
  | node _ children => validAll debug children
  | token kind s =>
    match Syntax.staticText kind with
    | some staticText => !debug || staticText == s
    | none => true
  | staticToken kind => (Syntax.staticText kind).isSome

/-- Whether the builder accepts the tokens of every tree of the list. -/
def validAll (debug : Bool) : List (SyntaxTree S) → Bool
  | [] => true
  | t :: ts => t.valid debug && validAll debug ts
end

example : (node TestSyntaxKind.operation [token .int "1", staticToken .plus, token .int "2"]).text
    = "1+2" := by decide

end SyntaxTree

/-! ## What a built element keeps of its tree -/

/-- The kind a green element records. -/
def GreenElement.kind : GreenElement → RawSyntaxKind
  | .node _ head _ => head.kind
  | .token _ data => data.kind

/-- Whether a green element is a node. -/
def GreenElement.isNode : GreenElement → Bool
  | .node .. => true
  | .token .. => false

/-- A built element agrees with its tree wherever the cache has no choice: variant, kind and text
length. -/
structure GreenElement.Fits [Syntax S] (e : GreenElement) (t : SyntaxTree S) : Prop where
  kind_eq : e.kind = Syntax.intoRaw t.kind
  isNode_eq : e.isNode = t.isNode
  textLen_eq : e.textLen = UInt32.ofNat t.text.utf8ByteSize

section fits

variable [Syntax S] {es : List GreenElement} {ts : List (SyntaxTree S)}

theorem sumTextLen_of_fits (h : List.Forall₂ GreenElement.Fits es ts) :
    sumTextLen es = UInt32.ofNat (SyntaxTree.textAll ts).utf8ByteSize := by
  induction h with
  | nil => rfl
  | cons he _ ih =>
    rw [sumTextLen_cons, ih, he.textLen_eq, SyntaxTree.textAll, utf8ByteSize_append,
      TextSize.ofNat_add]

theorem natTextLen_le_of_fits (h : List.Forall₂ GreenElement.Fits es ts) :
    natTextLen es ≤ (SyntaxTree.textAll ts).utf8ByteSize := by
  induction h with
  | nil => exact le_rfl
  | cons he _ ih =>
    rw [natTextLen_cons, he.textLen_eq, TextSize.toNat_ofNat, SyntaxTree.textAll,
      utf8ByteSize_append]
    exact Nat.add_le_add (Nat.mod_le _ _) ih

end fits

mutual
/-- A built element has its tree's shape all the way down: a node has the tree's kind and text
length, the child hash of its own children and children that mirror the subtrees; a token has the
leaf's kind and text length, and a text key exactly when its kind has no static text. Which text a
key stands for is the interner's; `GreenElement.Spells` relates each key to its leaf's text. -/
def GreenElement.Mirrors [Syntax S] (cfg : Config) : GreenElement → SyntaxTree S → Prop
  | .node _ head cs, .node kind ts =>
    head = ⟨Syntax.intoRaw kind, UInt32.ofNat (SyntaxTree.textAll ts).utf8ByteSize,
      cfg.childHash (cs.map GreenElement.head)⟩ ∧ GreenElement.MirrorsAll cfg cs ts
  | .node .., _ => False
  | .token _ data, t =>
    t.isNode = false ∧ data.kind = Syntax.intoRaw t.kind ∧
      data.textLen = UInt32.ofNat t.text.utf8ByteSize ∧
      data.text.isNone = (Syntax.staticText t.kind).isSome

/-- `Mirrors`, element by element. -/
def GreenElement.MirrorsAll [Syntax S] (cfg : Config) :
    List GreenElement → List (SyntaxTree S) → Prop
  | [], [] => True
  | e :: es, t :: ts => e.Mirrors cfg t ∧ GreenElement.MirrorsAll cfg es ts
  | _, _ => False
end

section mirrors

variable [Syntax S] (cfg : Config)

theorem GreenElement.Mirrors.fits {e : GreenElement} {t : SyntaxTree S} (h : e.Mirrors cfg t) :
    e.Fits t := by
  cases e with
  | node id head cs =>
    cases t with
    | node kind ts =>
      obtain ⟨rfl, -⟩ := h
      exact ⟨rfl, rfl, rfl⟩
    | token | staticToken => cases h
  | token id data =>
    obtain ⟨hnode, hkind, hlen, -⟩ := h
    exact ⟨hkind, hnode.symm, hlen⟩

mutual
/-- `Mirrors` reads no allocation id, so it holds of every element with the same structure. -/
theorem GreenElement.Mirrors.of_strip_eq : ∀ (e e' : GreenElement) (t : SyntaxTree S),
    e'.strip = e.strip → e.Mirrors cfg t → e'.Mirrors cfg t
  | .node _ head cs, .node _ head' cs', .node kind ts, hs, ⟨hhead, hcs⟩ => by
    simp only [GreenElement.strip_node, GreenElement.node.injEq, true_and] at hs
    refine ⟨by rw [hs.1, hhead, (ThreadedNodeCache.head_map_eq_of_strip hs.2).1],
      GreenElement.MirrorsAll.of_strip_eq cs cs' ts hs.2 hcs⟩
  | .node .., .node .., .token .., _, h | .node .., .node .., .staticToken .., _, h => h.elim
  | .token .., .token .., _, hs, h => by
    simp only [GreenElement.strip_token, GreenElement.token.injEq, true_and] at hs
    rwa [GreenElement.Mirrors, hs]
  | .node .., .token .., _, hs, _ | .token .., .node .., _, hs, _ => by simp at hs

/-- `Mirrors.of_strip_eq`, element by element. -/
theorem GreenElement.MirrorsAll.of_strip_eq : ∀ (es es' : List GreenElement)
    (ts : List (SyntaxTree S)), es'.map GreenElement.strip = es.map GreenElement.strip →
    GreenElement.MirrorsAll cfg es ts → GreenElement.MirrorsAll cfg es' ts
  | [], [], ts, _, h => h
  | e :: es, e' :: es', t :: ts, hs, ⟨he, hes⟩ => by
    simp only [List.map_cons, List.cons.injEq] at hs
    exact ⟨GreenElement.Mirrors.of_strip_eq e e' t hs.1 he,
      GreenElement.MirrorsAll.of_strip_eq es es' ts hs.2 hes⟩
  | [], _ :: _, _, hs, _ | _ :: _, [], _, hs, _ => by simp at hs
  | _ :: _, _ :: _, [], _, h => h.elim
end

end mirrors

end Cstree
