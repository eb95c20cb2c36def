import ComponentIdl.Proofs.Builder.Beside
import ComponentIdl.Proofs.Namespaces.Growth

/-!
# The tree without its blocks

Nothing of a namespace depends on the blocks that open it but the choice of the block that records a
declaration. So what is done to a tree can be done to the tree without its blocks: opening a block is
then nothing at all, and every other change is the same.
-/

namespace ComponentIdl

def Namespace.withoutBlocks (node : Namespace) : Namespace := { node with blocks := [] }

def Namespaces.withoutBlocks (t : Namespaces) : Namespaces :=
  ⟨t.nodes.map Namespace.withoutBlocks⟩

def Store.withoutBlocks (st : Store) : Store :=
  { st with namespaces := st.namespaces.withoutBlocks }

/-- The workspace without the blocks of its namespaces: no other part of it is changed. -/
def Workspace.withoutBlocks (w : Workspace) : Workspace :=
  { w with store := w.store.withoutBlocks }

namespace Namespaces

theorem ext_node? {t t' : Namespaces} (h : ∀ n, t.node? n = t'.node? n) : t = t' :=
  congrArg Namespaces.mk (Array.ext_getElem? h)

section Reading

variable (t : Namespaces) (n : NamespaceId)

theorem node?_withoutBlocks :
    t.withoutBlocks.node? n = (t.node? n).map Namespace.withoutBlocks :=
  Array.getElem?_map

theorem size_withoutBlocks : t.withoutBlocks.size = t.size := Array.size_map

theorem map_node?_withoutBlocks {β : Type} {g : Namespace → β}
    (hg : ∀ node, g node.withoutBlocks = g node) :
    (t.withoutBlocks.node? n).map g = (t.node? n).map g := by
  rw [node?_withoutBlocks, Option.map_map]
  exact Option.map_congr fun node _ => hg node

theorem sameShape_withoutBlocks : t.withoutBlocks.SameShape t := by
  refine ⟨t.size_withoutBlocks.symm, ?_, ?_, ?_⟩
  · intro n
    rw [children_eq, children_eq, map_node?_withoutBlocks t n fun _ => rfl]
  · intro n
    rw [nameOf_eq, nameOf_eq, map_node?_withoutBlocks t n fun _ => rfl]
  · intro n
    rw [parent?_eq, parent?_eq, map_node?_withoutBlocks t n fun _ => rfl]

theorem symbol?_withoutBlocks (name : String) :
    t.withoutBlocks.symbol? n name = t.symbol? n name := by
  rw [symbol?_eq, symbol?_eq, map_node?_withoutBlocks t n fun _ => rfl]

end Reading

section Same

variable {t t' : Namespaces} (h : t'.withoutBlocks = t.withoutBlocks)
include h

theorem sameShape_of_withoutBlocks : t.SameShape t' :=
  t.sameShape_withoutBlocks.symm.trans (h ▸ t'.sameShape_withoutBlocks)

theorem symbol?_of_withoutBlocks (n : NamespaceId) (name : String) :
    t'.symbol? n name = t.symbol? n name := by
  rw [← symbol?_withoutBlocks, h, symbol?_withoutBlocks]

end Same

section Changing

variable (t : Namespaces) (n : NamespaceId)

theorem withoutBlocks_modify {f g : Namespace → Namespace}
    (h : ∀ node, (f node).withoutBlocks = g node.withoutBlocks) :
    (t.modify n f).withoutBlocks = t.withoutBlocks.modify n g := by
  refine ext_node? fun k => ?_
  rw [node?_withoutBlocks, node?_modify, node?_modify, node?_withoutBlocks]
  split
  · rw [Option.map_map, Option.map_map]
    exact Option.map_congr fun node _ => h node
  · rfl

theorem withoutBlocks_openBlock (line : Nat) :
    (t.openBlock n line).1.withoutBlocks = t.withoutBlocks := by
  refine ext_node? fun k => ?_
  rw [node?_withoutBlocks, node?_withoutBlocks]
  exact map_node?_modify t n k fun _ => rfl

/-- Without blocks, it does not matter in which one a declaration is recorded. -/
theorem withoutBlocks_addSymbol (block block' : Nat) (name : String) (σ : Symbol) :
    (t.modify n fun node => Namespace.addSymbol node block name σ).withoutBlocks =
      t.withoutBlocks.modify n fun node => Namespace.addSymbol node block' name σ := by
  apply withoutBlocks_modify
  intro node
  simp [Namespace.withoutBlocks, Namespace.addSymbol]

theorem withoutBlocks_addChild (name : String) :
    t.withoutBlocks.addChild n name =
      ((t.addChild n name).1.withoutBlocks, (t.addChild n name).2) := by
  have hchild : t.withoutBlocks.child? n name = t.child? n name :=
    ((t.sameShape_withoutBlocks).child? n name).symm
  unfold addChild
  rw [hchild, node?_withoutBlocks, size_withoutBlocks]
  cases t.child? n name with
  | some c => rfl
  | none =>
    cases t.node? n with
    | none => rfl
    | some node =>
      let link : Namespace → Namespace :=
        fun p => { p with children := (name, t.size) :: p.children }
      have hlink := congrArg Namespaces.nodes
        (t.withoutBlocks_modify n (f := link) (g := link) fun _ => rfl)
      refine Prod.ext (congrArg Namespaces.mk ?_) rfl
      refine Eq.trans ?_ Array.map_push.symm
      exact congrArg (Array.push · { name := childName node.name name, parent := some n })
        hlink.symm

end Changing

end Namespaces

namespace Store

variable (st : Store)

theorem nextSymbol_withoutBlocks (e : Entity) :
    st.withoutBlocks.nextSymbol e = st.nextSymbol e := by
  cases e <;> rfl

theorem withoutBlocks_declare (n : NamespaceId) (block block' : Nat) (name : String) (e : Entity)
    (hfree : st.namespaces.symbol? n name = none) :
    (st.declare n block name e).withoutBlocks = st.withoutBlocks.declare n block' name e := by
  have hfree' : st.withoutBlocks.namespaces.symbol? n name = none :=
    (st.namespaces.symbol?_withoutBlocks n name).trans hfree
  rw [declare_free hfree, declare_free hfree', nextSymbol_withoutBlocks,
    show st.withoutBlocks.add e = { st.add e with namespaces := st.namespaces.withoutBlocks } from
      st.add_tree _ e]
  exact congrArg (fun tree => { st.add e with namespaces := tree })
    (st.namespaces.withoutBlocks_addSymbol n block block' name _)

end Store

end ComponentIdl
