import Sunda.Base.FirstMatch

/-!
# Elements of an XML tree

The functions of the vendored library `mxml` (`pubfun/xml/mxml-node.c`, `mxml-attr.c`, `mxml-search.c`) that
the wrapper in `pubfun/xml/xml.c` calls, on trees of elements. A pointer to a child of a node is the index of
the child, and a pointer to a node further down is reached by `modifyChild` step by step; allocations succeed.

`mxmlFindElement` is called with `MXML_DESCEND_FIRST` and the same node twice, so it looks at the children of
that node only and stops at the first match.

A string is the list of its characters.
-/

namespace Sunda

open FirstMatch

/-- An element of `mxml_node_t`: its name, its attributes and its children, in their order. -/
structure MxmlNode where
  name : List UInt8
  attrs : List (List UInt8 × List UInt8)
  children : List MxmlNode

/-- The attribute has the name. -/
def isAttr (name : List UInt8) (attr : List UInt8 × List UInt8) : Bool := attr.1 == name

/-- `mxmlElementGetAttr`. -/
def mxmlElementGetAttr (node : MxmlNode) (name : List UInt8) : Option (List UInt8) :=
  (node.attrs.find? (isAttr name)).map Prod.snd

/-- `mxmlElementSetAttr`: the value of the attribute is replaced, or the attribute added. -/
def mxmlElementSetAttr (node : MxmlNode) (name value : List UInt8) : MxmlNode :=
  { node with attrs := upsert (isAttr name) (name, value) (fun a ↦ (a.1, value)) node.attrs }

/-- The test in the loop of `mxmlFindElement`. -/
def MxmlNode.isElement (name : List UInt8) (attr : Option (List UInt8 × List UInt8)) (node : MxmlNode) :
    Bool :=
  node.name == name && attr.all fun a ↦ mxmlElementGetAttr node a.1 == some a.2

/-- `mxmlFindElement(top, top, name, attr, value, MXML_DESCEND_FIRST)`; without `attr` and `value` these are
`NULL`. -/
def mxmlFindElement (top : MxmlNode) (name : List UInt8) (attr : Option (List UInt8 × List UInt8)) :
    Option ℕ :=
  top.children.findIdx? (MxmlNode.isElement name attr)

/-- An element that `mxmlNewElement` makes. -/
def MxmlNode.new (name : List UInt8) : MxmlNode := ⟨name, [], []⟩

/-- `mxmlNewElement(parent, name)`: the parent, with the element behind its other children. -/
def mxmlNewElement (parent : MxmlNode) (name : List UInt8) : MxmlNode × ℕ :=
  ({ parent with children := parent.children ++ [.new name] }, parent.children.length)

/-- What is done to a child through a pointer to it. -/
def MxmlNode.modifyChild (node : MxmlNode) (i : ℕ) (f : MxmlNode → MxmlNode) : MxmlNode :=
  { node with children := node.children.modify i f }

/-! ### Attributes -/

@[simp]
theorem mxmlElementGetAttr_setAttr (node : MxmlNode) (name value : List UInt8) :
    mxmlElementGetAttr (mxmlElementSetAttr node name value) name = some value := by
  have hfind := find?_upsert_self (p := isAttr name) (f := fun a ↦ (a.1, value)) (name, value)
    (fun _ h ↦ h) (beq_self_eq_true name) node.attrs
  rw [mxmlElementGetAttr, mxmlElementSetAttr, hfind]
  rfl

/-! ### Searches -/

theorem MxmlNode.isElement_none (name : List UInt8) (node : MxmlNode) :
    node.isElement name none = (node.name == name) := Bool.and_true _

theorem MxmlNode.isElement_some (name attr value : List UInt8) (node : MxmlNode) :
    node.isElement name (some (attr, value)) =
      (node.name == name && mxmlElementGetAttr node attr == some value) := rfl

/-- Two searches with different names match different elements. -/
theorem MxmlNode.isElement_of_ne {name name' : List UInt8} {attr attr' : Option (List UInt8 × List UInt8)}
    (hne : name ≠ name') {node : MxmlNode} (h : node.isElement name attr) :
    node.isElement name' attr' = false := by
  have hname : node.name = name := eq_of_beq (Bool.and_eq_true_iff.1 h).1
  rw [isElement, hname, beq_false_of_ne hne, Bool.false_and]

/-- An element that matches by an attribute has one value for it. -/
theorem MxmlNode.value_inj {name attr v v' : List UInt8} {node : MxmlNode}
    (h : node.isElement name (some (attr, v))) (h' : node.isElement name (some (attr, v'))) : v' = v := by
  rw [isElement_some, Bool.and_eq_true, beq_iff_eq] at h h'
  exact Option.some.inj ((eq_of_beq h'.2).symm.trans (eq_of_beq h.2))

end Sunda
