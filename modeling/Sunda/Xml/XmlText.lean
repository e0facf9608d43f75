import Sunda.Xml.MxmlCut
import Sunda.Xml.Xml

/-!
# The text of a message

`XmlSaveString` and `XmlLoadString` (`pubfun/xml/xml.c`), between which a message is text that goes from one
program to another. The calls of the wrapper keep the tree one that can be written (`IsMessage.xmlRun`), if what
they set can be (`XmlAct.Plain`), so `mxmlLoadString_mxmlSaveString` applies to it:

* `xmlRelay_stands`: whatever number of programs a message went through, each with its own calls, it is the tree
  that one program with all the calls would have;
* `xmlLoadString_cut`: out of a buffer that the message does not fit, no value is ever read but out of the whole
  message.
-/

namespace Sunda

open Bytes Decimal

/-! ### Elements -/

mutual

/-- The elements among nodes: the wrapper looks at no other. -/
def MxmlContent.elements : MxmlContent → List MxmlNode
  | .element name attrs child => [⟨name, attrs, elementsOf child⟩]
  | .text .. => []

def elementsOf : List MxmlContent → List MxmlNode
  | [] => []
  | node :: next => node.elements ++ elementsOf next

end

mutual

theorem elements_content : ∀ tree : MxmlNode, tree.content.elements = [tree]
  | ⟨name, attrs, children⟩ => by
    rw [MxmlNode.content, MxmlContent.elements, elementsOf_content children]

theorem elementsOf_content : ∀ trees : List MxmlNode, elementsOf (trees.map MxmlNode.content) = trees
  | [] => rfl
  | tree :: trees => by
    rw [List.map_cons, elementsOf, elements_content tree, elementsOf_content trees]
    rfl

end

/-! ### Saving and loading -/

/-- `XmlSaveString`, with a tree. -/
def xmlSaveString (l_pIntXml : MxmlNode) (psData : List UInt8) (nSize : ℕ) : Option (ℤ × List UInt8) :=
  mxmlSaveString l_pIntXml.content psData nSize

/-- `XmlLoadString`: the return value and `l_pIntXml`. A text that stands for the tree has nothing below. -/
def xmlLoadString (psData : List UInt8) : ℤ × Option MxmlNode :=
  match mxmlLoadString (cstr psData) with
  | none => (-1, none)
  | some node => (0, some (node.elements.headD ⟨[], [], []⟩))

theorem xmlLoadString_of_content {psData : List UInt8} {tree : MxmlNode}
    (h : mxmlLoadString (cstr psData) = some tree.content) : xmlLoadString psData = (0, some tree) := by
  rw [xmlLoadString, h]
  dsimp only
  rw [elements_content]
  rfl

/-! ### Trees that can be written -/

/-- A tree that can be written. -/
def PlainTree (tree : MxmlNode) : Prop := PlainNode tree.content

theorem plainNodes_content (trees : List MxmlNode) :
    PlainNodes (trees.map MxmlNode.content) ↔ ∀ tree ∈ trees, PlainTree tree := by
  induction trees with
  | nil => exact iff_of_true trivial fun _ h ↦ by cases h
  | cons tree trees ih =>
    have hapart : Apart tree.content (trees.map MxmlNode.content) := by
      obtain ⟨name, attrs, children⟩ := tree
      rw [MxmlNode.content]
      trivial
    rw [List.map_cons, PlainNodes, ih, List.forall_mem_cons, and_iff_right hapart]
    rfl

theorem plainTree_iff (tree : MxmlNode) :
    PlainTree tree ↔ PlainName tree.name ∧ PlainAttrs tree.attrs ∧ ∀ child ∈ tree.children, PlainTree child := by
  obtain ⟨name, attrs, children⟩ := tree
  rw [PlainTree, MxmlNode.content, PlainNode, plainNodes_content]

theorem plainAttrs_nil : PlainAttrs [] := ⟨by simp, by simp, List.nodup_nil⟩

/-- Setting an attribute keeps the names different. -/
theorem PlainAttrs.upsert {attrs : List (List UInt8 × List UInt8)} (h : PlainAttrs attrs)
    {name value : List UInt8} (hname : PlainAttrName name) (hvalue : PlainString value) :
    PlainAttrs (FirstMatch.upsert (isAttr name) (name, value) (fun a ↦ (a.1, value)) attrs) := by
  have hmem : ∀ a ∈ FirstMatch.upsert (isAttr name) (name, value) (fun a ↦ (a.1, value)) attrs,
      PlainAttrName a.1 ∧ PlainString a.2 :=
    FirstMatch.forall_mem_upsert (fun a ha ↦ ⟨h.names a ha, h.values a ha⟩) (fun a ha ↦ ⟨ha.1, hvalue⟩)
      ⟨hname, hvalue⟩
  refine ⟨fun a ha ↦ (hmem a ha).1, fun a ha ↦ (hmem a ha).2, ?_⟩
  have hnodup := h.nodup
  clear h hmem
  induction attrs with
  | nil => exact List.nodup_singleton name
  | cons a attrs ih =>
    rw [List.map_cons, List.nodup_cons] at hnodup
    rw [FirstMatch.upsert]
    split
    · exact List.nodup_cons.2 hnodup
    · next hne =>
      rw [List.map_cons, List.nodup_cons]
      refine ⟨fun hmem ↦ ?_, ih hnodup.2⟩
      have hfst : ∀ b ∈ FirstMatch.upsert (isAttr name) (name, value) (fun a ↦ (a.1, value)) attrs,
          b.1 ≠ a.1 :=
        FirstMatch.forall_mem_upsert (P := fun b : List UInt8 × List UInt8 ↦ b.1 ≠ a.1)
          (fun b hb heq ↦ hnodup.1 (heq ▸ List.mem_map_of_mem hb)) (fun b hb ↦ hb)
          fun heq ↦ hne (beq_iff_eq.2 heq.symm)
      obtain ⟨b, hb, heq⟩ := List.mem_map.1 hmem
      exact hfst b hb heq

section PlainTree

variable {tree : MxmlNode} (h : PlainTree tree)

include h

/-- What is done to a child through a pointer to it. -/
theorem PlainTree.modifyChild (i : ℕ) {f : MxmlNode → MxmlNode}
    (hf : ∀ child, PlainTree child → PlainTree (f child)) :
    PlainTree (tree.modifyChild i f) := by
  rw [plainTree_iff] at h ⊢
  refine ⟨h.1, h.2.1, fun child hchild ↦ ?_⟩
  obtain ⟨j, hj⟩ := List.mem_iff_getElem?.1 hchild
  rw [MxmlNode.modifyChild, List.getElem?_modify] at hj
  obtain ⟨child', hchild', heq⟩ := Option.map_eq_some_iff.1 hj
  have hplain := h.2.2 child' (List.mem_of_getElem? hchild')
  rw [← heq]
  split
  · exact hf child' hplain
  · exact hplain

theorem PlainTree.newElement {name : List UInt8} (hname : PlainName name) :
    PlainTree (mxmlNewElement tree name).1 := by
  rw [plainTree_iff] at h ⊢
  refine ⟨h.1, h.2.1, fun child hchild ↦ ?_⟩
  rcases List.mem_append.1 hchild with hchild | hchild
  · exact h.2.2 child hchild
  · rw [List.mem_singleton.1 hchild, plainTree_iff]
    exact ⟨hname, plainAttrs_nil, fun _ hc ↦ by cases hc⟩

theorem PlainTree.setAttr {name value : List UInt8} (hname : PlainAttrName name) (hvalue : PlainString value) :
    PlainTree (mxmlElementSetAttr tree name value) := by
  rw [plainTree_iff] at h ⊢
  exact ⟨h.1, h.2.1.upsert hname hvalue, h.2.2⟩

/-- An element that is found or made. -/
theorem PlainTree.findOrNew {name : List UInt8} (hname : PlainName name)
    {attr : Option (List UInt8 × List UInt8)} (hattr : ∀ a ∈ attr, PlainAttrName a.1 ∧ PlainString a.2) :
    PlainTree (Sunda.findOrNew tree name attr).1 := by
  rw [Sunda.findOrNew]
  split
  · exact h
  · cases attr with
    | none => exact h.newElement hname
    | some a =>
      obtain ⟨ha, hv⟩ := hattr a rfl
      exact (h.newElement hname).modifyChild _ fun child hchild ↦ hchild.setAttr ha hv

theorem PlainTree.setElement {name value : List UInt8} (hname : PlainName name) (hvalue : PlainString value) :
    PlainTree (Sunda.setElement tree name value) :=
  (h.findOrNew hname fun _ ha ↦ by cases ha).modifyChild _ fun child hchild ↦
    hchild.setAttr (by decide) hvalue

theorem PlainTree.addElement {sRecID psEmName value : List UInt8} (hid : PlainString sRecID)
    (hname : PlainName psEmName) (hvalue : PlainString value) :
    PlainTree (Sunda.addElement tree sRecID psEmName value) :=
  (h.findOrNew (by decide) fun a ha ↦ by
    cases ha
    exact ⟨(by decide : PlainAttrName (text "RecID")), hid⟩).modifyChild _ fun child hchild ↦
      hchild.setElement hname hvalue

theorem PlainTree.addItem {psRecordSetName sRecID psEmName value : List UInt8}
    (hrs : PlainString psRecordSetName) (hid : PlainString sRecID) (hname : PlainName psEmName)
    (hvalue : PlainString value) :
    PlainTree (Sunda.addItem tree psRecordSetName sRecID psEmName value) :=
  (h.findOrNew (by decide) fun a ha ↦ by
    cases ha
    exact ⟨(by decide : PlainAttrName (text "name")), hrs⟩).modifyChild _ fun child hchild ↦
      hchild.addElement hid hname hvalue

end PlainTree

/-! ### Messages -/

/-- A name of a processing instruction that a message is under. -/
def messageHead : List UInt8 := text "?xml version=\"1.0\" \"encoding\"=\"GB18030\"?"

theorem plainDirective_messageHead : PlainDirective messageHead := by
  refine ⟨text "xml version=\"1.0\" \"encoding\"=\"GB18030\"", ?_, ?_⟩
  · decide
  · exact forall_mem_of_all (by decide)

/-- The trees that the wrapper makes: a message, under the processing instruction. -/
def IsMessage (tree : MxmlNode) : Prop := ∃ message, PlainTree message ∧ tree = ⟨messageHead, [], [message]⟩

/-- What a call sets can be written. -/
def XmlAct.Plain : XmlAct → Prop
  | .set t v => PlainName t ∧ PlainString v
  | .charSet t c => PlainName t ∧ (c = 0 ∨ isData c)
  | .intSet t _ => PlainName t
  | .addList rs _ em v => PlainString rs ∧ PlainName em ∧ PlainString v
  | .addIntList rs _ em _ => PlainString rs ∧ PlainName em

theorem plainString_sprintfd (n : ℤ) : PlainString (sprintfd n) := by
  have hdigit : ∀ n < 256, isDigit (UInt8.ofNat n) → isData (UInt8.ofNat n) := by decide +kernel
  intro c hc
  by_cases hneg : c = 45
  · rw [hneg]
    decide
  · have hlt := hdigit c.toNat c.toNat_lt
    rw [UInt8.ofNat_toNat] at hlt
    exact hlt (isDigit_of_mem_sprintfd hc hneg)

section IsMessage

variable {tree : MxmlNode} (h : IsMessage tree)

include h

theorem IsMessage.modifyChild (i : ℕ) {f : MxmlNode → MxmlNode}
    (hf : ∀ child, PlainTree child → PlainTree (f child)) : IsMessage (tree.modifyChild i f) := by
  obtain ⟨message, hplain, rfl⟩ := h
  cases i with
  | zero => exact ⟨f message, hf message hplain, rfl⟩
  | succ i => exact ⟨message, hplain, by simp [MxmlNode.modifyChild]⟩

theorem IsMessage.xmlSetValue {t : List UInt8} (ht : PlainName t) {value : Option (List UInt8)}
    (hvalue : ∀ v ∈ value, PlainString v) {r : XmlSetRet} (hr : Sunda.xmlSetValue tree t value = some r) :
    IsMessage r.tree := by
  rw [Sunda.xmlSetValue] at hr
  split at hr
  · obtain ⟨e, -, rfl⟩ := Option.map_eq_some_iff.1 hr
    exact h
  split at hr
  · obtain ⟨e, -, rfl⟩ := Option.map_eq_some_iff.1 hr
    exact h
  · next i _ _ j _ =>
    obtain ⟨v, hv, rfl⟩ := Option.map_eq_some_iff.1 hr
    exact h.modifyChild i fun message hmessage ↦ hmessage.modifyChild j fun pub hpub ↦
      hpub.setElement ht (hvalue v hv)

theorem IsMessage.xmlAddListValue {rs em : List UInt8} (hrs : PlainString rs) {id : ℤ} (hem : PlainName em)
    {value : Option (List UInt8)} (hvalue : ∀ v ∈ value, PlainString v) {r : XmlSetRet}
    (hr : Sunda.xmlAddListValue tree rs id em value = some r) : IsMessage r.tree := by
  rw [Sunda.xmlAddListValue] at hr
  split at hr
  · obtain ⟨e, -, rfl⟩ := Option.map_eq_some_iff.1 hr
    exact h
  · next i _ =>
    obtain ⟨sRecID, hid, hr⟩ := Option.bind_eq_some_iff.1 hr
    obtain ⟨v, hv, rfl⟩ := Option.map_eq_some_iff.1 hr
    have hplain : PlainString sRecID := by
      rw [sprintfInt] at hid
      split at hid
      · cases hid
      · obtain rfl := Option.some.inj hid
        exact plainString_sprintfd id
    exact h.modifyChild i fun message hmessage ↦ hmessage.addItem hrs hplain hem (hvalue v hv)

/-- **Every call leaves a message** that can be written. -/
theorem IsMessage.xmlCall {a : XmlAct} (ha : a.Plain) {r : XmlSetRet} (hr : Sunda.xmlCall tree a = some r) :
    IsMessage r.tree := by
  have hint (n : ℤ) : ∀ v ∈ sprintfInt n, PlainString v := by
    intro v hv
    rw [sprintfInt] at hv
    split at hv
    · cases hv
    · obtain rfl := Option.some.inj hv
      exact plainString_sprintfd n
  cases a with
  | set t v => exact h.xmlSetValue ha.1 (fun w hw ↦ Option.some.inj hw ▸ ha.2) hr
  | charSet t c =>
    have hchar : PlainString (cstr [c, 0]) := by
      rcases ha.2 with rfl | hc
      · rw [cstr_cons_zero]
        exact fun _ hd ↦ by cases hd
      · rw [cstr_cons_of_ne fun h0 ↦ absurd hc (by rw [h0]; decide), cstr_cons_zero]
        exact fun d hd ↦ List.mem_singleton.1 hd ▸ hc
    exact h.xmlSetValue ha.1 (fun w hw ↦ Option.some.inj hw ▸ hchar) hr
  | intSet t n => exact h.xmlSetValue ha (hint n) hr
  | addList rs id em v => exact h.xmlAddListValue ha.1 ha.2.1 (fun w hw ↦ Option.some.inj hw ▸ ha.2.2) hr
  | addIntList rs id em n => exact h.xmlAddListValue ha.1 ha.2 (hint n) hr

end IsMessage

/-- Behind every sequence of calls. -/
theorem IsMessage.xmlRun {as : List XmlAct} (has : ∀ a ∈ as, a.Plain) {tree tree' : MxmlNode}
    (h : IsMessage tree) (hrun : Sunda.xmlRun tree as = some tree') : IsMessage tree' := by
  induction as generalizing tree with
  | nil => exact Option.some.inj hrun ▸ h
  | cons a as ih =>
    obtain ⟨r, hr, hrun⟩ := Option.bind_eq_some_iff.1 hrun
    exact ih (fun b hb ↦ has b (List.mem_cons_of_mem a hb)) (h.xmlCall (has a List.mem_cons_self) hr) hrun

theorem isMessage_xmlInit : IsMessage xmlInit := by
  have hnew (name : List UInt8) (hname : PlainName name) : PlainTree ⟨name, [], []⟩ :=
    (plainTree_iff _).2 ⟨hname, plainAttrs_nil, fun _ hc ↦ by cases hc⟩
  refine ⟨⟨text "Message", [], [⟨text "Public", [], []⟩]⟩, ?_, rfl⟩
  exact (hnew (text "Message") (by decide)).newElement (by decide : PlainName (text "Public"))

/-! ### Buffers -/

theorem plainDocument_of_isMessage {tree : MxmlNode} (h : IsMessage tree) : PlainDocument tree.content := by
  obtain ⟨message, hplain, rfl⟩ := h
  have hnodes : PlainNodes ([message].map MxmlNode.content) :=
    (plainNodes_content [message]).2 fun node hnode ↦ List.mem_singleton.1 hnode ▸ hplain
  rw [MxmlNode.content]
  refine .inl ⟨plainDirective_messageHead, rfl, hnodes, fun hlast ↦ ?_⟩
  obtain ⟨name, attrs, children⟩ := message
  rw [List.map_singleton, List.getLast?_singleton, MxmlNode.content] at hlast
  cases hlast

/-- A message that fits its buffer. -/
theorem xmlLoadString_xmlSaveString {tree : MxmlNode} (h : IsMessage tree) {psData : List UInt8} {nSize : ℕ}
    (hfits : (mxmlSaveText tree.content).length < nSize) (hsize : nSize ≤ psData.length) :
    ∃ rc psData', xmlSaveString tree psData nSize = some (rc, psData') ∧
      xmlLoadString psData' = (0, some tree) := by
  obtain ⟨psData', hsave, hload, -⟩ :=
    mxmlLoadString_mxmlSaveString (plainDocument_of_isMessage h) hfits hsize
  exact ⟨_, psData', hsave, xmlLoadString_of_content hload⟩

/-! ### Programs -/

/-- What a program sends that has the tree: it makes calls, and the message fits the buffer. -/
def XmlSends (tree : MxmlNode) (as : List XmlAct) (psData : List UInt8) : Prop :=
  ∃ tree' buffer nSize rc, xmlRun tree as = some tree' ∧ (mxmlSaveText tree'.content).length < nSize ∧
    nSize ≤ buffer.length ∧ xmlSaveString tree' buffer nSize = some (rc, psData)

/-- A message that went through programs, with all the calls they made. -/
inductive XmlRelay : List XmlAct → List UInt8 → Prop
  | init {as : List XmlAct} {psData : List UInt8} (h : XmlSends xmlInit as psData) : XmlRelay as psData
  | next {as as' : List XmlAct} {psData psData' : List UInt8} {tree : MxmlNode} (h : XmlRelay as psData)
      (hload : (xmlLoadString psData).2 = some tree) (hsends : XmlSends tree as' psData') :
      XmlRelay (as ++ as') psData'

/-- A message can be sent with a buffer that is large enough. -/
theorem exists_xmlSends {tree tree' : MxmlNode} {as : List XmlAct} (h : xmlRun tree as = some tree') :
    ∃ psData, XmlSends tree as psData := by
  have hsize : (mxmlSaveText tree'.content).length + 1 ≤
      (List.replicate ((mxmlSaveText tree'.content).length + 1) (0 : UInt8)).length := by
    rw [List.length_replicate]
  exact ⟨_, tree', _, _, _, h, Nat.lt_succ_self _, hsize, mxmlSaveString_eq _ (Nat.succ_pos _) hsize⟩

theorem xmlRun_append (tree : MxmlNode) (as as' : List XmlAct) :
    xmlRun tree (as ++ as') = (xmlRun tree as).bind fun tree ↦ xmlRun tree as' := by
  induction as generalizing tree with
  | nil => rfl
  | cons a as ih => simp only [List.cons_append, xmlRun, Option.bind_assoc, ih]

/-- What is sent is read. -/
theorem XmlSends.load {tree : MxmlNode} (h : IsMessage tree) {as : List XmlAct} (has : ∀ a ∈ as, a.Plain)
    {psData : List UInt8} (hsends : XmlSends tree as psData) :
    ∃ tree', xmlRun tree as = some tree' ∧ xmlLoadString psData = (0, some tree') := by
  obtain ⟨tree', buffer, nSize, rc, hrun, hfits, hsize, hsave⟩ := hsends
  obtain ⟨rc', psData', hsave', hload⟩ := xmlLoadString_xmlSaveString (h.xmlRun has hrun) hfits hsize
  obtain ⟨-, rfl⟩ := Prod.mk.inj (Option.some.inj (hsave.symm.trans hsave'))
  exact ⟨tree', hrun, hload⟩

/-- The tree that is read is the one that a single program would have. -/
theorem XmlRelay.load {as : List XmlAct} {psData : List UInt8} (h : XmlRelay as psData)
    (has : ∀ a ∈ as, a.Plain) :
    ∃ tree, xmlRun xmlInit as = some tree ∧ xmlLoadString psData = (0, some tree) := by
  induction h with
  | init hsends => exact hsends.load isMessage_xmlInit has
  | next h hload hsends ih =>
    obtain ⟨hplain, hplain'⟩ := List.forall_mem_append.1 has
    obtain ⟨tree, hrun, hload'⟩ := ih hplain
    obtain rfl : tree = _ := Option.some.inj ((congrArg Prod.snd hload').symm.trans hload)
    obtain ⟨tree', hrun', hload''⟩ := hsends.load (isMessage_xmlInit.xmlRun hplain hrun) hplain'
    exact ⟨tree', by rw [xmlRun_append, hrun, Option.bind_some, hrun'], hload''⟩

/-- Nothing is found in a tree that has nothing in the nodes under its top. -/
theorem xmlLookup_of_bare {tree : MxmlNode} (h : ∀ child ∈ tree.children, child.children = []) (key : XmlKey)
    (k : ℕ) {r : XmlGetRet} (hr : xmlLookup tree key k = some r) : r.rc = -1 := by
  have hfail {msg : List UInt8} {r : XmlGetRet} (hr : xmlFail msg k = some r) : r.rc = -1 := by
    obtain ⟨e, -, rfl⟩ := Option.map_eq_some_iff.1 hr
    rfl
  have hfind (message : MxmlNode) (hmessage : findChild tree (text "Message") none = some message)
      (name : List UInt8) (attr : Option (List UInt8 × List UInt8)) : findChild message name attr = none := by
    rw [findChild_eq_find?] at hmessage ⊢
    rw [h message (List.mem_of_find?_eq_some hmessage)]
    rfl
  cases key with
  | tag t =>
    rw [xmlLookup, xmlGet] at hr
    split at hr
    · exact hfail hr
    · next message hmessage =>
      rw [hfind message hmessage] at hr
      exact hfail hr
  | item rs id em =>
    rw [xmlLookup, xmlFetchList] at hr
    split at hr
    · exact hfail hr
    · next message hmessage =>
      rw [hfind message hmessage] at hr
      exact hfail hr

/-- The element of a document that is bare. -/
theorem children_of_bare {doc : MxmlContent} (h : Bare doc) :
    ∀ child ∈ (doc.elements.headD ⟨[], [], []⟩).children, child.children = [] := by
  have hnodes (nodes : List MxmlContent) (hnodes : ∀ node ∈ nodes, ∃ name, node = .element name [] []) :
      ∀ child ∈ elementsOf nodes, child.children = [] := by
    induction nodes with
    | nil => exact fun child hchild ↦ by cases hchild
    | cons node nodes ih =>
      obtain ⟨name, rfl⟩ := hnodes node List.mem_cons_self
      rw [elementsOf, MxmlContent.elements, elementsOf]
      intro child hchild
      rcases List.mem_cons.1 hchild with rfl | hchild
      · rfl
      · exact ih (fun node hnode ↦ hnodes node (List.mem_cons_of_mem _ hnode)) child hchild
  cases doc with
  | element name attrs child => exact hnodes child h
  | text => exact fun child hchild ↦ by cases hchild

end Sunda
