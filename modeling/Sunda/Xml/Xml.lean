import Sunda.Base.Bytes
import Sunda.Base.Decimal
import Sunda.Xml.Mxml

/-!
# The XML wrapper

`XmlInit`, the functions that set a value and those that get one (`pubfun/xml/xml.c`), on the tree that they
keep: `<Message>` with a child `<Public>` for the tags, and a child `<RecordSet>` for each record set, in it a
`<Record>` for each record id, in it the elements. What they are meant to be is `XmlMap`, a map from tags and
a map from record sets to maps from ids to maps from elements, which is one map from keys
(`XmlMap.get_set_self`, `XmlMap.get_set_of_ne`).

`XmlStands` relates the two, level by level, each with `FirstMatch.Represents`; the relation is kept by
every call (`setDone_xmlCall`). So every search finds the right node, whatever the names are, and
`xml_store_refines` says when a result is right: always, unless the value is so long that `strlen` does not
fit the `int` returned, or the value is not there and the name in the error text is so long that
`XmlSetError`, which does not look at the size of `l_sXmlError`, writes beyond its end.
-/

namespace Sunda

open Bytes Decimal FirstMatch

/-! ### The tree -/

/-- A child that `mxmlFindElement` found. -/
def findChild (top : MxmlNode) (name : List UInt8) (attr : Option (List UInt8 × List UInt8)) :
    Option MxmlNode :=
  (mxmlFindElement top name attr).bind fun i ↦ top.children[i]?

/-- `XmlInit`. -/
def xmlInit : MxmlNode :=
  let r := mxmlNewElement (.new (text "?xml version=\"1.0\" \"encoding\"=\"GB18030\"?")) (text "Message")
  r.1.modifyChild r.2 fun node ↦ (mxmlNewElement node (text "Public")).1

/-- The element with a name, and where it is given an attribute with a value; a new one if there is none. -/
def findOrNew (tree : MxmlNode) (name : List UInt8) (attr : Option (List UInt8 × List UInt8)) :
    MxmlNode × ℕ :=
  match mxmlFindElement tree name attr with
  | some i => (tree, i)
  | none =>
    let r := mxmlNewElement tree name
    match attr with
    | none => r
    | some (attr, value) => (r.1.modifyChild r.2 fun node ↦ mxmlElementSetAttr node attr value, r.2)

/-- The end of every function that sets a value. -/
def setElement (tree : MxmlNode) (name value : List UInt8) : MxmlNode :=
  let r := findOrNew tree name none
  r.1.modifyChild r.2 fun node ↦ mxmlElementSetAttr node (text "value") value

/-- `XmlAddList` below the `<RecordSet>`. -/
def addElement (recordset : MxmlNode) (sRecID psEmName value : List UInt8) : MxmlNode :=
  let r := findOrNew recordset (text "Record") (some (text "RecID", sRecID))
  r.1.modifyChild r.2 fun record ↦ setElement record psEmName value

/-- `XmlAddList` below `<Message>`. -/
def addItem (tree : MxmlNode) (psRecordSetName sRecID psEmName value : List UInt8) : MxmlNode :=
  let r := findOrNew tree (text "RecordSet") (some (text "name", psRecordSetName))
  r.1.modifyChild r.2 fun recordset ↦ addElement recordset sRecID psEmName value

/-! ### Errors -/

/-- `sizeof(l_sXmlError)`. -/
def sizeofXmlError : ℕ := 1024

/-- `XmlSetError`, for the formatted text: what `l_sXmlError` holds. `none` is a text beyond its end. -/
def xmlSetError (msg : List UInt8) : Option (List UInt8) :=
  if sizeofXmlError < 7 + msg.length + 1 then none else some (text "error: " ++ msg)

def noMessage : List UInt8 := text "Unable to find <Message> element in XML tree!"
def noPublic : List UInt8 := text "Unable to find <Public> element in XML tree!"

def noElement (name : List UInt8) : List UInt8 :=
  text "Unable to find <" ++ name ++ text "> element in XML tree!"

def noRecordSet (name : List UInt8) : List UInt8 :=
  text "Unable to find <RecordSet name=\"" ++ name ++ text "\"> element in XML tree!"

def noRecord (nRecID : ℤ) : List UInt8 :=
  text "Unable to find <Record RecID=\"" ++ sprintfd nRecID ++ text "\"> element in XML tree!"

def noValue (name : List UInt8) : List UInt8 :=
  text "<" ++ name ++ text "> element 'value' attribute not exists!"

/-! ### Setting -/

/-- The outcome of a function that sets a value: the return value, the tree, and the error text if one was
stored. -/
structure XmlSetRet where
  rc : ℤ
  tree : MxmlNode
  error : Option (List UInt8)

/-- `sprintf("%d")` to an array of 11 characters; `none` is a text beyond its end. -/
def sprintfInt (n : ℤ) : Option (List UInt8) :=
  if 11 < (sprintfd n).length + 1 then none else some (sprintfd n)

/-- `XmlSet`, `XmlCharSet` and `XmlIntSet`, up to the text of the value. -/
def xmlSetValue (l_pIntXml : MxmlNode) (psTagName : List UInt8) (value : Option (List UInt8)) :
    Option XmlSetRet :=
  match mxmlFindElement l_pIntXml (text "Message") none with
  | none => (xmlSetError noMessage).map fun e ↦ ⟨-1, l_pIntXml, some e⟩
  | some i =>
    match l_pIntXml.children[i]?.bind fun tree ↦ mxmlFindElement tree (text "Public") none with
    | none => (xmlSetError noPublic).map fun e ↦ ⟨-1, l_pIntXml, some e⟩
    | some j =>
      value.map fun value ↦
        ⟨0, l_pIntXml.modifyChild i fun tree ↦ tree.modifyChild j fun tree ↦
          setElement tree psTagName value, none⟩

def xmlSet (l_pIntXml : MxmlNode) (psTagName psData : List UInt8) : Option XmlSetRet :=
  xmlSetValue l_pIntXml psTagName (some psData)

/-- `XmlCharSet`: a character behind which a NUL was put. -/
def xmlCharSet (l_pIntXml : MxmlNode) (psTagName : List UInt8) (cData : UInt8) : Option XmlSetRet :=
  xmlSetValue l_pIntXml psTagName (some (cstr [cData, 0]))

def xmlIntSet (l_pIntXml : MxmlNode) (psTagName : List UInt8) (nData : ℤ) : Option XmlSetRet :=
  xmlSetValue l_pIntXml psTagName (sprintfInt nData)

/-- `XmlAddList` and `XmlAddIntList`, up to the text of the value. -/
def xmlAddListValue (l_pIntXml : MxmlNode) (psRecordSetName : List UInt8) (nRecID : ℤ)
    (psEmName : List UInt8) (value : Option (List UInt8)) : Option XmlSetRet :=
  match mxmlFindElement l_pIntXml (text "Message") none with
  | none => (xmlSetError noMessage).map fun e ↦ ⟨-1, l_pIntXml, some e⟩
  | some i =>
    (sprintfInt nRecID).bind fun sRecID ↦ value.map fun value ↦
      ⟨0, l_pIntXml.modifyChild i fun tree ↦ addItem tree psRecordSetName sRecID psEmName value, none⟩

def xmlAddList (l_pIntXml : MxmlNode) (psRecordSetName : List UInt8) (nRecID : ℤ)
    (psEmName psData : List UInt8) : Option XmlSetRet :=
  xmlAddListValue l_pIntXml psRecordSetName nRecID psEmName (some psData)

def xmlAddIntList (l_pIntXml : MxmlNode) (psRecordSetName : List UInt8) (nRecID : ℤ)
    (psEmName : List UInt8) (nData : ℤ) : Option XmlSetRet :=
  xmlAddListValue l_pIntXml psRecordSetName nRecID psEmName (sprintfInt nData)

/-! ### Getting -/

/-- The outcome of `XmlGet` and `XmlFetchList`: the return value, the buffer, and the error text if one was
stored. -/
structure XmlGetRet where
  rc : ℤ
  psData : List UInt8
  error : Option (List UInt8)

/-- The end of a get that fails, with the cleared buffer. -/
def xmlFail (msg : List UInt8) (nBuffSize : ℕ) : Option XmlGetRet :=
  (xmlSetError msg).map fun e ↦ ⟨-1, List.replicate nBuffSize 0, some e⟩

/-- The end of a get that found the node. `none` is a copy of -1 bytes, or beyond `l_sXmlError`. -/
def xmlValue (node : MxmlNode) (name : List UInt8) (nBuffSize : ℕ) : Option XmlGetRet :=
  match mxmlElementGetAttr node (text "value") with
  | none => xmlFail (noValue name) nBuffSize
  | some psAttrValue =>
    if nBuffSize = 0 then none
    else
      let n := if nBuffSize ≤ psAttrValue.length then nBuffSize - 1 else psAttrValue.length
      some ⟨(BitVec.ofNat 32 psAttrValue.length).toInt,
        psAttrValue.take n ++ List.replicate (nBuffSize - n) 0, none⟩

def xmlGet (l_pIntXml : MxmlNode) (psTagName : List UInt8) (nBuffSize : ℕ) : Option XmlGetRet :=
  match findChild l_pIntXml (text "Message") none with
  | none => xmlFail noMessage nBuffSize
  | some tree =>
    match findChild tree (text "Public") none with
    | none => xmlFail noPublic nBuffSize
    | some tree =>
      match findChild tree psTagName none with
      | none => xmlFail (noElement psTagName) nBuffSize
      | some node => xmlValue node psTagName nBuffSize

def xmlFetchList (l_pIntXml : MxmlNode) (psRecordSetName : List UInt8) (nRecID : ℤ)
    (psEmName : List UInt8) (nBuffSize : ℕ) : Option XmlGetRet :=
  match findChild l_pIntXml (text "Message") none with
  | none => xmlFail noMessage nBuffSize
  | some tree =>
    match findChild tree (text "RecordSet") (some (text "name", psRecordSetName)) with
    | none => xmlFail (noRecordSet psRecordSetName) nBuffSize
    | some recordset =>
      (sprintfInt nRecID).bind fun sRecID ↦
        match findChild recordset (text "Record") (some (text "RecID", sRecID)) with
        | none => xmlFail (noRecord nRecID) nBuffSize
        | some record =>
          match findChild record psEmName none with
          | none => xmlFail (noElement psEmName) nBuffSize
          | some node => xmlValue node psEmName nBuffSize

/-! ### The map -/

/-- The keys. -/
inductive XmlKey
  | tag (psTagName : List UInt8)
  | item (psRecordSetName : List UInt8) (nRecID : ℤ) (psEmName : List UInt8)
  deriving DecidableEq

/-- Elements by their name. -/
abbrev Elements := List UInt8 → Option (List UInt8)

/-- Records by their id. -/
abbrev Records := ℤ → Option Elements

/-- The values of the tags, and those of the record sets by their name. -/
structure XmlMap where
  pub : Elements
  sets : List UInt8 → Option Records

namespace XmlMap

def empty : XmlMap := ⟨fun _ ↦ none, fun _ ↦ none⟩

/-- The value of a key. -/
def get (m : XmlMap) : XmlKey → Option (List UInt8)
  | .tag t => m.pub t
  | .item rs id em => ((m.sets rs).bind fun records ↦ records id).bind fun elements ↦ elements em

/-- Setting the value of a key. -/
def set (m : XmlMap) (key : XmlKey) (v : List UInt8) : XmlMap :=
  match key with
  | .tag t => ⟨Function.update m.pub t (some v), m.sets⟩
  | .item rs id em =>
    let records := (m.sets rs).getD fun _ ↦ none
    let elements := (records id).getD fun _ ↦ none
    ⟨m.pub, Function.update m.sets rs
      (some (Function.update records id (some (Function.update elements em (some v)))))⟩

@[simp]
theorem get_set_self (m : XmlMap) (key : XmlKey) (v : List UInt8) : (m.set key v).get key = some v := by
  cases key <;> simp [set, get]

/-- **The keys are independent.** -/
theorem get_set_of_ne (m : XmlMap) {key key' : XmlKey} (h : key' ≠ key) (v : List UInt8) :
    (m.set key v).get key' = m.get key' := by
  cases key with
  | tag t =>
    cases key' with
    | tag t' => exact Function.update_of_ne (fun ht ↦ h (congrArg XmlKey.tag ht)) _ _
    | item rs id em => rfl
  | item rs id em =>
    cases key' with
    | tag t' => rfl
    | item rs' id' em' =>
      by_cases hrs : rs' = rs
      · subst hrs
        by_cases hid : id' = id
        · subst hid
          have hem : em' ≠ em := fun he ↦ h (congrArg (XmlKey.item rs' id') he)
          simp only [set, get, Function.update_self, Option.bind_some, Function.update_of_ne hem]
          cases m.sets rs' with
          | none => rfl
          | some records =>
            rw [Option.getD_some, Option.bind_some]
            cases records id' <;> rfl
        · simp only [set, get, Function.update_self, Option.bind_some, Function.update_of_ne hid]
          cases m.sets rs' <;> rfl
      · simp only [set, get, Function.update_of_ne hrs]

end XmlMap

/-! ### What the tree stands for -/

/-- The node has the value. -/
def ValueStands (node : MxmlNode) (v : List UInt8) : Prop :=
  mxmlElementGetAttr node (text "value") = some v

/-- The children of `<Public>` or of a `<Record>`. -/
def ElementsStand (node : MxmlNode) (elements : Elements) : Prop :=
  Represents (fun t ↦ MxmlNode.isElement t none) ValueStands node.children elements

/-- The children of a `<RecordSet>`. -/
def RecordsStand (node : MxmlNode) (records : Records) : Prop :=
  Represents (fun id ↦ MxmlNode.isElement (text "Record") (some (text "RecID", sprintfd id)))
    ElementsStand node.children records

/-- The `<RecordSet>` children of `<Message>`. -/
def SetsStand (node : MxmlNode) (sets : List UInt8 → Option Records) : Prop :=
  Represents (fun rs ↦ MxmlNode.isElement (text "RecordSet") (some (text "name", rs))) RecordsStand
    node.children sets

/-- The children of `<Message>`. -/
structure MessageStands (message : MxmlNode) (m : XmlMap) : Prop where
  pub : ∃ node, message.children.find? (MxmlNode.isElement (text "Public") none) = some node ∧
    ElementsStand node m.pub
  sets : SetsStand message m.sets

/-- **The tree stands for the map.** -/
def XmlStands (tree : MxmlNode) (m : XmlMap) : Prop :=
  ∃ message, tree.children.find? (MxmlNode.isElement (text "Message") none) = some message ∧
    MessageStands message m

/-- A new element, as `findOrNew` makes it. -/
def newElement (name : List UInt8) (attr : Option (List UInt8 × List UInt8)) : MxmlNode :=
  attr.elim (.new name) fun a ↦ mxmlElementSetAttr (.new name) a.1 a.2

theorem isElement_newElement (name : List UInt8) (attr : Option (List UInt8 × List UInt8)) :
    (newElement name attr).isElement name attr := by
  cases attr with
  | none => exact (MxmlNode.isElement_none name _).trans (beq_self_eq_true name)
  | some a =>
    rw [MxmlNode.isElement_some, newElement, Option.elim_some, mxmlElementGetAttr_setAttr,
      beq_self_eq_true, Bool.and_true]
    exact beq_self_eq_true name

theorem findChild_eq_find? (top : MxmlNode) (name : List UInt8)
    (attr : Option (List UInt8 × List UInt8)) :
    findChild top name attr = top.children.find? (MxmlNode.isElement name attr) := by
  rw [findChild, mxmlFindElement, List.find?_eq_bind_findIdx?_getElem?]

/-- What is done to the element that was found or made is an update of the children. -/
theorem modifyChild_findOrNew (tree : MxmlNode) (name : List UInt8)
    (attr : Option (List UInt8 × List UInt8)) (f : MxmlNode → MxmlNode) :
    (findOrNew tree name attr).1.modifyChild (findOrNew tree name attr).2 f =
      { tree with
        children := upsert (MxmlNode.isElement name attr) (newElement name attr) f tree.children } := by
  rw [findOrNew]
  cases h : mxmlFindElement tree name attr with
  | some i =>
    show { tree with children := tree.children.modify i f } = _
    rw [modify_of_findIdx? h]
  | none =>
    rw [mxmlFindElement] at h
    rw [upsert_of_findIdx? h]
    cases attr with
    | none =>
      show { tree with children := (tree.children ++ [MxmlNode.new name]).modify tree.children.length f } = _
      rw [modify_append_singleton]
      rfl
    | some a =>
      show { tree with
        children := ((tree.children ++ [MxmlNode.new name]).modify tree.children.length _).modify
          tree.children.length f } = _
      rw [modify_append_singleton, modify_append_singleton]
      rfl

/-- The same search finds it, changed. -/
theorem find?_modifyChild_findOrNew (tree : MxmlNode) (name : List UInt8)
    (attr : Option (List UInt8 × List UInt8)) {f : MxmlNode → MxmlNode}
    (hf : ∀ node, node.isElement name attr → (f node).isElement name attr) :
    ∃ node, ((findOrNew tree name attr).1.modifyChild (findOrNew tree name attr).2 f).children.find?
      (MxmlNode.isElement name attr) = some (f node) := by
  rw [modifyChild_findOrNew]
  exact ⟨_, find?_upsert_self _ hf (hf _ (isElement_newElement name attr)) tree.children⟩

/-- What is below an element does not matter for a search among its siblings. -/
@[simp]
theorem isElement_setElement (node : MxmlNode) (t v name : List UInt8)
    (attr : Option (List UInt8 × List UInt8)) :
    (setElement node t v).isElement name attr = node.isElement name attr := by
  rw [setElement, modifyChild_findOrNew]
  rfl

@[simp]
theorem isElement_addElement (node : MxmlNode) (sRecID t v name : List UInt8)
    (attr : Option (List UInt8 × List UInt8)) :
    (addElement node sRecID t v).isElement name attr = node.isElement name attr := by
  rw [addElement, modifyChild_findOrNew]
  rfl

/-! ### One call -/

theorem valueStands_setAttr (node : MxmlNode) (v : List UInt8) :
    ValueStands (mxmlElementSetAttr node (text "value") v) v :=
  mxmlElementGetAttr_setAttr node (text "value") v

/-- Setting the value of an element. -/
theorem ElementsStand.setElement {node : MxmlNode} {elements : Elements} (h : ElementsStand node elements)
    (t v : List UInt8) : ElementsStand (setElement node t v) (Function.update elements t (some v)) := by
  rw [Sunda.setElement, modifyChild_findOrNew]
  have hkey : ∀ t' a, MxmlNode.isElement t none a → MxmlNode.isElement t' none a → t' = t := by
    intro t' a ha ha'
    rw [MxmlNode.isElement_none, beq_iff_eq] at ha ha'
    rw [← ha, ← ha']
  exact Represents.upsert (G := fun _ ↦ v) h hkey (fun _ _ _ ↦ rfl) (isElement_newElement t none)
    (fun a _ _ ↦ valueStands_setAttr a v) (d := v) (valueStands_setAttr _ v)

/-- A new element has no children. -/
theorem newElement_children (name : List UInt8) (attr : Option (List UInt8 × List UInt8)) :
    (newElement name attr).children = [] := by
  cases attr <;> rfl

theorem elementsStand_new (name : List UInt8) (attr : Option (List UInt8 × List UInt8)) :
    ElementsStand (newElement name attr) fun _ ↦ none := by
  rw [ElementsStand, newElement_children]
  exact represents_nil _ _

theorem recordsStand_new (name : List UInt8) (attr : Option (List UInt8 × List UInt8)) :
    RecordsStand (newElement name attr) fun _ ↦ none := by
  rw [RecordsStand, newElement_children]
  exact represents_nil _ _

/-- Setting the value of an element in a record, which may be new. -/
theorem RecordsStand.addElement {node : MxmlNode} {records : Records} (h : RecordsStand node records)
    (id : ℤ) (t v : List UInt8) :
    RecordsStand (addElement node (sprintfd id) t v) (Function.update records id
      (some (Function.update ((records id).getD fun _ ↦ none) t (some v)))) := by
  rw [Sunda.addElement, modifyChild_findOrNew]
  refine Represents.upsert (G := fun elements ↦ Function.update elements t (some v)) h ?_ ?_
    (isElement_newElement _ _) (fun _ _ hab ↦ hab.setElement t v) ?_
  · exact fun id' a ha ha' ↦ sprintfd_injective (MxmlNode.value_inj ha ha')
  · exact fun id' a _ ↦ isElement_setElement a t v _ _
  · exact (elementsStand_new _ _).setElement t v

/-- Setting the value of an element of a record of a record set, which may be new. -/
theorem SetsStand.addItem {node : MxmlNode} {sets : List UInt8 → Option Records}
    (h : SetsStand node sets) (rs : List UInt8) (id : ℤ) (t v : List UInt8) :
    SetsStand (addItem node rs (sprintfd id) t v)
      (Function.update sets rs (some (Function.update ((sets rs).getD fun _ ↦ none) id
        (some (Function.update ((((sets rs).getD fun _ ↦ none) id).getD fun _ ↦ none) t (some v)))))) := by
  rw [Sunda.addItem, modifyChild_findOrNew]
  refine Represents.upsert (G := fun records ↦ Function.update records id
    (some (Function.update ((records id).getD fun _ ↦ none) t (some v)))) h ?_ ?_
    (isElement_newElement _ _) (fun _ _ hab ↦ hab.addElement id t v) ?_
  · exact fun rs' a ha ha' ↦ MxmlNode.value_inj ha ha'
  · exact fun rs' a _ ↦ isElement_addElement a (sprintfd id) t v _ _
  · exact (recordsStand_new _ _).addElement id t v

/-- What is done to an element that is there. -/
theorem find?_modifyChild {tree : MxmlNode} {name : List UInt8} {i : ℕ}
    (h : mxmlFindElement tree name none = some i) {f : MxmlNode → MxmlNode}
    (hf : ∀ node, (f node).name = node.name) {node : MxmlNode}
    (hnode : tree.children.find? (MxmlNode.isElement name none) = some node) :
    (tree.modifyChild i f).children.find? (MxmlNode.isElement name none) = some (f node) := by
  have hmod : (tree.modifyChild i f).children = upsert (MxmlNode.isElement name none) node f tree.children :=
    modify_of_findIdx? h
  have hkeep (a : MxmlNode) (ha : a.isElement name none) : (f a).isElement name none := by
    rw [MxmlNode.isElement_none] at *
    rw [hf a, ha]
  rw [hmod, find?_upsert_self node hkeep (hkeep node (List.find?_some hnode)), hnode, Option.getD_some]

/-- And what a search for another name finds. -/
theorem find?_modifyChild_of_ne {tree : MxmlNode} {name name' : List UInt8} (hne : name ≠ name')
    (attr' : Option (List UInt8 × List UInt8)) {i : ℕ} (h : mxmlFindElement tree name none = some i)
    {f : MxmlNode → MxmlNode} (hf : ∀ node, (f node).name = node.name) {node : MxmlNode}
    (hnode : tree.children.find? (MxmlNode.isElement name none) = some node) :
    (tree.modifyChild i f).children.find? (MxmlNode.isElement name' attr') =
      tree.children.find? (MxmlNode.isElement name' attr') := by
  have hmod : (tree.modifyChild i f).children = upsert (MxmlNode.isElement name none) node f tree.children :=
    modify_of_findIdx? h
  have hkeep (a : MxmlNode) (ha : a.isElement name none) : (f a).isElement name' attr' = false := by
    have hname : (f a).isElement name none := by
      rw [MxmlNode.isElement_none] at *
      rw [hf a, ha]
    exact MxmlNode.isElement_of_ne hne hname
  rw [hmod, find?_upsert_of_disjoint (fun a ha ↦ MxmlNode.isElement_of_ne hne ha) hkeep
    (hkeep node (List.find?_some hnode))]

/-! ### All calls -/

/-- The calls that set a value. -/
inductive XmlAct
  | set (psTagName psData : List UInt8)
  | charSet (psTagName : List UInt8) (cData : UInt8)
  | intSet (psTagName : List UInt8) (nData : ℤ)
  | addList (psRecordSetName : List UInt8) (nRecID : ℤ) (psEmName psData : List UInt8)
  | addIntList (psRecordSetName : List UInt8) (nRecID : ℤ) (psEmName : List UInt8) (nData : ℤ)

def xmlCall (tree : MxmlNode) : XmlAct → Option XmlSetRet
  | .set t v => xmlSet tree t v
  | .charSet t c => xmlCharSet tree t c
  | .intSet t n => xmlIntSet tree t n
  | .addList rs id em v => xmlAddList tree rs id em v
  | .addIntList rs id em n => xmlAddIntList tree rs id em n

/-- The calls, one after the other. -/
def xmlRun : MxmlNode → List XmlAct → Option MxmlNode
  | tree, [] => some tree
  | tree, a :: as => (xmlCall tree a).bind fun r ↦ xmlRun r.tree as

/-- A formatted integer fits its buffer. -/
def IntFits (n : ℤ) : Prop := (sprintfd n).length ≤ 10

namespace XmlAct

/-- The integers of a call fit their buffers. -/
def Fits : XmlAct → Prop
  | .set _ _ | .charSet _ _ => True
  | .intSet _ n => IntFits n
  | .addList _ id _ _ => IntFits id
  | .addIntList _ id _ n => IntFits id ∧ IntFits n

/-- The key that a call sets. -/
def key : XmlAct → XmlKey
  | .set t _ | .charSet t _ | .intSet t _ => .tag t
  | .addList rs id em _ | .addIntList rs id em _ => .item rs id em

/-- The value that it sets. -/
def value : XmlAct → List UInt8
  | .set _ v => v
  | .charSet _ c => if c = 0 then [] else [c]
  | .intSet _ n => sprintfd n
  | .addList _ _ _ v => v
  | .addIntList _ _ _ n => sprintfd n

end XmlAct

/-- What the calls are to do with the map. -/
def xmlSpec (m : XmlMap) (as : List XmlAct) : XmlMap :=
  as.foldl (fun m a ↦ m.set a.key a.value) m

theorem sprintfInt_of_fits {n : ℤ} (h : IntFits n) : sprintfInt n = some (sprintfd n) :=
  if_neg (by rw [IntFits] at h; omega)

theorem text_public_ne : text "Public" ≠ text "RecordSet" := by decide

/-- The outcome of a call: it returns 0, and the tree stands for the map with the value. -/
def SetDone (m : XmlMap) (key : XmlKey) (v : List UInt8) (r : Option XmlSetRet) : Prop :=
  ∃ tree', r = some ⟨0, tree', none⟩ ∧ XmlStands tree' (m.set key v)

section Call

variable {tree : MxmlNode} {m : XmlMap}

theorem exists_findElement {name : List UInt8} {node : MxmlNode}
    (h : tree.children.find? (MxmlNode.isElement name none) = some node) :
    ∃ i, mxmlFindElement tree name none = some i ∧ tree.children[i]? = some node := by
  rw [List.find?_eq_bind_findIdx?_getElem?] at h
  exact Option.bind_eq_some_iff.1 h

/-- Where a value is set, in any document with `<Message>` and `<Public>`. -/
theorem xmlSetValue_found {message pub : MxmlNode}
    (hmessage : tree.children.find? (MxmlNode.isElement (text "Message") none) = some message)
    (hpub : message.children.find? (MxmlNode.isElement (text "Public") none) = some pub)
    (t v : List UInt8) : ∃ tree' message', xmlSetValue tree t (some v) = some ⟨0, tree', none⟩ ∧
      tree'.children.find? (MxmlNode.isElement (text "Message") none) = some message' ∧
      message'.children.find? (MxmlNode.isElement (text "Public") none) = some (setElement pub t v) ∧
      ∀ attr, message'.children.find? (MxmlNode.isElement (text "RecordSet") attr) =
        message.children.find? (MxmlNode.isElement (text "RecordSet") attr) := by
  obtain ⟨i, hi, hgeti⟩ := exists_findElement hmessage
  obtain ⟨j, hj, -⟩ := exists_findElement hpub
  have hname (node : MxmlNode) : (setElement node t v).name = node.name := by
    rw [setElement, modifyChild_findOrNew]
  have hmessage' := find?_modifyChild hi (f := fun tree ↦ tree.modifyChild j fun tree ↦ setElement tree t v)
    (fun _ ↦ rfl) hmessage
  refine ⟨_, _, ?_, hmessage', find?_modifyChild hj hname hpub,
    fun attr ↦ find?_modifyChild_of_ne text_public_ne attr hj hname hpub⟩
  rw [xmlSetValue, hi]
  dsimp only
  rw [hgeti, Option.bind_some, hj]
  rfl

/-- Where an element of a record is set. -/
theorem xmlAddListValue_found {message : MxmlNode}
    (hmessage : tree.children.find? (MxmlNode.isElement (text "Message") none) = some message)
    (rs : List UInt8) {id : ℤ} (hid : IntFits id) (em v : List UInt8) :
    ∃ tree', xmlAddListValue tree rs id em (some v) = some ⟨0, tree', none⟩ ∧
      tree'.children.find? (MxmlNode.isElement (text "Message") none) =
        some (addItem message rs (sprintfd id) em v) ∧
      (addItem message rs (sprintfd id) em v).children.find? (MxmlNode.isElement (text "Public") none) =
        message.children.find? (MxmlNode.isElement (text "Public") none) := by
  obtain ⟨i, hi, -⟩ := exists_findElement hmessage
  have hmessage' := find?_modifyChild hi (f := fun tree ↦ addItem tree rs (sprintfd id) em v)
    (fun node ↦ by rw [addItem, modifyChild_findOrNew]) hmessage
  refine ⟨_, ?_, hmessage', ?_⟩
  · rw [xmlAddListValue, hi]
    dsimp only
    rw [sprintfInt_of_fits hid]
    rfl
  · rw [addItem, modifyChild_findOrNew]
    have hkeep (a : MxmlNode) (ha : a.isElement (text "RecordSet") (some (text "name", rs))) :
        (addElement a (sprintfd id) em v).isElement (text "RecordSet") (some (text "name", rs)) := by
      rwa [isElement_addElement]
    exact find?_upsert_of_disjoint (fun a ha ↦ MxmlNode.isElement_of_ne text_public_ne.symm ha)
      (fun a ha ↦ MxmlNode.isElement_of_ne text_public_ne.symm (hkeep a ha))
      (MxmlNode.isElement_of_ne text_public_ne.symm (hkeep _ (isElement_newElement _ _))) _

/-- Setting the value of a tag. -/
theorem xmlSetValue_done (h : XmlStands tree m) (t v : List UInt8) :
    SetDone m (.tag t) v (xmlSetValue tree t (some v)) := by
  obtain ⟨message, hmessage, ⟨pub, hpub, hstands⟩, hsets⟩ := h
  obtain ⟨tree', message', hset, hmessage', hpub', hsets'⟩ := xmlSetValue_found hmessage hpub t v
  refine ⟨tree', hset, message', hmessage', ⟨_, hpub', hstands.setElement t v⟩, fun rs ↦ ?_⟩
  rw [hsets']
  exact hsets rs

/-- Setting the value of an element of a record. -/
theorem xmlAddListValue_done (h : XmlStands tree m) (rs : List UInt8) {id : ℤ} (hid : IntFits id)
    (em v : List UInt8) : SetDone m (.item rs id em) v (xmlAddListValue tree rs id em (some v)) := by
  obtain ⟨message, hmessage, ⟨pub, hpub, hstands⟩, hsets⟩ := h
  obtain ⟨tree', hadd, hmessage', hpub'⟩ := xmlAddListValue_found hmessage rs hid em v
  exact ⟨tree', hadd, _, hmessage', ⟨pub, hpub'.trans hpub, hstands⟩, hsets.addItem rs id em v⟩

end Call

/-- **Every call** returns 0 and sets the value of its key. -/
theorem setDone_xmlCall {tree : MxmlNode} {m : XmlMap} (h : XmlStands tree m) {a : XmlAct} (ha : a.Fits) :
    SetDone m a.key a.value (xmlCall tree a) := by
  cases a with
  | set t v => exact xmlSetValue_done h t v
  | charSet t c =>
    have hchar : cstr [c, 0] = if c = 0 then [] else [c] := by
      by_cases hc : c = 0
      · rw [if_pos hc, hc, cstr_cons_zero]
      · rw [if_neg hc, cstr_cons_of_ne hc, cstr_cons_zero]
    show SetDone m (.tag t) (if c = 0 then [] else [c]) (xmlSetValue tree t (some (cstr [c, 0])))
    rw [← hchar]
    exact xmlSetValue_done h t (cstr [c, 0])
  | intSet t n =>
    show SetDone m (.tag t) (sprintfd n) (xmlSetValue tree t (sprintfInt n))
    rw [sprintfInt_of_fits ha]
    exact xmlSetValue_done h t (sprintfd n)
  | addList rs id em v => exact xmlAddListValue_done h rs ha em v
  | addIntList rs id em n =>
    show SetDone m (.item rs id em) (sprintfd n) (xmlAddListValue tree rs id em (sprintfInt n))
    rw [sprintfInt_of_fits ha.2]
    exact xmlAddListValue_done h rs ha.1 em (sprintfd n)

theorem xmlStands_xmlInit : XmlStands xmlInit .empty :=
  ⟨_, rfl, ⟨_, rfl, represents_nil _ _⟩, fun _ ↦ .none⟩

/-- The tree behind a sequence of calls stands for what they set. -/
theorem xmlStands_xmlRun {as : List XmlAct} (has : ∀ a ∈ as, a.Fits) {tree : MxmlNode} {m : XmlMap}
    (h : XmlStands tree m) : ∃ tree', xmlRun tree as = some tree' ∧ XmlStands tree' (xmlSpec m as) := by
  induction as generalizing tree m with
  | nil => exact ⟨tree, rfl, h⟩
  | cons a as ih =>
    obtain ⟨tree1, hcall, hstands⟩ := setDone_xmlCall h (has a (List.mem_cons_self ..))
    obtain ⟨tree', hrun, hstands'⟩ := ih (fun b hb ↦ has b (List.mem_cons_of_mem _ hb)) hstands
    exact ⟨tree', by rw [xmlRun, hcall, Option.bind_some, hrun], hstands'⟩

/-! ### Results -/

/-- `XmlGet` and `XmlFetchList`. -/
def xmlLookup (tree : MxmlNode) (key : XmlKey) (nBuffSize : ℕ) : Option XmlGetRet :=
  match key with
  | .tag t => xmlGet tree t nBuffSize
  | .item rs id em => xmlFetchList tree rs id em nBuffSize

/-- What they are to return, and what the buffer is to hold. -/
def XmlMap.lookup (m : XmlMap) (key : XmlKey) (k : ℕ) : ℤ × List UInt8 :=
  match m.get key with
  | some v => (v.length, v.take (k - 1) ++ List.replicate (k - min v.length (k - 1)) 0)
  | none => (-1, List.replicate k 0)

/-- The result is right. -/
def XmlRight (tree : MxmlNode) (m : XmlMap) (key : XmlKey) (k : ℕ) : Prop :=
  (xmlLookup tree key k).map (fun r ↦ (r.rc, r.psData)) = some (m.lookup key k)

/-- The id in a key fits its buffer. -/
def XmlKey.Fits : XmlKey → Prop
  | .tag _ => True
  | .item _ id _ => IntFits id

/-- What a right result needs: a value whose length is an `int`, or an error text that is not too long. It
names the tag; the record set if nothing was set in it; and the element if something was set in its
record. -/
def XmlClear (m : XmlMap) (key : XmlKey) : Prop :=
  match m.get key, key with
  | some v, _ => v.length < 2 ^ 31
  | none, .tag t => t.length ≤ 978
  | none, .item rs id em =>
    match m.sets rs with
    | none => rs.length ≤ 961
    | some records => records id ≠ none → em.length ≤ 978

theorem xmlSetError_fits_iff (msg : List UInt8) :
    (xmlSetError msg).isSome ↔ msg.length ≤ 1016 := by
  rw [xmlSetError, sizeofXmlError]
  split
  · exact iff_of_false (fun h ↦ by cases h) (by omega)
  · exact iff_of_true rfl (by omega)

theorem noElement_length (name : List UInt8) : (noElement name).length = name.length + 38 := by
  have h1 : (text "Unable to find <").length = 16 := by decide
  have h2 : (text "> element in XML tree!").length = 22 := by decide
  rw [noElement, List.length_append, List.length_append, h1, h2]
  omega

theorem noRecordSet_length (name : List UInt8) : (noRecordSet name).length = name.length + 55 := by
  have h1 : (text "Unable to find <RecordSet name=\"").length = 32 := by decide
  have h2 : (text "\"> element in XML tree!").length = 23 := by decide
  rw [noRecordSet, List.length_append, List.length_append, h1, h2]
  omega

theorem noRecord_length_le {id : ℤ} (h : IntFits id) : (noRecord id).length ≤ 63 := by
  have h1 : (text "Unable to find <Record RecID=\"").length = 30 := by decide
  have h2 : (text "\"> element in XML tree!").length = 23 := by decide
  rw [IntFits] at h
  rw [noRecord, List.length_append, List.length_append, h1, h2]
  omega

section Result

variable {tree node : MxmlNode} {m : XmlMap}

/-- A get that fails. -/
theorem xmlFail_right_iff (msg : List UInt8) (k : ℕ) :
    (xmlFail msg k).map (fun r ↦ (r.rc, r.psData)) = some (-1, List.replicate k 0) ↔
      msg.length ≤ 1016 := by
  rw [← xmlSetError_fits_iff, xmlFail]
  cases xmlSetError msg with
  | none => exact iff_of_false (fun h ↦ by cases h) (fun h ↦ by cases h)
  | some e => exact iff_of_true rfl rfl

/-- A get that finds the value. -/
theorem xmlValue_right_iff {v : List UInt8} (h : ValueStands node v) (name : List UInt8) {k : ℕ}
    (hk : 1 ≤ k) :
    (xmlValue node name k).map (fun r ↦ (r.rc, r.psData)) =
      some ((v.length : ℤ), v.take (k - 1) ++ List.replicate (k - min v.length (k - 1)) 0) ↔
        v.length < 2 ^ 31 := by
  have hlen : (BitVec.ofNat 32 v.length).toInt = v.length ↔ v.length < 2 ^ 31 := by
    constructor
    · intro heq
      have hlt := (BitVec.ofNat 32 v.length).toInt_lt
      rw [heq] at hlt
      exact_mod_cast hlt
    · intro hlt
      rw [BitVec.toInt_ofNat', Int.bmod_def]
      omega
  have hbuf : v.take (if k ≤ v.length then k - 1 else v.length) ++
      List.replicate (k - if k ≤ v.length then k - 1 else v.length) 0 =
        v.take (k - 1) ++ List.replicate (k - min v.length (k - 1)) (0 : UInt8) := by
    split
    · rw [Nat.min_eq_right (by omega)]
    · rw [Nat.min_eq_left (by omega), List.take_of_length_le le_rfl, List.take_of_length_le (by omega)]
  rw [xmlValue, h]
  dsimp only
  rw [if_neg (by omega), Option.map_some, Option.some.injEq, Prod.mk.injEq, hbuf, hlen, and_iff_left rfl]

/-- What a search below a node finds, for a node that stands for a map. -/
theorem find_cases {κ β : Type} {P : κ → MxmlNode → Bool} {R : MxmlNode → β → Prop} {g : κ → Option β}
    (h : Represents P R node.children g) (k : κ) :
    (node.children.find? (P k) = none ∧ g k = none) ∨
      ∃ a b, node.children.find? (P k) = some a ∧ g k = some b ∧ R a b := by
  cases hfind : node.children.find? (P k) with
  | none => exact .inl ⟨rfl, (h.find?_eq_none_iff k).1 hfind⟩
  | some a =>
    obtain ⟨b, hb, hab⟩ := h.exists_of_find? hfind
    exact .inr ⟨a, b, rfl, hb, hab⟩

/-- **`XmlGet`.** -/
theorem xmlGet_right_iff (h : XmlStands tree m) (t : List UInt8) {k : ℕ} (hk : 1 ≤ k) :
    XmlRight tree m (.tag t) k ↔ XmlClear m (.tag t) := by
  obtain ⟨message, hmessage, ⟨pub, hpub, hstands⟩, -⟩ := h
  rw [XmlRight, xmlLookup]
  simp only [xmlGet, findChild_eq_find?, hmessage, hpub, XmlMap.lookup, XmlClear]
  rcases find_cases hstands t with ⟨hfind, hget⟩ | ⟨node, v, hfind, hget, hnode⟩
  · simp only [hfind, show m.get (.tag t) = none from hget]
    rw [xmlFail_right_iff, noElement_length]
    omega
  · simp only [hfind, show m.get (.tag t) = some v from hget]
    exact xmlValue_right_iff hnode t hk

/-- **`XmlFetchList`.** -/
theorem xmlFetchList_right_iff (h : XmlStands tree m) (rs : List UInt8) {id : ℤ} (hid : IntFits id)
    (em : List UInt8) {k : ℕ} (hk : 1 ≤ k) :
    XmlRight tree m (.item rs id em) k ↔ XmlClear m (.item rs id em) := by
  obtain ⟨message, hmessage, -, hsets⟩ := h
  have hget : m.get (.item rs id em) =
      ((m.sets rs).bind fun records ↦ records id).bind fun elements ↦ elements em := rfl
  rw [XmlRight, xmlLookup]
  simp only [xmlFetchList, findChild_eq_find?, hmessage, XmlMap.lookup, XmlClear, hget]
  rcases find_cases hsets rs with ⟨hfind, hrs⟩ | ⟨recordset, records, hfind, hrs, hrecords⟩
  · simp only [hfind, hrs, Option.bind_none]
    rw [xmlFail_right_iff, noRecordSet_length]
    omega
  · simp only [hfind, hrs, Option.bind_some, sprintfInt_of_fits hid]
    rcases find_cases hrecords id with ⟨hfind1, hrec⟩ | ⟨record, elements, hfind1, hrec, helements⟩
    · have hmsg := noRecord_length_le hid
      simp only [hfind1, hrs, hrec, Option.bind_none]
      rw [xmlFail_right_iff]
      exact iff_of_true (by omega) fun hne ↦ absurd rfl hne
    · simp only [hfind1, hrec, Option.bind_some]
      rcases find_cases helements em with ⟨hfind2, hem⟩ | ⟨node, v, hfind2, hem, hnode⟩
      · simp only [hfind2, hem, hrs]
        rw [xmlFail_right_iff, noElement_length]
        constructor
        · exact fun hlen _ ↦ by omega
        · intro hlen
          have hem := hlen (by rw [hrec]; exact Option.some_ne_none elements)
          omega
      · simp only [hfind2, hem]
        exact xmlValue_right_iff hnode em hk

end Result

/-- **The XML wrapper is a key-value store.** Behind every sequence of calls whose integers fit their buffers,
a result is right exactly when its key is clear, and every further call returns 0 and changes no result of
another key that is clear before and behind it. -/
theorem xml_store_refines {as : List XmlAct} (has : ∀ a ∈ as, a.Fits) :
    ∃ tree, xmlRun xmlInit as = some tree ∧
      (∀ key k, key.Fits → 1 ≤ k →
        (XmlRight tree (xmlSpec .empty as) key k ↔ XmlClear (xmlSpec .empty as) key)) ∧
      ∀ a, a.Fits → ∃ tree', xmlCall tree a = some ⟨0, tree', none⟩ ∧
        ∀ key k, key ≠ a.key → key.Fits → 1 ≤ k → XmlClear (xmlSpec .empty as) key →
          XmlClear (xmlSpec .empty (as ++ [a])) key →
            (xmlLookup tree' key k).map (fun r ↦ (r.rc, r.psData)) =
              (xmlLookup tree key k).map fun r ↦ (r.rc, r.psData) := by
  have hright {tree : MxmlNode} {m : XmlMap} (h : XmlStands tree m) (key : XmlKey) {k : ℕ}
      (hkey : key.Fits) (hk : 1 ≤ k) : XmlRight tree m key k ↔ XmlClear m key := by
    cases key with
    | tag t => exact xmlGet_right_iff h t hk
    | item rs id em => exact xmlFetchList_right_iff h rs hkey em hk
  obtain ⟨tree, hrun, hstands⟩ := xmlStands_xmlRun has xmlStands_xmlInit
  refine ⟨tree, hrun, fun key k hkey hk ↦ hright hstands key hkey hk, fun a ha ↦ ?_⟩
  obtain ⟨tree', hcall, hstands'⟩ := setDone_xmlCall hstands ha
  refine ⟨tree', hcall, fun key k hne hkey hk hclear hclear' ↦ ?_⟩
  have hspec : xmlSpec .empty (as ++ [a]) = (xmlSpec .empty as).set a.key a.value := by
    rw [xmlSpec, List.foldl_append]
    rfl
  rw [hspec] at hclear'
  have hsame : ((xmlSpec .empty as).set a.key a.value).lookup key k = (xmlSpec .empty as).lookup key k := by
    rw [XmlMap.lookup, XmlMap.lookup, XmlMap.get_set_of_ne _ hne]
  exact ((hright hstands' key hkey hk).2 hclear').trans
    ((congrArg some hsame).trans ((hright hstands key hkey hk).2 hclear).symm)

/-- A record set with the name of `<Public>` and one with the name of a tag do not touch the tag. -/
theorem xml_store_refines_public :
    ∃ tree, xmlRun xmlInit [.set (text "a") (text "1"), .addList (text "Public") 7 (text "a") (text "2")] =
      some tree ∧
        XmlRight tree (xmlSpec .empty [.set (text "a") (text "1"),
          .addList (text "Public") 7 (text "a") (text "2")]) (.tag (text "a")) 3 := by
  have hid : IntFits 7 := by
    rw [IntFits]
    decide
  have has : ∀ a ∈ [XmlAct.set (text "a") (text "1"), .addList (text "Public") 7 (text "a") (text "2")],
      a.Fits := by
    intro a ha
    rcases List.mem_cons.1 ha with rfl | ha
    · trivial
    · rw [List.mem_singleton.1 ha]
      exact hid
  obtain ⟨tree, hrun, hright, -⟩ := xml_store_refines has
  refine ⟨tree, hrun, (hright (.tag (text "a")) 3 trivial (by decide)).2 ?_⟩
  show (text "1").length < 2 ^ 31
  decide

/-- The error text about a tag of 979 characters that was never set does not fit. -/
theorem long_tag_overruns :
    ∃ tree, xmlRun xmlInit [] = some tree ∧
      ¬ XmlRight tree (xmlSpec .empty []) (.tag (List.replicate 979 97)) 2 := by
  refine ⟨xmlInit, rfl, fun h ↦ ?_⟩
  have hlen : (List.replicate 979 (97 : UInt8)).length ≤ 978 :=
    (xmlGet_right_iff xmlStands_xmlInit (List.replicate 979 97) (by decide)).1 h
  rw [List.length_replicate] at hlen
  omega

end Sunda
