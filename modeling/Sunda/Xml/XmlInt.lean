import Sunda.Xml.Xml

/-!
# Integers in the XML wrapper

`XmlIntGet`, and what becomes of an integer between `XmlIntSet` and `XmlIntGet`, and between
`XmlAddIntList` and `XmlFetchList`. The values and the record ids are formatted into arrays of eleven
characters, which ten characters and the NUL fill; an `int` from -1000000000 on downwards has eleven
(`intFits_iff`).

The rest is right: the text reads back as the integer, in every document that the calls find their way in
(`HasPublic`), whether `XmlInit` made it or `XmlLoadString` read it, and whatever was set in it before
(`xml_ints_survive_iff`). The argument is that a search for what was found or made finds it again
(`find?_modifyChild_findOrNew`), level by level.
-/

namespace Sunda

open Bytes Decimal FirstMatch

/-- The outcome of `XmlIntGet`: the return value, what `*pnData` holds, and the error text if one was
stored. -/
structure XmlIntRet where
  rc : ℤ
  nData : ℤ
  error : Option (List UInt8)

/-- The end of an `XmlIntGet` that fails. -/
def xmlIntFail (msg : List UInt8) (nData : ℤ) : Option XmlIntRet :=
  (xmlSetError msg).map fun e ↦ ⟨-1, nData, some e⟩

/-- `XmlIntGet`, with what `*pnData` holds before. -/
def xmlIntGet (l_pIntXml : MxmlNode) (psTagName : List UInt8) (nData : ℤ) : Option XmlIntRet :=
  match findChild l_pIntXml (text "Message") none with
  | none => xmlIntFail noMessage nData
  | some tree =>
    match findChild tree (text "Public") none with
    | none => xmlIntFail noPublic nData
    | some tree =>
      match findChild tree psTagName none with
      | none => xmlIntFail (noElement psTagName) nData
      | some node =>
        match mxmlElementGetAttr node (text "value") with
        | none => xmlIntFail (noValue psTagName) nData
        | some psAttrValue => some ⟨0, atoi psAttrValue, none⟩

/-- A value and a record id come back, for all names, and no `sprintf` writes beyond its array. -/
structure IntsSurvive (tree : MxmlNode) (v r : ℤ) : Prop where
  value_fits : sprintfInt v ≠ none
  id_fits : sprintfInt r ≠ none
  tag : ∀ psTagName nData, ∃ tree', xmlIntSet tree psTagName v = some ⟨0, tree', none⟩ ∧
    xmlIntGet tree' psTagName nData = some ⟨0, v, none⟩
  item : ∀ psRecordSetName psEmName nBuffSize, (sprintfd v).length < nBuffSize →
    ∃ tree', xmlAddIntList tree psRecordSetName r psEmName v = some ⟨0, tree', none⟩ ∧
      ∃ ret, xmlFetchList tree' psRecordSetName r psEmName nBuffSize = some ret ∧
        ret.rc = (sprintfd v).length ∧ cstr ret.psData = sprintfd v

/-! ### Which integers fit -/

/-- **The texts that fit an array of eleven characters.** -/
theorem intFits_iff {n : ℤ} (hn : n < 2 ^ 31) : IntFits n ↔ -999999999 ≤ n := by
  rw [IntFits, sprintfd]
  split
  · next hneg =>
    have hlen := natText_length_le_iff (n := n.natAbs) (w := 9) (by decide)
    rw [List.length_cons]
    omega
  · next hpos =>
    have hlen := natText_length_le_iff (n := n.natAbs) (w := 10) (by decide)
    rw [hlen]
    omega

theorem sprintfInt_eq_none_iff {n : ℤ} : sprintfInt n = none ↔ ¬IntFits n := by
  rw [sprintfInt, IntFits]
  split <;> simp <;> omega

/-! ### Documents -/

/-- The document has a `<Message>` and a `<Public>` in it, as `XmlInit` makes them and as the calls of the
wrapper expect them in a document that was loaded. -/
def HasPublic (tree : MxmlNode) : Prop :=
  ∃ message pub, tree.children.find? (MxmlNode.isElement (text "Message") none) = some message ∧
    message.children.find? (MxmlNode.isElement (text "Public") none) = some pub

theorem hasPublic_xmlInit : HasPublic xmlInit :=
  ⟨_, _, rfl, rfl⟩

section Documents

variable {tree : MxmlNode}

/-- Setting a tag, with a text that fits. -/
theorem HasPublic.set {t : List UInt8} {value : Option (List UInt8)} {ret : XmlSetRet}
    (h : HasPublic tree) (hset : xmlSetValue tree t value = some ret) : HasPublic ret.tree := by
  obtain ⟨message, pub, hmessage, hpub⟩ := h
  cases value with
  | none =>
    obtain ⟨i, hi, hgeti⟩ := exists_findElement hmessage
    obtain ⟨j, hj, -⟩ := exists_findElement hpub
    rw [xmlSetValue, hi] at hset
    dsimp only at hset
    rw [hgeti, Option.bind_some, hj] at hset
    cases hset
  | some v =>
    obtain ⟨tree', message', hset', hmessage', hpub', -⟩ := xmlSetValue_found hmessage hpub t v
    cases hset'.symm.trans hset
    exact ⟨message', _, hmessage', hpub'⟩

/-- Setting an element of a record, with texts that fit. -/
theorem HasPublic.add {rs em : List UInt8} {id : ℤ} {value : Option (List UInt8)} {ret : XmlSetRet}
    (h : HasPublic tree) (hadd : xmlAddListValue tree rs id em value = some ret) :
    HasPublic ret.tree := by
  obtain ⟨message, pub, hmessage, hpub⟩ := h
  obtain ⟨i, hi, -⟩ := exists_findElement hmessage
  have hsome := hadd
  rw [xmlAddListValue, hi] at hsome
  obtain ⟨sRecID, hid, hmap⟩ := Option.bind_eq_some_iff.1 hsome
  obtain ⟨v, rfl, -⟩ := Option.map_eq_some_iff.1 hmap
  have hfits : IntFits id := not_not.1 fun hcon ↦ by
    rw [sprintfInt_eq_none_iff.2 hcon] at hid
    cases hid
  obtain ⟨tree', hadd', hmessage', hpub'⟩ := xmlAddListValue_found hmessage rs hfits em v
  cases hadd'.symm.trans hadd
  exact ⟨_, pub, hmessage', hpub'.trans hpub⟩

/-- Every call that comes back keeps them. -/
theorem HasPublic.call {a : XmlAct} {ret : XmlSetRet} (h : HasPublic tree)
    (hcall : xmlCall tree a = some ret) : HasPublic ret.tree := by
  cases a with
  | set t v => exact h.set hcall
  | charSet t c => exact h.set hcall
  | intSet t n => exact h.set hcall
  | addList rs id em v => exact h.add hcall
  | addIntList rs id em n => exact h.add hcall

/-- So does every run. -/
theorem HasPublic.run {as : List XmlAct} {tree' : MxmlNode} (h : HasPublic tree)
    (hrun : xmlRun tree as = some tree') : HasPublic tree' := by
  induction as generalizing tree with
  | nil =>
    cases hrun
    exact h
  | cons a as ih =>
    rw [xmlRun] at hrun
    obtain ⟨ret, hcall, hrest⟩ := Option.bind_eq_some_iff.1 hrun
    exact ih (h.call hcall) hrest

/-! ### There and back -/

/-- The element that was set. -/
theorem find?_setElement (node : MxmlNode) (t v : List UInt8) :
    ∃ a, (setElement node t v).children.find? (MxmlNode.isElement t none) = some a ∧
      ValueStands a v := by
  have hkeep (a : MxmlNode) (ha : a.isElement t none) :
      (mxmlElementSetAttr a (text "value") v).isElement t none := ha
  obtain ⟨a, ha⟩ := find?_modifyChild_findOrNew node t none hkeep
  exact ⟨_, ha, valueStands_setAttr a v⟩

/-- The element of the record of the record set. -/
theorem find?_addItem (message : MxmlNode) (rs sRecID em v : List UInt8) :
    ∃ recordset record a,
      (addItem message rs sRecID em v).children.find?
        (MxmlNode.isElement (text "RecordSet") (some (text "name", rs))) = some recordset ∧
      recordset.children.find?
        (MxmlNode.isElement (text "Record") (some (text "RecID", sRecID))) = some record ∧
      record.children.find? (MxmlNode.isElement em none) = some a ∧ ValueStands a v := by
  obtain ⟨recordset, hset⟩ := find?_modifyChild_findOrNew message (text "RecordSet")
    (some (text "name", rs)) (f := fun recordset ↦ addElement recordset sRecID em v)
    fun node hnode ↦ by rwa [isElement_addElement]
  obtain ⟨record, hrecord⟩ := find?_modifyChild_findOrNew recordset (text "Record")
    (some (text "RecID", sRecID)) (f := fun record ↦ setElement record em v)
    fun node hnode ↦ by rwa [isElement_setElement]
  obtain ⟨a, ha, hval⟩ := find?_setElement record em v
  exact ⟨_, _, a, hset, hrecord, ha, hval⟩

/-- What a get makes of a value that is shorter than the buffer. -/
theorem xmlValue_of_lt {node : MxmlNode} {v : List UInt8} (h : ValueStands node v)
    (name : List UInt8) (hz : (0 : UInt8) ∉ v) {k : ℕ} (hk : v.length < k)
    (hlong : v.length < 2 ^ 31) :
    ∃ ret, xmlValue node name k = some ret ∧ ret.rc = v.length ∧ cstr ret.psData = v := by
  have hright := (xmlValue_right_iff h name (show 1 ≤ k by omega)).2 hlong
  obtain ⟨ret, hret, hpair⟩ := Option.map_eq_some_iff.1 hright
  have hrc : ret.rc = v.length := congrArg Prod.fst hpair
  have hdata : ret.psData = v.take (k - 1) ++ List.replicate (k - min v.length (k - 1)) 0 :=
    congrArg Prod.snd hpair
  refine ⟨ret, hret, hrc, ?_⟩
  obtain ⟨n, hn⟩ : ∃ n, k - min v.length (k - 1) = n + 1 :=
    ⟨k - min v.length (k - 1) - 1, by omega⟩
  rw [hdata, List.take_of_length_le (by omega), hn, List.replicate_succ]
  exact cstr_append_zero hz _

/-- A tag that is set to an `int` is read back. -/
theorem HasPublic.intSet_intGet (h : HasPublic tree) (t : List UInt8) {v : ℤ} (hv : IntFits v)
    (nData : ℤ) : ∃ tree', xmlIntSet tree t v = some ⟨0, tree', none⟩ ∧
      xmlIntGet tree' t nData = some ⟨0, atoi (sprintfd v), none⟩ := by
  obtain ⟨message, pub, hmessage, hpub⟩ := h
  obtain ⟨tree', message', hset, hmessage', hpub', -⟩ :=
    xmlSetValue_found hmessage hpub t (sprintfd v)
  obtain ⟨node, hnode, hval⟩ := find?_setElement pub t (sprintfd v)
  have hattr : mxmlElementGetAttr node (text "value") = some (sprintfd v) := hval
  refine ⟨tree', by rw [xmlIntSet, sprintfInt_of_fits hv, hset], ?_⟩
  simp only [xmlIntGet, findChild_eq_find?, hmessage', hpub', hnode, hattr]

/-- An element of a record that is set to an `int` is fetched as its text. -/
theorem HasPublic.addIntList_fetchList (h : HasPublic tree) (rs em : List UInt8) {r v : ℤ}
    (hr : IntFits r) (hv : IntFits v) {k : ℕ} (hk : (sprintfd v).length < k) :
    ∃ tree', xmlAddIntList tree rs r em v = some ⟨0, tree', none⟩ ∧
      ∃ ret, xmlFetchList tree' rs r em k = some ret ∧ ret.rc = (sprintfd v).length ∧
        cstr ret.psData = sprintfd v := by
  have hz : (0 : UInt8) ∉ sprintfd v := fun hmem ↦
    absurd (isDigit_of_mem_sprintfd hmem (by decide)) (by decide)
  have hlen : (sprintfd v).length ≤ 10 := hv
  obtain ⟨message, -, hmessage, -⟩ := h
  obtain ⟨tree', hadd, hmessage', -⟩ := xmlAddListValue_found hmessage rs hr em (sprintfd v)
  obtain ⟨recordset, record, node, hset, hrecord, hnode, hval⟩ :=
    find?_addItem message rs (sprintfd r) em (sprintfd v)
  refine ⟨tree', by rw [xmlAddIntList, sprintfInt_of_fits hv, hadd], ?_⟩
  simp only [xmlFetchList, findChild_eq_find?, hmessage', hset, sprintfInt_of_fits hr,
    Option.bind_some, hrecord, hnode]
  exact xmlValue_of_lt hval em hz hk (by omega)

end Documents

/-- **Integers survive the XML wrapper if and only if value and record id are greater than
-1000000000**, in every document with `<Message>` and `<Public>` and behind all calls on it. -/
theorem xml_ints_survive_iff {doc tree : MxmlNode} (hdoc : HasPublic doc) {as : List XmlAct}
    (hrun : xmlRun doc as = some tree) {v r : ℤ} (hv : -2 ^ 31 ≤ v ∧ v < 2 ^ 31)
    (hr : -2 ^ 31 ≤ r ∧ r < 2 ^ 31) :
    IntsSurvive tree v r ↔ -999999999 ≤ v ∧ -999999999 ≤ r := by
  have h := hdoc.run hrun
  rw [← intFits_iff hv.2, ← intFits_iff hr.2]
  constructor
  · intro hsurvive
    exact ⟨not_not.1 fun hcon ↦ hsurvive.value_fits (sprintfInt_eq_none_iff.2 hcon),
      not_not.1 fun hcon ↦ hsurvive.id_fits (sprintfInt_eq_none_iff.2 hcon)⟩
  · rintro ⟨hvfits, hrfits⟩
    refine ⟨fun hnone ↦ sprintfInt_eq_none_iff.1 hnone hvfits,
      fun hnone ↦ sprintfInt_eq_none_iff.1 hnone hrfits, fun t nData ↦ ?_,
      fun rs em k hk ↦ h.addIntList_fetchList rs em hrfits hvfits hk⟩
    have htag := h.intSet_intGet t hvfits nData
    rwa [atoi_sprintfd hv.1 hv.2] at htag

/-- The value 5 in the record 1 of a fresh tree. -/
theorem xml_ints_survive_iff_small :
    IntsSurvive xmlInit 5 1 ↔ (-999999999 : ℤ) ≤ 5 ∧ (-999999999 : ℤ) ≤ 1 :=
  xml_ints_survive_iff hasPublic_xmlInit (show xmlRun xmlInit [] = some xmlInit from rfl) (by decide)
    (by decide)

/-- `INT_MIN` has eleven characters. -/
theorem xml_int_min_overruns : ¬IntsSurvive xmlInit (-2 ^ 31) 1 := fun h ↦
  h.value_fits (by decide)

end Sunda
