import Sunda.Xml.Xml

/-!
# Comparing values of the XML wrapper

`XmlStringCmp` and `XmlElementCmp` (`pubfun/xml/xml.c`) return what `strcmp` returns for the value of a tag
and a text, or for the values of two tags. A tag that was never set gives -1, as a smaller value does, so of
the three outcomes only two are answers: 0 says that both are set, to the same value, and a positive result
that both are set and the first value is the larger one (`xml_compare_refines`).

The language says of `strcmp` which sign it returns, for characters compared as `unsigned char`; `Strcmp` are
the functions that do.
-/

namespace Sunda

open Bytes FirstMatch

/-! ### The code -/

/-- A `strcmp`. -/
structure Strcmp where
  call : List UInt8 → List UInt8 → ℤ
  eq_zero_iff : ∀ s t, call s t = 0 ↔ s = t
  neg_iff : ∀ s t, call s t < 0 ↔ s < t
  pos_iff : ∀ s t, 0 < call s t ↔ t < s

/-- One that returns signs. -/
def strcmpSign : List UInt8 → List UInt8 → ℤ
  | [], [] => 0
  | [], _ :: _ => -1
  | _ :: _, [] => 1
  | a :: s, b :: t => if a < b then -1 else if b < a then 1 else strcmpSign s t

/-- The return value of a comparison, and the error text if one was stored. -/
structure XmlCmpRet where
  rc : ℤ
  error : Option (List UInt8)

/-- The end of a comparison that fails. -/
def xmlCmpFail (msg : List UInt8) : Option XmlCmpRet :=
  (xmlSetError msg).map fun e ↦ ⟨-1, some e⟩

/-- The value of a tag below `<Public>`, or what is wrong with it. -/
def findValue (tree : MxmlNode) (psTagName : List UInt8) : Except (List UInt8) (List UInt8) :=
  match findChild tree psTagName none with
  | none => .error (noElement psTagName)
  | some node =>
    match mxmlElementGetAttr node (text "value") with
    | none => .error (noValue psTagName)
    | some psAttrValue => .ok psAttrValue

variable (c : Strcmp)

/-- `XmlStringCmp`. -/
def xmlStringCmp (l_pIntXml : MxmlNode) (psTagName psData : List UInt8) : Option XmlCmpRet :=
  match findChild l_pIntXml (text "Message") none with
  | none => xmlCmpFail noMessage
  | some tree =>
    match findChild tree (text "Public") none with
    | none => xmlCmpFail noPublic
    | some tree =>
      match findValue tree psTagName with
      | .error msg => xmlCmpFail msg
      | .ok psAttrValue => some ⟨c.call psAttrValue psData, none⟩

/-- `XmlElementCmp`. -/
def xmlElementCmp (l_pIntXml : MxmlNode) (psTagName1 psTagName2 : List UInt8) : Option XmlCmpRet :=
  match findChild l_pIntXml (text "Message") none with
  | none => xmlCmpFail noMessage
  | some tree =>
    match findChild tree (text "Public") none with
    | none => xmlCmpFail noPublic
    | some tree =>
      match findValue tree psTagName1 with
      | .error msg => xmlCmpFail msg
      | .ok psAttrValue1 =>
        match findValue tree psTagName2 with
        | .error msg => xmlCmpFail msg
        | .ok psAttrValue2 => some ⟨c.call psAttrValue1 psAttrValue2, none⟩

/-! ### `strcmp` -/

/-- Characters of which neither is smaller are the same. -/
theorem eq_of_not_lt {a b : UInt8} (hab : ¬ a < b) (hba : ¬ b < a) : a = b :=
  UInt8.le_antisymm (UInt8.not_lt.1 hba) (UInt8.not_lt.1 hab)

theorem strcmpSign_eq_zero_iff (s t : List UInt8) : strcmpSign s t = 0 ↔ s = t := by
  fun_induction strcmpSign s t with
  | case1 => simp
  | case2 => simp
  | case3 => simp
  | case4 a s b t hab => simp [UInt8.ne_of_lt hab]
  | case5 a s b t _ hba => simp [(UInt8.ne_of_lt hba).symm]
  | case6 a s b t hab hba ih => simp [eq_of_not_lt hab hba, ih]

theorem strcmpSign_neg_iff (s t : List UInt8) : strcmpSign s t < 0 ↔ s < t := by
  fun_induction strcmpSign s t with
  | case1 => simp
  | case2 => simp
  | case3 => simp
  | case4 a s b t hab => simp [List.cons_lt_cons_iff, hab]
  | case5 a s b t hab hba => simp [List.cons_lt_cons_iff, hab, (UInt8.ne_of_lt hba).symm]
  | case6 a s b t hab hba ih => simp [eq_of_not_lt hab hba, ih]

theorem strcmpSign_pos_iff (s t : List UInt8) : 0 < strcmpSign s t ↔ t < s := by
  fun_induction strcmpSign s t with
  | case1 => simp
  | case2 => simp
  | case3 => simp
  | case4 a s b t hab => simp [List.cons_lt_cons_iff, UInt8.lt_asymm hab, (UInt8.ne_of_lt hab).symm]
  | case5 a s b t _ hba => simp [List.cons_lt_cons_iff, hba]
  | case6 a s b t hab hba ih => simp [eq_of_not_lt hab hba, ih]

variable {c}

def Strcmp.sign : Strcmp where
  call := strcmpSign
  eq_zero_iff := strcmpSign_eq_zero_iff
  neg_iff := strcmpSign_neg_iff
  pos_iff := strcmpSign_pos_iff

/-! ### Results -/

section Result

variable {tree node : MxmlNode} {m : XmlMap} {elements : Elements} {t t1 t2 psData v w : List UInt8}

/-- The value that a search finds is that of the map. -/
theorem findValue_eq (h : ElementsStand node elements) (t : List UInt8) :
    findValue node t = (elements t).elim (.error (noElement t)) .ok := by
  rw [findValue, findChild_eq_find?]
  rcases find_cases h t with ⟨hfind, hget⟩ | ⟨a, v, hfind, hget, ha⟩
  · rw [hfind, hget]
    rfl
  · have hattr : mxmlElementGetAttr a (text "value") = some v := ha
    rw [hfind, hget]
    dsimp only
    rw [hattr]
    rfl

/-- `XmlStringCmp` on a tree that stands for a map. -/
theorem xmlStringCmp_eq (h : XmlStands tree m) (t psData : List UInt8) :
    xmlStringCmp c tree t psData =
      (m.pub t).elim (xmlCmpFail (noElement t)) fun v ↦ some ⟨c.call v psData, none⟩ := by
  obtain ⟨message, hmessage, ⟨pub, hpub, hstands⟩, -⟩ := h
  simp only [xmlStringCmp, findChild_eq_find?, hmessage, hpub, findValue_eq hstands]
  cases m.pub t <;> rfl

/-- `XmlElementCmp` compares the value of the first tag with that of the second. -/
theorem xmlElementCmp_eq (h : XmlStands tree m) (t1 t2 : List UInt8) :
    xmlElementCmp c tree t1 t2 =
      (m.pub t1).elim (xmlCmpFail (noElement t1)) fun v ↦
        (m.pub t2).elim (xmlCmpFail (noElement t2)) fun w ↦ some ⟨c.call v w, none⟩ := by
  obtain ⟨message, hmessage, ⟨pub, hpub, hstands⟩, -⟩ := h
  simp only [xmlElementCmp, findChild_eq_find?, hmessage, hpub, findValue_eq hstands]
  cases m.pub t1 with
  | none => rfl
  | some v => cases m.pub t2 <;> rfl

/-- The error text about a tag fits. -/
theorem xmlCmpFail_noElement (ht : t.length ≤ 978) :
    ∃ e, xmlCmpFail (noElement t) = some ⟨-1, some e⟩ := by
  have hfits := (xmlSetError_fits_iff (noElement t)).2 (by rw [noElement_length]; omega)
  obtain ⟨e, he⟩ := Option.isSome_iff_exists.1 hfits
  exact ⟨e, by rw [xmlCmpFail, he]; rfl⟩

/-- What a comparison is to say about two values, of which each may not be there. -/
structure Compares (r : XmlCmpRet) (v w : Option (List UInt8)) : Prop where
  equal : r.rc = 0 ↔ ∃ x, v = some x ∧ w = some x
  larger : 0 < r.rc ↔ ∃ x y, v = some x ∧ w = some y ∧ y < x
  fails : r.error ≠ none ↔ v = none ∨ w = none

theorem compares_call (c : Strcmp) (v w : List UInt8) : Compares ⟨c.call v w, none⟩ (some v) (some w) := by
  refine ⟨?_, ?_, ?_⟩
  · rw [c.eq_zero_iff]
    constructor
    · rintro rfl
      exact ⟨v, rfl, rfl⟩
    · rintro ⟨x, hv, hw⟩
      rw [Option.some.inj hv, Option.some.inj hw]
  · rw [c.pos_iff]
    constructor
    · exact fun hlt ↦ ⟨v, w, rfl, rfl, hlt⟩
    · rintro ⟨x, y, hv, hw, hlt⟩
      rwa [Option.some.inj hv, Option.some.inj hw]
  · simp

theorem compares_fail {e : List UInt8} {v w : Option (List UInt8)} (h : v = none ∨ w = none) :
    Compares ⟨-1, some e⟩ v w := by
  have hrc : ¬ (-1 : ℤ) = 0 ∧ ¬ 0 < (-1 : ℤ) := by decide
  refine ⟨iff_of_false hrc.1 ?_, iff_of_false hrc.2 ?_, iff_of_true (Option.some_ne_none e) h⟩
  · rintro ⟨x, rfl, rfl⟩
    simp at h
  · rintro ⟨x, y, rfl, rfl, -⟩
    simp at h

end Result

/-- **The comparisons agree with what was set**, behind every sequence of calls whose integers fit their
buffers, for tags that were set or whose names fit the error text. -/
theorem xml_compare_refines (c : Strcmp) {as : List XmlAct} (has : ∀ a ∈ as, a.Fits) :
    ∃ tree, xmlRun xmlInit as = some tree ∧ ∀ t1, XmlClear (xmlSpec .empty as) (.tag t1) →
      (∀ psData, ∃ r, xmlStringCmp c tree t1 psData = some r ∧
        Compares r ((xmlSpec .empty as).get (.tag t1)) (some psData)) ∧
      ∀ t2, XmlClear (xmlSpec .empty as) (.tag t2) →
        ∃ r, xmlElementCmp c tree t1 t2 = some r ∧
          Compares r ((xmlSpec .empty as).get (.tag t1)) ((xmlSpec .empty as).get (.tag t2)) := by
  obtain ⟨tree, hrun, hstands⟩ := xmlStands_xmlRun has xmlStands_xmlInit
  refine ⟨tree, hrun, fun t1 hclear1 ↦ ?_⟩
  generalize xmlSpec .empty as = m at hstands hclear1 ⊢
  have hname {t : List UInt8} (hclear : XmlClear m (.tag t)) (hnone : m.pub t = none) : t.length ≤ 978 := by
    have hget : m.get (.tag t) = none := hnone
    simpa only [XmlClear, hget] using hclear
  have hget (t : List UInt8) : m.get (.tag t) = m.pub t := rfl
  simp only [hget]
  constructor
  · intro psData
    rw [xmlStringCmp_eq hstands]
    cases h1 : m.pub t1 with
    | none =>
      obtain ⟨e, he⟩ := xmlCmpFail_noElement (hname hclear1 h1)
      exact ⟨_, he, compares_fail (.inl rfl)⟩
    | some v => exact ⟨_, rfl, compares_call c v psData⟩
  · intro t2 hclear2
    rw [xmlElementCmp_eq hstands]
    cases h1 : m.pub t1 with
    | none =>
      obtain ⟨e, he⟩ := xmlCmpFail_noElement (hname hclear1 h1)
      exact ⟨_, he, compares_fail (.inl rfl)⟩
    | some v =>
      cases h2 : m.pub t2 with
      | none =>
        obtain ⟨e, he⟩ := xmlCmpFail_noElement (hname hclear2 h2)
        exact ⟨_, he, compares_fail (.inr rfl)⟩
      | some w => exact ⟨_, rfl, compares_call c v w⟩

/-- Two tags that were set. -/
theorem xml_compare_refines_two :
    ∃ tree, xmlRun xmlInit [.set (text "a") (text "10"), .set (text "b") (text "9")] = some tree ∧
      ∃ r, xmlElementCmp .sign tree (text "b") (text "a") = some r ∧ 0 < r.rc := by
  have has : ∀ a ∈ [XmlAct.set (text "a") (text "10"), .set (text "b") (text "9")], a.Fits := by
    intro a ha
    rcases List.mem_cons.1 ha with rfl | ha
    · trivial
    · rw [List.mem_singleton.1 ha]
      trivial
  obtain ⟨tree, hrun, hall⟩ := xml_compare_refines .sign has
  have hclear1 : XmlClear (xmlSpec .empty [.set (text "a") (text "10"), .set (text "b") (text "9")])
      (.tag (text "b")) :=
    show (text "9").length < 2 ^ 31 by decide
  have hclear2 : XmlClear (xmlSpec .empty [.set (text "a") (text "10"), .set (text "b") (text "9")])
      (.tag (text "a")) :=
    show (text "10").length < 2 ^ 31 by decide
  obtain ⟨r, hr, hcmp⟩ := (hall (text "b") hclear1).2 (text "a") hclear2
  exact ⟨tree, hrun, r, hr, hcmp.larger.2 ⟨text "9", text "10", rfl, rfl, by decide⟩⟩

end Sunda
