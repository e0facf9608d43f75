import Sunda.Xml.MxmlLoad

/-!
# What is written is read back

The loops that read, on what the functions that write put:

* `mxmlGetEntity_eq_some_iff`: what is read as an entity; `mxmlGetEntity_getName`: one that was written is;
* `gather_writeString`, `gatherTag_name`: strings and names;
* `mxmlParseElement_attrs`: the attributes of an element (`PlainAttrs`: no two have the same name, for the
  second one would be set over the first);
* `readsNode`, `readsNodes`, `readsText`: nodes, by induction on the node, with a step for each kind of node;
* `mxmlLoadString_mxmlSaveText`, `mxmlLoadString_mxmlSaveString`: documents, and through a buffer.

What can be written so that it is read back is `PlainDocument`. A text has no white space of its own, and is
`Apart` from the node behind it; a name has none of the characters at which a loop stops.
-/

namespace Sunda

open Bytes

/-! ### Characters -/

/-- A character that `mxml_string_getc` passes on. -/
def isData (c : UInt8) : Bool := c ≠ 0 && !mxmlBadChar c.toNat

/-- The strings that can be written: no NUL and no control character. -/
def PlainString (s : List UInt8) : Prop := ∀ c ∈ s, isData c

instance (s : List UInt8) : Decidable (PlainString s) := List.decidableBAll (fun c ↦ isData c) s

/-- What holds of each character of a text, by looking at them one by one. -/
theorem forall_mem_of_all {p : UInt8 → Prop} [DecidablePred p] {s : List UInt8} (h : s.all fun c ↦ p c) :
    ∀ c ∈ s, p c := by
  simpa using h

@[simp]
theorem mxmlStringGetc_cons {c : UInt8} (h : isData c) (s : List UInt8) :
    mxmlStringGetc (c :: s) = (some c, s) := by
  rw [isData, Bool.and_eq_true, decide_eq_true_eq, Bool.not_eq_true'] at h
  rw [mxmlStringGetc, if_neg h.1, h.2, if_neg Bool.false_ne_true]

@[simp]
theorem mxmlAddChar_toNat (c : UInt8) : mxmlAddChar c.toNat = [c] := by
  have hall : ∀ n < 256, n < 0x80 ∨ n &&& 0x80 ≠ 0 := by decide +kernel
  rw [mxmlAddChar, if_pos (hall _ c.toNat_lt), UInt8.ofNat_toNat]

theorem entityLoop_cons {c : UInt8} (hc : isData c) (entity s : List UInt8) :
    entityLoop entity (c :: s) =
      if 126 < c.toNat || (!isAlnum c && c ≠ ch '#') then (some c, entity, s)
      else if entity.length < 63 then entityLoop (entity ++ [c]) s
      else (some c, entity, s) := by
  rw [entityLoop.eq_def]
  split
  · next h =>
    rw [mxmlStringGetc_cons hc] at h
    cases h
  · next d rest h =>
    rw [mxmlStringGetc_cons hc] at h
    cases h
    rfl

theorem mxmlStringGetc_some {s rest : List UInt8} {c : UInt8} (h : mxmlStringGetc s = (some c, rest)) :
    s = c :: rest ∧ isData c := by
  cases s with
  | nil => cases h
  | cons d s =>
    rw [mxmlStringGetc] at h
    split_ifs at h with hzero hbad
    · cases h
    · cases h
    · cases h
      exact ⟨rfl, by simp [isData, hzero, hbad]⟩

/-- The characters of the names of entities. -/
def isEntityChar (c : UInt8) : Bool := isAlnum c || c = ch '#'

/-- The names of entities. -/
def IsEntityName (name : List UInt8) : Prop := ∀ c ∈ name, isEntityChar c

instance (name : List UInt8) : Decidable (IsEntityName name) :=
  List.decidableBAll (fun c ↦ isEntityChar c) name

theorem isEntityChar_data {c : UInt8} (h : isEntityChar c) : isData c ∧ c.toNat ≤ 126 := by
  have hall : ∀ n < 256, isEntityChar (UInt8.ofNat n) → isData (UInt8.ofNat n) ∧ (UInt8.ofNat n).toNat ≤ 126 := by
    decide +kernel
  have hc := hall c.toNat c.toNat_lt
  rw [UInt8.ofNat_toNat] at hc
  exact hc h

theorem isData_semicolon : isData (ch ';') := by decide

theorem entityLoop_name {name : List UInt8} (h : IsEntityName name) (s entity : List UInt8)
    (hlen : entity.length + name.length ≤ 63) :
    entityLoop entity (name ++ ch ';' :: s) = (some (ch ';'), entity ++ name, s) := by
  induction name generalizing entity with
  | nil =>
    rw [List.nil_append, entityLoop_cons isData_semicolon, if_pos (by decide), List.append_nil]
  | cons c name ih =>
    have hc := h c List.mem_cons_self
    obtain ⟨hdata, hle⟩ := isEntityChar_data hc
    rw [isEntityChar, Bool.or_eq_true, decide_eq_true_eq] at hc
    have hgo : ¬ (decide (126 < c.toNat) || (!isAlnum c && decide (c ≠ ch '#'))) = true := by
      rcases hc with halnum | rfl
      · simp [halnum]
        omega
      · decide
    rw [List.length_cons] at hlen
    rw [List.cons_append, entityLoop_cons hdata, if_neg hgo, if_pos (by omega),
      ih (fun d hd ↦ h d (List.mem_cons_of_mem c hd)) _ (by simp; omega), List.append_assoc]
    rfl

/-- Where the loop ends at a `;`, a name was in front of it. -/
theorem exists_of_entityLoop {entity name s rest : List UInt8} (hlen : entity.length ≤ 63)
    (h : entityLoop entity s = (some (ch ';'), name, rest)) :
    ∃ n, name = entity ++ n ∧ s = n ++ ch ';' :: rest ∧ IsEntityName n ∧ name.length ≤ 63 := by
  fun_induction entityLoop entity s with
  | case1 => cases h
  | case2 entity s c rest' hc _ =>
    obtain ⟨rfl, -⟩ := mxmlStringGetc_some hc
    cases h
    exact ⟨[], (List.append_nil _).symm, rfl, List.forall_mem_nil _, hlen⟩
  | case3 entity s c rest' hc hgo hlt ih =>
    obtain ⟨rfl, -⟩ := mxmlStringGetc_some hc
    obtain ⟨n, rfl, rfl, hn, hle⟩ := ih (by simp; omega) h
    refine ⟨c :: n, by simp, rfl, fun d hd ↦ ?_, hle⟩
    rcases List.mem_cons.1 hd with rfl | hd
    · rw [isEntityChar, Bool.or_eq_true, decide_eq_true_eq]
      simp only [Bool.or_eq_true, Bool.and_eq_true, decide_eq_true_eq, Bool.not_eq_true', not_or, not_and] at hgo
      by_cases halnum : isAlnum d = true
      · exact .inl halnum
      · exact .inr (not_not.1 (hgo.2 (Bool.eq_false_iff.2 halnum)))
    · exact hn d hd
  | case4 entity s c rest' hc hgo _ =>
    obtain ⟨rfl, -⟩ := mxmlStringGetc_some hc
    cases h
    exact absurd rfl fun h : ch ';' = ch ';' ↦ hgo (by decide)

/-- The names in the table. -/
theorem isEntityName_of_mem {name : List UInt8} {val : ℕ} (h : (name, val) ∈ entities) :
    IsEntityName name ∧ name.length ≤ 63 ∧ name[0]? ≠ some (ch '#') ∧ mxmlBadChar val = false := by
  have hall : ∀ a ∈ entities, IsEntityName a.1 ∧ a.1.length ≤ 63 ∧ a.1[0]? ≠ some (ch '#') ∧
      mxmlBadChar a.2 = false := by
    decide +kernel
  exact hall _ h

/-- The character of a name. -/
theorem entityChar_eq_of_ne {name : List UInt8} (hne : name[0]? ≠ some (ch '#')) {val : ℤ}
    (hgood : mxmlBadChar val = false) :
    entityChar name = val ↔ ∃ n : ℕ, val = n ∧ (name, n) ∈ entities := by
  rw [entityChar, if_neg hne]
  constructor
  · intro h
    split at h
    · next n hn => exact ⟨n, h.symm, (mxmlEntityGetValue_eq_some_iff name n).1 hn⟩
    · rw [← h] at hgood
      exact absurd hgood (by decide)
  · rintro ⟨n, rfl, hmem⟩
    rw [(mxmlEntityGetValue_eq_some_iff name n).2 hmem]

/-- **An entity is a name of the table, or a number behind a `#`,** with a `;` behind it. -/
theorem mxmlGetEntity_eq_some_iff (s rest : List UInt8) (e : ℕ) :
    mxmlGetEntity s = (some e, rest) ↔ ∃ name, s = name ++ ch ';' :: rest ∧
      ((name, e) ∈ entities ∨ IsEntityName name ∧ name.length ≤ 63 ∧ name[0]? = some (ch '#') ∧
        mxmlBadChar (entityChar name) = false ∧ (entityChar name).toNat = e) := by
  constructor
  · intro h
    rw [mxmlGetEntity] at h
    split_ifs at h with hsemi hbad
    · cases h
    · obtain ⟨he, hrest⟩ := Prod.mk.inj h
      obtain ⟨n, hn, hs, hname, hlen⟩ := exists_of_entityLoop (show ([] : List UInt8).length ≤ 63 from Nat.zero_le _)
        (show entityLoop [] s = (some (ch ';'), (entityLoop [] s).2.1, rest) by rw [← hsemi, ← hrest])
      rw [List.nil_append] at hn
      rw [hn] at hbad he hlen
      rw [Bool.not_eq_true] at hbad
      refine ⟨n, hs, ?_⟩
      by_cases hhash : n[0]? = some (ch '#')
      · exact .inr ⟨hname, hlen, hhash, hbad, Option.some.inj he⟩
      · obtain ⟨val, hval, hmem⟩ := (entityChar_eq_of_ne hhash hbad).1 rfl
        rw [hval, Int.toNat_natCast] at he
        exact .inl (Option.some.inj he ▸ hmem)
    · cases h
  · rintro ⟨name, rfl, hname⟩
    have hread {name : List UInt8} (hname : IsEntityName name) (hlen : name.length ≤ 63)
        (hgood : mxmlBadChar (entityChar name) = false) :
        mxmlGetEntity (name ++ ch ';' :: rest) = (some (entityChar name).toNat, rest) := by
      rw [mxmlGetEntity, entityLoop_name hname rest [] (by simpa using hlen)]
      simp [hgood]
    rcases hname with hmem | ⟨hname, hlen, -, hgood, rfl⟩
    · obtain ⟨hname, hlen, hhash, hgood⟩ := isEntityName_of_mem hmem
      have hchar := (entityChar_eq_of_ne hhash hgood).2 ⟨e, rfl, hmem⟩
      rw [hread hname hlen (by rw [hchar, hgood]), hchar, Int.toNat_natCast]
    · exact hread hname hlen hgood

/-- The names that are written for characters, as they are read. -/
theorem entityChar_getName {c : UInt8} {name : List UInt8} (h : mxmlEntityGetName c = some name) :
    IsEntityName name ∧ name.length ≤ 4 ∧ isData c ∧ (name, c.toNat) ∈ entities := by
  rw [mxmlEntityGetName] at h
  split_ifs at h with h1 h2 h3 h4
  · obtain rfl := Option.some.inj h
    subst h1
    exact ⟨by decide, by decide, by decide, by decide +kernel⟩
  · obtain rfl := Option.some.inj h
    subst h2
    exact ⟨by decide, by decide, by decide, by decide +kernel⟩
  · obtain rfl := Option.some.inj h
    subst h3
    exact ⟨by decide, by decide, by decide, by decide +kernel⟩
  · obtain rfl := Option.some.inj h
    subst h4
    exact ⟨by decide, by decide, by decide, by decide +kernel⟩

/-- **An entity is read back.** -/
theorem mxmlGetEntity_getName {c : UInt8} {name : List UInt8} (h : mxmlEntityGetName c = some name)
    (s : List UInt8) : mxmlGetEntity (name ++ ch ';' :: s) = (some c.toNat, s) := by
  obtain ⟨hname, hlen, -, hmem⟩ := entityChar_getName h
  obtain ⟨-, -, hhash, hgood⟩ := isEntityName_of_mem hmem
  have hchar := (entityChar_eq_of_ne hhash hgood).2 ⟨_, rfl, hmem⟩
  rw [mxmlGetEntity, entityLoop_name hname s [] (by simp; omega)]
  simp [hchar, hgood]

/-- What is written for a character. -/
theorem mxmlWriteChar_cases (c : UInt8) :
    (∃ name, mxmlEntityGetName c = some name ∧ mxmlWriteChar c = ch '&' :: (name ++ [ch ';'])) ∨
      (mxmlWriteChar c = [c] ∧ c ≠ ch '&' ∧ c ≠ ch '<' ∧ c ≠ ch '>' ∧ c ≠ ch '"') := by
  cases h : mxmlEntityGetName c with
  | some name => exact .inl ⟨name, rfl, by rw [mxmlWriteChar, h]; rfl⟩
  | none =>
    refine .inr ⟨by rw [mxmlWriteChar, h], ?_⟩
    rw [mxmlEntityGetName] at h
    split_ifs at h with h1 h2 h3 h4
    exact ⟨h1, h2, h3, h4⟩

theorem isData_amp : isData (ch '&') := by decide

/-! ### The loops -/

section Loops

variable {c : UInt8} (hc : isData c) (stop : UInt8 → Bool) (buf s : List UInt8)

include hc

theorem gather_cons : gather stop buf (c :: s) =
    if stop c then some (some c, buf, s)
    else if c = ch '&' then
      match mxmlGetEntity s with
      | (none, _) => none
      | (some e, rest) => gather stop (buf ++ mxmlAddChar e) rest
    else gather stop (buf ++ [c]) s := by
  grind [gather, mxmlStringGetc_cons hc, mxmlAddChar_toNat c]

theorem gatherTag_cons : gatherTag buf (c :: s) =
    if mxmlIsspace c || c = ch '>' || (c = ch '/' && buf ≠ []) then some (some c, buf, s)
    else if c = ch '<' then none
    else if c = ch '&' then
      match mxmlGetEntity s with
      | (none, _) => none
      | (some e, rest) => gatherTag (buf ++ mxmlAddChar e) rest
    else if isTagStart (buf ++ [c]) then some (some c, buf ++ [c], s)
    else gatherTag (buf ++ [c]) s := by
  grind [gatherTag, mxmlStringGetc_cons hc, mxmlAddChar_toNat c]

theorem gatherRaw_cons (isEnd : List UInt8 → Bool) : gatherRaw isEnd buf (c :: s) =
    if c = ch '>' && isEnd buf then some (buf, s) else gatherRaw isEnd (buf ++ [c]) s := by
  grind [gatherRaw, mxmlStringGetc_cons hc, mxmlAddChar_toNat c]

theorem skipSpace_cons (d : UInt8) :
    skipSpace (some d) (c :: s) = if mxmlIsspace d then skipSpace (some c) s else (some d, c :: s) := by
  grind [skipSpace, mxmlStringGetc_cons hc]

theorem mxmlParseElement_cons (node : MxmlNode) : mxmlParseElement node (c :: s) =
    if mxmlIsspace c then mxmlParseElement node s
    else if c = ch '/' || c = ch '?' then (tagEnd s).map fun rest ↦ (c, node, rest)
    else if c = ch '<' then none
    else if c = ch '>' then some (c, node, s)
    else
      match parseAttr node c s with
      | none => none
      | some (node, some c, rest) =>
        if c = ch '/' || c = ch '?' then (tagEnd rest).map fun rest ↦ (c, node, rest)
        else if c = ch '>' then some (c, node, rest)
        else mxmlParseElement node rest
      | some (node, none, rest) => mxmlParseElement node rest := by
  grind [mxmlParseElement, mxmlStringGetc_cons hc]

theorem mxmlLoadData_cons (st : MxmlLoad) : mxmlLoadData st (c :: s) =
    match loadChar st c s with
    | .error => none
    | .done st => st.result
    | .more st rest => mxmlLoadData st rest := by
  grind [mxmlLoadData, mxmlStringGetc_cons hc]

end Loops

/-! ### Strings in the loops -/

section Strings

variable {c : UInt8} {s : List UInt8}

theorem gather_writeChar {stop : UInt8 → Bool} (hamp : stop (ch '&') = false) (hc : isData c)
    (hstop : c ≠ ch '"' → stop c = false) (buf s : List UInt8) :
    gather stop buf (mxmlWriteChar c ++ s) = gather stop (buf ++ [c]) s := by
  rcases mxmlWriteChar_cases c with ⟨name, hname, hwrite⟩ | ⟨hwrite, hne, -, -, hquote⟩
  · rw [hwrite, List.cons_append, gather_cons isData_amp, hamp, if_neg Bool.false_ne_true, if_pos rfl,
      List.append_assoc, List.singleton_append, mxmlGetEntity_getName hname]
    dsimp only
    rw [mxmlAddChar_toNat]
  · rw [hwrite, List.singleton_append, gather_cons hc, hstop hquote, if_neg Bool.false_ne_true, if_neg hne]

/-- A string without a character that ends the loop, a quote apart. -/
theorem gather_writeString {stop : UInt8 → Bool} (hamp : stop (ch '&') = false) {v : List UInt8}
    (hv : PlainString v) (hstop : ∀ c ∈ v, c ≠ ch '"' → stop c = false) (buf s : List UInt8) :
    gather stop buf (mxmlWriteString v ++ s) = gather stop (buf ++ v) s := by
  induction v generalizing buf with
  | nil => rw [List.append_nil]; rfl
  | cons c v ih =>
    rw [mxmlWriteString, List.flatMap_cons, List.append_assoc,
      gather_writeChar hamp (hv c List.mem_cons_self) (hstop c List.mem_cons_self), ← mxmlWriteString,
      ih (fun d hd ↦ hv d (List.mem_cons_of_mem c hd)) (fun d hd ↦ hstop d (List.mem_cons_of_mem c hd)),
      List.append_assoc, List.singleton_append]

/-- The characters of a name of an element. -/
def isNameChar (c : UInt8) : Bool :=
  isData c && !mxmlIsspace c && c ≠ ch '<' && c ≠ ch '>' && c ≠ ch '/' && c ≠ ch '&'

/-- A name begins like one. -/
def isPlainHead : List UInt8 → Bool
  | [] => false
  | c :: _ => c ≠ ch '?' && c ≠ ch '!' && !isQuote c

/-- The names of elements that can be written. -/
def PlainName (name : List UInt8) : Prop := (∀ c ∈ name, isNameChar c) ∧ isPlainHead name

instance (name : List UInt8) : Decidable (PlainName name) :=
  haveI := List.decidableBAll (fun c ↦ isNameChar c) name
  instDecidableAnd

theorem isNameChar_iff : isNameChar c ↔ isData c ∧ mxmlIsspace c = false ∧ c ≠ ch '<' ∧ c ≠ ch '>' ∧
    c ≠ ch '/' ∧ c ≠ ch '&' := by
  simp [isNameChar, and_assoc]

/-- What begins with another character is read on as a name. -/
theorem isTagStart_eq_false {d : UInt8} (hq : d ≠ ch '?') (hbang : d ≠ ch '!') (buf : List UInt8) :
    isTagStart (d :: buf) = false := by
  have h1 : text "?" = [ch '?'] := rfl
  have h2 : text "!--" = ch '!' :: text "--" := rfl
  have h3 : text "![CDATA[" = ch '!' :: text "[CDATA[" := rfl
  simp [isTagStart, h1, h2, h3, hq, hbang]

/-- A name as it is. -/
theorem gatherTag_name {d : UInt8} (hq : d ≠ ch '?') (hbang : d ≠ ch '!') {name : List UInt8}
    (hname : ∀ c ∈ name, isNameChar c) (buf s : List UInt8) :
    gatherTag (d :: buf) (name ++ s) = gatherTag (d :: (buf ++ name)) s := by
  induction name generalizing buf with
  | nil => rw [List.append_nil]; rfl
  | cons c name ih =>
    obtain ⟨hc, hspace, hlt, hgt, hslash, hamp⟩ := isNameChar_iff.1 (hname c List.mem_cons_self)
    rw [List.cons_append, gatherTag_cons hc, if_neg (by simp [hspace, hgt, hslash]), if_neg hlt, if_neg hamp,
      List.cons_append, isTagStart_eq_false hq hbang, if_neg Bool.false_ne_true,
      ih (fun d hd ↦ hname d (List.mem_cons_of_mem c hd)), List.append_assoc]
    rfl

/-- A name with its entities. -/
theorem gatherTag_writeString {d : UInt8} (hq : d ≠ ch '?') (hbang : d ≠ ch '!') {name : List UInt8}
    (hname : ∀ c ∈ name, isNameChar c) (buf s : List UInt8) :
    gatherTag (d :: buf) (mxmlWriteString name ++ s) = gatherTag (d :: (buf ++ name)) s := by
  induction name generalizing buf with
  | nil => rw [List.append_nil]; rfl
  | cons c name ih =>
    obtain ⟨hc, hspace, hlt, hgt, hslash, hamp⟩ := isNameChar_iff.1 (hname c List.mem_cons_self)
    have hstep (s : List UInt8) : gatherTag (d :: buf) (mxmlWriteChar c ++ s) =
        gatherTag (d :: (buf ++ [c])) s := by
      rcases mxmlWriteChar_cases c with ⟨entity, hentity, hwrite⟩ | ⟨hwrite, -⟩
      · rw [hwrite, List.cons_append, gatherTag_cons isData_amp, if_neg (by simp; decide), if_neg (by decide),
          if_pos rfl, List.append_assoc, List.singleton_append, mxmlGetEntity_getName hentity]
        dsimp only
        rw [mxmlAddChar_toNat]
        rfl
      · rw [hwrite]
        exact gatherTag_name hq hbang (fun e he ↦ hname e (by simp_all)) buf s
    rw [mxmlWriteString, List.flatMap_cons, List.append_assoc, hstep, ← mxmlWriteString,
      ih (fun d hd ↦ hname d (List.mem_cons_of_mem c hd)), List.append_assoc, List.singleton_append]

end Strings

/-! ### Attributes -/

/-- The names of attributes that can be written. -/
def PlainAttrName (name : List UInt8) : Prop :=
  (∀ c ∈ name, isNameChar c ∧ c ≠ ch '=' ∧ c ≠ ch '?') ∧ isPlainHead name

instance (name : List UInt8) : Decidable (PlainAttrName name) :=
  haveI := List.decidableBAll (fun c ↦ isNameChar c ∧ c ≠ ch '=' ∧ c ≠ ch '?') name
  instDecidableAnd

/-- Attributes that can be written: no two have the same name. -/
structure PlainAttrs (attrs : List (List UInt8 × List UInt8)) : Prop where
  names : ∀ a ∈ attrs, PlainAttrName a.1
  values : ∀ a ∈ attrs, PlainString a.2
  nodup : (attrs.map Prod.fst).Nodup

theorem isData_quote : isData (ch '"') := by decide

theorem isData_equal : isData (ch '=') := by decide

/-- The name of an attribute, up to the `=`. -/
theorem attrName_write {c : UInt8} {name : List UInt8} (h : PlainAttrName (c :: name)) (s : List UInt8) :
    attrName c (name ++ ch '=' :: s) = some (some (ch '='), c :: name, s) := by
  obtain ⟨hchars, hhead⟩ := h
  have hquote : isQuote c = false := by simp_all [isPlainHead]
  have hloop (name : List UInt8) (hname : ∀ c ∈ name, isNameChar c ∧ c ≠ ch '=' ∧ c ≠ ch '?')
      (buf : List UInt8) : gather (fun c ↦ mxmlIsspace c || c = ch '=' || c = ch '/' || c = ch '>' || c = ch '?')
        buf (name ++ ch '=' :: s) = some (some (ch '='), buf ++ name, s) := by
    induction name generalizing buf with
    | nil => rw [List.nil_append, gather_cons isData_equal, if_pos (by decide), List.append_nil]
    | cons c name ih =>
      obtain ⟨hc, heq, hq⟩ := hname c List.mem_cons_self
      obtain ⟨hdata, hspace, -, hgt, hslash, hamp⟩ := isNameChar_iff.1 hc
      rw [List.cons_append, gather_cons hdata, if_neg (by simp [hspace, heq, hslash, hgt, hq]), if_neg hamp,
        ih (fun d hd ↦ hname d (List.mem_cons_of_mem c hd)), List.append_assoc]
      rfl
  rw [attrName, hquote, if_neg Bool.false_ne_true, hloop name fun d hd ↦ hchars d (List.mem_cons_of_mem c hd)]
  rfl

/-- The value of an attribute, up to the quote behind it. -/
theorem attrValue_write {value : List UInt8} (h : PlainString value) (s : List UInt8) :
    attrValue (ch '"' :: mxmlWriteString value ++ ch '"' :: s) = some (some (ch '"'), value, s) := by
  rw [List.cons_append, attrValue, mxmlStringGetc_cons isData_quote]
  dsimp only
  rw [skipSpace, if_neg (by decide)]
  dsimp only
  rw [if_pos (by decide), gather_writeString (by decide) h fun c _ hc ↦ decide_eq_false hc,
    gather_cons isData_quote, if_pos (decide_eq_true rfl), List.nil_append]

/-- A new attribute stands behind the others. -/
theorem mxmlElementSetAttr_new {node : MxmlNode} {name : List UInt8}
    (h : mxmlElementGetAttr node name = none) (value : List UInt8) :
    mxmlElementSetAttr node name value = { node with attrs := node.attrs ++ [(name, value)] } := by
  have hnone : node.attrs.findIdx? (isAttr name) = none := by
    rw [mxmlElementGetAttr, Option.map_eq_none_iff, List.find?_eq_none] at h
    rw [List.findIdx?_eq_none_iff]
    intro a ha
    exact Bool.eq_false_iff.2 (h a ha)
  rw [mxmlElementSetAttr, FirstMatch.upsert_of_findIdx? hnone]

/-- An attribute that is written is read. -/
theorem parseAttr_write {node : MxmlNode} {c : UInt8} {name : List UInt8} (hname : PlainAttrName (c :: name))
    (hnew : mxmlElementGetAttr node (c :: name) = none) {value : List UInt8} (hvalue : PlainString value)
    (s : List UInt8) :
    parseAttr node c (name ++ ch '=' :: ch '"' :: mxmlWriteString value ++ ch '"' :: s) =
      some ({ node with attrs := node.attrs ++ [(c :: name, value)] }, some (ch '"'), s) := by
  rw [parseAttr, List.append_assoc, List.cons_append, attrName_write hname]
  dsimp only [Option.bind_some]
  rw [hnew, Option.isSome_none, if_neg Bool.false_ne_true, skipSpace, if_neg (by decide)]
  dsimp only
  rw [if_pos rfl, attrValue_write hvalue, Option.map_some, mxmlElementSetAttr_new hnew]

/-- White space that separates attributes. -/
def IsSep (c : UInt8) : Prop := c = ch ' ' ∨ c = ch '\n'

theorem IsSep.isData {c : UInt8} (h : IsSep c) : isData c := by
  rcases h with rfl | rfl <;> decide

theorem IsSep.isSpace {c : UInt8} (h : IsSep c) : mxmlIsspace c := by
  rcases h with rfl | rfl <;> decide

/-- A name that is written as it is. -/
theorem mxmlWriteName_of_isPlainHead {name : List UInt8} (h : isPlainHead name) : mxmlWriteName name = name := by
  cases name with
  | nil => rfl
  | cons c name =>
    have hquote : isQuote c = false := by simp_all [isPlainHead]
    rw [mxmlWriteName, hquote, if_neg Bool.false_ne_true]

/-- The text of the attributes of an element. -/
theorem mxmlWriteAttrs_cons (name value : List UInt8) (attrs : List (List UInt8 × List UInt8)) (col : ℕ) :
    ∃ sep col', IsSep sep ∧ (mxmlWriteAttrs ((name, value) :: attrs) col).1 = sep ::
      (mxmlWriteName name ++ ch '=' :: ch '"' :: mxmlWriteString value ++ ch '"' ::
        (mxmlWriteAttrs attrs col').1) := by
  rw [mxmlWriteAttrs]
  dsimp only
  split
  · exact ⟨_, _, .inr rfl, rfl⟩
  · exact ⟨_, _, .inl rfl, rfl⟩

/-- One attribute. -/
theorem mxmlParseElement_attr {node : MxmlNode} {name value : List UInt8} (hname : PlainAttrName name)
    (hnew : mxmlElementGetAttr node name = none) (hvalue : PlainString value) (s : List UInt8) :
    mxmlParseElement node (name ++ ch '=' :: ch '"' :: mxmlWriteString value ++ ch '"' :: s) =
      mxmlParseElement { node with attrs := node.attrs ++ [(name, value)] } s := by
  cases name with
  | nil => exact absurd hname.2 Bool.false_ne_true
  | cons c name =>
    obtain ⟨hc, heq, hq⟩ := hname.1 c List.mem_cons_self
    obtain ⟨hdata, hspace, hlt, hgt, hslash, hamp⟩ := isNameChar_iff.1 hc
    rw [List.cons_append, List.cons_append, mxmlParseElement_cons hdata, hspace, if_neg Bool.false_ne_true,
      if_neg (by simp [hslash, hq]), if_neg hlt, if_neg hgt, parseAttr_write hname hnew hvalue]
    dsimp only
    rw [if_neg (by decide), if_neg (by decide)]

/-- **The attributes that are written are read**, one by one, behind those that were read. -/
theorem mxmlParseElement_attrs {attrs : List (List UInt8 × List UInt8)}
    (hattrs : ∀ a ∈ attrs, PlainAttrName a.1 ∧ PlainString a.2) (node : MxmlNode)
    (hnodup : ((node.attrs ++ attrs).map Prod.fst).Nodup) (col : ℕ) (s : List UInt8) :
    mxmlParseElement node ((mxmlWriteAttrs attrs col).1 ++ s) =
      mxmlParseElement { node with attrs := node.attrs ++ attrs } s := by
  induction attrs generalizing node col with
  | nil =>
    rw [mxmlWriteAttrs]
    dsimp only
    rw [List.nil_append, List.append_nil]
    cases node
    rfl
  | cons a attrs ih =>
    obtain ⟨name, value⟩ := a
    obtain ⟨hname, hvalue⟩ := hattrs _ List.mem_cons_self
    obtain ⟨sep, col', hsep, hwrite⟩ := mxmlWriteAttrs_cons name value attrs col
    have hnew : mxmlElementGetAttr node name = none := by
      rw [mxmlElementGetAttr, Option.map_eq_none_iff, List.find?_eq_none]
      intro a ha hattr
      rw [isAttr, beq_iff_eq] at hattr
      rw [List.map_append, List.nodup_append] at hnodup
      exact hnodup.2.2 _ (List.mem_map_of_mem ha) name (by simp) hattr
    have hnext := ih (fun a ha ↦ hattrs a (List.mem_cons_of_mem _ ha))
      { node with attrs := node.attrs ++ [(name, value)] }
      (by rwa [List.append_assoc, List.singleton_append]) col'
    rw [hwrite, mxmlWriteName_of_isPlainHead hname.2, List.cons_append, mxmlParseElement_cons hsep.isData,
      if_pos hsep.isSpace, List.append_assoc, List.cons_append, mxmlParseElement_attr hname hnew hvalue, hnext,
      List.append_assoc, List.singleton_append]

/-! ### Tags -/

theorem isData_slash : isData (ch '/') := by decide

theorem isData_gt : isData (ch '>') := by decide

theorem isData_lt : isData (ch '<') := by decide

theorem tagEnd_gt (s : List UInt8) : tagEnd (ch '>' :: s) = some s := by
  rw [tagEnd, mxmlStringGetc_cons isData_gt]
  exact if_pos rfl

/-- The end of an empty element. -/
theorem mxmlParseElement_empty (node : MxmlNode) (s : List UInt8) :
    mxmlParseElement node (text " />" ++ s) = some (ch '/', node, s) := by
  have htext : text " />" ++ s = ch ' ' :: ch '/' :: ch '>' :: s := rfl
  rw [htext, mxmlParseElement_cons (by decide), if_pos (by decide), mxmlParseElement_cons isData_slash,
    if_neg (by decide), if_pos (by decide), tagEnd_gt]
  rfl

/-- The end of an open tag. -/
theorem mxmlParseElement_open (node : MxmlNode) (s : List UInt8) :
    mxmlParseElement node (text ">" ++ s) = some (ch '>', node, s) := by
  have htext : text ">" ++ s = ch '>' :: s := rfl
  rw [htext, mxmlParseElement_cons isData_gt, if_neg (by decide), if_neg (by decide), if_neg (by decide),
    if_pos rfl]

/-- A name, up to white space or `>`. -/
theorem gatherTag_plainName {name : List UInt8} (h : PlainName name) {c : UInt8} (hdata : isData c)
    (hc : mxmlIsspace c || c = ch '>') (s : List UInt8) :
    gatherTag [] (name ++ c :: s) = some (some c, name, s) := by
  obtain ⟨hchars, hhead⟩ := h
  cases name with
  | nil => exact absurd hhead Bool.false_ne_true
  | cons d name =>
    obtain ⟨hd, hspace, hlt, hgt, hslash, hamp⟩ := isNameChar_iff.1 (hchars d List.mem_cons_self)
    obtain ⟨⟨hq, hbang⟩, -⟩ : (d ≠ ch '?' ∧ d ≠ ch '!') ∧ isQuote d = false := by simp_all [isPlainHead]
    rw [List.cons_append, gatherTag_cons hd, if_neg (by simp [hspace, hgt]), if_neg hlt, if_neg hamp,
      List.nil_append, isTagStart_eq_false hq hbang, if_neg Bool.false_ne_true,
      gatherTag_name hq hbang fun e he ↦ hchars e (List.mem_cons_of_mem d he), List.nil_append,
      gatherTag_cons hdata, if_pos (by rw [hc, Bool.true_or])]

/-- A tag with such a name is an open tag. -/
theorem loadTag_open {name : List UInt8} (h : PlainName name) {s rest : List UInt8} {c : Option UInt8}
    (hg : gatherTag [] s = some (c, name, rest)) (st : MxmlLoad) : loadTag st s = loadOpen st c name rest := by
  obtain ⟨hchars, hhead⟩ := h
  cases name with
  | nil => exact absurd hhead Bool.false_ne_true
  | cons d name =>
    obtain ⟨-, -, -, -, hslash, -⟩ := isNameChar_iff.1 (hchars d List.mem_cons_self)
    obtain ⟨⟨hq, hbang⟩, -⟩ : (d ≠ ch '?' ∧ d ≠ ch '!') ∧ isQuote d = false := by simp_all [isPlainHead]
    have h2 : text "!--" = ch '!' :: text "--" := rfl
    have h3 : text "![CDATA[" = ch '!' :: text "[CDATA[" := rfl
    rw [loadTag, hg]
    dsimp only
    rw [if_neg (by simp [h2, hbang]), if_neg (by simp [h3, hbang]), if_neg (by simp [hq]),
      if_neg (by simp [hbang]), if_neg (by simp [hslash])]

theorem mxmlParseElement_new (name : List UInt8) (s : List UInt8) {attrs : List (List UInt8 × List UInt8)}
    (hattrs : PlainAttrs attrs) (col : ℕ) :
    mxmlParseElement (.new name) ((mxmlWriteAttrs attrs col).1 ++ s) =
      mxmlParseElement ⟨name, attrs, []⟩ s :=
  mxmlParseElement_attrs (fun a ha ↦ ⟨hattrs.names a ha, hattrs.values a ha⟩) (.new name) hattrs.nodup col s

section Tags

variable {name : List UInt8} (hname : PlainName name) (st : MxmlLoad) (s : List UInt8)

include hname

theorem loadTag_gt : loadTag st (name ++ ch '>' :: s) = .more (st.descend (.new name)) s := by
  rw [loadTag_open hname (gatherTag_plainName hname isData_gt (by decide) s), loadOpen, if_neg (by decide),
    if_neg (by decide), opened, if_neg (by decide)]

theorem loadTag_sep {c d : UInt8} (hsep : IsSep d) {node : MxmlNode} {rest : List UInt8}
    (h : mxmlParseElement (.new name) (d :: s) = some (c, node, rest)) :
    loadTag st (name ++ d :: s) = opened st c node rest := by
  have hspace : mxmlIsspace d || decide (d = ch '>') := by rw [hsep.isSpace, Bool.true_or]
  rw [mxmlParseElement_cons hsep.isData, if_pos hsep.isSpace] at h
  rw [loadTag_open hname (gatherTag_plainName hname hsep.isData hspace s), loadOpen, if_pos hsep.isSpace, h]

variable {attrs : List (List UInt8 × List UInt8)} (hattrs : PlainAttrs attrs) (col : ℕ)

include hattrs

/-- **The tag of an empty element.** -/
theorem loadTag_empty : loadTag st (name ++ ((mxmlWriteAttrs attrs col).1 ++ (text " />" ++ s))) =
    .more (st.add (.element name attrs [])) s := by
  have hparse := mxmlParseElement_new name (text " />" ++ s) hattrs col
  rw [mxmlParseElement_empty] at hparse
  obtain ⟨d, rest, htext, hsep⟩ : ∃ d rest,
      (mxmlWriteAttrs attrs col).1 ++ (text " />" ++ s) = d :: rest ∧ IsSep d := by
    cases attrs with
    | nil => exact ⟨_, _, rfl, .inl rfl⟩
    | cons a attrs =>
      obtain ⟨sep, col', hsep, hwrite⟩ := mxmlWriteAttrs_cons a.1 a.2 attrs col
      exact ⟨sep, _, by rw [hwrite, List.cons_append], hsep⟩
  rw [htext] at hparse ⊢
  rw [loadTag_sep hname st rest hsep hparse, opened, if_pos rfl]

/-- **The open tag of an element.** -/
theorem loadTag_nonempty : loadTag st (name ++ ((mxmlWriteAttrs attrs col).1 ++ (text ">" ++ s))) =
    .more (st.descend ⟨name, attrs, []⟩) s := by
  cases attrs with
  | nil => exact loadTag_gt hname st s
  | cons a attrs =>
    have hparse := mxmlParseElement_new name (text ">" ++ s) hattrs col
    obtain ⟨sep, col', hsep, hwrite⟩ := mxmlWriteAttrs_cons a.1 a.2 attrs col
    rw [mxmlParseElement_open] at hparse
    rw [hwrite, List.cons_append] at hparse ⊢
    rw [loadTag_sep hname st _ hsep hparse, opened, if_neg (by decide)]

end Tags

/-- A tag that begins with `/` is a close tag. -/
theorem loadTag_slash {c : Option UInt8} {buf s rest : List UInt8}
    (hg : gatherTag [] s = some (c, ch '/' :: buf, rest)) (st : MxmlLoad) :
    loadTag st s = loadClose st c (ch '/' :: buf) rest := by
  have hbang : ch '/' ≠ ch '!' := by decide
  have hq : ch '/' ≠ ch '?' := by decide
  have h2 : text "!--" = ch '!' :: text "--" := rfl
  have h3 : text "![CDATA[" = ch '!' :: text "[CDATA[" := rfl
  rw [loadTag, hg]
  dsimp only
  rw [if_neg (by simp [h2, hbang]), if_neg (by simp [h3, hbang]), if_neg (by simp [hq]),
    if_neg (by simp [hbang]), if_pos (by simp)]

/-- **The close tag of an element.** -/
theorem loadTag_close {name : List UInt8} (hname : ∀ c ∈ name, isNameChar c) {st : MxmlLoad} {parent : MxmlOpen}
    {parents : List MxmlOpen} (hst : st.parents = parent :: parents) (hparent : parent.name = name)
    (s : List UInt8) : loadTag st (ch '/' :: mxmlWriteString name ++ ch '>' :: s) =
      .more ({ st with parents := parents }.add parent.content) s := by
  have hg : gatherTag [] (ch '/' :: mxmlWriteString name ++ ch '>' :: s) =
      some (some (ch '>'), ch '/' :: name, s) := by
    rw [List.cons_append, gatherTag_cons isData_slash, if_neg (by decide), if_neg (by decide),
      if_neg (by decide), if_neg (by decide), List.nil_append,
      gatherTag_writeString (by decide) (by decide) hname, List.nil_append, gatherTag_cons isData_gt,
      if_pos (by simp)]
  rw [loadTag_slash hg, loadClose, hst]
  dsimp only
  rw [List.tail_cons, if_pos hparent.symm, skipTag, if_pos rfl]

/-! ### Nodes -/

/-- A text is read apart from the node behind it: white space alone is read in front of a tag only, and a text
behind another one begins with white space. -/
def Apart : MxmlContent → List MxmlContent → Prop
  | .element .., _ => True
  | .text _ string, .text whitespace _ :: _ => string ≠ [] ∧ whitespace
  | .text whitespace string, _ => string ≠ [] ∨ whitespace

mutual

/-- A node that can be written. -/
def PlainNode : MxmlContent → Prop
  | .element name attrs child => PlainName name ∧ PlainAttrs attrs ∧ PlainNodes child
  | .text _ string => ∀ c ∈ string, isData c ∧ mxmlIsspace c = false

/-- Nodes next to each other that can be written. -/
def PlainNodes : List MxmlContent → Prop
  | [] => True
  | node :: next => PlainNode node ∧ Apart node next ∧ PlainNodes next

end

/-- Inside of a node, with nothing read of a text. -/
def inside (parent : MxmlOpen) (parents : List MxmlOpen) (first : Option MxmlContent) : MxmlLoad :=
  ⟨parent :: parents, first, false, []⟩

/-- The parent with another child. -/
def MxmlOpen.push (parent : MxmlOpen) (nodes : List MxmlContent) : MxmlOpen :=
  { parent with child := parent.child ++ nodes }

/-- What the next node needs: white space that is written, and read as white space in front of the text. -/
def Joins (st : MxmlLoad) (col : ℕ) : List MxmlContent → Prop
  | .text true _ :: _ => (st.buffer ≠ [] ∨ st.whitespace = false) ∧ 0 < col
  | .text false _ :: _ => st.buffer = [] ∧ st.whitespace = false
  | _ => True

theorem loadText_of_isData {c : UInt8} (hspace : mxmlIsspace c = false) (hlt : c ≠ ch '<') (st : MxmlLoad) :
    loadText st c = st := by
  simp [loadText, hspace, hlt]

/-- The characters of a text. -/
theorem mxmlLoadData_writeString {v : List UInt8} (hv : ∀ c ∈ v, isData c ∧ mxmlIsspace c = false)
    (st : MxmlLoad) (s : List UInt8) :
    mxmlLoadData st (mxmlWriteString v ++ s) = mxmlLoadData { st with buffer := st.buffer ++ v } s := by
  induction v generalizing st with
  | nil => rw [List.append_nil]; rfl
  | cons c v ih =>
    obtain ⟨hc, hspace⟩ := hv c List.mem_cons_self
    have hstep (s : List UInt8) : mxmlLoadData st (mxmlWriteChar c ++ s) =
        mxmlLoadData { st with buffer := st.buffer ++ [c] } s := by
      rcases mxmlWriteChar_cases c with ⟨entity, hentity, hwrite⟩ | ⟨hwrite, hamp, hlt, -⟩
      · rw [hwrite, List.cons_append, mxmlLoadData_cons isData_amp, loadChar,
          loadText_of_isData (by decide) (by decide), if_neg (by decide), if_pos rfl, List.append_assoc,
          List.singleton_append, mxmlGetEntity_getName hentity]
        dsimp only
        rw [mxmlAddChar_toNat]
      · rw [hwrite, List.singleton_append, mxmlLoadData_cons hc, loadChar, loadText_of_isData hspace hlt,
          if_neg hlt, if_neg hamp, hspace, if_neg Bool.false_ne_true, mxmlAddChar_toNat]
    rw [mxmlWriteString, List.flatMap_cons, List.append_assoc, hstep, ← mxmlWriteString,
      ih fun d hd ↦ hv d (List.mem_cons_of_mem c hd)]
    simp

/-- White space in front of a text. -/
theorem loadChar_sep {c : UInt8} (hsep : IsSep c) {st : MxmlLoad} {parent : MxmlOpen}
    {parents : List MxmlOpen} {first : Option MxmlContent}
    (hst : loadText st (ch '<') = inside parent parents first)
    (h : st.buffer ≠ [] ∨ st.whitespace = false) (s : List UInt8) :
    loadChar st c s = .more ⟨parent :: parents, first, true, []⟩ s := by
  have hlt : c ≠ ch '<' := by rcases hsep with rfl | rfl <;> decide
  have hamp : c ≠ ch '&' := by rcases hsep with rfl | rfl <;> decide
  have htext : loadText st c = { loadText st (ch '<') with whitespace := true } := by
    have hne : mxmlIsspace (ch '<') = false := by decide
    cases hb : st.buffer with
    | nil =>
      have hw : st.whitespace = false := h.resolve_left (not_not_intro hb)
      simp [loadText, hb, hw, hsep.isSpace, hlt, hne]
    | cons d buf => simp [loadText, hb, hsep.isSpace, hlt, hne]
  rw [loadChar, htext, if_neg hlt, if_neg hamp, if_pos hsep.isSpace, hst]
  rfl

/-- A text that is read, when a tag comes. -/
theorem loadText_inside {whitespace : Bool} {string : List UInt8} (h : string ≠ [] ∨ whitespace)
    (parent : MxmlOpen) (parents : List MxmlOpen) (first : Option MxmlContent) :
    loadText ⟨parent :: parents, first, whitespace, string⟩ (ch '<') =
      inside (parent.push [.text whitespace string]) parents first := by
  have hne : mxmlIsspace (ch '<') = false := by decide
  cases string with
  | nil =>
    have hw : whitespace = true := h.resolve_left (not_not_intro rfl)
    simp [loadText, hw, hne, MxmlLoad.add, inside, MxmlOpen.push]
  | cons d buf => simp [loadText, hne, MxmlLoad.add, inside, MxmlOpen.push]

/-- Nothing that is read, when a tag comes. -/
theorem loadText_inside_nil (parent : MxmlOpen) (parents : List MxmlOpen) (first : Option MxmlContent) :
    loadText (inside parent parents first) (ch '<') = inside parent parents first := by
  have hne : mxmlIsspace (ch '<') = false := by decide
  simp [loadText, inside, hne]

/-- The loop in front of a tag. -/
theorem mxmlLoadData_lt (st : MxmlLoad) {st' : MxmlLoad} {s rest : List UInt8}
    (h : loadTag (loadText st (ch '<')) s = .more st' rest) :
    mxmlLoadData st (ch '<' :: s) = mxmlLoadData st' rest := by
  rw [mxmlLoadData_cons isData_lt, loadChar, if_pos rfl, h]

/-- An element is read from its text on. -/
def ReadsNode (node : MxmlContent) : Prop :=
  ∀ (st : MxmlLoad) (parents : List MxmlOpen) (first : Option MxmlContent) (col : ℕ) (s : List UInt8),
    loadText st (ch '<') = ⟨parents, first, false, []⟩ →
    mxmlLoadData st ((mxmlWriteNode node col).1 ++ s) =
      mxmlLoadData (MxmlLoad.add ⟨parents, first, false, []⟩ node) s

/-- The nodes next to each other, where a text may be unfinished at the end. -/
def ReadsNodes (nodes : List MxmlContent) : Prop :=
  ∀ (st : MxmlLoad) (parent : MxmlOpen) (parents : List MxmlOpen) (first : Option MxmlContent) (col : ℕ)
    (s : List UInt8), loadText st (ch '<') = inside parent parents first → Joins st col nodes →
    ∃ st', mxmlLoadData st ((mxmlWriteNodes nodes col).1 ++ s) = mxmlLoadData st' s ∧
      loadText st' (ch '<') = inside (parent.push nodes) parents first

/-- A name of an element is neither raw nor special. -/
theorem PlainName.special {name : List UInt8} (h : PlainName name) :
    isRawName name = false ∧ isSpecialName name = false := by
  obtain ⟨-, hhead⟩ := h
  cases name with
  | nil => exact absurd hhead Bool.false_ne_true
  | cons d name =>
    obtain ⟨⟨hq, hbang⟩, -⟩ : (d ≠ ch '?' ∧ d ≠ ch '!') ∧ isQuote d = false := by simp_all [isPlainHead]
    have h2 : text "!--" = ch '!' :: text "--" := rfl
    have h3 : text "![CDATA[" = ch '!' :: text "[CDATA[" := rfl
    have hne : (ch '!' == d) = false := beq_eq_false_iff_ne.2 hbang.symm
    simp [isRawName, isSpecialName, h2, h3, hq, hbang, List.isPrefixOf, hne]

section Element

variable {name : List UInt8} (hname : PlainName name) (attrs : List (List UInt8 × List UInt8))
  (child : List MxmlContent) (col : ℕ)

include hname

theorem mxmlWriteNode_empty : (mxmlWriteNode (.element name attrs []) col).1 =
    ch '<' :: (name ++ ((mxmlWriteAttrs attrs (col + (name.length + 1))).1 ++ text " />")) := by
  rw [mxmlWriteNode, hname.special.1, hname.special.2, mxmlWriteName_of_isPlainHead hname.2]
  simp

theorem mxmlWriteNode_nonempty (hchild : child ≠ []) : ∃ col', 0 < col' ∧
    (mxmlWriteNode (.element name attrs child) col).1 =
      ch '<' :: (name ++ ((mxmlWriteAttrs attrs (col + (name.length + 1))).1 ++ (text ">" ++
        ((mxmlWriteNodes child col').1 ++ (text "</" ++ mxmlWriteString name ++ text ">"))))) := by
  refine ⟨_, Nat.succ_pos (mxmlWriteAttrs attrs (col + (name.length + 1))).2, ?_⟩
  rw [mxmlWriteNode, hname.special.1, hname.special.2, mxmlWriteName_of_isPlainHead hname.2]
  simp [hchild]

theorem mxmlWriteNode_col_pos : 0 < (mxmlWriteNode (.element name attrs child) col).2 := by
  rw [mxmlWriteNode, hname.special.1, hname.special.2]
  cases child <;> simp

end Element

/-- Behind a tag nothing is read of a text. -/
theorem joins_inside (parent : MxmlOpen) (parents : List MxmlOpen) (first : Option MxmlContent) {col : ℕ}
    (hcol : 0 < col) (nodes : List MxmlContent) : Joins (inside parent parents first) col nodes := by
  rw [Joins.eq_def]
  split
  · exact ⟨.inr rfl, hcol⟩
  · exact ⟨rfl, rfl⟩
  · trivial

/-- The text of a text. -/
theorem mxmlWriteNode_text (string : List UInt8) {col : ℕ} (hcol : 0 < col) :
    ∃ sep, IsSep sep ∧ (mxmlWriteNode (.text true string) col).1 = sep :: mxmlWriteString string := by
  rw [mxmlWriteNode]
  simp only [Bool.true_and, decide_eq_true hcol, if_true]
  split
  · exact ⟨_, .inr rfl, rfl⟩
  · exact ⟨_, .inl rfl, rfl⟩

/-- Behind a text, another one can be read that begins with white space. -/
theorem joins_text {whitespace : Bool} {string : List UInt8} {next : List MxmlContent}
    (h : Apart (.text whitespace string) next) (parent : MxmlOpen) (parents : List MxmlOpen)
    (first : Option MxmlContent) (col : ℕ) :
    Joins ⟨parent :: parents, first, whitespace, string⟩ (mxmlWriteNode (.text whitespace string) col).2
      next := by
  rw [Joins.eq_def]
  split
  · refine ⟨.inl h.1, ?_⟩
    rw [mxmlWriteNode]
    exact Nat.add_pos_right _ (List.length_pos_iff.2 h.1)
  · exact absurd h.2 Bool.false_ne_true
  · trivial

theorem Apart.readable {whitespace : Bool} {string : List UInt8} {next : List MxmlContent}
    (h : Apart (.text whitespace string) next) : string ≠ [] ∨ whitespace := by
  rw [Apart.eq_def] at h
  split at h
  · next heq => cases heq
  · next heq =>
    cases heq
    exact .inl h.1
  · next heq _ =>
    cases heq
    exact h

/-- A text that is written is read, but for the tag that ends it. -/
theorem readsText {whitespace : Bool} {string : List UInt8} {next : List MxmlContent}
    (hplain : PlainNode (.text whitespace string)) {st : MxmlLoad} {parent : MxmlOpen}
    {parents : List MxmlOpen} {first : Option MxmlContent} {col : ℕ}
    (hst : loadText st (ch '<') = inside parent parents first)
    (hjoins : Joins st col (.text whitespace string :: next)) (s : List UInt8) :
    mxmlLoadData st ((mxmlWriteNode (.text whitespace string) col).1 ++ s) =
      mxmlLoadData ⟨parent :: parents, first, whitespace, string⟩ s := by
  cases whitespace with
  | true =>
    obtain ⟨hpending, hcol⟩ := hjoins
    obtain ⟨sep, hsep, hwrite⟩ := mxmlWriteNode_text string hcol
    rw [hwrite, List.cons_append, mxmlLoadData_cons hsep.isData, loadChar_sep hsep hst hpending]
    exact mxmlLoadData_writeString hplain _ s
  | false =>
    obtain ⟨hbuffer, hwhitespace⟩ := hjoins
    obtain rfl : st = inside parent parents first := by
      have hne : mxmlIsspace (ch '<') = false := by decide
      rw [← hst]
      simp [loadText, hbuffer, hwhitespace, hne]
    have hwrite : (mxmlWriteNode (.text false string) col).1 = mxmlWriteString string := by
      rw [mxmlWriteNode]
      rfl
    rw [hwrite]
    exact mxmlLoadData_writeString hplain _ s

theorem endTag_append (name s : List UInt8) : text "</" ++ mxmlWriteString name ++ text ">" ++ s =
    ch '<' :: (ch '/' :: mxmlWriteString name ++ ch '>' :: s) := by
  have h1 : text "</" = [ch '<', ch '/'] := rfl
  have h2 : text ">" = [ch '>'] := rfl
  simp [h1, h2]

mutual

/-- **An element that is written is read.** -/
theorem readsNode : ∀ {node : MxmlContent}, PlainNode node → (∀ w s, node ≠ .text w s) → ReadsNode node
  | .text w s, _, hne => absurd rfl (hne w s)
  | .element name attrs child, hplain, _ => by
    obtain ⟨hname, hattrs, hchild⟩ := hplain
    intro st parents first col s hst
    by_cases hempty : child = []
    · rw [hempty, mxmlWriteNode_empty hname, List.cons_append, List.append_assoc, List.append_assoc]
      refine mxmlLoadData_lt st ?_
      rw [hst, loadTag_empty hname _ s hattrs]
    · obtain ⟨col', hcol, hwrite⟩ := mxmlWriteNode_nonempty hname attrs child col hempty
      obtain ⟨st', hread, hst'⟩ := readsNodes hchild (inside ⟨name, attrs, []⟩ parents first)
        ⟨name, attrs, []⟩ parents first col' (text "</" ++ mxmlWriteString name ++ text ">" ++ s)
        (loadText_inside_nil _ _ _) (joins_inside _ _ _ hcol child)
      have hopen := loadTag_nonempty hname ⟨parents, first, false, []⟩
        ((mxmlWriteNodes child col').1 ++ (text "</" ++ mxmlWriteString name ++ text ">" ++ s)) hattrs
        (col + (name.length + 1))
      have hparents : (loadText st' (ch '<')).parents = ⟨name, attrs, child⟩ :: parents := by
        rw [hst']
        rfl
      have hclose := loadTag_close hname.1 hparents rfl s
      rw [hwrite, List.cons_append, List.append_assoc, List.append_assoc, List.append_assoc, List.append_assoc,
        mxmlLoadData_lt st (by rw [hst]; exact hopen), endTag_append]
      rw [endTag_append] at hread
      refine hread.trans ((mxmlLoadData_lt st' hclose).trans ?_)
      rw [hst']
      rfl

/-- **Nodes that are written are read.** -/
theorem readsNodes : ∀ {nodes : List MxmlContent}, PlainNodes nodes → ReadsNodes nodes
  | [], _ => by
    intro st parent parents first col s hst _
    exact ⟨st, rfl, by rw [hst]; simp [MxmlOpen.push]⟩
  | node :: next, hplain => by
    obtain ⟨hnode, hapart, hnext⟩ := hplain
    intro st parent parents first col s hst hjoins
    have hgo {st' : MxmlLoad} (hread : mxmlLoadData st ((mxmlWriteNode node col).1 ++
          ((mxmlWriteNodes next (mxmlWriteNode node col).2).1 ++ s)) =
          mxmlLoadData st' ((mxmlWriteNodes next (mxmlWriteNode node col).2).1 ++ s))
        (hst' : loadText st' (ch '<') = inside (parent.push [node]) parents first)
        (hjoins' : Joins st' (mxmlWriteNode node col).2 next) :
        ∃ st', mxmlLoadData st ((mxmlWriteNodes (node :: next) col).1 ++ s) = mxmlLoadData st' s ∧
          loadText st' (ch '<') = inside (parent.push (node :: next)) parents first := by
      obtain ⟨st'', hread', hst''⟩ := readsNodes hnext st' _ parents first _ s hst' hjoins'
      refine ⟨st'', ?_, ?_⟩
      · rw [mxmlWriteNodes, List.append_assoc]
        exact hread.trans hread'
      · rw [hst'']
        simp [MxmlOpen.push]
    cases node with
    | element name attrs child =>
      exact hgo (readsNode hnode (fun _ _ h ↦ by cases h) st (parent :: parents) first col _ hst)
        (loadText_inside_nil _ _ _) (joins_inside _ _ _ (mxmlWriteNode_col_pos hnode.1 attrs child col) next)
    | text whitespace string =>
      exact hgo (readsText hnode hst hjoins _) (loadText_inside hapart.readable parent parents first)
        (joins_text hapart parent parents first col)

end

/-! ### Documents -/

/-- The names of processing instructions that can be written. -/
def PlainDirective (name : List UInt8) : Prop :=
  ∃ body, name = ch '?' :: (body ++ [ch '?']) ∧ ∀ c ∈ body, isData c ∧ c ≠ ch '>'

/-- The documents that can be written: a processing instruction that is not closed with the nodes under it, of
which the last is not white space alone, or an element. -/
def PlainDocument : MxmlContent → Prop
  | .element name attrs child =>
    PlainDirective name ∧ attrs = [] ∧ PlainNodes child ∧ child.getLast? ≠ some (.text true []) ∨
      PlainNode (.element name attrs child)
  | .text .. => False

theorem isData_question : isData (ch '?') := by decide

/-- A processing instruction, without a parent. -/
theorem loadTag_directive {name : List UInt8} (h : PlainDirective name) (first : Option MxmlContent)
    (s : List UInt8) :
    loadTag ⟨[], first, false, []⟩ (name ++ ch '>' :: s) = .more (inside ⟨name, [], []⟩ [] first) s := by
  obtain ⟨body, rfl, hbody⟩ := h
  have hq : text "?" = [ch '?'] := rfl
  have hne : ch '?' ≠ ch '>' := by decide
  have hraw (body : List UInt8) (hbody : ∀ c ∈ body, isData c ∧ c ≠ ch '>') (buf : List UInt8) :
      gatherRaw (text "?").isSuffixOf buf (body ++ ch '?' :: ch '>' :: s) =
        some (buf ++ (body ++ [ch '?']), s) := by
    induction body generalizing buf with
    | nil =>
      rw [List.nil_append, gatherRaw_cons isData_question, if_neg (by simp [hne]), gatherRaw_cons isData_gt,
        if_pos (by simp [hq])]
      rfl
    | cons c body ih =>
      obtain ⟨hc, hgt⟩ := hbody c List.mem_cons_self
      rw [List.cons_append, gatherRaw_cons hc, if_neg (by simp [hgt]),
        ih (fun d hd ↦ hbody d (List.mem_cons_of_mem c hd))]
      simp
  have hg (s : List UInt8) : gatherTag [] (ch '?' :: s) = some (some (ch '?'), [ch '?'], s) := by
    rw [gatherTag_cons isData_question, if_neg (by decide), if_neg (by decide), if_neg (by decide),
      if_pos (by decide)]
    rfl
  rw [List.cons_append, List.append_assoc, loadTag, hg]
  dsimp only
  rw [if_neg (by decide), if_neg (by decide), if_pos (by decide), List.singleton_append, hraw body hbody]
  rfl

/-- The end of the line behind a document. -/
theorem mxmlLoadData_newline (st : MxmlLoad) :
    mxmlLoadData st [ch '\n'] = (loadText st (ch '\n')).result := by
  have hnl : isData (ch '\n') := by decide
  rw [mxmlLoadData_cons hnl, loadChar, if_neg (by decide), if_neg (by decide), if_pos (by decide)]
  dsimp only
  rw [mxmlLoadData.eq_def]
  rfl

/-- What is returned then for a node that is open, if white space alone is not its last child. -/
theorem result_newline {st : MxmlLoad} {parent : MxmlOpen} {first : Option MxmlContent}
    (hst : loadText st (ch '<') = inside parent [] first)
    (hlast : parent.child.getLast? ≠ some (.text true [])) :
    (loadText st (ch '\n')).result = some parent.content := by
  have hlt : mxmlIsspace (ch '<') = false := by decide
  have hnl : ch '\n' ≠ ch '<' := by decide
  have hspace : mxmlIsspace (ch '\n') = true := by decide
  have hparents : (loadText st (ch '\n')).parents = (loadText st (ch '<')).parents := by
    cases hb : st.buffer with
    | nil =>
      cases hw : st.whitespace with
      | false => simp [loadText, hb, hw, hlt, hnl, hspace]
      | true =>
        -- white space alone would be the last child
        have hadd : loadText st (ch '<') = { st.add (.text true []) with whitespace := false } := by
          simp [loadText, hb, hw, hlt]
        rw [hst] at hadd
        cases hps : st.parents with
        | nil => simp [MxmlLoad.add, hps, inside] at hadd
        | cons q qs =>
          simp only [MxmlLoad.add, hps, inside, MxmlLoad.mk.injEq, List.cons.injEq] at hadd
          rw [hadd.1.1] at hlast
          simp at hlast
    | cons d buf => simp [loadText, hb, hlt, hnl, hspace]
  rw [MxmlLoad.result, hparents, hst]
  rfl

/-- The column behind nodes of which the last is not white space alone. -/
theorem mxmlWriteNodes_col_pos {nodes : List MxmlContent} (h : PlainNodes nodes)
    (hlast : nodes.getLast? ≠ some (.text true [])) {col : ℕ} (hcol : nodes = [] → 0 < col) :
    0 < (mxmlWriteNodes nodes col).2 := by
  induction nodes generalizing col with
  | nil => exact hcol rfl
  | cons node next ih =>
    obtain ⟨hnode, hapart, hnext⟩ := h
    rw [mxmlWriteNodes]
    refine ih hnext (fun hl ↦ hlast ?_) fun hnil ↦ ?_
    · cases next with
      | nil => cases hl
      | cons node' next => rw [List.getLast?_cons_cons, hl]
    · subst hnil
      cases node with
      | element name attrs child => exact mxmlWriteNode_col_pos hnode.1 attrs child col
      | text whitespace string =>
        cases string with
        | nil =>
          obtain rfl : whitespace = true := hapart.readable.resolve_left (not_not_intro rfl)
          exact absurd rfl hlast
        | cons d string =>
          rw [mxmlWriteNode]
          exact Nat.add_pos_right _ (Nat.succ_pos _)

/-- The text of a processing instruction with nodes under it. -/
theorem mxmlWriteNode_directive {name : List UInt8} (h : PlainDirective name) (child : List MxmlContent)
    (col : ℕ) : ∃ col', 0 < col' ∧ mxmlWriteNode (.element name [] child) col =
      (ch '<' :: (name ++ ch '>' :: (mxmlWriteNodes child col').1), (mxmlWriteNodes child col').2) := by
  obtain ⟨body, rfl, -⟩ := h
  have hraw : isRawName (ch '?' :: (body ++ [ch '?'])) := rfl
  have hspecial : isSpecialName (ch '?' :: (body ++ [ch '?'])) := Bool.or_true _
  have hgt : text ">" = [ch '>'] := rfl
  refine ⟨_, Nat.succ_pos (col + ((ch '?' :: (body ++ [ch '?'])).length + 1)), ?_⟩
  rw [mxmlWriteNode, hraw, hspecial]
  cases child <;> simp [mxmlWriteAttrs, mxmlWriteNodes, hgt]

/-- **A document that is written is read.** -/
theorem mxmlLoadString_mxmlSaveText {doc : MxmlContent} (h : PlainDocument doc) :
    mxmlLoadString (mxmlSaveText doc) = some doc := by
  cases doc with
  | text => exact h.elim
  | element name attrs child =>
    have hinit : loadText ⟨[], none, false, []⟩ (ch '<') = ⟨[], none, false, []⟩ := by rfl
    rcases h with ⟨hname, rfl, hchild, hlast⟩ | hplain
    · obtain ⟨col, hcol, hwrite⟩ := mxmlWriteNode_directive hname child 0
      have hpos := mxmlWriteNodes_col_pos hchild hlast fun _ ↦ hcol
      obtain ⟨st, hread, hst⟩ := readsNodes hchild (inside ⟨name, [], []⟩ [] none) _ [] none col [ch '\n']
        (loadText_inside_nil _ _ _) (joins_inside _ _ _ hcol child)
      have hopen := loadTag_directive hname none ((mxmlWriteNodes child col).1 ++ [ch '\n'])
      rw [mxmlSaveText, hwrite, if_pos hpos, List.cons_append, List.append_assoc, List.cons_append, mxmlLoadString,
        mxmlLoadData_lt _ (by rw [hinit]; exact hopen), hread, mxmlLoadData_newline,
        result_newline hst (by simpa [MxmlOpen.push] using hlast)]
      rfl
    · have hpos := mxmlWriteNode_col_pos hplain.1 attrs child 0
      rw [mxmlSaveText, if_pos hpos, mxmlLoadString, readsNode hplain (fun _ _ h ↦ by cases h) _ [] none 0 _ hinit,
        mxmlLoadData_newline]
      rfl

/-! ### The text as a C string -/

theorem plainString_append {s t : List UInt8} : PlainString (s ++ t) ↔ PlainString s ∧ PlainString t :=
  List.forall_mem_append

theorem plainString_cons {c : UInt8} {s : List UInt8} :
    PlainString (c :: s) ↔ isData c ∧ PlainString s :=
  List.forall_mem_cons

theorem plainString_writeString {s : List UInt8} (h : PlainString s) : PlainString (mxmlWriteString s) := by
  intro d hd
  obtain ⟨c, hc, hd⟩ := List.mem_flatMap.1 hd
  rcases mxmlWriteChar_cases c with ⟨name, hname, hwrite⟩ | ⟨hwrite, -⟩
  · have hplain : PlainString (ch '&' :: (name ++ [ch ';'])) :=
      plainString_cons.2 ⟨isData_amp, plainString_append.2 ⟨fun e he ↦
      (isEntityChar_data ((entityChar_getName hname).1 e he)).1,
        fun e he ↦ by rw [List.mem_singleton.1 he]; exact isData_semicolon⟩⟩
    rw [hwrite] at hd
    exact hplain d hd
  · rw [hwrite, List.mem_singleton] at hd
    rw [hd]
    exact h c hc

theorem PlainName.plainString {name : List UInt8} (h : PlainName name) : PlainString name :=
  fun c hc ↦ (isNameChar_iff.1 (h.1 c hc)).1

theorem plainString_writeAttrs {attrs : List (List UInt8 × List UInt8)} (h : PlainAttrs attrs) (col : ℕ) :
    PlainString (mxmlWriteAttrs attrs col).1 := by
  obtain ⟨hnames, hvalues, -⟩ := h
  induction attrs generalizing col with
  | nil => exact fun c hc ↦ absurd hc (by simp [mxmlWriteAttrs])
  | cons a attrs ih =>
    obtain ⟨sep, col', hsep, hwrite⟩ := mxmlWriteAttrs_cons a.1 a.2 attrs col
    have hname := hnames a List.mem_cons_self
    rw [hwrite, mxmlWriteName_of_isPlainHead hname.2, plainString_cons, plainString_append, plainString_append,
      plainString_cons, plainString_cons, plainString_cons]
    exact ⟨hsep.isData, ⟨fun c hc ↦ (isNameChar_iff.1 (hname.1 c hc).1).1, isData_equal, isData_quote,
      plainString_writeString (hvalues a List.mem_cons_self)⟩, isData_quote,
      ih _ (fun b hb ↦ hnames b (List.mem_cons_of_mem a hb)) fun b hb ↦ hvalues b (List.mem_cons_of_mem a hb)⟩

theorem plainString_ends : PlainString (text " />") ∧ PlainString (text ">") ∧ PlainString (text "</") := by
  decide

mutual

theorem plainString_writeNode : ∀ {node : MxmlContent}, PlainNode node → ∀ col : ℕ,
    PlainString (mxmlWriteNode node col).1
  | .element name attrs child, hplain, col => by
    obtain ⟨hname, hattrs, hchild⟩ := hplain
    obtain ⟨hempty, hgt, hend⟩ := plainString_ends
    by_cases hnil : child = []
    · rw [hnil, mxmlWriteNode_empty hname, plainString_cons, plainString_append, plainString_append]
      exact ⟨isData_lt, hname.plainString, plainString_writeAttrs hattrs _, hempty⟩
    · obtain ⟨col', -, hwrite⟩ := mxmlWriteNode_nonempty hname attrs child col hnil
      rw [hwrite]
      simp only [plainString_cons, plainString_append]
      exact ⟨isData_lt, hname.plainString, plainString_writeAttrs hattrs _, hgt, plainString_writeNodes hchild _,
        ⟨hend, plainString_writeString hname.plainString⟩, hgt⟩
  | .text whitespace string, hplain, col => by
    have hstring := plainString_writeString fun c hc ↦ (hplain c hc).1
    rw [mxmlWriteNode, plainString_append]
    refine ⟨fun c hc ↦ ?_, hstring⟩
    split_ifs at hc
    · rw [List.mem_singleton.1 hc]
      decide
    · rw [List.mem_singleton.1 hc]
      decide
    · cases hc

theorem plainString_writeNodes : ∀ {nodes : List MxmlContent}, PlainNodes nodes → ∀ col : ℕ,
    PlainString (mxmlWriteNodes nodes col).1
  | [], _, col => fun c hc ↦ absurd hc (by simp [mxmlWriteNodes])
  | node :: next, hplain, col => by
    rw [mxmlWriteNodes]
    exact plainString_append.2 ⟨plainString_writeNode hplain.1 _, plainString_writeNodes hplain.2.2 _⟩

end

theorem plainString_mxmlSaveText {doc : MxmlContent} (h : PlainDocument doc) :
    PlainString (mxmlSaveText doc) := by
  have hnl : PlainString [ch '\n'] := by decide
  have hwrite : PlainString (mxmlWriteNode doc 0).1 := by
    cases doc with
    | text => exact h.elim
    | element name attrs child =>
      rcases h with ⟨hname, rfl, hchild, -⟩ | hplain
      · obtain ⟨col, -, hwrite⟩ := mxmlWriteNode_directive hname child 0
        obtain ⟨body, rfl, hbody⟩ := hname
        rw [hwrite]
        simp only [plainString_cons, plainString_append]
        exact ⟨isData_lt, ⟨isData_question, fun c hc ↦ (hbody c hc).1, isData_question, by simp [PlainString]⟩,
          isData_gt, plainString_writeNodes hchild _⟩
      · exact plainString_writeNode hplain 0
  rw [mxmlSaveText]
  split
  · exact plainString_append.2 ⟨hwrite, hnl⟩
  · exact hwrite

/-- What `mxmlSaveString` leaves in a buffer, as a C string. -/
theorem cstr_mxmlSaveString {doc : MxmlContent} (h : PlainDocument doc) (rest : List UInt8) (k : ℕ) :
    cstr ((mxmlSaveText doc).take k ++ 0 :: rest) = (mxmlSaveText doc).take k :=
  cstr_append_zero (fun h0 ↦ absurd (plainString_mxmlSaveText h 0 (List.mem_of_mem_take h0)) (by decide)) rest

/-- **A document goes through a buffer**: what `mxmlSaveString` puts there, `mxmlLoadString` reads. What is
behind the buffer is left alone. -/
theorem mxmlLoadString_mxmlSaveString {doc : MxmlContent} (h : PlainDocument doc) {buffer : List UInt8}
    {bufsize : ℕ} (hfits : (mxmlSaveText doc).length < bufsize) (hsize : bufsize ≤ buffer.length) :
    ∃ buffer', mxmlSaveString doc buffer bufsize =
        some ((BitVec.ofNat 32 (mxmlSaveText doc).length).toInt, buffer') ∧
      mxmlLoadString (cstr buffer') = some doc ∧ buffer'.drop bufsize = buffer.drop bufsize := by
  refine ⟨_, mxmlSaveString_eq doc (by omega) hsize, ?_, ?_⟩
  · rw [patch, List.take_zero, List.nil_append, List.append_assoc, List.singleton_append,
      cstr_mxmlSaveString h, List.take_of_length_le (by omega), mxmlLoadString_mxmlSaveText h]
  · rw [patch, List.take_zero, List.nil_append, List.take_of_length_le (by omega), List.drop_append,
      List.drop_of_length_le (by simp; omega), List.nil_append, List.drop_drop]
    congr 1
    simp
    omega

/-- A document with texts and with the characters that have entities. -/
theorem mxmlLoadString_mxmlSaveString_texts :
    ∃ buffer, mxmlLoadString (cstr buffer) = some (.element (text "?xml?") []
      [.element (text "a") [(text "b", text "<&\">")] [.text false (text "x"), .text true (text "&")]]) := by
  have hstring : PlainString (text "<&\">") := by decide
  have hplain : PlainNodes [.element (text "a") [(text "b", text "<&\">")]
      [.text false (text "x"), .text true (text "&")]] := by
    refine ⟨⟨by decide, ⟨?_, ?_, by decide⟩, ?_, ⟨by decide, rfl⟩, ?_, .inl (by decide), trivial⟩, trivial, trivial⟩
    · exact fun a ha ↦ List.mem_singleton.1 ha ▸ (by decide : PlainAttrName (text "b"))
    · exact fun a ha ↦ List.mem_singleton.1 ha ▸ hstring
    · rw [PlainNode]
      exact forall_mem_of_all (by decide)
    · rw [PlainNode]
      exact forall_mem_of_all (by decide)
  have hdoc : PlainDocument (.element (text "?xml?") [] [.element (text "a") [(text "b", text "<&\">")]
      [.text false (text "x"), .text true (text "&")]]) :=
    .inl ⟨⟨text "xml", rfl, forall_mem_of_all (by decide)⟩, rfl, hplain, fun h ↦ by cases h⟩
  have hsize : 80 ≤ (List.replicate 100 (0 : UInt8)).length := by
    decide
  obtain ⟨buffer, -, hload, -⟩ := mxmlLoadString_mxmlSaveString hdoc (by decide +kernel) hsize
  exact ⟨buffer, hload⟩

end Sunda
