import MarketCapture.Processor.Eligibility

/-! # Eligible payloads that are no objects

Eligibility is meant to be syntax: a payload is audited if it is an object of RFC 8259. The parse
keeps to that but for a byte order mark in front, bytes behind the object, and the numbers of the
typed fields that the reader takes for another type.
-/

namespace MarketCapture

open Simdjson JsonText JsonValidation

/-- One object in any spacing, within the limit on open containers. -/
def IsObjectText (text : Bytes) : Prop :=
  ∃ leading opened members closed, Spaces leading ∧
    text = leading ++ (Node.object opened members closed).text ∧
    (Node.object opened members closed).WellFormed ∧
    (Node.object opened members closed).depth ≤ maxJsonNestingDepth

/-- What is wrong with a payload that is passed as these fields with something behind them. -/
inductive Slip (payload : Bytes) (fields : List Member) (trailing : Bytes) : Prop
  | mark (h : byteOrderMark <+: payload)
  | trailing (h : trailing ≠ [])
  | number {m : Member} {token : Bytes} (mem : m ∈ fields) (value : m.value = .number token [])
      (h : ¬IsNumber token)

/-- A payload that is passed although it is no object. -/
def Slips (k : Kernel) (venue : PayloadVenue) (kind : StreamKind) (payload : Bytes) : Prop :=
  ∃ leading opened fields closed trailing,
    PassableText k venue kind (removeUtf8Bom payload) leading opened fields closed trailing ∧
      Slip payload fields trailing

section Validity

variable {k : Kernel} {venue : PayloadVenue} {kind : StreamKind} {marked : List DepthField}

/-! ## Number tokens -/

mutual

/-- A token of a compact value that starts like a number is one. -/
theorem number_token_node (node : Node) (h : node.WellFormed) {token : Bytes}
    (hmem : token ∈ node.strip.tokens) (htype : typeOf token = .ok .number) : IsNumber token := by
  match node with
  | .null _ =>
      obtain rfl : token = _ := by simpa [Node.strip, Node.tokens] using hmem
      cases htype
  | .bool value _ =>
      obtain rfl : token = _ := by simpa [Node.strip, Node.tokens] using hmem
      cases value <;> cases htype
  | .number number _ =>
      obtain rfl : token = number := by simpa [Node.strip, Node.tokens] using hmem
      exact h.1
  | .string _ _ =>
      obtain rfl : token = _ := by simpa [Node.strip, Node.tokens] using hmem
      cases htype
  | .array _ items _ =>
      simp only [Node.WellFormed] at h
      simp only [Node.strip, Node.tokens, List.mem_cons, List.mem_append, List.not_mem_nil,
        or_false] at hmem
      rcases hmem with rfl | hmem | rfl
      · cases htype
      · exact number_token_items items h.2.1 hmem htype
      · cases htype
  | .object _ members _ =>
      simp only [Node.WellFormed] at h
      simp only [Node.strip, Node.tokens, List.mem_cons, List.mem_append, List.not_mem_nil,
        or_false] at hmem
      rcases hmem with rfl | hmem | rfl
      · cases htype
      · exact number_token_members members h.2.1 hmem htype
      · cases htype

theorem number_token_items (items : Items) (h : items.WellFormed) {token : Bytes}
    (hmem : token ∈ items.strip.tokens) (htype : typeOf token = .ok .number) : IsNumber token := by
  match items with
  | .nil => simp [Items.strip, Items.tokens] at hmem
  | .cons value _ rest =>
      simp only [Items.WellFormed] at h
      simp only [Items.strip, Items.tokens, List.mem_append] at hmem
      rcases hmem with hmem | hmem
      · exact number_token_node value h.1 hmem htype
      · split at hmem
        · cases hmem
        · rcases List.mem_cons.mp hmem with rfl | hmem
          · cases htype
          · exact number_token_items rest h.2.2 hmem htype

theorem number_token_members (members : Members) (h : members.WellFormed) {token : Bytes}
    (hmem : token ∈ members.strip.tokens) (htype : typeOf token = .ok .number) :
    IsNumber token := by
  match members with
  | .nil => simp [Members.strip, Members.tokens] at hmem
  | .cons key _ _ value _ rest =>
      simp only [Members.WellFormed] at h
      obtain ⟨-, -, -, hvalue, -, hrest⟩ := h
      simp only [Members.strip, Members.tokens, List.mem_append, List.mem_cons] at hmem
      rcases hmem with rfl | rfl | hmem | hmem
      · cases htype
      · cases htype
      · exact number_token_node value hvalue hmem htype
      · split at hmem
        · cases hmem
        · rcases List.mem_cons.mp hmem with rfl | hmem
          · cases htype
          · exact number_token_members rest hrest hmem htype

end

theorem mem_tokens {fields : List Member} {m : Member} {token : Bytes} (hmem : m ∈ fields)
    (hvalue : m.value = .number token []) : token ∈ (Members.ofList fields).tokens := by
  induction fields with
  | nil => cases hmem
  | cons m' rest ih =>
      simp only [Members.ofList, Members.tokens, List.mem_cons, List.mem_append]
      rcases List.mem_cons.mp hmem with rfl | hrest
      · refine .inr (.inr (.inl ?_))
        rw [hvalue]
        simp [Node.tokens]
      · refine .inr (.inr (.inr ?_))
        rw [Members.ofList_isNil, List.isEmpty_eq_false_iff.mpr (List.ne_nil_of_mem hrest),
          if_neg Bool.false_ne_true]
        exact List.mem_cons_of_mem _ (ih hrest)

/-! ## One reading -/

theorem passableMembers_of_wellFormed {fields : List Member} (hwell : ∀ m ∈ fields, m.WellFormed)
    (htrailed : ∀ m ∈ fields, ¬Trailed m.value)
    (hdepth : ∀ m ∈ fields, m.value.depth + rootFieldContainerDepth ≤ maxJsonNestingDepth + 1) :
    PassableMembers k venue kind marked fields := by
  induction fields generalizing marked with
  | nil => trivial
  | cons m rest ih =>
      obtain ⟨hkey, hkeyAfter, hcolonAfter, hvalue, hcommaAfter⟩ := hwell m List.mem_cons_self
      exact ⟨hkey, hkeyAfter, hcolonAfter, hcommaAfter,
        .inl ⟨hvalue, htrailed m List.mem_cons_self, hdepth m List.mem_cons_self⟩,
        ih (fun m' hm => hwell m' (List.mem_cons_of_mem _ hm))
          (fun m' hm => htrailed m' (List.mem_cons_of_mem _ hm))
          (fun m' hm => hdepth m' (List.mem_cons_of_mem _ hm))⟩

/-- Fields within the limit are those of an object within the limit. -/
theorem nested_iff (fields : List Member) :
    (∀ m ∈ fields, m.value.depth + rootFieldContainerDepth ≤ maxJsonNestingDepth + 1) ↔
      (Members.ofList fields).depth + 1 ≤ maxJsonNestingDepth := by
  have hlimit : (Members.ofList fields).depth + 1 ≤ maxJsonNestingDepth ↔
      (Members.ofList fields).depth ≤ maxJsonNestingDepth - 1 := by
    simp only [maxJsonNestingDepth]
    omega
  rw [hlimit, Members.ofList_depth_le]
  refine forall₂_congr fun m _ => ?_
  simp only [rootFieldContainerDepth, maxJsonNestingDepth]
  omega

/-- The fields are valid if the numbers among them are. -/
theorem PassableMembers.wellFormed {fields : List Member}
    (h : PassableMembers k venue kind marked fields)
    (hnumbers : ∀ m ∈ fields, ∀ token, m.value = .number token [] → IsNumber token) :
    ∀ m ∈ fields, m.WellFormed ∧
      m.value.depth + rootFieldContainerDepth ≤ maxJsonNestingDepth + 1 := by
  induction fields generalizing marked with
  | nil => simp
  | cons m rest ih =>
      obtain ⟨hkey, hkeyAfter, hcolonAfter, hcommaAfter, hnode, hrest⟩ := h
      obtain ⟨hnumber, hnumbers⟩ := List.forall_mem_cons.mp hnumbers
      refine List.forall_mem_cons.mpr ⟨?_, ih hrest hnumbers⟩
      rcases hnode with ⟨hwell, -, hdepth⟩ | ⟨-, token, hvalue, -, -⟩
      · exact ⟨⟨hkey, hkeyAfter, hcolonAfter, hwell, hcommaAfter⟩, hdepth⟩
      · rw [Member.WellFormed, hvalue]
        exact ⟨⟨hkey, hkeyAfter, hcolonAfter, ⟨hnumber token hvalue, spaces_nil⟩, hcommaAfter⟩,
          show 0 + rootFieldContainerDepth ≤ maxJsonNestingDepth + 1 by decide⟩

/-- A number among the fields starts like one. -/
theorem PassableMembers.number_type {fields : List Member}
    (h : PassableMembers k venue kind marked fields) {m : Member} {token : Bytes}
    (hmem : m ∈ fields) (hvalue : m.value = .number token []) : typeOf token = .ok .number := by
  induction fields generalizing marked with
  | nil => cases hmem
  | cons m' rest ih =>
      obtain ⟨-, -, -, -, hnode, hrest⟩ := h
      rcases List.mem_cons.mp hmem with rfl | hmem
      · rcases hnode with ⟨hwell, -, -⟩ | ⟨-, token', hloose, -, hnumber⟩
        · rw [hvalue] at hwell
          have htype : typeOf (token ++ []) = .ok .number := typeOf_number hwell.1
          rwa [List.append_nil] at htype
        · obtain ⟨rfl, -⟩ := Node.number.inj (hvalue.symm.trans hloose)
          exact typeOf_loose hnumber
      · exact ih hrest hmem

section Tokens

variable {text leading opened closed trailing leading' opened' closed' : Bytes}
variable {fields fields' : List Member}

theorem segments_ne_nil {rest : Bytes} (hne : rest ≠ [])
    (hspace : ∀ b ∈ rest.head?, isSpace b = false) : segments k rest ≠ [] := by
  obtain ⟨b, tail, rfl⟩ := List.exists_cons_of_ne_nil hne
  have hstarts := Scan.starts_start (k := k) (hspace b rfl)
  simp [segments, Scan.cut, hstarts]

/-- Members are read in one way: their closing brace is the first one that the iteration stops at. -/
theorem members_read_once (h : PassableMembers k venue kind marked fields)
    (h' : PassableMembers k venue kind marked fields') {rest rest' : List Bytes}
    (heq : (Members.ofList fields).tokens ++ (125 :: closed) :: rest =
      (Members.ofList fields').tokens ++ (125 :: closed') :: rest') :
    (Members.ofList fields).tokens = (Members.ofList fields').tokens ∧ rest = rest' := by
  have hrest : rest = rest' := by
    by_cases hnil : fields = [] <;> by_cases hnil' : fields' = []
    · subst hnil hnil'
      exact (List.cons.inj heq).2
    · have hsees := sees_members hnil' ((125 :: closed') :: rest')
      rw [← heq, hnil] at hsees
      cases hsees
    · have hsees := sees_members hnil ((125 :: closed) :: rest)
      rw [heq, hnil'] at hsees
      cases hsees
    · obtain ⟨fuel, hfuel, hfuel'⟩ : ∃ fuel, 2 * (Members.ofList fields).tokens.length + 1 ≤ fuel ∧
          2 * (Members.ofList fields').tokens.length + 1 ≤ fuel :=
        ⟨_, Nat.le_max_left _ _, Nat.le_max_right _ _⟩
      obtain ⟨answer, hread, -⟩ : ∃ answer, fieldsAt fuel ((Members.ofList fields).tokens ++
          (125 :: closed) :: rest) = (answer, some rest) ∧ Traversed venue kind marked answer :=
        fieldsAt_passable h hnil fuel hfuel
      obtain ⟨answer', hread', -⟩ : ∃ answer, fieldsAt fuel ((Members.ofList fields').tokens ++
          (125 :: closed') :: rest') = (answer, some rest') ∧ Traversed venue kind marked answer :=
        fieldsAt_passable h' hnil' fuel hfuel'
      rw [heq, hread', Prod.mk.injEq, Option.some.injEq] at hread
      exact hread.2.symm
  subst hrest
  exact ⟨(List.append_inj' heq rfl).1, rfl⟩

theorem PassableText.read_once
    (h : PassableText k venue kind text leading opened fields closed trailing)
    (h' : PassableText k venue kind text leading' opened' fields' closed' []) :
    (Members.ofList fields).tokens = (Members.ofList fields').tokens ∧ trailing = [] := by
  have heq := h.segments_eq.symm.trans h'.segments_eq
  obtain ⟨htokens, hrest⟩ := members_read_once h.fields h'.fields (List.cons.inj heq).2
  refine ⟨htokens, ?_⟩
  by_contra hne
  exact segments_ne_nil hne h.trailing hrest

end Tokens

/-! ## Objects -/

/-- A compact text of an object is that of its members without whitespace. -/
theorem IsObjectText.compact {text : Bytes} (h : IsObjectText text)
    (hcompact : Quoting.significant {} text = text) :
    ∃ members : Members, members.WellFormed ∧ members.depth + 1 ≤ maxJsonNestingDepth ∧
      text = (Node.object [] members.strip []).text := by
  obtain ⟨leading, opened, members, closed, hleading, htext, hwell, hdepth⟩ := h
  refine ⟨members, ?_, by simpa [Node.depth] using hdepth, ?_⟩
  · simp only [Node.WellFormed] at hwell
    exact hwell.2.1
  · have hpasses := (Passes.spaces hleading).append (passes_node _ hwell)
    have hsignificant := hpasses.significant []
    rw [List.append_nil, ← htext, hcompact] at hsignificant
    simpa [Quoting.significant, Node.strip] using hsignificant

theorem not_trailed_toList (members : Members) :
    ∀ m ∈ members.strip.toList, ¬Trailed m.value := by
  rw [Members.strip_toList]
  intro m hm
  obtain ⟨m', -, rfl⟩ := List.mem_map.mp hm
  exact not_trailed_strip m'.value

/-- The parse passes every object, as the members that it has. -/
theorem passable_of_members (k : Kernel) (venue : PayloadVenue) (kind : StreamKind)
    {members : Members} (hwell : members.WellFormed)
    (hdepth : members.depth + 1 ≤ maxJsonNestingDepth) :
    PassableText k venue kind (Node.object [] members.strip []).text [] []
      members.strip.toList [] [] := by
  have hfields : Members.ofList members.strip.toList = members.strip :=
    Members.ofList_toList members.strip
  have hstrip := members.strip_wellFormed hwell
  have hpasses := passes_members members.strip hstrip
  refine ⟨by rw [hfields]; simp, spaces_nil, spaces_nil, spaces_nil, by simp, ?_, ?_, ?_⟩
  · refine passableMembers_of_wellFormed ?_ (not_trailed_toList members) ?_
    · rwa [← Members.ofList_wellFormed, hfields]
    · rwa [nested_iff, hfields, members.strip_depth]
  · refine Lexable.of_passes (passes_node _ ?_)
    simp only [Node.WellFormed]
    exact ⟨spaces_nil, hstrip, spaces_nil⟩
  · refine ⟨123 :: members.strip.text, [], by simp [Node.text], spaces_nil, ?_⟩
    have hopened : Quoting.run {} ([123] ++ members.strip.text) = {} := by
      rw [Quoting.run_append]
      exact hpasses.run
    exact congrArg Quoting.inString hopened

theorem removeUtf8Bom_object (members : Members) :
    removeUtf8Bom (Node.object [] members []).text = (Node.object [] members []).text :=
  removeUtf8Bom_of_head (by decide)

/-- What is passed without a slip is an object. -/
theorem isObjectText_of_passable {payload leading opened closed trailing : Bytes}
    {fields : List Member}
    (h : PassableText k venue kind (removeUtf8Bom payload) leading opened fields closed trailing)
    (hslip : ¬Slip payload fields trailing) : IsObjectText payload := by
  have hmark : removeUtf8Bom payload = payload := by
    rw [removeUtf8Bom, if_neg fun hmark => hslip (.mark hmark)]
  have htrailing : trailing = [] := by
    by_contra hne
    exact hslip (.trailing hne)
  have hfields := h.fields.wellFormed fun m hm token hvalue => by
    by_contra hno
    exact hslip (.number hm hvalue hno)
  refine ⟨leading, opened, Members.ofList fields, closed, h.leading, ?_, ?_, ?_⟩
  · have htext := h.text_eq
    rwa [hmark, htrailing, List.append_nil] at htext
  · simp only [Node.WellFormed]
    exact ⟨h.opened, (Members.ofList_wellFormed fields).mpr fun m hm => (hfields m hm).1, h.closed⟩
  · rw [Node.depth]
    exact (nested_iff fields).mp fun m hm => (hfields m hm).2

/-- A payload that slips through is no object. -/
theorem Slips.not_object {payload : Bytes} (h : Slips k venue kind payload)
    (hcompact : Quoting.significant {} payload = payload) : ¬IsObjectText payload := by
  intro hobject
  obtain ⟨members, hwell, hdepth, rfl⟩ := hobject.compact hcompact
  obtain ⟨leading, opened, fields, closed, trailing, hpass, hslip⟩ := h
  rw [removeUtf8Bom_object] at hpass
  obtain ⟨htokens, htrailing⟩ :=
    hpass.read_once (passable_of_members k venue kind hwell hdepth)
  cases hslip with
  | mark hmark =>
      obtain ⟨rest, hrest⟩ := hmark
      cases hrest
  | trailing hne => exact hne htrailing
  | number hmem hvalue hno =>
      have htype := hpass.fields.number_type hmem hvalue
      have htoken := mem_tokens hmem hvalue
      rw [htokens, Members.ofList_toList] at htoken
      exact hno (number_token_members members hwell htoken htype)

/-- A payload that slips through is eligible. -/
theorem Slips.eligible {p : SpotPayloadParser} {expectedSymbol payload : Bytes}
    (h : Slips k venue kind payload) (hlength : payload.length ≤ maxPayloadBytes) :
    auditEligible
      (p.parse (Library.ondemand k) venue kind expectedSymbol payload).1.error = true := by
  obtain ⟨leading, opened, fields, closed, trailing, hpass, -⟩ := h
  exact eligible_of_passable hlength hpass

end Validity

/-- When eligibility is syntax: for every kernel, history of the parser, venue, kind and symbol, a
payload without insignificant whitespace within the limit is parsed to an eligible code exactly if
it is an object, unless it slips through. -/
theorem auditEligible_object_iff (k : Kernel) (p : SpotPayloadParser) (venue : PayloadVenue)
    (kind : StreamKind) (expectedSymbol payload : Bytes) (hlength : payload.length ≤ maxPayloadBytes)
    (hcompact : Quoting.significant {} payload = payload) :
    (auditEligible (p.parse (Library.ondemand k) venue kind expectedSymbol payload).1.error = true ↔
      IsObjectText payload) ↔ ¬Slips k venue kind payload := by
  constructor
  · intro hexact hslips
    exact hslips.not_object hcompact (hexact.mp (hslips.eligible hlength))
  · intro hno
    constructor
    · intro heligible
      obtain ⟨-, leading, opened, fields, closed, trailing, hpass⟩ :=
        passable_of_eligible heligible
      refine isObjectText_of_passable hpass fun hslip => hno ?_
      exact ⟨leading, opened, fields, closed, trailing, hpass, hslip⟩
    · intro hobject
      obtain ⟨members, hwell, hdepth, rfl⟩ := hobject.compact hcompact
      have hpass := passable_of_members k venue kind hwell hdepth
      rw [← removeUtf8Bom_object] at hpass
      exact eligible_of_passable hlength hpass

/-- An object with another one behind it. -/
def doubledPayload : Bytes := [123, 125, 123, 125]

theorem doubledPayload_slips : Slips Kernel.x64 .spot .depthDiff doubledPayload := by
  refine ⟨[], [], [], [], [123, 125], ?_, .trailing (by decide)⟩
  refine ⟨rfl, spaces_nil, spaces_nil, spaces_nil, by simp [isSpace], trivial, ?_, ?_⟩
  · have hplain : Passes doubledPayload doubledPayload :=
      Passes.plain (by simp [doubledPayload, isSpace])
    exact Lexable.of_passes hplain
  · exact ⟨[123, 125, 123], [], rfl, spaces_nil, by decide⟩

/-- An object whose first update id is a minus sign and a letter. -/
def misnumberedPayload : Bytes :=
  (objectNode [{ key := ascii "U", value := .number (ascii "-x") [] }]).text

theorem misnumberedPayload_slips : Slips Kernel.x64 .spot .depthDiff misnumberedPayload := by
  have hkey : IsString (ascii "U") := ⟨⟨"U".toList, by decide +kernel⟩, by decide +kernel⟩
  have hname : keyOf { key := ascii "U", value := .number (ascii "-x") [] } = ascii "U" := by
    decide +kernel
  have htoken : Token Kernel.x64 (ascii "-x" ++ []) :=
    token_plain (by decide +kernel) (by decide +kernel) spaces_nil
  have hreads : ReadsNumber .spot .depthDiff [] (ascii "U") :=
    ⟨by decide, .firstUpdateId, by decide +kernel, trivial, by decide⟩
  have hno : ¬IsNumber (ascii "-x") := by
    intro h
    have hbytes := isNumber_bytes h 120 (by decide +kernel)
    cases hbytes
  refine ⟨[], [], [{ key := ascii "U", value := .number (ascii "-x") [] }], [], [], ?_,
    .number List.mem_cons_self rfl hno⟩
  refine ⟨?_, spaces_nil, spaces_nil, spaces_nil, by simp, ?_, ?_, ?_⟩
  · rw [misnumberedPayload, objectNode, removeUtf8Bom_object, List.append_nil, List.nil_append]
  · refine ⟨hkey, spaces_nil, spaces_nil, spaces_nil, ?_, trivial⟩
    rw [hname]
    exact .inr ⟨hreads, ascii "-x", rfl, htoken, .inl (by decide +kernel)⟩
  · exact ⟨by decide +kernel, by decide +kernel, "\x7b\"U\":-x\x7d".toList, by decide +kernel⟩
  · exact ⟨misnumberedPayload.dropLast, [], by decide +kernel, spaces_nil, by decide +kernel⟩

/-- Both are eligible for the audit of a Spot diff stream, and neither is an object. -/
theorem eligible_without_object :
    (doubledPayload.length ≤ maxPayloadBytes ∧
      Quoting.significant {} doubledPayload = doubledPayload ∧
      auditEligible (SpotPayloadParser.parse {} (Library.ondemand Kernel.x64) .spot .depthDiff
        (ascii "BTCUSDT") doubledPayload).1.error = true ∧
      ¬IsObjectText doubledPayload) ∧
    (misnumberedPayload.length ≤ maxPayloadBytes ∧
      Quoting.significant {} misnumberedPayload = misnumberedPayload ∧
      auditEligible (SpotPayloadParser.parse {} (Library.ondemand Kernel.x64) .spot .depthDiff
        (ascii "BTCUSDT") misnumberedPayload).1.error = true ∧
      ¬IsObjectText misnumberedPayload) := by
  have hlength : doubledPayload.length ≤ maxPayloadBytes := by decide
  have hcompact : Quoting.significant {} doubledPayload = doubledPayload := by decide
  have hlength' : misnumberedPayload.length ≤ maxPayloadBytes := by decide +kernel
  have hcompact' : Quoting.significant {} misnumberedPayload = misnumberedPayload := by
    decide +kernel
  exact ⟨⟨hlength, hcompact, doubledPayload_slips.eligible hlength,
      doubledPayload_slips.not_object hcompact⟩,
    ⟨hlength', hcompact', misnumberedPayload_slips.eligible hlength',
      misnumberedPayload_slips.not_object hcompact'⟩⟩

/-- The condition at an object with another one behind it, and at that object alone. -/
theorem auditEligible_object_sample :
    (¬(auditEligible (SpotPayloadParser.parse {} (Library.ondemand Kernel.x64) .spot .depthDiff
        (ascii "BTCUSDT") doubledPayload).1.error = true ↔ IsObjectText doubledPayload) ∧
      Slips Kernel.x64 .spot .depthDiff doubledPayload) ∧
    (auditEligible (SpotPayloadParser.parse {} (Library.ondemand Kernel.x64) .spot .depthDiff
        (ascii "BTCUSDT") [123, 125]).1.error = true ∧ IsObjectText [123, 125] ∧
      ¬Slips Kernel.x64 .spot .depthDiff [123, 125]) := by
  have hobject : IsObjectText [123, 125] :=
    ⟨[], [], .nil, [], spaces_nil, rfl, by simp [Node.WellFormed, Members.WellFormed, spaces_nil],
      by decide⟩
  have hslips : ¬Slips Kernel.x64 .spot .depthDiff [123, 125] :=
    fun h => h.not_object (by decide) hobject
  refine ⟨⟨?_, doubledPayload_slips⟩, ?_, hobject, hslips⟩
  · intro heligible
    exact (auditEligible_object_iff Kernel.x64 {} .spot .depthDiff (ascii "BTCUSDT") doubledPayload
      (by decide) (by decide)).mp heligible doubledPayload_slips
  · exact ((auditEligible_object_iff Kernel.x64 {} .spot .depthDiff (ascii "BTCUSDT") [123, 125]
      (by decide) (by decide)).mpr hslips).mpr hobject

end MarketCapture
