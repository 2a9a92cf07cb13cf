import MarketCapture.Csv.Grammar

/-! # The reader accepts its grammar

A record of the grammar at the front of the bytes is cut there and decoded to its
row; conversely every record returned is one. From this follow the outcome of any
number of calls on any file, however the reads split it, and the round trip of
formatted audit rows.
-/

namespace MarketCapture

open ByteText (intText natText isDigit minus isDecimal_intText isDecimal_natText)

namespace MarketDataReplayReader

/-! ## Cutting a record of the grammar -/

theorem frameBytes_next {state state' : CsvFrameState} {collected : Bytes} {value : UInt8}
    {rest : Bytes} (hroom : collected.length < maxCsvRecordBytes)
    (hstep : frameStep state value = .next state') :
    frameBytes state collected (value :: rest) = frameBytes state' (collected ++ [value]) rest := by
  rw [frameBytes, if_neg (by omega), hstep]

theorem frameBytes_complete {state : CsvFrameState} {collected : Bytes} {value : UInt8}
    {rest : Bytes} (hroom : collected.length < maxCsvRecordBytes)
    (hstep : frameStep state value = .complete) :
    frameBytes state collected (value :: rest) = (.record (collected ++ [value]), rest) := by
  rw [frameBytes, if_neg (by omega), hstep]

/-- An unquoted column with its comma. -/
theorem frameBytes_field (field : Bytes) {state : CsvFrameState} {collected rest : Bytes}
    (hstate : state = .fieldStart ∨ state = .unquoted) (hplain : PlainField field)
    (hroom : collected.length + field.length < maxCsvRecordBytes) :
    frameBytes state collected (field ++ [comma] ++ rest) =
      frameBytes .fieldStart (collected ++ (field ++ [comma])) rest := by
  induction field generalizing state collected with
  | nil =>
      have hstep : frameStep state comma = .next .fieldStart := by
        rcases hstate with rfl | rfl <;> rfl
      exact frameBytes_next (by simpa using hroom) hstep
  | cons b field ih =>
      obtain ⟨hb₁, hb₂, hb₃, hb₄⟩ := hplain b (by simp)
      have hstep : frameStep state b = .next .unquoted := by
        rcases hstate with rfl | rfl <;> simp [frameStep, hb₁, hb₂, hb₄]
      simp only [List.length_cons] at hroom
      rw [List.cons_append, List.cons_append, frameBytes_next (by omega) hstep,
        ih (.inr rfl) (fun x hx => hplain x (by simp [hx])) (by simp; omega)]
      simp

theorem frameBytes_fields (fields : List Bytes) {collected rest : Bytes}
    (hplain : ∀ f ∈ fields, PlainField f)
    (hroom : collected.length + (fields.flatMap (fun f => f ++ [comma])).length ≤
      maxCsvRecordBytes) :
    frameBytes .fieldStart collected (fields.flatMap (fun f => f ++ [comma]) ++ rest) =
      frameBytes .fieldStart (collected ++ fields.flatMap (fun f => f ++ [comma])) rest := by
  induction fields generalizing collected with
  | nil => simp
  | cons field fields ih =>
      rw [List.flatMap_cons, List.length_append, List.length_append, List.length_singleton] at hroom
      rw [List.flatMap_cons, List.append_assoc, frameBytes_field field (.inl rfl)
        (hplain field (by simp)) (by omega), ih (fun f hf => hplain f (by simp [hf]))
        (by simp only [List.length_append, List.length_singleton]; omega)]
      simp

/-- An unquoted last column with its line feed. -/
theorem frameBytes_lastField (field : Bytes) {state : CsvFrameState} {collected rest : Bytes}
    (hstate : state = .fieldStart ∨ state = .unquoted) (hplain : PlainField field)
    (hroom : collected.length + field.length < maxCsvRecordBytes) :
    frameBytes state collected (field ++ lineFeed :: rest) =
      (.record (collected ++ (field ++ [lineFeed])), rest) := by
  induction field generalizing state collected with
  | nil =>
      have hstep : frameStep state lineFeed = .complete := by
        rcases hstate with rfl | rfl <;> rfl
      exact frameBytes_complete (by simpa using hroom) hstep
  | cons b field ih =>
      obtain ⟨hb₁, hb₂, hb₃, hb₄⟩ := hplain b (by simp)
      have hstep : frameStep state b = .next .unquoted := by
        rcases hstate with rfl | rfl <;> simp [frameStep, hb₁, hb₂, hb₄]
      simp only [List.length_cons] at hroom
      rw [List.cons_append, frameBytes_next (by omega) hstep,
        ih (.inr rfl) (fun x hx => hplain x (by simp [hx])) (by simp; omega)]
      simp

/-- The inside of a quoted field up to its closing quote. -/
theorem frameBytes_escaped (payload : Bytes) {collected rest : Bytes}
    (hroom : collected.length + (escaped payload).length < maxCsvRecordBytes) :
    frameBytes .quoted collected (escaped payload ++ quote :: rest) =
      frameBytes .quoteClosed (collected ++ (escaped payload ++ [quote])) rest := by
  induction payload generalizing collected with
  | nil =>
      rw [escaped_nil, List.nil_append, frameBytes_next (by simpa using hroom) rfl]
      simp
  | cons b payload ih =>
      by_cases hb : b = quote
      · subst hb
        rw [escaped_cons_quote, List.length_cons, List.length_cons] at hroom
        rw [escaped_cons_quote, List.cons_append, List.cons_append,
          frameBytes_next (by omega) (rfl : frameStep .quoted quote = .next .quoteClosed),
          frameBytes_next (by simp; omega) (rfl : frameStep .quoteClosed quote = .next .quoted),
          ih (by simp; omega)]
        simp
      · rw [escaped_cons hb, List.length_cons] at hroom
        have hstep : frameStep .quoted b = .next .quoted := by simp [frameStep, hb]
        rw [escaped_cons hb, List.cons_append, frameBytes_next (by omega) hstep,
          ih (by simp; omega)]
        simp

theorem frameBytes_recordText {text rest : Bytes} {row : MarketDataCsvRow}
    (h : RecordText text row) : frameBytes .fieldStart [] (text ++ rest) = (.record text, rest) := by
  obtain ⟨⟨c, rfl, hplain, -⟩, hsize⟩ := h
  have hsplit : c.text row.payloadJson ++ rest = c.list.flatMap (fun f => f ++ [comma]) ++
      (quote :: (escaped row.payloadJson ++ quote :: lineFeed :: rest)) := by
    simp [Columns.text, quotedText]
  have htext : c.text row.payloadJson = (c.list.flatMap (fun f => f ++ [comma]) ++ [quote] ++
      (escaped row.payloadJson ++ [quote])) ++ [lineFeed] := by
    simp [Columns.text, quotedText]
  rw [htext] at hsize
  simp only [List.length_append, List.length_singleton] at hsize
  have hfields : ([] : Bytes).length + (c.list.flatMap (fun f => f ++ [comma])).length ≤
      maxCsvRecordBytes := by
    rw [List.length_nil]
    omega
  rw [hsplit, frameBytes_fields c.list hplain hfields, List.nil_append]
  have hopen : (c.list.flatMap (fun f => f ++ [comma])).length < maxCsvRecordBytes := by omega
  rw [frameBytes_next hopen (rfl : frameStep .fieldStart quote = .next .quoted)]
  have hinside : (c.list.flatMap (fun f => f ++ [comma]) ++ [quote]).length +
      (escaped row.payloadJson).length < maxCsvRecordBytes := by
    rw [List.length_append, List.length_singleton]
    omega
  rw [frameBytes_escaped _ hinside]
  have hend : (c.list.flatMap (fun f => f ++ [comma]) ++ [quote] ++
      (escaped row.payloadJson ++ [quote])).length < maxCsvRecordBytes := by
    simp only [List.length_append, List.length_singleton]
    omega
  rw [frameBytes_complete hend rfl, htext]

/-- A framed record is the front of the bytes, within the limit. -/
theorem frameBytes_record {state : CsvFrameState} {collected bytes text rest : Bytes}
    (h : frameBytes state collected bytes = (.record text, rest))
    (hroom : collected.length ≤ maxCsvRecordBytes) :
    collected ++ bytes = text ++ rest ∧ text.length ≤ maxCsvRecordBytes := by
  induction bytes generalizing state collected with
  | nil =>
      rw [frameBytes] at h
      split at h <;> cases h
  | cons value bytes ih =>
      rw [frameBytes] at h
      split at h
      · cases h
      · have hlen : (collected ++ [value]).length ≤ maxCsvRecordBytes := by simp; omega
        split at h
        · obtain ⟨heq, hle⟩ := ih h hlen
          exact ⟨by simpa using heq, hle⟩
        · obtain ⟨hrec, rfl⟩ := Prod.mk.inj h
          obtain rfl := Framed.record.inj hrec
          exact ⟨by simp, hlen⟩
        · cases h

theorem frameBytes_endOfFile {state : CsvFrameState} {collected bytes rest : Bytes}
    (h : frameBytes state collected bytes = (.endOfFile, rest)) : collected = [] ∧ bytes = [] := by
  induction bytes generalizing state collected with
  | nil =>
      rw [frameBytes] at h
      split at h
      · rename_i hc
        exact ⟨List.length_eq_zero_iff.mp hc, rfl⟩
      · cases h
  | cons value bytes ih =>
      rw [frameBytes] at h
      split at h
      · cases h
      · split at h
        · simpa using (ih h).1
        · cases h
        · cases h

/-! ## One call -/

theorem validateFileSequence_eq_ok {r : MarketDataReplayReader} {row : MarketDataCsvRow}
    {identity : FileIdentity} :
    r.validateFileSequence row = .ok identity ↔
      Follows r.fileIdentity row ∧ identity = .ofRow row := by
  unfold validateFileSequence Follows
  cases r.fileIdentity with
  | none => simp [FileIdentity.ofRow, eq_comm]
  | some file =>
      simp only
      by_cases hv : row.venue = file.venue
      · by_cases hs : row.symbol = file.symbol
        · simp only [hv, hs, ne_eq, not_true_eq_false, ↓reduceIte, true_and]
          split
          · rename_i hlt
            simp only [reduceCtorEq, false_iff, not_and]
            rintro (h | ⟨h, -⟩)
            · exact absurd h (UInt64.lt_asymm hlt)
            · rw [h] at hlt
              exact absurd hlt (UInt64.lt_irrefl _)
          · rename_i hge
            split
            · rename_i heq
              simp only [reduceCtorEq, false_iff, not_and]
              rintro (h | ⟨-, h⟩)
              · rw [heq.1] at h
                exact absurd h (UInt64.lt_irrefl _)
              · exact absurd heq.2 (UInt64.not_le.mpr h)
            · rename_i hseq
              have hlater : file.lastConnectionEpoch < row.connectionEpoch ∨
                  (file.lastConnectionEpoch = row.connectionEpoch ∧
                    file.lastConnectionSequence < row.connectionSequence) := by
                rcases UInt64.lt_or_eq_of_le (UInt64.not_lt.mp hge) with h | h
                · exact .inl h
                · exact .inr ⟨h, UInt64.not_le.mp fun hle => hseq ⟨h.symm, hle⟩⟩
              simp [hlater, FileIdentity.ofRow, hv, hs, eq_comm]
        · simp [hv, hs]
      · simp [hv]

/-- The reader is open, knows this much of the file, and these bytes are to come. -/
structure At (r : MarketDataReplayReader) (file : Option FileIdentity) (content : Bytes) : Prop where
  delivers : r.Delivers content
  error : r.firstError = none
  open_ : r.endOfFile = false
  identity : r.fileIdentity = file

theorem At.of_detached {r r' : MarketDataReplayReader} {file : Option FileIdentity}
    {content rest : Bytes} (h : r.At file content) (hd : r'.Delivers rest)
    (hsame : r'.detached = r.detached) : r'.At file rest := by
  obtain ⟨-, -, -, -, hend, hid, herr⟩ := MarketDataReplayReader.mk.inj hsame
  exact ⟨hd, herr.trans h.error, hend.trans h.open_, hid.trans h.identity⟩

theorem latch_eq {r : MarketDataReplayReader} (h : r.firstError = none) (e : ReplayReadError) :
    r.latch e = (.error e, { r with firstError := some e }) := by
  rw [latch, h]

/-- A record of the grammar is returned as its row. -/
theorem next_record {r : MarketDataReplayReader} {file : Option FileIdentity} {text rest : Bytes}
    {row : MarketDataCsvRow} (h : r.At file (text ++ rest)) (ht : RecordText text row)
    (hf : Follows file row) :
    ∃ r', r.next = (.record row, r') ∧ r'.At (some (.ofRow row)) rest := by
  obtain ⟨r₁, hread, hd, hsame⟩ := readLogicalRecord_spec h.delivers
  rw [frameBytes_recordText ht] at hread hd
  have h₁ := h.of_detached hd hsame
  have hdec : r₁.decodeRecord text = .ok row := decodeRecord_eq_ok.mpr ht.columns
  have hval : r₁.validateFileSequence row = .ok (.ofRow row) :=
    validateFileSequence_eq_ok.mpr ⟨by rw [h₁.identity]; exact hf, rfl⟩
  refine ⟨{ r₁ with record := row, fileIdentity := some (.ofRow row),
                    logicalRecordNumber := r₁.logicalRecordNumber + 1 }, ?_,
    ⟨⟨hd.bytes, hd.clean⟩, h₁.error, h₁.open_, rfl⟩⟩
  rw [next, h.error]
  simp only [h.open_, Bool.false_eq_true, ↓reduceIte, hread, Framed.toLogical,
    acceptRecord, hdec, hval]

/-- What a call can return: a record of the grammar, the end of the bytes, or an
error that is kept. -/
theorem next_cases {r : MarketDataReplayReader} {file : Option FileIdentity} {content : Bytes}
    (h : r.At file content) :
    (∃ text rest row r', content = text ++ rest ∧ RecordText text row ∧ Follows file row ∧
      r.next = (.record row, r') ∧ r'.At (some (.ofRow row)) rest) ∨
    (content = [] ∧ ∃ r', r.next = (.endOfFile, r') ∧ r'.endOfFile = true ∧
      r'.firstError = none) ∨
    ∃ e r', r.next = (.error e, r') ∧ r'.firstError = some e := by
  obtain ⟨r₁, hread, hd, hsame⟩ := readLogicalRecord_spec h.delivers
  have h₁ := h.of_detached hd hsame
  have latched : ∀ (r' : MarketDataReplayReader) (e : ReplayReadError), r'.firstError = none →
      ∃ e' r'', r'.latch e = (.error e', r'') ∧ r''.firstError = some e' :=
    fun r' e herr => ⟨e, _, latch_eq herr e, rfl⟩
  rw [next, h.error]
  simp only [h.open_, Bool.false_eq_true, ↓reduceIte, hread]
  cases hf : frameBytes .fieldStart [] content with
  | mk framed rest =>
      rw [hf] at hd
      cases framed with
      | endOfFile =>
          exact .inr (.inl ⟨(frameBytes_endOfFile hf).2, _, rfl, rfl, h₁.error⟩)
      | error code => exact .inr (.inr (latched _ _ h₁.error))
      | record text =>
          simp only [Framed.toLogical, acceptRecord]
          obtain ⟨hcontent, hsize⟩ := frameBytes_record hf (Nat.zero_le _)
          cases hdec : r₁.decodeRecord text with
          | error e => exact .inr (.inr (latched _ _ h₁.error))
          | ok row =>
              simp only
              cases hval : r₁.validateFileSequence row with
              | error e => exact .inr (.inr (latched _ _ h₁.error))
              | ok identity =>
                  obtain ⟨hfollows, rfl⟩ := validateFileSequence_eq_ok.mp hval
                  exact .inl ⟨text, rest, row, _, hcontent, ⟨decodeRecord_eq_ok.mp hdec, hsize⟩,
                    by simpa [h₁.identity] using hfollows, rfl,
                    ⟨⟨hd.bytes, hd.clean⟩, h₁.error, h₁.open_, rfl⟩⟩

/-! ## Any number of calls -/

/-- The reader after some calls. -/
def after : Nat → MarketDataReplayReader → MarketDataReplayReader
  | 0, r => r
  | k + 1, r => after k r.next.2

/-- The result of the call after `k` others. -/
def call (k : Nat) (r : MarketDataReplayReader) : ReplayRead := (after k r).next.1

theorem next_of_error {r : MarketDataReplayReader} {e : ReplayReadError}
    (h : r.firstError = some e) : r.next = (.error e, r) := by
  rw [next, h]

theorem next_of_endOfFile {r : MarketDataReplayReader} (he : r.firstError = none)
    (h : r.endOfFile = true) : r.next = (.endOfFile, r) := by
  rw [next, he]
  simp [h]

theorem call_of_fixed {r : MarketDataReplayReader} {result : ReplayRead}
    (h : r.next = (result, r)) (k : Nat) : r.call k = result := by
  have hafter : after k r = r := by
    induction k with
    | zero => rfl
    | succ k ih => rw [after, h]; exact ih
  rw [call, hafter, h]

theorem call_succ (k : Nat) (r : MarketDataReplayReader) : r.call (k + 1) = r.next.2.call k := rfl

theorem latch_error (r : MarketDataReplayReader) (e : ReplayReadError) :
    ∃ e', (r.latch e).1 = .error e' ∧ (r.latch e).2.firstError = some e' := by
  unfold latch
  cases h : r.firstError <;> simp [h]

/-- An error is kept by every reader, also by one whose reads fail. -/
theorem next_error_kept {r : MarketDataReplayReader} {e : ReplayReadError}
    (h : r.next.1 = .error e) : r.next.2.firstError = some e := by
  have kept : ∀ (r' : MarketDataReplayReader) (e' : ReplayReadError), (r'.latch e').1 = .error e →
      (r'.latch e').2.firstError = some e := by
    intro r' e' hl
    obtain ⟨e'', h₁, h₂⟩ := latch_error r' e'
    rw [h₁] at hl
    rw [h₂, ReplayRead.error.inj hl]
  unfold next at h ⊢
  cases hfirst : r.firstError with
  | some first =>
      simp only [hfirst] at h ⊢
      rw [ReplayRead.error.inj h]
  | none =>
      simp only [hfirst] at h ⊢
      split at h
      · cases h
      · rename_i hend
        rw [if_neg hend]
        split at h
        · cases h
        · exact kept _ _ h
        · unfold acceptRecord at h ⊢
          split at h
          · exact kept _ _ h
          · split at h
            · exact kept _ _ h
            · cases h

theorem call_error_kept {r : MarketDataReplayReader} {e : ReplayReadError} {i j : Nat}
    (hij : i ≤ j) (h : r.call i = .error e) : r.call j = .error e := by
  induction i generalizing j r with
  | zero =>
      have hkept := next_error_kept h
      cases j with
      | zero => exact h
      | succ j =>
          rw [call_succ]
          exact call_of_fixed (next_of_error hkept) j
  | succ i ih =>
      obtain ⟨j, rfl⟩ := Nat.exists_eq_succ_of_ne_zero (by omega : j ≠ 0)
      rw [call_succ] at h ⊢
      exact ih (by omega) h

theorem call_record_of_parses {r : MarketDataReplayReader} {file : Option FileIdentity}
    {body rest : Bytes} {rows : List MarketDataCsvRow} {row : MarketDataCsvRow}
    (h : r.At file body) (hp : Parses file body (rows ++ [row]) rest) :
    r.call rows.length = .record row := by
  induction rows generalizing r file body with
  | nil =>
      cases hp with
      | cons ht hf _ =>
          obtain ⟨r', heq, -⟩ := next_record h ht hf
          rw [List.length_nil, call, after, heq]
  | cons first rows ih =>
      cases hp with
      | cons ht hf hrest =>
          obtain ⟨r', heq, hat⟩ := next_record h ht hf
          rw [List.length_cons, call_succ, heq]
          exact ih hat hrest

theorem parses_of_call_record {r : MarketDataReplayReader} {file : Option FileIdentity}
    {body : Bytes} {row : MarketDataCsvRow} {k : Nat} (h : r.At file body)
    (hcall : r.call k = .record row) :
    ∃ rows rest, rows.length = k ∧ Parses file body (rows ++ [row]) rest := by
  induction k generalizing r file body with
  | zero =>
      rw [call, after] at hcall
      rcases next_cases h with ⟨text, rest, row', r', rfl, ht, hf, heq, -⟩ | ⟨-, r', heq, -⟩ |
        ⟨e, r', heq, -⟩
      · rw [heq] at hcall
        obtain rfl := ReplayRead.record.inj hcall
        exact ⟨[], rest, rfl, .cons ht hf (.nil _ _)⟩
      · rw [heq] at hcall
        cases hcall
      · rw [heq] at hcall
        cases hcall
  | succ k ih =>
      rw [call_succ] at hcall
      rcases next_cases h with ⟨text, rest, row', r', rfl, ht, hf, heq, hat⟩ |
        ⟨-, r', heq, hend, herr⟩ | ⟨e, r', heq, herr⟩
      · rw [heq] at hcall
        obtain ⟨rows, rest', rfl, hp⟩ := ih hat hcall
        exact ⟨row' :: rows, rest', rfl, .cons ht hf hp⟩
      · rw [heq, call_of_fixed (next_of_endOfFile herr hend)] at hcall
        cases hcall
      · rw [heq, call_of_fixed (next_of_error herr)] at hcall
        cases hcall

theorem at_after_parses {r : MarketDataReplayReader} {file : Option FileIdentity}
    {body rest : Bytes} {rows : List MarketDataCsvRow} (h : r.At file body)
    (hp : Parses file body rows rest) : ∃ file', (after rows.length r).At file' rest := by
  induction hp generalizing r with
  | nil file body => exact ⟨file, h⟩
  | cons ht hf _ ih =>
      obtain ⟨r', heq, hat⟩ := next_record h ht hf
      rw [List.length_cons, after, heq]
      exact ih hat

theorem next_of_empty {r : MarketDataReplayReader} {file : Option FileIdentity}
    (h : r.At file []) : r.next.1 = .endOfFile := by
  obtain ⟨r₁, hread, -⟩ := readLogicalRecord_spec h.delivers
  have hframe : frameBytes .fieldStart [] [] = (.endOfFile, []) := by simp [frameBytes]
  rw [hframe] at hread
  rw [next, h.error]
  simp only [h.open_, Bool.false_eq_true, ↓reduceIte, hread, Framed.toLogical]

theorem call_endOfFile_of_parses {r : MarketDataReplayReader} {file : Option FileIdentity}
    {body : Bytes} {rows : List MarketDataCsvRow} (h : r.At file body)
    (hp : Parses file body rows []) : r.call rows.length = .endOfFile := by
  obtain ⟨file', hat⟩ := at_after_parses h hp
  exact next_of_empty hat

theorem parses_of_call_endOfFile {r : MarketDataReplayReader} {file : Option FileIdentity}
    {body : Bytes} {k : Nat} (h : r.At file body) (hcall : r.call k = .endOfFile) :
    ∃ rows, rows.length ≤ k ∧ Parses file body rows [] := by
  induction k generalizing r file body with
  | zero =>
      rw [call, after] at hcall
      rcases next_cases h with ⟨text, rest, row', r', rfl, ht, hf, heq, -⟩ | ⟨rfl, -⟩ |
        ⟨e, r', heq, -⟩
      · rw [heq] at hcall
        cases hcall
      · exact ⟨[], le_refl _, .nil _ _⟩
      · rw [heq] at hcall
        cases hcall
  | succ k ih =>
      rw [call_succ] at hcall
      rcases next_cases h with ⟨text, rest, row', r', rfl, ht, hf, heq, hat⟩ | ⟨rfl, -⟩ |
        ⟨e, r', heq, herr⟩
      · rw [heq] at hcall
        obtain ⟨rows, hlen, hp⟩ := ih hat hcall
        exact ⟨row' :: rows, Nat.succ_le_succ hlen, .cons ht hf hp⟩
      · exact ⟨[], Nat.zero_le _, .nil _ _⟩
      · rw [heq, call_of_fixed (next_of_error herr)] at hcall
        cases hcall

/-! ## Independence of the reads -/

/-- Two readers that differ only in how their bytes arrive. -/
structure Twin (r₁ r₂ : MarketDataReplayReader) : Prop where
  bytes : ∃ content, r₁.Delivers content ∧ r₂.Delivers content
  same : r₁.detached = r₂.detached

theorem latch_detached (r : MarketDataReplayReader) (e : ReplayReadError) :
    r.detached.latch e = ((r.latch e).1, (r.latch e).2.detached) := by
  have h : r.detached.firstError = r.firstError := rfl
  unfold latch
  rw [h]
  cases r.firstError <;> rfl

theorem acceptRecord_detached (r : MarketDataReplayReader) (text : Bytes) :
    r.detached.acceptRecord text = ((r.acceptRecord text).1, (r.acceptRecord text).2.detached) := by
  have hdec : r.detached.decodeRecord text = r.decodeRecord text := rfl
  unfold acceptRecord
  rw [hdec]
  cases r.decodeRecord text with
  | error e => exact latch_detached r e
  | ok row =>
      have hval : r.detached.validateFileSequence row = r.validateFileSequence row := rfl
      simp only [hval]
      cases r.validateFileSequence row with
      | error e => exact latch_detached { r with record := row } e
      | ok identity => rfl

theorem latch_delivers {r : MarketDataReplayReader} {content : Bytes} (h : r.Delivers content)
    (e : ReplayReadError) : (r.latch e).2.Delivers content := by
  unfold latch
  split <;> exact ⟨h.bytes, h.clean⟩

theorem acceptRecord_delivers {r : MarketDataReplayReader} {content : Bytes}
    (h : r.Delivers content) (text : Bytes) : (r.acceptRecord text).2.Delivers content := by
  unfold acceptRecord
  split
  · exact latch_delivers h _
  · split
    · rename_i row _ _ e _
      exact latch_delivers (r := { r with record := row }) ⟨h.bytes, h.clean⟩ e
    · exact ⟨h.bytes, h.clean⟩

/-- One call on two such readers returns the same and leaves them so. -/
theorem next_twin {r₁ r₂ : MarketDataReplayReader} (h : Twin r₁ r₂) :
    r₁.next.1 = r₂.next.1 ∧ Twin r₁.next.2 r₂.next.2 := by
  obtain ⟨⟨content, hd₁, hd₂⟩, hsame⟩ := h
  obtain ⟨s₁, hread₁, hs₁, hdet₁⟩ := readLogicalRecord_spec hd₁
  obtain ⟨s₂, hread₂, hs₂, hdet₂⟩ := readLogicalRecord_spec hd₂
  have hdet : s₁.detached = s₂.detached := hdet₁.trans (hsame.trans hdet₂.symm)
  obtain ⟨-, -, -, hnum, hend, -, herr⟩ := MarketDataReplayReader.mk.inj hsame
  have hlogical : (frameBytes .fieldStart [] content).1.toLogical r₁ =
      (frameBytes .fieldStart [] content).1.toLogical r₂ := by
    cases (frameBytes .fieldStart [] content).1 <;> simp [Framed.toLogical, makeError, hnum]
  unfold next
  rw [herr, hend, hread₁, hread₂, hlogical]
  cases r₂.firstError with
  | some first => exact ⟨rfl, ⟨content, hd₁, hd₂⟩, hsame⟩
  | none =>
      simp only
      split
      · exact ⟨rfl, ⟨content, hd₁, hd₂⟩, hsame⟩
      · cases (frameBytes .fieldStart [] content).1.toLogical r₂ with
        | endOfFile =>
            refine ⟨rfl, ⟨_, ⟨hs₁.bytes, hs₁.clean⟩, ⟨hs₂.bytes, hs₂.clean⟩⟩, ?_⟩
            exact congrArg (fun r => { r with endOfFile := true }) hdet
        | error e =>
            have h₁ := latch_detached s₁ e
            rw [hdet, latch_detached s₂ e] at h₁
            obtain ⟨hres, hlatched⟩ := Prod.mk.inj h₁
            exact ⟨hres.symm, ⟨_, latch_delivers hs₁ e, latch_delivers hs₂ e⟩, hlatched.symm⟩
        | record text =>
            have h₁ := acceptRecord_detached s₁ text
            rw [hdet, acceptRecord_detached s₂ text] at h₁
            obtain ⟨hres, haccepted⟩ := Prod.mk.inj h₁
            exact ⟨hres.symm, ⟨_, acceptRecord_delivers hs₁ text, acceptRecord_delivers hs₂ text⟩,
              haccepted.symm⟩

theorem call_twin {r₁ r₂ : MarketDataReplayReader} (h : Twin r₁ r₂) (k : Nat) :
    r₁.call k = r₂.call k := by
  induction k generalizing r₁ r₂ with
  | zero => exact (next_twin h).1
  | succ k ih =>
      rw [call_succ, call_succ]
      exact ih (next_twin h).2

/-! ## Files -/

/-- Read calls that hand over the content of a file: any split, any interruptions. -/
def Supplies (script : List ReadAnswer) (content : Bytes) : Prop :=
  ({ script := script } : MarketDataReplayReader).Delivers content

private def headerColumns : List Bytes :=
  [ascii "recv_tsec", ascii "recv_tnsec", ascii "venue", ascii "stream_kind", ascii "shard_id",
    ascii "conn_epoch", ascii "conn_seq", ascii "symbol"]

theorem frameBytes_header (body : Bytes) :
    frameBytes .fieldStart [] (marketDataCsvHeader ++ body) =
      (.record marketDataCsvHeader, body) := by
  have hplain : ∀ f ∈ headerColumns, PlainField f := by unfold PlainField; decide +kernel
  have hlast : PlainField (ascii "payload_json") := by unfold PlainField; decide +kernel
  have hheader : marketDataCsvHeader = headerColumns.flatMap (fun f => f ++ [comma]) ++
      (ascii "payload_json" ++ [lineFeed]) := by decide +kernel
  rw [hheader, List.append_assoc, frameBytes_fields headerColumns hplain (by decide),
    List.append_assoc, List.singleton_append,
    frameBytes_lastField _ (.inl rfl) hlast (by decide), List.nil_append]

theorem openScript_header {script : List ReadAnswer} {body : Bytes}
    (h : Supplies script (marketDataCsvHeader ++ body)) :
    ∃ r, openScript script = .ok r ∧ r.At none body ∧
      r.detached = ({ script := [], logicalRecordNumber := 1 } : MarketDataReplayReader) := by
  obtain ⟨r₁, hread, hd, hsame⟩ := readLogicalRecord_spec h
  rw [frameBytes_header] at hread hd
  obtain ⟨-, -, hrec, -, hend, hid, herr⟩ := MarketDataReplayReader.mk.inj hsame
  refine ⟨{ r₁ with logicalRecordNumber := 1 }, ?_, ⟨⟨hd.bytes, hd.clean⟩, herr, hend, hid⟩, ?_⟩
  · unfold openScript
    simp only [hread, Framed.toLogical, ne_eq, not_true_eq_false, ↓reduceIte]
  · simp only [detached, MarketDataReplayReader.mk.injEq, true_and]
    exact ⟨hrec, hend, hid, herr⟩

/-- The reader returns a record exactly where the grammar has one, keeps its first
error, reports the end only at a record boundary, and does not depend on the reads. -/
theorem replayReader_accepts_grammar {script : List ReadAnswer} {body : Bytes}
    (h : Supplies script (marketDataCsvHeader ++ body)) :
    ∃ r, openScript script = .ok r ∧
      (∀ k row, r.call k = .record row ↔
        ∃ rows rest, rows.length = k ∧ Parses none body (rows ++ [row]) rest) ∧
      (∀ i j e, i ≤ j → r.call i = .error e → r.call j = .error e) ∧
      (∀ k, r.call k = .endOfFile → ∃ rows, rows.length ≤ k ∧ Parses none body rows []) ∧
      (∀ rows, Parses none body rows [] → r.call rows.length = .endOfFile) ∧
      ∀ script', Supplies script' (marketDataCsvHeader ++ body) →
        ∃ r', openScript script' = .ok r' ∧ ∀ k, r'.call k = r.call k := by
  obtain ⟨r, hopen, hat, hdet⟩ := openScript_header h
  refine ⟨r, hopen, ?_, fun i j e hij => call_error_kept hij,
    fun k => parses_of_call_endOfFile hat, fun rows => call_endOfFile_of_parses hat, ?_⟩
  · intro k row
    constructor
    · exact parses_of_call_record hat
    · rintro ⟨rows, rest, rfl, hp⟩
      exact call_record_of_parses hat hp
  · intro script' h'
    obtain ⟨r', hopen', hat', hdet'⟩ := openScript_header h'
    exact ⟨r', hopen', call_twin ⟨⟨body, hat'.delivers, hat.delivers⟩, hdet'.trans hdet.symm⟩⟩

end MarketDataReplayReader

/-! ## Formatted rows are records -/

/-- A row the formatter accepts for an audit file of a venue and symbol. -/
structure AuditRow (venue : PayloadVenue) (symbol : Bytes) (row : MarketDataCsvRow) : Prop where
  nanoseconds : 0 ≤ row.timestamp.nanoseconds.toInt ∧
    row.timestamp.nanoseconds.toInt < nanosecondsPerSecond
  shard : row.shardId = 0
  sequence : 0 < row.connectionSequence
  venue : row.venue = venue
  symbol : row.symbol = symbol
  payload : row.payloadJson.length ≤ maxPayloadBytes

/-- The connection metadata of a row is lexicographically before that of another. -/
def MarketDataCsvRow.Before (a b : MarketDataCsvRow) : Prop :=
  a.connectionEpoch < b.connectionEpoch ∨
    (a.connectionEpoch = b.connectionEpoch ∧ a.connectionSequence < b.connectionSequence)

section RoundTrip

variable {venue : PayloadVenue} {symbol : Bytes}

theorem plainField_of_bytes {field : Bytes} (h : ∀ b ∈ field, 45 ≤ b.toNat) : PlainField field := by
  intro b hb
  have hge := h b hb
  refine ⟨?_, ?_, ?_, ?_⟩ <;> rintro rfl <;> revert hge <;> decide

theorem plainField_intText (i : Int) : PlainField (intText i) := by
  refine plainField_of_bytes fun b hb => ?_
  rcases ByteText.intText_bytes i b hb with hdigit | rfl
  · simp only [isDigit, decide_eq_true_eq] at hdigit
    omega
  · decide

theorem plainField_symbol (h : isNormalizedSymbol symbol = true) : PlainField symbol := by
  refine plainField_of_bytes fun b hb => ?_
  have hbyte := (isNormalizedSymbol_bytes h).2.2 b hb
  simp only [symbolByte, Bool.or_eq_true, Bool.and_eq_true, decide_eq_true_eq] at hbyte
  omega

theorem AuditRow.sequence_ne_zero {row : MarketDataCsvRow} (h : AuditRow venue symbol row) :
    row.connectionSequence ≠ 0 := by
  intro h₀
  have hpos := h.sequence
  rw [h₀] at hpos
  exact UInt64.lt_irrefl _ hpos

theorem AuditRow.format {row : MarketDataCsvRow} (hsym : isNormalizedSymbol symbol = true)
    (h : AuditRow venue symbol row) : formatMarketDataCsvRow row = .ok (auditText row) := by
  refine formatMarketDataCsvRow_ok ?_ (h.sequence_ne_zero) (h.symbol ▸ hsym) h.payload
  simpa [validTimestamp] using h.nanoseconds

theorem AuditRow.recordText {row : MarketDataCsvRow} (hsym : isNormalizedSymbol symbol = true)
    (h : AuditRow venue symbol row) : RecordText (auditText row) row := by
  refine ⟨⟨⟨intText row.timestamp.seconds.toInt, intText row.timestamp.nanoseconds.toInt,
    venueText row.venue, streamKindText row.streamKind, natText row.shardId.toNat,
    natText row.connectionEpoch.toNat, natText row.connectionSequence.toNat, row.symbol⟩, rfl, ?_,
    ?_⟩, ?_⟩
  · intro f hf
    simp only [Columns.list, List.mem_cons, List.not_mem_nil, or_false] at hf
    rcases hf with rfl | rfl | rfl | rfl | rfl | rfl | rfl | rfl
    · exact plainField_intText _
    · exact plainField_intText _
    · unfold PlainField
      cases row.venue <;> decide +kernel
    · unfold PlainField
      cases row.streamKind <;> decide +kernel
    · exact plainField_intText row.shardId.toNat
    · exact plainField_intText row.connectionEpoch.toNat
    · exact plainField_intText row.connectionSequence.toNat
    · exact plainField_symbol (h.symbol ▸ hsym)
  · exact ⟨isDecimal_intText _, isDecimal_intText _, h.nanoseconds, rfl, rfl, isDecimal_natText _,
      h.shard, isDecimal_natText _, isDecimal_natText _, h.sequence_ne_zero, rfl,
      h.symbol ▸ hsym, h.payload⟩
  · exact auditText_length_le (h.symbol ▸ hsym) h.payload

/-- The formatted rows of a file are its records. -/
theorem parses_auditText (hsym : isNormalizedSymbol symbol = true) (file : Option FileIdentity)
    (rows : List MarketDataCsvRow) (hrows : ∀ row ∈ rows, AuditRow venue symbol row)
    (hfirst : ∀ row ∈ rows.head?, Follows file row)
    (horder : rows.IsChain MarketDataCsvRow.Before) :
    Parses file ((rows.map auditText).flatten) rows [] := by
  induction rows generalizing file with
  | nil => exact .nil _ _
  | cons row rows ih =>
      have hrow := hrows row (by simp)
      refine .cons (hrow.recordText hsym) (hfirst row (by simp)) (ih _ ?_ ?_ ?_)
      · exact fun row' h' => hrows row' (by simp [h'])
      · intro row' h'
        have hrow' := hrows row' (List.mem_cons_of_mem _ (List.mem_of_mem_head? h'))
        refine ⟨hrow'.venue.trans hrow.venue.symm, hrow'.symbol.trans hrow.symbol.symm, ?_⟩
        cases rows with
        | nil => simp at h'
        | cons second rows =>
            obtain rfl := Option.some.inj h'
            exact (List.isChain_cons_cons.mp horder).1
      · exact horder.tail

/-- Audit rows are written in full, and reading the file back gives exactly these
rows and then the end, whatever the read calls return of it at a time. -/
theorem auditFile_round_trip {rows : List MarketDataCsvRow}
    (hsym : isNormalizedSymbol symbol = true)
    (hrows : ∀ row ∈ rows, AuditRow venue symbol row)
    (horder : rows.IsChain MarketDataCsvRow.Before) :
    ∃ texts : List Bytes, rows.map formatMarketDataCsvRow = texts.map .ok ∧
      ∀ script, MarketDataReplayReader.Supplies script (marketDataCsvHeader ++ texts.flatten) →
        ∃ r, MarketDataReplayReader.openScript script = .ok r ∧
          (∀ k row, rows[k]? = some row → r.call k = .record row) ∧
          r.call rows.length = .endOfFile := by
  refine ⟨rows.map auditText, ?_, ?_⟩
  · rw [List.map_map]
    exact List.map_congr_left fun row hrow => (hrows row hrow).format hsym
  · intro script hscript
    obtain ⟨r, hopen, hat, -⟩ := MarketDataReplayReader.openScript_header hscript
    have hparses := parses_auditText hsym none rows hrows (fun _ _ => trivial) horder
    refine ⟨r, hopen, ?_, MarketDataReplayReader.call_endOfFile_of_parses hat hparses⟩
    intro k row hk
    obtain ⟨hlt, hget⟩ := List.getElem?_eq_some_iff.mp hk
    have hsplit : rows = (rows.take k ++ [row]) ++ rows.drop (k + 1) := by
      rw [← hget, List.take_append_getElem, List.take_append_drop]
    rw [hsplit] at hparses
    obtain ⟨mid, hprefix⟩ := hparses.of_append
    have hcall := MarketDataReplayReader.call_record_of_parses (hsplit ▸ hat) hprefix
    rwa [List.length_take, Nat.min_eq_left (Nat.le_of_lt hlt)] at hcall

end RoundTrip

/-! ### A file of two rows

The first payload holds a quote, a comma, both line ends and a zero byte. -/

private def firstSampleRow : MarketDataCsvRow :=
  { timestamp := ⟨-1, 999999999⟩, connectionSequence := 1, symbol := ascii "BTCUSDT",
    payloadJson := [123, 34, 44, 13, 10, 0, 125] }

private def secondSampleRow : MarketDataCsvRow :=
  { timestamp := ⟨1700000000, 0⟩, streamKind := .trade, connectionEpoch := 1,
    connectionSequence := 1, symbol := ascii "BTCUSDT", payloadJson := [] }

private theorem sampleRows_auditRow :
    ∀ row ∈ [firstSampleRow, secondSampleRow], AuditRow .spot (ascii "BTCUSDT") row := by
  intro row hrow
  simp only [List.mem_cons, List.not_mem_nil, or_false] at hrow
  rcases hrow with rfl | rfl
  · exact ⟨by decide, rfl, by decide, rfl, rfl, by decide⟩
  · exact ⟨by decide, rfl, by decide, rfl, rfl, by decide⟩

private theorem sampleRows_before :
    [firstSampleRow, secondSampleRow].IsChain MarketDataCsvRow.Before := by
  simp [MarketDataCsvRow.Before, firstSampleRow, secondSampleRow]

theorem auditFile_round_trip_sample :
    ∃ texts : List Bytes, [firstSampleRow, secondSampleRow].map formatMarketDataCsvRow =
        texts.map .ok ∧
      ∀ script, MarketDataReplayReader.Supplies script (marketDataCsvHeader ++ texts.flatten) →
        ∃ r, MarketDataReplayReader.openScript script = .ok r ∧
          (∀ k row, [firstSampleRow, secondSampleRow][k]? = some row → r.call k = .record row) ∧
          r.call 2 = .endOfFile :=
  auditFile_round_trip (by decide) sampleRows_auditRow sampleRows_before

/-- The same file in three reads with an interruption between them. -/
private def sampleScript : List ReadAnswer :=
  let body := auditText firstSampleRow ++ auditText secondSampleRow
  [.bytes (marketDataCsvHeader ++ body.take 3), .interrupted, .bytes ((body.drop 3).take 60),
    .bytes ((body.drop 3).drop 60)]

theorem replayReader_accepts_grammar_sample :
    ∃ r, MarketDataReplayReader.openScript sampleScript = .ok r ∧
      r.call 0 = .record firstSampleRow ∧ r.call 1 = .record secondSampleRow ∧
      r.call 2 = .endOfFile := by
  have hsupplies : MarketDataReplayReader.Supplies sampleScript
      (marketDataCsvHeader ++ ([firstSampleRow, secondSampleRow].map auditText).flatten) := by
    refine ⟨by decide +kernel, ?_⟩
    intro answer hanswer
    simp only [sampleScript, List.mem_cons, List.not_mem_nil, or_false] at hanswer
    rcases hanswer with rfl | rfl | rfl | rfl
    · exact .inr ⟨_, rfl, by decide +kernel, by decide +kernel⟩
    · exact .inl rfl
    · exact .inr ⟨_, rfl, by decide +kernel, by decide +kernel⟩
    · exact .inr ⟨_, rfl, by decide +kernel, by decide +kernel⟩
  have hnormalized : isNormalizedSymbol (ascii "BTCUSDT") = true := by decide
  have hparses := parses_auditText hnormalized none [firstSampleRow, secondSampleRow]
    sampleRows_auditRow (fun _ _ => trivial) sampleRows_before
  obtain ⟨r, hopen, hrecord, -, -, hend, -⟩ :=
    MarketDataReplayReader.replayReader_accepts_grammar hsupplies
  have hsplit : Parses none ([firstSampleRow, secondSampleRow].map auditText).flatten
      ([firstSampleRow] ++ [secondSampleRow]) [] := hparses
  obtain ⟨mid, hfirst⟩ := hsplit.of_append
  exact ⟨r, hopen, (hrecord 0 _).mpr ⟨[], mid, rfl, hfirst⟩,
    (hrecord 1 _).mpr ⟨[firstSampleRow], [], rfl, hparses⟩, hend _ hparses⟩

end MarketCapture
