import MarketCapture.Csv.Framing

/-! # The grammar of audit files

`RecordText` says which bytes are a record and which row they denote, and
`Parses` which records stand at the front of a file body. The reader accepts
exactly this: a call returns a record if and only if the grammar has one there.
-/

namespace MarketCapture

open ByteText (IsDecimal isDigit parseInt_eq_some_iff)

/-! ## Records -/

/-- The eight unquoted columns of a record. -/
structure Columns where
  tsec : Bytes
  tnsec : Bytes
  venue : Bytes
  kind : Bytes
  shard : Bytes
  epoch : Bytes
  seq : Bytes
  symbol : Bytes

def Columns.list (c : Columns) : List Bytes :=
  [c.tsec, c.tnsec, c.venue, c.kind, c.shard, c.epoch, c.seq, c.symbol]

/-- No byte of the field is a comma, a quote or a line end. -/
def PlainField (field : Bytes) : Prop :=
  ∀ b ∈ field, b ≠ comma ∧ b ≠ quote ∧ b ≠ carriageReturn ∧ b ≠ lineFeed

/-- What the columns and the payload of a row are. Integer ranges are those of the
row's own types. -/
structure Columns.Denotes (c : Columns) (row : MarketDataCsvRow) : Prop where
  tsec : IsDecimal true c.tsec row.timestamp.seconds.toInt
  tnsec : IsDecimal true c.tnsec row.timestamp.nanoseconds.toInt
  nanoseconds : 0 ≤ row.timestamp.nanoseconds.toInt ∧
    row.timestamp.nanoseconds.toInt < nanosecondsPerSecond
  venue : c.venue = venueText row.venue
  kind : c.kind = streamKindText row.streamKind
  shard : IsDecimal false c.shard row.shardId.toNat
  shardZero : row.shardId = 0
  epoch : IsDecimal false c.epoch row.connectionEpoch.toNat
  seq : IsDecimal false c.seq row.connectionSequence.toNat
  seqNonzero : row.connectionSequence ≠ 0
  symbol : c.symbol = row.symbol
  normalized : isNormalizedSymbol row.symbol = true
  payload : row.payloadJson.length ≤ maxPayloadBytes

def Columns.text (c : Columns) (payload : Bytes) : Bytes :=
  c.list.flatMap (fun f => f ++ [comma]) ++ quotedText payload ++ [lineFeed]

/-- A record of the file and its row. -/
structure RecordText (text : Bytes) (row : MarketDataCsvRow) : Prop where
  columns : ∃ c : Columns, text = c.text row.payloadJson ∧ (∀ f ∈ c.list, PlainField f) ∧
    c.Denotes row
  size : text.length ≤ maxCsvRecordBytes

/-- A row may follow the records before it: same file identity, later metadata. -/
def Follows : Option FileIdentity → MarketDataCsvRow → Prop
  | none, _ => True
  | some file, row => row.venue = file.venue ∧ row.symbol = file.symbol ∧
      (file.lastConnectionEpoch < row.connectionEpoch ∨
        (file.lastConnectionEpoch = row.connectionEpoch ∧
          file.lastConnectionSequence < row.connectionSequence))

/-- What the file is known to be after a row. -/
def FileIdentity.ofRow (row : MarketDataCsvRow) : FileIdentity :=
  ⟨row.venue, row.symbol, row.connectionEpoch, row.connectionSequence⟩

/-- The body begins with records of these rows, and `rest` is left. -/
inductive Parses : Option FileIdentity → Bytes → List MarketDataCsvRow → Bytes → Prop
  | nil (file : Option FileIdentity) (body : Bytes) : Parses file body [] body
  | cons {file : Option FileIdentity} {text body rest : Bytes} {row : MarketDataCsvRow}
      {rows : List MarketDataCsvRow} : RecordText text row → Follows file row →
      Parses (some (.ofRow row)) body rows rest → Parses file (text ++ body) (row :: rows) rest

/-- The records before a point are records of the body. -/
theorem Parses.of_append {file : Option FileIdentity} {body rest : Bytes}
    {rows rows' : List MarketDataCsvRow} (h : Parses file body (rows ++ rows') rest) :
    ∃ mid, Parses file body rows mid := by
  induction rows generalizing file body with
  | nil => exact ⟨body, .nil _ _⟩
  | cons row rows ih =>
      cases h with
      | cons ht hf hrest =>
          obtain ⟨mid, hmid⟩ := ih hrest
          exact ⟨mid, .cons ht hf hmid⟩

namespace MarketDataReplayReader

/-! ## Decoding -/

theorem takeField_eq_ok {bytes field rest : Bytes} :
    takeField bytes = .ok (field, rest) ↔ bytes = field ++ comma :: rest ∧ PlainField field := by
  induction bytes generalizing field with
  | nil => simp [takeField]
  | cons byte bytes ih =>
      unfold takeField
      by_cases hc : byte = comma
      · subst hc
        simp only [↓reduceIte, Except.ok.injEq, Prod.mk.injEq]
        constructor
        · rintro ⟨rfl, rfl⟩
          exact ⟨rfl, by simp [PlainField]⟩
        · rintro ⟨heq, hplain⟩
          cases field with
          | nil => simpa using heq
          | cons b field =>
              obtain ⟨rfl, -⟩ := List.cons.inj heq
              exact absurd rfl (hplain comma (by simp)).1
      · rw [if_neg hc]
        by_cases hf : forbiddenUnquotedByte byte = true
        · rw [if_pos hf]
          constructor
          · simp
          · rintro ⟨heq, hplain⟩
            cases field with
            | nil => exact absurd (List.cons.inj heq).1 hc
            | cons b field =>
                obtain ⟨rfl, -⟩ := List.cons.inj heq
                have hb := hplain byte (by simp)
                simp [forbiddenUnquotedByte, hb] at hf
        · rw [if_neg hf]
          simp only [forbiddenUnquotedByte, Bool.or_eq_true, decide_eq_true_eq, not_or] at hf
          constructor
          · intro h
            split at h
            · cases h
            · rename_i f after heq
              obtain ⟨rfl, rfl⟩ := Prod.mk.inj (Except.ok.inj h)
              obtain ⟨rfl, hplain⟩ := ih.mp heq
              refine ⟨rfl, ?_⟩
              intro b hb
              rcases List.mem_cons.mp hb with rfl | hb
              · exact ⟨hc, hf.1.1, hf.1.2, hf.2⟩
              · exact hplain b hb
          · rintro ⟨heq, hplain⟩
            cases field with
            | nil => exact absurd (List.cons.inj heq).1 hc
            | cons b field =>
                obtain ⟨rfl, hbytes⟩ := List.cons.inj heq
                have hrest := ih.mpr ⟨hbytes, fun b hb => hplain b (by simp [hb])⟩
                simp [hrest]

theorem takeFields_eq_ok {r : MarketDataReplayReader} {columns : List ReplayColumn}
    {bytes rest : Bytes} {fields : List Bytes} :
    takeFields r columns bytes = .ok (fields, rest) ↔
      bytes = fields.flatMap (fun f => f ++ [comma]) ++ rest ∧ fields.length = columns.length ∧
        ∀ f ∈ fields, PlainField f := by
  induction columns generalizing bytes fields with
  | nil =>
      simp only [takeFields, Except.ok.injEq, Prod.mk.injEq, List.length_nil]
      constructor
      · rintro ⟨rfl, rfl⟩
        simp
      · rintro ⟨heq, hlen, -⟩
        obtain rfl := List.length_eq_zero_iff.mp hlen
        exact ⟨rfl, by simpa using heq⟩
  | cons column columns ih =>
      unfold takeFields
      constructor
      · intro h
        split at h
        · cases h
        · rename_i field after heq
          split at h
          · cases h
          · rename_i fields' rest' heq'
            obtain ⟨rfl, rfl⟩ := Prod.mk.inj (Except.ok.inj h)
            obtain ⟨rfl, hplain⟩ := takeField_eq_ok.mp heq
            obtain ⟨rfl, hlen, hall⟩ := ih.mp heq'
            exact ⟨by simp, by simp [hlen], by simpa using ⟨hplain, hall⟩⟩
      · rintro ⟨heq, hlen, hall⟩
        cases fields with
        | nil => simp at hlen
        | cons field fields =>
            simp only [List.flatMap_cons, List.append_assoc, List.length_cons,
              Nat.add_right_cancel_iff, List.mem_cons, forall_eq_or_imp] at heq hlen hall
            have hfirst : takeField bytes = .ok (field,
                fields.flatMap (fun f => f ++ [comma]) ++ rest) :=
              takeField_eq_ok.mpr ⟨heq, hall.1⟩
            have hrest := ih.mpr ⟨rfl, hlen, hall.2⟩
            simp only [hfirst, hrest]

theorem escaped_eq_nil {payload : Bytes} : escaped payload = [] ↔ payload = [] := by
  cases payload with
  | nil => simp
  | cons b bs =>
      by_cases hb : b = quote
      · simp [hb, escaped_cons_quote]
      · simp [escaped_cons hb]

/-- How an escaped payload begins. -/
theorem cons_eq_escaped {byte : UInt8} {inner payload : Bytes} :
    byte :: inner = escaped payload ↔
      (byte = quote ∧ ∃ rest payload', inner = quote :: rest ∧ payload = quote :: payload' ∧
        rest = escaped payload') ∨
      (byte ≠ quote ∧ ∃ payload', payload = byte :: payload' ∧ inner = escaped payload') := by
  cases payload with
  | nil => simp
  | cons b bs =>
      by_cases hb : b = quote
      · subst hb
        rw [escaped_cons_quote]
        constructor
        · intro h
          obtain ⟨rfl, rfl⟩ := List.cons.inj h
          exact .inl ⟨rfl, _, bs, rfl, rfl, rfl⟩
        · rintro (⟨rfl, rest, payload', rfl, hp, rfl⟩ | ⟨hne, payload', hp, rfl⟩)
          · obtain ⟨-, rfl⟩ := List.cons.inj hp
            rfl
          · exact absurd (List.cons.inj hp).1.symm hne
      · rw [escaped_cons hb]
        constructor
        · intro h
          obtain ⟨rfl, rfl⟩ := List.cons.inj h
          exact .inr ⟨hb, bs, rfl, rfl⟩
        · rintro (⟨rfl, rest, payload', rfl, hp, rfl⟩ | ⟨hne, payload', hp, rfl⟩)
          · exact absurd (List.cons.inj hp).1 hb
          · obtain ⟨rfl, rfl⟩ := List.cons.inj hp
            rfl

theorem decodePayload_eq_ok {inner payload : Bytes} {decodedSize : Nat}
    (h : decodedSize ≤ maxPayloadBytes) :
    decodePayload inner decodedSize = .ok payload ↔
      inner = escaped payload ∧ decodedSize + payload.length ≤ maxPayloadBytes := by
  induction inner using List.twoStepInduction generalizing payload decodedSize with
  | nil =>
      simp only [decodePayload, Except.ok.injEq, @eq_comm _ [] (escaped payload), escaped_eq_nil]
      constructor
      · rintro rfl
        exact ⟨rfl, by simpa using h⟩
      · rintro ⟨rfl, -⟩
        rfl
  | singleton byte =>
      unfold decodePayload
      rw [cons_eq_escaped]
      by_cases hb : byte = quote
      · simp [hb]
      · by_cases hsize : decodedSize = maxPayloadBytes
        · simp only [hb, hsize, ↓reduceIte, reduceCtorEq, false_iff, not_and, not_le]
          rintro (⟨hq, -⟩ | ⟨-, payload', rfl, -⟩)
          · exact hq.elim
          · simp
        · simp only [hb, hsize, ↓reduceIte, Except.ok.injEq]
          constructor
          · rintro rfl
            exact ⟨.inr ⟨hb, [], rfl, rfl⟩, by simp; omega⟩
          · rintro ⟨⟨hq, -⟩ | ⟨-, payload', rfl, hnil⟩, -⟩
            · exact hq.elim
            · rw [escaped_eq_nil.mp hnil.symm]
  | cons_cons byte following rest ih₁ ih₂ =>
      unfold decodePayload
      rw [cons_eq_escaped]
      by_cases hb : byte = quote
      · by_cases hf : following = quote
        · by_cases hsize : decodedSize = maxPayloadBytes
          · simp only [hb, hf, hsize, ↓reduceIte, ne_eq, not_true_eq_false, reduceCtorEq, false_iff,
              not_and, not_le]
            rintro (⟨-, rest', payload', -, rfl, -⟩ | ⟨hq, -⟩)
            · simp
            · exact hq.elim
          · have ih := @ih₁
            simp only [hb, hf, hsize, ↓reduceIte, ne_eq, not_true_eq_false, true_and, false_and,
              or_false, List.cons.injEq]
            constructor
            · intro heq
              split at heq
              · cases heq
              · rename_i decoded hdec
                obtain rfl := Except.ok.inj heq
                obtain ⟨rfl, hle⟩ := (ih (by omega)).mp hdec
                exact ⟨⟨_, decoded, rfl, rfl, rfl⟩, by simp; omega⟩
            · rintro ⟨⟨rest', payload', rfl, rfl, rfl⟩, hle⟩
              simp only [List.length_cons] at hle
              rw [(ih (by omega)).mpr ⟨rfl, by omega⟩]
        · simp [hb, hf]
      · by_cases hsize : decodedSize = maxPayloadBytes
        · simp only [hb, hsize, ↓reduceIte, reduceCtorEq, false_iff, not_and, not_le]
          rintro (⟨hq, -⟩ | ⟨-, payload', rfl, -⟩)
          · exact hq.elim
          · simp
        · simp only [hb, hsize, ↓reduceIte, false_and, not_false_eq_true, true_and, false_or, ne_eq]
          constructor
          · intro heq
            split at heq
            · cases heq
            · rename_i decoded hdec
              obtain rfl := Except.ok.inj heq
              obtain ⟨hinner, hle⟩ := (ih₂ following (by omega)).mp hdec
              exact ⟨⟨decoded, rfl, hinner⟩, by simp; omega⟩
          · rintro ⟨⟨payload', rfl, hinner⟩, hle⟩
            simp only [List.length_cons] at hle
            rw [(ih₂ following (by omega)).mpr ⟨hinner, by omega⟩]

theorem parsed_eq_ok {α : Type} {r : MarketDataReplayReader} {value : Option α}
    {code : ReplayReadErrorCode} {column : ReplayColumn} {a : α} :
    r.parsed value code column = .ok a ↔ value = some a := by
  cases value <;> simp [parsed]

theorem refused_eq_ok {r : MarketDataReplayReader} {bad : Bool} {code : ReplayReadErrorCode}
    {column : ReplayColumn} {u : Unit} : r.refused bad code column = .ok u ↔ bad = false := by
  cases bad <;> simp [refused]

theorem parseInt64_eq_some {field : Bytes} {i : Int64} :
    parseInt64 field = some i ↔ IsDecimal true field i.toInt := by
  have h₁ := i.le_toInt
  have h₂ := i.toInt_lt
  simp only [parseInt64, Option.map_eq_some_iff,
    parseInt_eq_some_iff (by decide : (-2 ^ 63 : Int) ≤ 0) (by decide : (0 : Int) ≤ 2 ^ 63 - 1)]
  constructor
  · rintro ⟨v, ⟨hdec, hlo, hhi⟩, rfl⟩
    rwa [Int64.toInt_ofInt_of_le (by simpa using hlo) (by omega)]
  · intro hdec
    exact ⟨i.toInt, ⟨hdec, by omega, by omega⟩, Int64.ofInt_toInt i⟩

theorem parseInt32_eq_some {field : Bytes} {i : Int32} :
    parseInt32 field = some i ↔ IsDecimal true field i.toInt := by
  have h₁ := i.le_toInt
  have h₂ := i.toInt_lt
  simp only [parseInt32, Option.map_eq_some_iff,
    parseInt_eq_some_iff (by decide : (-2 ^ 31 : Int) ≤ 0) (by decide : (0 : Int) ≤ 2 ^ 31 - 1)]
  constructor
  · rintro ⟨v, ⟨hdec, hlo, hhi⟩, rfl⟩
    rwa [Int32.toInt_ofInt_of_le (by simpa using hlo) (by omega)]
  · intro hdec
    exact ⟨i.toInt, ⟨hdec, by omega, by omega⟩, Int32.ofInt_toInt i⟩

theorem parseUInt64_eq_some {field : Bytes} {n : UInt64} :
    parseUInt64 field = some n ↔ IsDecimal false field n.toNat := by
  have hn := n.toNat_lt
  simp only [parseUInt64, Option.map_eq_some_iff,
    parseInt_eq_some_iff (le_refl (0 : Int)) (by decide : (0 : Int) ≤ 2 ^ 64 - 1)]
  constructor
  · rintro ⟨v, ⟨hdec, hlo, hhi⟩, rfl⟩
    have hv : ((UInt64.ofNat v.toNat).toNat : Int) = v := by
      rw [UInt64.toNat_ofNat']
      omega
    rwa [hv]
  · intro hdec
    exact ⟨n.toNat, ⟨hdec, by omega, by omega⟩, by simp⟩

theorem parseUInt32_eq_some {field : Bytes} {n : UInt32} :
    parseUInt32 field = some n ↔ IsDecimal false field n.toNat := by
  have hn := n.toNat_lt
  simp only [parseUInt32, Option.map_eq_some_iff,
    parseInt_eq_some_iff (le_refl (0 : Int)) (by decide : (0 : Int) ≤ 2 ^ 32 - 1)]
  constructor
  · rintro ⟨v, ⟨hdec, hlo, hhi⟩, rfl⟩
    have hv : ((UInt32.ofNat v.toNat).toNat : Int) = v := by
      rw [UInt32.toNat_ofNat']
      omega
    rwa [hv]
  · intro hdec
    exact ⟨n.toNat, ⟨hdec, by omega, by omega⟩, by simp⟩

theorem parseVenue_eq_some {field : Bytes} {venue : PayloadVenue} :
    parseVenue field = some venue ↔ field = venueText venue := by
  have hne : ascii "usdm" ≠ ascii "spot" := by decide
  unfold parseVenue
  split
  · cases venue <;> simp_all [venueText, eq_comm]
  · split <;> cases venue <;> simp_all [venueText]

theorem parseStreamKind_eq_some {field : Bytes} {kind : StreamKind} :
    parseStreamKind field = some kind ↔ field = streamKindText kind := by
  have h₁ : ascii "depth5" ≠ ascii "depth_diff" := by decide
  have h₂ : ascii "trade" ≠ ascii "depth_diff" := by decide
  have h₃ : ascii "trade" ≠ ascii "depth5" := by decide
  unfold parseStreamKind
  split
  · cases kind <;> simp_all [streamKindText, eq_comm]
  · split
    · cases kind <;> simp_all [streamKindText, eq_comm]
    · split <;> cases kind <;> simp_all [streamKindText]

/-- A field between two quotes. -/
theorem quoted_shape {encoded : Bytes} :
    (decide (encoded.length < 2) || decide (encoded.head? ≠ some quote) ||
      decide (encoded.getLast? ≠ some quote)) = false ↔
    encoded = quote :: (encoded.drop 1).dropLast ++ [quote] := by
  simp only [Bool.or_eq_false_iff, decide_eq_false_iff_not, not_not, not_lt]
  constructor
  · rintro ⟨⟨hlen, hhead⟩, hlast⟩
    cases encoded with
    | nil => simp at hlen
    | cons b rest =>
        simp only [List.head?_cons, Option.some.injEq] at hhead
        subst hhead
        simp only [List.length_cons] at hlen
        rcases List.eq_nil_or_concat rest with rfl | ⟨init, last, rfl⟩
        · simp at hlen
        · simp only [List.concat_eq_append, List.getLast?_cons, List.getLast?_append] at hlast
          simp_all
  · intro h
    rw [h]
    refine ⟨⟨by simp, by simp⟩, ?_⟩
    rw [List.getLast?_append]
    simp

/-- The columns decode to a row exactly when they denote it. -/
theorem decodeColumns_eq_ok {r : MarketDataReplayReader} {c : Columns} {encoded : Bytes}
    {row : MarketDataCsvRow} :
    decodeColumns r c.list encoded = .ok row ↔
      encoded = quotedText row.payloadJson ∧ c.Denotes row := by
  simp only [decodeColumns, bind_eq_ok, parsed_eq_ok, refused_eq_ok, quoted_shape,
    parseInt64_eq_some, parseInt32_eq_some, parseUInt32_eq_some, parseUInt64_eq_some,
    parseVenue_eq_some, parseStreamKind_eq_some, Columns.list, List.getD_cons_zero,
    List.getD_cons_succ]
  constructor
  · rintro ⟨-, hquoted, secs, hsecs, nanos, hnanos, -, hrange, venue, hvenue, kind, hkind, shard,
      hshard, -, hzero, epoch, hepoch, seq, hseq, -, hseqz, -, hsym, hrow⟩
    split at hrow
    · cases hrow
    · rename_i payload hpayload
      obtain rfl := Except.ok.inj hrow
      obtain ⟨hinner, hlen⟩ := (decodePayload_eq_ok (Nat.zero_le _)).mp hpayload
      simp only [Bool.or_eq_false_iff, decide_eq_false_iff_not, not_lt, ge_iff_le, not_le, not_not,
        ne_eq, Bool.not_eq_false'] at hrange hzero hseqz hsym
      refine ⟨?_, ⟨hsecs, hnanos, hrange, hvenue, hkind, hshard, hzero, hepoch, hseq, hseqz, rfl,
        hsym, by simpa using hlen⟩⟩
      rw [hinner] at hquoted
      exact hquoted
  · rintro ⟨rfl, hd⟩
    have hinner : ((quotedText row.payloadJson).drop 1).dropLast = escaped row.payloadJson := by
      simp [quotedText]
    have hdec : decodePayload (escaped row.payloadJson) 0 = .ok row.payloadJson :=
      (decodePayload_eq_ok (Nat.zero_le _)).mpr ⟨rfl, by simpa using hd.payload⟩
    refine ⟨(), by rw [hinner]; rfl, _, hd.tsec, _, hd.tnsec, (), ?_, _, hd.venue, _, hd.kind, _,
      hd.shard, (), by simpa using hd.shardZero, _, hd.epoch, _, hd.seq, (),
      by simpa using hd.seqNonzero, (), by simp [hd.symbol, hd.normalized], ?_⟩
    · simpa using hd.nanoseconds
    · rw [hinner, hdec]
      simp [hd.symbol]

/-- A record decodes to a row exactly when it is the text of columns that denote it. -/
theorem decodeRecord_eq_ok {r : MarketDataReplayReader} {text : Bytes} {row : MarketDataCsvRow} :
    decodeRecord r text = .ok row ↔
      ∃ c : Columns, text = c.text row.payloadJson ∧ (∀ f ∈ c.list, PlainField f) ∧
        c.Denotes row := by
  unfold decodeRecord
  constructor
  · intro h
    split at h
    · cases h
    · rename_i hlast
      have htext := List.dropLast_append_getLast? lineFeed (not_not.mp hlast)
      split at h
      · cases h
      · rename_i fields encoded htake
        obtain ⟨hrow, hlen, hplain⟩ := takeFields_eq_ok.mp htake
        match fields, hlen with
        | [a, b, c, d, e, f, g, i], _ =>
            obtain ⟨rfl, hd⟩ := (decodeColumns_eq_ok (c := ⟨a, b, c, d, e, f, g, i⟩)).mp h
            refine ⟨⟨a, b, c, d, e, f, g, i⟩, ?_, hplain, hd⟩
            rw [← htext, hrow]
            rfl
  · rintro ⟨c, rfl, hplain, hd⟩
    have htake : takeFields r unquotedColumns (c.text row.payloadJson).dropLast =
        .ok (c.list, quotedText row.payloadJson) := by
      refine takeFields_eq_ok.mpr ⟨?_, rfl, hplain⟩
      simp [Columns.text]
    rw [if_neg (by simp [Columns.text]), htake]
    exact decodeColumns_eq_ok.mpr ⟨rfl, hd⟩

end MarketDataReplayReader

end MarketCapture
