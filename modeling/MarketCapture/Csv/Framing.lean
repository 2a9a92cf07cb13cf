import MarketCapture.Csv.ReplayReader

/-! # Reading does not depend on the reads

A reader that is handed its bytes without a failure behaves as a function of
those bytes. `frameBytes` cuts one record off the front of the bytes to come;
`next_delivers` says what one call returns and what is left.
-/

namespace MarketCapture

namespace MarketDataReplayReader

/-- The read calls will hand over exactly these bytes: chunks within the buffer and
interruptions, no failure. -/
structure Delivers (r : MarketDataReplayReader) (content : Bytes) : Prop where
  bytes : r.buffer ++ scriptBytes r.script = content
  clean : ∀ answer ∈ r.script, answer = .interrupted ∨
    ∃ chunk, answer = .bytes chunk ∧ chunk ≠ [] ∧ chunk.length ≤ replayReadBufferBytes

/-- A reader without its source. -/
def detached (r : MarketDataReplayReader) : MarketDataReplayReader :=
  { r with script := [], buffer := [] }

theorem refill_spec (script : List ReadAnswer)
    (hclean : ∀ answer ∈ script, answer = .interrupted ∨
      ∃ chunk, answer = .bytes chunk ∧ chunk ≠ [] ∧ chunk.length ≤ replayReadBufferBytes) :
    (scriptBytes script = [] ∧ refill script = (.endOfFile, [], [])) ∨
    ∃ value script' buffer, refill script = (.byte value, script', buffer) ∧
      scriptBytes script = value :: (buffer ++ scriptBytes script') ∧
      ∀ answer ∈ script', answer ∈ script := by
  induction script with
  | nil => exact .inl ⟨rfl, rfl⟩
  | cons answer rest ih =>
      rcases hclean answer (by simp) with rfl | ⟨chunk, rfl, hne, _⟩
      · rcases ih (fun a ha => hclean a (by simp [ha])) with ⟨h₁, h₂⟩ | ⟨v, s, b, h₁, h₂, h₃⟩
        · exact .inl ⟨h₁, h₂⟩
        · exact .inr ⟨v, s, b, h₁, h₂, fun a ha => List.mem_cons_of_mem _ (h₃ a ha)⟩
      · cases chunk with
        | nil => exact absurd rfl hne
        | cons value chunk =>
            exact .inr ⟨value, rest, chunk, rfl, rfl, fun a ha => List.mem_cons_of_mem _ ha⟩

theorem readByte_end {r : MarketDataReplayReader} (h : r.Delivers []) :
    ∃ r', r.readByte = (.endOfFile, r') ∧ r'.Delivers [] ∧ r'.detached = r.detached := by
  obtain ⟨hbuffer, hscript⟩ := List.append_eq_nil_iff.mp h.bytes
  unfold readByte
  rw [hbuffer]
  rcases refill_spec r.script h.clean with ⟨_, heq⟩ | ⟨v, s, b, _, hbytes, _⟩
  · exact ⟨{ r with script := [], buffer := [] }, by simp [heq], ⟨rfl, by simp⟩, rfl⟩
  · rw [hscript] at hbytes
    cases hbytes

theorem readByte_byte {r : MarketDataReplayReader} {value : UInt8} {rest : Bytes}
    (h : r.Delivers (value :: rest)) :
    ∃ r', r.readByte = (.byte value, r') ∧ r'.Delivers rest ∧ r'.detached = r.detached := by
  have hbytes := h.bytes
  unfold readByte
  cases hbuffer : r.buffer with
  | cons v buffer =>
      rw [hbuffer, List.cons_append] at hbytes
      obtain ⟨rfl, hrest⟩ := List.cons.inj hbytes
      exact ⟨{ r with buffer := buffer }, rfl, ⟨hrest, h.clean⟩, rfl⟩
  | nil =>
      rw [hbuffer, List.nil_append] at hbytes
      rcases refill_spec r.script h.clean with ⟨hempty, _⟩ | ⟨v, s, b, heq, hscript, hsub⟩
      · rw [hempty] at hbytes
        cases hbytes
      · rw [hscript] at hbytes
        obtain ⟨rfl, hrest⟩ := List.cons.inj hbytes
        exact ⟨{ r with script := s, buffer := b }, by simp [heq],
          ⟨hrest, fun a ha => h.clean a (hsub a ha)⟩, rfl⟩

/-! ## One record off the front -/

inductive Framed where
  | record (bytes : Bytes)
  | endOfFile
  | error (code : ReplayReadErrorCode)
  deriving DecidableEq, Repr

/-- The record loop over bytes at hand, and the bytes it leaves. -/
def frameBytes : CsvFrameState → Bytes → Bytes → Framed × Bytes
  | _, collected, [] =>
      (if collected.length = 0 then .endOfFile else .error .truncatedRecord, [])
  | state, collected, value :: rest =>
      if collected.length = maxCsvRecordBytes then (.error .recordTooLarge, rest)
      else
        match frameStep state value with
        | .next state => frameBytes state (collected ++ [value]) rest
        | .complete => (.record (collected ++ [value]), rest)
        | .invalid => (.error .invalidCsv, rest)

def Framed.toLogical (r : MarketDataReplayReader) : Framed → LogicalRead
  | .record bytes => .record bytes
  | .endOfFile => .endOfFile
  | .error code => .error (r.makeError code .none)

theorem makeError_detached {r r' : MarketDataReplayReader} (h : r'.detached = r.detached)
    (code : ReplayReadErrorCode) (column : ReplayColumn) (native : Int) :
    r'.makeError code column native = r.makeError code column native := by
  have hn : r'.detached.logicalRecordNumber = r.detached.logicalRecordNumber := by rw [h]
  simp only [detached] at hn
  simp [makeError, hn]

theorem recordLoop_spec {fuel : Nat} (state : CsvFrameState) (collected : Bytes) {content : Bytes}
    {r : MarketDataReplayReader} (h : r.Delivers content) (hfuel : content.length < fuel) :
    ∃ r', recordLoop fuel state collected r =
        ((frameBytes state collected content).1.toLogical r, r') ∧
      r'.Delivers (frameBytes state collected content).2 ∧ r'.detached = r.detached := by
  induction content generalizing fuel state collected r with
  | nil =>
      obtain ⟨fuel, rfl⟩ := Nat.exists_eq_succ_of_ne_zero (by omega : fuel ≠ 0)
      obtain ⟨r', heq, hd, hsame⟩ := readByte_end h
      refine ⟨r', ?_, hd, hsame⟩
      rw [recordLoop, heq]
      simp only [frameBytes]
      split
      · rfl
      · simp [Framed.toLogical, makeError_detached hsame]
  | cons value rest ih =>
      obtain ⟨fuel, rfl⟩ := Nat.exists_eq_succ_of_ne_zero (by omega : fuel ≠ 0)
      obtain ⟨r₁, heq, hd, hsame⟩ := readByte_byte h
      rw [recordLoop, heq]
      simp only [frameBytes]
      split
      · exact ⟨r₁, by simp [Framed.toLogical, makeError_detached hsame], hd, hsame⟩
      · cases frameStep state value with
        | next state' =>
            rw [List.length_cons] at hfuel
            obtain ⟨r', heq', hd', hsame'⟩ :=
              ih state' (collected ++ [value]) hd (Nat.lt_of_succ_lt_succ hfuel)
            refine ⟨r', ?_, hd', hsame'.trans hsame⟩
            simp only
            rw [heq']
            cases (frameBytes state' (collected ++ [value]) rest).1 <;>
              simp [Framed.toLogical, makeError_detached hsame]
        | complete => exact ⟨r₁, rfl, hd, hsame⟩
        | invalid => exact ⟨r₁, by simp [Framed.toLogical, makeError_detached hsame], hd, hsame⟩

theorem readLogicalRecord_spec {r : MarketDataReplayReader} {content : Bytes}
    (h : r.Delivers content) :
    ∃ r', r.readLogicalRecord = ((frameBytes .fieldStart [] content).1.toLogical r, r') ∧
      r'.Delivers (frameBytes .fieldStart [] content).2 ∧ r'.detached = r.detached := by
  refine recordLoop_spec .fieldStart [] h ?_
  rw [← h.bytes, List.length_append]
  omega

end MarketDataReplayReader

end MarketCapture
