import MarketCapture.Controller.LiveCaptureController

/-! # Reconnect backoff

`select_reconnect_delay` on machine words: the cap doubles once for each call since
the last reset and stops at the maximum, and the delay is drawn between half the cap
and the cap. The controller's own selection is the same on natural numbers.
-/

namespace MarketCapture

/-! ## Doubling up to a maximum -/

theorem double_capped (cap maximum : Nat) :
    (if cap > maximum / 2 then maximum else cap * 2) = min (cap * 2) maximum := by
  split <;> omega

namespace LiveCaptureController

/-- The doubling in closed form. -/
theorem backoffCap_eq {maximum cap : Nat} (attempts : Nat) (hcap : cap ≤ maximum) :
    backoffCap maximum attempts cap = min (cap * 2 ^ attempts) maximum := by
  induction attempts generalizing cap with
  | zero => simp [backoffCap, hcap]
  | succ attempts ih =>
      have hpos : 0 < 2 ^ attempts := Nat.two_pow_pos attempts
      unfold backoffCap
      split
      · rw [double_capped, ih (Nat.min_le_right _ _), pow_succ]
        rcases Nat.le_total (cap * 2) maximum with hle | hle
        · rw [Nat.min_eq_left hle, Nat.mul_assoc, Nat.mul_comm 2]
        · -- both sides have reached the maximum
          have hleft : maximum ≤ maximum * 2 ^ attempts := Nat.le_mul_of_pos_right _ hpos
          have hright : maximum ≤ cap * (2 ^ attempts * 2) := by
            rw [Nat.mul_comm (2 ^ attempts), ← Nat.mul_assoc]
            exact hle.trans (Nat.le_mul_of_pos_right _ hpos)
          rw [Nat.min_eq_right hle, Nat.min_eq_right hleft, Nat.min_eq_right hright]
      · obtain rfl : cap = maximum := by omega
        exact (Nat.min_eq_right (Nat.le_mul_of_pos_right _ (Nat.two_pow_pos _))).symm

end LiveCaptureController

/-! ## The selection on words -/

/-- The members that `select_reconnect_delay` reads and writes; the durations are signed
counts of milliseconds. -/
structure ReconnectBackoff where
  initialBackoff : Int64
  maximumBackoff : Int64
  reconnectAttempt : UInt64 := 0
  deriving DecidableEq

/-- What a call asks for its value: the injected selector, or the distribution of the
standard library. Both are given the lower bound and the cap. -/
inductive JitterSource where
  | selectInclusive (select : UInt64 → UInt64 → UInt64)
  | uniform (distribution : UInt64 → UInt64 → UInt64)

/-- The distribution stays between the bounds it is given. -/
def JitterSource.InRange : JitterSource → Prop
  | .selectInclusive _ => True
  | .uniform distribution =>
      ∀ lower upper, lower ≤ upper →
        lower ≤ distribution lower upper ∧ distribution lower upper ≤ upper

namespace ReconnectBackoff

/-- The loop of `select_reconnect_delay`, from an index and a cap. -/
def doublingLoop (maximum attempt : UInt64) : Nat → UInt64 → UInt64 → Option UInt64
  | 0, _, _ => none
  | fuel + 1, index, cap =>
      if index < attempt ∧ cap < maximum then
        doublingLoop maximum attempt fuel (index + 1)
          (if cap > maximum / 2 then maximum else cap * 2)
      else some cap

/-- A cap of at least one passes every 64-bit maximum in 64 doublings. -/
def doublingRounds : Nat := 65

def reconnectCap (b : ReconnectBackoff) : Option UInt64 :=
  (doublingLoop b.maximumBackoff.toUInt64 b.reconnectAttempt doublingRounds 0
    b.initialBackoff.toUInt64).map fun cap => min cap b.maximumBackoff.toUInt64

def selected (lower cap : UInt64) : JitterSource → UInt64
  | .selectInclusive select => max lower (min (select lower cap) cap)
  | .uniform distribution => distribution lower cap

def countAttempt (b : ReconnectBackoff) : ReconnectBackoff :=
  if b.reconnectAttempt.toNat ≠ uint64Maximum then
    { b with reconnectAttempt := b.reconnectAttempt + 1 }
  else b

def selectReconnectDelay (b : ReconnectBackoff) (source : JitterSource) :
    Option (Int64 × ReconnectBackoff) := do
  let cap ← b.reconnectCap
  let delay := selected (cap / 2) cap source
  return (delay.toInt64, b.countAttempt)

/-- A stable connection resets the counter. -/
def reset (b : ReconnectBackoff) : ReconnectBackoff := { b with reconnectAttempt := 0 }

/-- The durations as `valid_reconnect_options` checks them. -/
structure Valid (b : ReconnectBackoff) : Prop where
  initial : 0 < b.initialBackoff.toInt
  maximum : b.initialBackoff.toInt ≤ b.maximumBackoff.toInt

theorem toNat_toUInt64 {i : Int64} (h : 0 ≤ i.toInt) : i.toUInt64.toNat = i.toInt.toNat := by
  have hcond := BitVec.toInt_eq_toNat_cond i.toBitVec
  change i.toInt = _ at hcond
  change i.toBitVec.toNat = _
  have hlt := i.toBitVec.isLt
  split at hcond <;> omega

theorem toInt_toInt64 {n : UInt64} (h : n.toNat < 2 ^ 63) : n.toInt64.toInt = n.toNat := by
  have hcond := BitVec.toInt_eq_toNat_cond n.toBitVec
  change n.toInt64.toInt = _ at hcond
  change _ = ((n.toBitVec.toNat : Nat) : Int)
  change n.toBitVec.toNat < 2 ^ 63 at h
  split at hcond <;> omega

theorem toNat_min (m n : UInt64) : (min m n).toNat = min m.toNat n.toNat := by
  change (if m ≤ n then m else n).toNat = _
  split <;> rename_i h <;> rw [UInt64.le_iff_toNat_le] at h <;> omega

theorem toNat_max (m n : UInt64) : (max m n).toNat = max m.toNat n.toNat := by
  change (if m ≤ n then n else m).toNat = _
  split <;> rename_i h <;> rw [UInt64.le_iff_toNat_le] at h <;> omega

/-- The word loop never wraps, ends within its rounds, and computes the doubling of the
numbers. -/
theorem doublingLoop_spec {maximum attempt : UInt64} (fuel : Nat) (index cap : UInt64)
    (hindex : index ≤ attempt) (hcap : cap ≤ maximum)
    (hgrown : 2 ^ index.toNat ≤ cap.toNat ∨ cap = maximum)
    (hfuel : doublingRounds ≤ fuel + index.toNat) (hfuel' : 0 < fuel) :
    ∃ r, doublingLoop maximum attempt fuel index cap = some r ∧
      r.toNat = LiveCaptureController.backoffCap maximum.toNat
        (attempt.toNat - index.toNat) cap.toNat := by
  induction fuel generalizing index cap with
  | zero => omega
  | succ fuel ih =>
      unfold doublingLoop
      simp only [UInt64.le_iff_toNat_le] at hindex hcap
      by_cases hround : index < attempt ∧ cap < maximum
      · rw [if_pos hround]
        obtain ⟨hi, hc⟩ := hround
        rw [UInt64.lt_iff_toNat_lt] at hi hc
        have hmaximum := maximum.toNat_lt
        have hattempt := attempt.toNat_lt
        have hgrown' : 2 ^ index.toNat ≤ cap.toNat := by
          rcases hgrown with h | rfl
          · exact h
          · omega
        have hsmall : index.toNat < 64 := by
          by_contra hlarge
          have hpow : 2 ^ 64 ≤ 2 ^ index.toNat := Nat.pow_le_pow_right (by omega) (by omega)
          omega
        have hnext : (index + 1).toNat = index.toNat + 1 := by
          rw [UInt64.toNat_add, UInt64.toNat_one]
          omega
        have hdouble : (if cap > maximum / 2 then maximum else cap * 2).toNat =
            if cap.toNat > maximum.toNat / 2 then maximum.toNat else cap.toNat * 2 := by
          have hiff : cap > maximum / 2 ↔ cap.toNat > maximum.toNat / 2 := by
            rw [gt_iff_lt, UInt64.lt_iff_toNat_lt, UInt64.toNat_div]
            rfl
          by_cases hhalf : cap.toNat > maximum.toNat / 2
          · rw [if_pos (hiff.mpr hhalf), if_pos hhalf]
          · rw [if_neg (mt hiff.mp hhalf), if_neg hhalf, UInt64.toNat_mul]
            change cap.toNat * 2 % 2 ^ 64 = _
            exact Nat.mod_eq_of_lt (by omega)
        have hcapped := double_capped cap.toNat maximum.toNat
        obtain ⟨r, hr, hvalue⟩ := ih (index + 1)
          (if cap > maximum / 2 then maximum else cap * 2)
          (by rw [UInt64.le_iff_toNat_le, hnext]; omega)
          (by rw [UInt64.le_iff_toNat_le, hdouble, hcapped]; omega)
          (by
            rw [← UInt64.toNat_inj, hdouble, hcapped, hnext, pow_succ]
            rcases Nat.le_total (cap.toNat * 2) maximum.toNat with hle | hle
            · left; omega
            · right; omega)
          (by simp only [doublingRounds] at hfuel ⊢; omega)
          (by simp only [doublingRounds] at hfuel; omega)
        refine ⟨r, hr, ?_⟩
        rw [hvalue, hdouble, hnext]
        have hsteps : attempt.toNat - index.toNat = (attempt.toNat - (index.toNat + 1)) + 1 := by
          omega
        rw [hsteps, LiveCaptureController.backoffCap, if_pos hc]
      · rw [if_neg hround]
        refine ⟨cap, rfl, ?_⟩
        rw [LiveCaptureController.backoffCap_eq _ hcap]
        rcases not_and_or.mp hround with hdone | hfull
        · rw [UInt64.lt_iff_toNat_lt] at hdone
          have hzero : attempt.toNat - index.toNat = 0 := by omega
          rw [hzero, pow_zero, Nat.mul_one, Nat.min_eq_left hcap]
        · rw [UInt64.lt_iff_toNat_lt] at hfull
          have heq : cap.toNat = maximum.toNat := by omega
          rw [heq, Nat.min_eq_right (Nat.le_mul_of_pos_right _ (Nat.two_pow_pos _))]

/-- One call in closed form: the counter saturates at the largest word. -/
theorem reconnectCap_spec {b : ReconnectBackoff} (h : b.Valid) :
    ∃ cap, b.reconnectCap = some cap ∧
      cap.toNat = min (b.initialBackoff.toInt.toNat * 2 ^ b.reconnectAttempt.toNat)
        b.maximumBackoff.toInt.toNat := by
  have hinitial := toNat_toUInt64 h.initial.le
  have hmaximum := toNat_toUInt64 (h.initial.le.trans h.maximum)
  have hpos := h.initial
  have hle := h.maximum
  have hcap : b.initialBackoff.toUInt64 ≤ b.maximumBackoff.toUInt64 := by
    rw [UInt64.le_iff_toNat_le]
    omega
  obtain ⟨r, hloop, hr⟩ := doublingLoop_spec doublingRounds 0 b.initialBackoff.toUInt64
    (UInt64.zero_le : 0 ≤ b.reconnectAttempt) hcap (.inl (by simp only [UInt64.toNat_zero]; omega))
    (by simp [doublingRounds]) (by simp [doublingRounds])
  rw [LiveCaptureController.backoffCap_eq _ (by omega), UInt64.toNat_zero, Nat.sub_zero, hinitial,
    hmaximum] at hr
  refine ⟨min r b.maximumBackoff.toUInt64, by simp [reconnectCap, hloop], ?_⟩
  rw [toNat_min, hr, hmaximum, Nat.min_assoc, Nat.min_self]

theorem selected_range {lower cap : UInt64} {source : JitterSource} (h : source.InRange)
    (hle : lower ≤ cap) : lower ≤ selected lower cap source ∧ selected lower cap source ≤ cap := by
  cases source with
  | selectInclusive select =>
      simp only [selected, UInt64.le_iff_toNat_le, toNat_max, toNat_min] at hle ⊢
      omega
  | uniform distribution => exact h lower cap hle

theorem countAttempt_spec (b : ReconnectBackoff) :
    b.countAttempt.initialBackoff = b.initialBackoff ∧
      b.countAttempt.maximumBackoff = b.maximumBackoff ∧
      b.countAttempt.reconnectAttempt.toNat = min (b.reconnectAttempt.toNat + 1) uint64Maximum := by
  have hword := b.reconnectAttempt.toNat_lt
  have hlimit : uint64Maximum = 2 ^ 64 - 1 := rfl
  unfold countAttempt
  by_cases hmax : b.reconnectAttempt.toNat ≠ uint64Maximum
  · rw [if_pos hmax]
    refine ⟨rfl, rfl, ?_⟩
    change (b.reconnectAttempt + 1).toNat = _
    rw [UInt64.toNat_add, UInt64.toNat_one]
    omega
  · rw [if_neg hmax]
    exact ⟨rfl, rfl, by omega⟩

theorem selectReconnectDelay_spec {b : ReconnectBackoff} (h : b.Valid) {source : JitterSource}
    (hsource : source.InRange) :
    ∃ cap delay, b.reconnectCap = some cap ∧
      b.selectReconnectDelay source = some (delay, b.countAttempt) ∧
      (cap.toNat / 2 : Nat) ≤ delay.toInt ∧ delay.toInt ≤ cap.toNat := by
  obtain ⟨cap, hcap, hvalue⟩ := reconnectCap_spec h
  have hhalf : cap / 2 ≤ cap := by
    rw [UInt64.le_iff_toNat_le, UInt64.toNat_div]
    exact Nat.div_le_self _ _
  obtain ⟨hlow, hhigh⟩ := selected_range hsource hhalf
  rw [UInt64.le_iff_toNat_le, UInt64.toNat_div] at hlow
  rw [UInt64.le_iff_toNat_le] at hhigh
  have hsigned : b.maximumBackoff.toInt < 2 ^ 63 := b.maximumBackoff.toInt_lt
  have hpositive := h.initial.trans_le h.maximum
  have hsmall : (selected (cap / 2) cap source).toNat < 2 ^ 63 := by
    have := Nat.min_le_right (b.initialBackoff.toInt.toNat * 2 ^ b.reconnectAttempt.toNat)
      b.maximumBackoff.toInt.toNat
    omega
  refine ⟨cap, (selected (cap / 2) cap source).toInt64, hcap, by
    rw [selectReconnectDelay, hcap]; rfl, ?_, ?_⟩
  · rw [toInt_toInt64 hsmall]
    exact_mod_cast hlow
  · rw [toInt_toInt64 hsmall]
    exact_mod_cast hhigh

/-! ## Calls and resets -/

inductive BackoffCall where
  | select (source : JitterSource)
  | reset

def call (b : ReconnectBackoff) : BackoffCall → Option ReconnectBackoff
  | .select source => (b.selectReconnectDelay source).map Prod.snd
  | .reset => some b.reset

def run (b : ReconnectBackoff) (calls : List BackoffCall) : Option ReconnectBackoff :=
  calls.foldlM call b

/-- The selections since the last reset. -/
def sinceReset (calls : List BackoffCall) : Nat :=
  calls.foldl (fun n call => match call with | .select _ => n + 1 | .reset => 0) 0

/-- The members after `n` selections since the last reset. -/
structure After (initial maximum : Int64) (n : Nat) (b : ReconnectBackoff) : Prop where
  initial : b.initialBackoff = initial
  maximum : b.maximumBackoff = maximum
  attempt : b.reconnectAttempt.toNat = min n uint64Maximum

section Runs

variable {initial maximum : Int64} {n : Nat} {b : ReconnectBackoff}

theorem After.valid (h : After initial maximum n b) (hinitial : 0 < initial.toInt)
    (hmaximum : initial.toInt ≤ maximum.toInt) : b.Valid :=
  ⟨h.initial ▸ hinitial, h.initial ▸ h.maximum ▸ hmaximum⟩

/-- The saturated counter gives the same cap as the number of calls. -/
theorem After.cap (h : After initial maximum n b) (hinitial : 0 < initial.toInt)
    (hmaximum : initial.toInt ≤ maximum.toInt) :
    ∃ cap, b.reconnectCap = some cap ∧
      cap.toNat = min (initial.toInt.toNat * 2 ^ n) maximum.toInt.toNat := by
  obtain ⟨cap, hcap, hvalue⟩ := reconnectCap_spec (h.valid hinitial hmaximum)
  refine ⟨cap, hcap, ?_⟩
  rw [hvalue, h.initial, h.maximum, h.attempt]
  rcases Nat.le_total n uint64Maximum with hle | hle
  · rw [Nat.min_eq_left hle]
  · -- far beyond the doublings that reach any maximum
    have hsigned := maximum.toInt_lt
    have reached : ∀ k, 64 ≤ k → maximum.toInt.toNat ≤ initial.toInt.toNat * 2 ^ k := by
      intro k hk
      calc maximum.toInt.toNat ≤ 2 ^ 64 := by omega
        _ ≤ 2 ^ k := Nat.pow_le_pow_right (by omega) hk
        _ ≤ initial.toInt.toNat * 2 ^ k := Nat.le_mul_of_pos_left _ (by omega)
    have hlarge : 64 ≤ uint64Maximum := by decide
    rw [Nat.min_eq_right hle, Nat.min_eq_right (reached _ hlarge),
      Nat.min_eq_right (reached _ (hlarge.trans hle))]

theorem After.select (h : After initial maximum n b) (hinitial : 0 < initial.toInt)
    (hmaximum : initial.toInt ≤ maximum.toInt) (source : JitterSource) :
    ∃ b', b.call (.select source) = some b' ∧ After initial maximum (n + 1) b' := by
  obtain ⟨cap, hcap, -⟩ := reconnectCap_spec (h.valid hinitial hmaximum)
  obtain ⟨hfirst, hlast, hattempt⟩ := b.countAttempt_spec
  refine ⟨b.countAttempt, by rw [call, selectReconnectDelay, hcap]; rfl,
    hfirst.trans h.initial, hlast.trans h.maximum, ?_⟩
  rw [hattempt, h.attempt]
  omega

theorem After.run (h : After initial maximum n b) (hinitial : 0 < initial.toInt)
    (hmaximum : initial.toInt ≤ maximum.toInt) (calls : List BackoffCall) :
    ∃ b', b.run calls = some b' ∧ After initial maximum
      (calls.foldl (fun n call => match call with | .select _ => n + 1 | .reset => 0) n) b' := by
  induction calls generalizing n b with
  | nil => exact ⟨b, rfl, h⟩
  | cons call calls ih =>
      cases call with
      | select source =>
          obtain ⟨b₁, hcall, hafter⟩ := h.select hinitial hmaximum source
          obtain ⟨b', hrun, hafter'⟩ := ih hafter
          exact ⟨b', by rw [ReconnectBackoff.run, List.foldlM_cons, hcall]; exact hrun, hafter'⟩
      | reset =>
          obtain ⟨b', hrun, hafter'⟩ := ih (n := 0) (b := b.reset)
            ⟨h.initial, h.maximum, by simp [ReconnectBackoff.reset]⟩
          exact ⟨b', by rw [ReconnectBackoff.run, List.foldlM_cons]; exact hrun, hafter'⟩

theorem sinceReset_select (calls : List BackoffCall) (later : List JitterSource) :
    sinceReset (calls ++ later.map .select) = sinceReset calls + later.length := by
  unfold sinceReset
  rw [List.foldl_append]
  generalize List.foldl _ 0 calls = n
  induction later generalizing n with
  | nil => rfl
  | cons source later ih =>
      rw [List.map_cons, List.foldl_cons, ih, List.length_cons]
      change n + 1 + later.length = _
      omega

end Runs

/-- The call after any history: its cap is the doubled initial delay up to the maximum,
its delay lies between half the cap and the cap, the counter saturates, and the caps of
later calls are no smaller until a reset. -/
theorem selectReconnectDelay_closed_form {initial maximum : Int64} (hinitial : 0 < initial.toInt)
    (hmaximum : initial.toInt ≤ maximum.toInt) (calls : List BackoffCall) {source : JitterSource}
    (hsource : source.InRange) :
    ∃ b cap delay b', run { initialBackoff := initial, maximumBackoff := maximum } calls = some b ∧
      b.reconnectCap = some cap ∧
      cap.toNat = min (initial.toInt.toNat * 2 ^ sinceReset calls) maximum.toInt.toNat ∧
      b.selectReconnectDelay source = some (delay, b') ∧
      (cap.toNat / 2 : Nat) ≤ delay.toInt ∧ delay.toInt ≤ cap.toNat ∧
      b.reconnectAttempt.toNat = min (sinceReset calls) uint64Maximum ∧
      b'.reconnectAttempt.toNat = min (sinceReset calls + 1) uint64Maximum ∧
      ∀ later : List JitterSource, ∃ b'' cap'',
        run { initialBackoff := initial, maximumBackoff := maximum }
          (calls ++ later.map .select) = some b'' ∧
        b''.reconnectCap = some cap'' ∧ cap ≤ cap'' := by
  have hstart : After initial maximum 0
      { initialBackoff := initial, maximumBackoff := maximum } := ⟨rfl, rfl, by simp⟩
  obtain ⟨b, hrun, hafter⟩ := hstart.run hinitial hmaximum calls
  obtain ⟨cap, hcap, hvalue⟩ := hafter.cap hinitial hmaximum
  obtain ⟨cap', delay, hcap', hcall, hlow, hhigh⟩ :=
    selectReconnectDelay_spec (hafter.valid hinitial hmaximum) hsource
  obtain rfl := Option.some.inj (hcap'.symm.trans hcap)
  refine ⟨b, cap', delay, b.countAttempt, hrun, hcap, hvalue, hcall, hlow, hhigh, hafter.attempt, ?_,
    fun later => ?_⟩
  · rw [b.countAttempt_spec.2.2, hafter.attempt]
    change min (min (sinceReset calls) uint64Maximum + 1) _ = _
    omega
  · obtain ⟨b'', hrun'', hafter''⟩ :=
      hstart.run hinitial hmaximum (calls ++ later.map .select)
    obtain ⟨cap'', hcap'', hvalue''⟩ := hafter''.cap hinitial hmaximum
    refine ⟨b'', cap'', hrun'', hcap'', ?_⟩
    change cap''.toNat = min (_ * 2 ^ sinceReset (calls ++ later.map .select)) _ at hvalue''
    have hpow : 2 ^ sinceReset calls ≤ 2 ^ (sinceReset calls + later.length) :=
      Nat.pow_le_pow_right (by omega) (by omega)
    rw [UInt64.le_iff_toNat_le, hvalue'', sinceReset_select]
    have hgrown := Nat.mul_le_mul_left initial.toInt.toNat hpow
    change cap'.toNat = min (_ * 2 ^ sinceReset calls) _ at hvalue
    omega

/-- The default durations: seven selections after a reset the cap is half a minute. -/
theorem selectReconnectDelay_closed_form_sample :
    ∃ b cap delay b', run { initialBackoff := 250, maximumBackoff := 30000 }
        (.reset :: List.replicate 7 (.select (.uniform fun lower _ => lower))) = some b ∧
      b.reconnectCap = some cap ∧ cap.toNat = 30000 ∧
      b.selectReconnectDelay (.selectInclusive fun _ _ => 5) = some (delay, b') ∧
      15000 ≤ delay.toInt ∧ delay.toInt ≤ 30000 := by
  obtain ⟨b, cap, delay, b', hrun, hcap, hvalue, hcall, hlow, hhigh, -, -, -⟩ :=
    selectReconnectDelay_closed_form (show 0 < (250 : Int64).toInt by decide)
      (show (250 : Int64).toInt ≤ (30000 : Int64).toInt by decide)
      (.reset :: List.replicate 7 (.select (.uniform fun lower _ => lower)))
      (show (JitterSource.selectInclusive fun _ _ => 5).InRange from trivial)
  have hcount : cap.toNat = 30000 := hvalue
  rw [hcount] at hlow hhigh
  exact ⟨b, cap, delay, b', hrun, hcap, hcount, hcall, hlow, hhigh⟩

/-! ## The controller's selection -/

/-- The members of a controller as words. -/
structure Describes (b : ReconnectBackoff) (c : LiveCaptureController) : Prop where
  initial : c.reconnectOptions.initialBackoff = b.initialBackoff.toInt.toNat
  maximum : c.reconnectOptions.maximumBackoff = b.maximumBackoff.toInt.toNat
  attempt : c.reconnectAttempt = b.reconnectAttempt.toNat

/-- The controller draws the same delay and counts the same attempt. -/
theorem Describes.selectReconnectDelay {b : ReconnectBackoff} {c : LiveCaptureController}
    (h : b.Describes c) (hvalid : b.Valid) {source : JitterSource} (hsource : source.InRange) :
    ∃ drawn delay b', b.selectReconnectDelay source = some (delay, b') ∧
      (c.selectReconnectDelay drawn).1 = delay.toInt.toNat ∧
      b'.Describes (c.selectReconnectDelay drawn).2 := by
  obtain ⟨cap, delay, hcap, hcall, hlow, hhigh⟩ := selectReconnectDelay_spec hvalid hsource
  obtain ⟨cap', hcap', hvalue⟩ := reconnectCap_spec hvalid
  obtain rfl := Option.some.inj (hcap'.symm.trans hcap)
  have hle : b.initialBackoff.toInt.toNat ≤ b.maximumBackoff.toInt.toNat := by
    have := hvalid.maximum
    omega
  have hsame : min (LiveCaptureController.backoffCap c.reconnectOptions.maximumBackoff
      c.reconnectAttempt c.reconnectOptions.initialBackoff) c.reconnectOptions.maximumBackoff =
      cap'.toNat := by
    rw [h.initial, h.maximum, h.attempt, LiveCaptureController.backoffCap_eq _ hle, hvalue,
      Nat.min_assoc, Nat.min_self]
  refine ⟨delay.toInt.toNat, delay, b.countAttempt, hcall, ?_, ?_⟩
  · simp only [LiveCaptureController.selectReconnectDelay, hsame]
    omega
  · obtain ⟨hfirst, hlast, hattempt⟩ := b.countAttempt_spec
    refine ⟨hfirst ▸ h.initial, hlast ▸ h.maximum, ?_⟩
    have hword := b.reconnectAttempt.toNat_lt
    have hlimit : uint64Maximum = 2 ^ 64 - 1 := rfl
    rw [hattempt]
    unfold LiveCaptureController.selectReconnectDelay
    rw [h.attempt]
    by_cases hmax : b.reconnectAttempt.toNat = uint64Maximum
    · change (if b.reconnectAttempt.toNat ≠ uint64Maximum then _ else _) = _
      rw [if_neg (not_not.mpr hmax)]
      omega
    · change (if b.reconnectAttempt.toNat ≠ uint64Maximum then _ else _) = _
      rw [if_pos hmax]
      omega

end ReconnectBackoff

end MarketCapture
