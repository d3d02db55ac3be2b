import RuntimeMonitor.CNumerals
import RuntimeMonitor.VerifierSteps
import Mathlib.Data.FinEnum

/-!
The threshold of the hold-time detector as `load_configuration` reads it from the
environment. The text must be converted to its end, but nothing looks at its beginning,
so the blanks and the sign that the conversion skips are accepted as well.
-/
namespace RuntimeMonitor.HoldThreshold

open EventRecord VerifierTables VerifierEvents VerifierSteps CNumerals

/-- `load_configuration`, with the value of `MONITOR_MAX_HOLD_NS` if it is set. -/
def loadConfiguration (value : Option CString) : ℕ :=
  match value with
  | none => defaultMaxHoldNs
  | some value =>
    if value.byteAt 0 = 0 then defaultMaxHoldNs
    else
      let parsed := strtoull value.bytes
      if parsed.rangeError || decide (parsed.consumed = 0) ||
          decide (value.byteAt parsed.consumed ≠ 0) then defaultMaxHoldNs
      else parsed.value

/-- The verifier as it starts in an environment. -/
def initFrom (value : Option CString) : VerifierState :=
  monitorVerifierInit (loadConfiguration value)

/-- The threshold for a text: the number that it denotes if it is a decimal numeral in the
range of `uint64_t`, the default for all other texts. -/
def numeralThreshold (text : List UInt8) : ℕ :=
  if text ≠ [] ∧ (∀ c ∈ text, isDigit c = true) ∧ decimalValue text ≤ ullongMax then
    decimalValue text
  else defaultMaxHoldNs

/-- A numeral in range behind blanks or a sign, for another number than the default. -/
def Decorated (text : List UInt8) : Prop :=
  ∃ blanks sign digits, Numeral text blanks sign digits ∧ blanks ++ sign ≠ [] ∧
    decimalValue digits ≤ ullongMax ∧ signedValue sign (decimalValue digits) ≠ defaultMaxHoldNs

variable {text blanks sign digits : List UInt8}

/-- A numeral is converted, or refused because it is out of range. -/
theorem loadConfiguration_numeral {value : CString}
    (h : Numeral value.bytes blanks sign digits) :
    loadConfiguration (some value) =
      if ullongMax < decimalValue digits then defaultMaxHoldNs
      else signedValue sign (decimalValue digits) := by
  have hlength : 0 < value.bytes.length := by
    rw [h.split, List.length_append]
    have hdigits := List.length_pos_iff.mpr h.some
    omega
  have hfirst : value.byteAt 0 ≠ 0 := by
    intro hzero
    rw [value.byteAt_eq_zero_iff (Nat.zero_le _)] at hzero
    omega
  have hlast : value.byteAt value.bytes.length = 0 :=
    (value.byteAt_eq_zero_iff le_rfl).mpr rfl
  have hnonempty : value.bytes.length ≠ 0 := by omega
  unfold loadConfiguration
  simp only [if_neg hfirst, h.strtoull_eq]
  by_cases hrange : ullongMax < decimalValue digits
  · simp [if_pos hrange]
  · simp [if_neg hrange, hlast, hnonempty]

/-- Every other text leaves the default in place. -/
theorem loadConfiguration_other {value : CString}
    (h : ∀ blanks sign digits, ¬ Numeral value.bytes blanks sign digits) :
    loadConfiguration (some value) = defaultMaxHoldNs := by
  unfold loadConfiguration
  by_cases hfirst : value.byteAt 0 = 0
  · simp only [if_pos hfirst]
  · have htext : value.bytes ≠ [] := by
      intro hempty
      apply hfirst
      rw [value.byteAt_eq_zero_iff (Nat.zero_le _), hempty]
      rfl
    have hstop : value.byteAt (strtoull value.bytes).consumed ≠ 0 := by
      intro hzero
      rw [value.byteAt_eq_zero_iff (consumed_le _)] at hzero
      exact h _ _ _ (numeral_of_consumed hzero htext)
    simp [hstop]

/-- A text of digits is a numeral with nothing in front. -/
theorem numeral_plain (htext : text ≠ []) (hdigits : ∀ c ∈ text, isDigit c = true) :
    Numeral text [] [] text :=
  ⟨rfl, by simp, Or.inl rfl, hdigits, htext⟩

/-- What is in front of the digits of a numeral is no digit. -/
theorem not_digits_of_decorated (h : Numeral text blanks sign digits)
    (hfront : blanks ++ sign ≠ []) : ¬ ∀ c ∈ text, isDigit c = true := by
  intro hall
  obtain ⟨c, front, hcons⟩ := List.exists_cons_of_ne_nil hfront
  have hmem : c ∈ blanks ++ sign := by
    rw [hcons]
    exact List.mem_cons_self ..
  have hdigit := hall c (by
    rw [h.split]
    exact List.mem_append_left _ hmem)
  rcases List.mem_append.mp hmem with hblank | hsign
  · have hspace := digit_not_space hdigit
    rw [h.blank c hblank] at hspace
    simp at hspace
  · have hnot := digit_not_sign hdigit
    rcases h.signed with rfl | rfl | rfl
    · simp at hsign
    · rw [List.mem_singleton.mp hsign] at hnot
      exact absurd hnot (by decide)
    · rw [List.mem_singleton.mp hsign] at hnot
      exact absurd hnot (by decide)

/-- The configured threshold is the number that a plain numeral denotes and the default for
every other text, unless the text is a numeral in range behind blanks or a sign. -/
theorem threshold_of_numeral (value : CString) :
    (initFrom (some value)).maxHoldNs = numeralThreshold value.bytes ↔
      ¬ Decorated value.bytes := by
  have hinit : (initFrom (some value)).maxHoldNs = loadConfiguration (some value) := rfl
  rw [hinit]
  by_cases hnumeral : ∃ blanks sign digits, Numeral value.bytes blanks sign digits
  · obtain ⟨blanks, sign, digits, h⟩ := hnumeral
    rw [loadConfiguration_numeral h]
    by_cases hfront : blanks ++ sign = []
    · obtain ⟨rfl, rfl⟩ := List.append_eq_nil_iff.mp hfront
      have htext : value.bytes = digits := h.split
      have hnot : ¬ Decorated value.bytes := by
        rintro ⟨blanks', sign', digits', h', hfront', -⟩
        apply hfront'
        rw [← h'.parts.1, ← h'.parts.2.1, h.parts.1, h.parts.2.1]
        rfl
      refine iff_of_true ?_ hnot
      unfold numeralThreshold
      rw [htext]
      by_cases hrange : ullongMax < decimalValue digits
      · rw [if_pos hrange, if_neg fun hcon => absurd hcon.2.2 (by omega)]
      · rw [if_neg hrange, if_pos ⟨h.some, h.digit, by omega⟩]
        rfl
    · have hdefault : numeralThreshold value.bytes = defaultMaxHoldNs :=
        if_neg fun hcon => not_digits_of_decorated h hfront hcon.2.1
      rw [hdefault]
      by_cases hrange : ullongMax < decimalValue digits
      · rw [if_pos hrange]
        refine iff_of_true rfl ?_
        rintro ⟨blanks', sign', digits', h', -, hle, -⟩
        rw [← h'.parts.2.2.1, h.parts.2.2.1] at hle
        omega
      · rw [if_neg hrange]
        constructor
        · rintro heq ⟨blanks', sign', digits', h', -, -, hne⟩
          rw [← h'.parts.2.1, ← h'.parts.2.2.1, h.parts.2.1, h.parts.2.2.1] at hne
          exact hne heq
        · intro hplain
          by_contra hne
          exact hplain ⟨blanks, sign, digits, h, hfront, by omega, hne⟩
  · have hnone : ∀ blanks sign digits, ¬ Numeral value.bytes blanks sign digits :=
      fun blanks sign digits h => hnumeral ⟨blanks, sign, digits, h⟩
    rw [loadConfiguration_other hnone]
    refine iff_of_true ?_ ?_
    · unfold numeralThreshold
      rw [if_neg]
      intro hcon
      exact hnone _ _ _ (numeral_plain hcon.1 hcon.2.1)
    · rintro ⟨blanks, sign, digits, h, -⟩
      exact hnone _ _ _ h

/-- The text `-1`. -/
def minusOne : CString := ⟨[45, 49], by decide⟩

/-- A negative number is taken modulo `2 ^ 64`. -/
theorem threshold_minus_one :
    (initFrom (some minusOne)).maxHoldNs = 2 ^ 64 - 1 ∧
      (initFrom (some minusOne)).maxHoldNs ≠ numeralThreshold minusOne.bytes := by
  decide +kernel

/-- With the greatest threshold no holding time is ever reported. -/
theorem holdViolation_max {thread : VerifierThreadState} {event : MonitorEvent}
    (htime : event.timestampNs ≤ ullongMax) : holdViolation ullongMax thread event = none := by
  have hduration : ∀ held, ¬ heldDuration held event > ullongMax := by
    intro held hlong
    unfold heldDuration at hlong
    split at hlong
    · omega
    · omega
  unfold holdViolation
  split
  · rfl
  · split
    · rfl
    · split
      · rfl
      · rw [if_neg]
        exact fun hcon => hduration _ hcon.2

end RuntimeMonitor.HoldThreshold
