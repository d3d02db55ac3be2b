import Mathlib.Algebra.Group.Nat.Defs
import Mathlib.Data.List.GetD
import Mathlib.Data.List.TakeWhile

/-!
Decimal conversion of C strings. `strtoull` skips white space, takes an optional sign and
the longest run of digits, saturates with a range error and negates modulo `2 ^ 64`. A
string is its bytes before the terminator, in the "C" locale.
-/
namespace RuntimeMonitor.CNumerals

/-- The bytes of a string; the terminator behind them is the first zero. -/
structure CString where
  bytes : List UInt8
  terminated : 0 ∉ bytes

/-- `s[i]` for `i` up to the length: the terminator behind the bytes. -/
def CString.byteAt (s : CString) (i : ℕ) : UInt8 := s.bytes.getD i 0

def isSpace (c : UInt8) : Bool := c == 32 || (9 ≤ c && c ≤ 13)

def isDigit (c : UInt8) : Bool := 48 ≤ c && c ≤ 57

def isSign (c : UInt8) : Bool := c == 43 || c == 45

def ullongMax : ℕ := 2 ^ 64 - 1

/-- The number that a list of digits denotes. -/
def decimalValue (digits : List UInt8) : ℕ :=
  digits.foldl (fun value c => 10 * value + (c.toNat - 48)) 0

/-- What `strtoull` returns and stores: the offset of `*endptr` and whether it sets `errno`
to `ERANGE`. -/
structure Conversion where
  value : ℕ
  consumed : ℕ
  rangeError : Bool
  deriving DecidableEq, Repr

/-- The parts of the text in front of and behind its sign, its digits and the rest. -/
def blanksOf (text : List UInt8) : List UInt8 := text.takeWhile isSpace

def signOf (text : List UInt8) : List UInt8 := ((text.dropWhile isSpace).take 1).filter isSign

def unsignedOf (text : List UInt8) : List UInt8 :=
  (text.dropWhile isSpace).drop (signOf text).length

def digitsOf (text : List UInt8) : List UInt8 := (unsignedOf text).takeWhile isDigit

def restOf (text : List UInt8) : List UInt8 := (unsignedOf text).dropWhile isDigit

/-- The value of a signed numeral in `unsigned long long`. -/
def signedValue (sign : List UInt8) (value : ℕ) : ℕ :=
  if sign = [45] then (2 ^ 64 - value) % 2 ^ 64 else value

/-- `strtoull (text, &end, 10)`. -/
def strtoull (text : List UInt8) : Conversion :=
  if digitsOf text = [] then ⟨0, 0, false⟩
  else
    let consumed := (blanksOf text).length + (signOf text).length + (digitsOf text).length
    if ullongMax < decimalValue (digitsOf text) then ⟨ullongMax, consumed, true⟩
    else ⟨signedValue (signOf text) (decimalValue (digitsOf text)), consumed, false⟩

/-- A numeral with the blanks and the sign in front of it. -/
structure Numeral (text blanks sign digits : List UInt8) : Prop where
  split : text = blanks ++ sign ++ digits
  blank : ∀ c ∈ blanks, isSpace c = true
  signed : sign = [] ∨ sign = [43] ∨ sign = [45]
  digit : ∀ c ∈ digits, isDigit c = true
  some : digits ≠ []

variable {text blanks sign digits : List UInt8}

theorem digit_not_space {c : UInt8} (h : isDigit c = true) : isSpace c = false := by
  have hge : 48 ≤ c.toNat := by
    simp only [isDigit, Bool.and_eq_true, decide_eq_true_eq, UInt8.le_iff_toNat_le] at h
    exact h.1
  by_contra hspace
  simp only [isSpace, Bool.not_eq_false, Bool.or_eq_true, beq_iff_eq, Bool.and_eq_true,
    decide_eq_true_eq, UInt8.le_iff_toNat_le] at hspace
  rcases hspace with rfl | ⟨-, hle⟩
  · exact absurd hge (by decide)
  · have hbound : c.toNat ≤ 13 := hle
    omega

theorem digit_not_sign {c : UInt8} (h : isDigit c = true) : isSign c = false := by
  by_contra hsign
  rw [Bool.not_eq_false] at hsign
  have hcases : c = 43 ∨ c = 45 := by simpa [isSign] using hsign
  rcases hcases with rfl | rfl
  · exact absurd h (by decide)
  · exact absurd h (by decide)

/-- The text is its four parts. -/
theorem parts_append (text : List UInt8) :
    blanksOf text ++ signOf text ++ digitsOf text ++ restOf text = text := by
  have hsign : signOf text ++ unsignedOf text = text.dropWhile isSpace := by
    unfold unsignedOf signOf
    cases hbody : text.dropWhile isSpace with
    | nil => rfl
    | cons c body =>
      by_cases hc : isSign c = true
      · simp [hc]
      · simp [hc]
  unfold blanksOf digitsOf restOf
  rw [List.append_assoc, List.takeWhile_append_dropWhile, List.append_assoc, hsign,
    List.takeWhile_append_dropWhile]

theorem signOf_cases (text : List UInt8) :
    signOf text = [] ∨ signOf text = [43] ∨ signOf text = [45] := by
  unfold signOf
  cases text.dropWhile isSpace with
  | nil => exact Or.inl rfl
  | cons c body =>
    by_cases hc : isSign c = true
    · have hcases : c = 43 ∨ c = 45 := by simpa [isSign] using hc
      rcases hcases with rfl | rfl
      · exact Or.inr (Or.inl rfl)
      · exact Or.inr (Or.inr rfl)
    · left
      simp [hc]

/-- The text is a numeral if nothing follows its digits. -/
theorem numeral_of_rest (hrest : restOf text = []) (hdigits : digitsOf text ≠ []) :
    Numeral text (blanksOf text) (signOf text) (digitsOf text) := by
  constructor
  · have happend := parts_append text
    rw [hrest, List.append_nil] at happend
    exact happend.symm
  · intro c hc
    exact List.mem_takeWhile_imp hc
  · exact signOf_cases text
  · intro c hc
    exact List.mem_takeWhile_imp hc
  · exact hdigits

theorem takeWhile_blanks {p : UInt8 → Bool} {first second : List UInt8}
    (hfirst : ∀ c ∈ first, p c = true) (hsecond : ∀ c ∈ second.head?, p c = false) :
    (first ++ second).takeWhile p = first ∧ (first ++ second).dropWhile p = second := by
  have hstop : second.takeWhile p = [] ∧ second.dropWhile p = second := by
    cases second with
    | nil => exact ⟨rfl, rfl⟩
    | cons c rest =>
      have hc : p c = false := hsecond c rfl
      constructor
      · rw [List.takeWhile_cons_of_neg (by simp [hc])]
      · rw [List.dropWhile_cons_of_neg (by simp [hc])]
  constructor
  · rw [List.takeWhile_append_of_pos hfirst, hstop.1, List.append_nil]
  · rw [List.dropWhile_append_of_pos hfirst, hstop.2]

/-- A text is split into the parts of a numeral in one way. -/
theorem Numeral.parts (h : Numeral text blanks sign digits) :
    blanksOf text = blanks ∧ signOf text = sign ∧ digitsOf text = digits ∧ restOf text = [] := by
  have hhead : ∀ c ∈ (sign ++ digits).head?, isSpace c = false := by
    intro c hc
    rcases h.signed with rfl | rfl | rfl
    · exact digit_not_space (h.digit c (List.mem_of_mem_head? hc))
    · cases hc
      rfl
    · cases hc
      rfl
  have hskip := takeWhile_blanks h.blank hhead
  rw [← List.append_assoc, ← h.split] at hskip
  have hsign : signOf text = sign := by
    unfold signOf
    rw [hskip.2]
    rcases h.signed with rfl | rfl | rfl
    · rw [List.nil_append, List.filter_eq_nil_iff]
      intro c hc
      have hdigit := h.digit c (List.mem_of_mem_take hc)
      rw [digit_not_sign hdigit]
      simp
    · rfl
    · rfl
  have hunsigned : unsignedOf text = digits := by
    unfold unsignedOf
    rw [hskip.2, hsign, List.drop_left]
  refine ⟨hskip.1, hsign, ?_, ?_⟩
  · unfold digitsOf
    rw [hunsigned, List.takeWhile_eq_self_iff]
    exact h.digit
  · unfold restOf
    rw [hunsigned, List.dropWhile_eq_nil_iff]
    exact h.digit

/-- The conversion of a numeral reads the whole text. -/
theorem Numeral.strtoull_eq (h : Numeral text blanks sign digits) :
    strtoull text =
      if ullongMax < decimalValue digits then ⟨ullongMax, text.length, true⟩
      else ⟨signedValue sign (decimalValue digits), text.length, false⟩ := by
  obtain ⟨hblanks, hsign, hdigits, -⟩ := h.parts
  have hlength : blanks.length + sign.length + digits.length = text.length := by
    rw [h.split, List.length_append, List.length_append]
  unfold strtoull
  rw [hdigits, if_neg h.some, hblanks, hsign, hlength]

/-- A text that the conversion reads to its end is a numeral. -/
theorem numeral_of_consumed (h : (strtoull text).consumed = text.length) (htext : text ≠ []) :
    Numeral text (blanksOf text) (signOf text) (digitsOf text) := by
  have hlength := congrArg List.length (parts_append text)
  simp only [List.length_append] at hlength
  have hpositive := List.length_pos_iff.mpr htext
  unfold strtoull at h
  by_cases hdigits : digitsOf text = []
  · rw [if_pos hdigits] at h
    simp only at h
    omega
  · rw [if_neg hdigits] at h
    have hconsumed : (blanksOf text).length + (signOf text).length + (digitsOf text).length =
        text.length := by
      by_cases hrange : ullongMax < decimalValue (digitsOf text)
      · rwa [if_pos hrange] at h
      · rwa [if_neg hrange] at h
    have hrest : restOf text = [] := List.eq_nil_of_length_eq_zero (by omega)
    exact numeral_of_rest hrest hdigits

theorem consumed_le (text : List UInt8) : (strtoull text).consumed ≤ text.length := by
  have hlength := congrArg List.length (parts_append text)
  simp only [List.length_append] at hlength
  unfold strtoull
  by_cases hdigits : digitsOf text = []
  · rw [if_pos hdigits]
    exact Nat.zero_le _
  · rw [if_neg hdigits]
    by_cases hrange : ullongMax < decimalValue (digitsOf text)
    · rw [if_pos hrange]
      simp only
      omega
    · rw [if_neg hrange]
      simp only
      omega

/-- The byte behind what was read is the terminator only at the end of the text. -/
theorem CString.byteAt_eq_zero_iff (s : CString) {i : ℕ} (hi : i ≤ s.bytes.length) :
    s.byteAt i = 0 ↔ i = s.bytes.length := by
  unfold CString.byteAt
  constructor
  · intro hzero
    by_contra hne
    have hlt : i < s.bytes.length := by omega
    rw [List.getD_eq_getElem _ _ hlt] at hzero
    exact s.terminated (hzero ▸ List.getElem_mem hlt)
  · intro heq
    rw [heq, List.getD_eq_default _ _ le_rfl]

end RuntimeMonitor.CNumerals
